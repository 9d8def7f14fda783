import Coursework.Proofs.Uploads.Stored

/-!
# Several uploads at once

One request can have several fields for files, and each has a directory of its own.  When the
request fails they are all removed, one after the other, while the others are still there.

`UploadSet.Laden` is what is known of a disk with some of them: seen from the root as it was made
for the first, each path leads to a place where nothing was, and elsewhere all is as it was.  One
more upload keeps it (`UploadSet.Laden.push`), and removing the first leaves it for the others
(`UploadSet.Laden.discard`), so that in the end nothing of them is left
(`UploadSet.Laden.discardAll`).
-/

set_option autoImplicit false

namespace Coursework
namespace UploadSet

open Disk (destination)

variable {d e f ground : Disk} {root : String} {set : UploadSet} {sets : List UploadSet}
  {place : List String}

/-! ## One change after the other -/

theorem AsBefore.trans (h : AsBefore d root e place) (h' : AsBefore e root f place) :
    AsBefore d root f place := by
  obtain hsame | ⟨hway, hnone, hmade⟩ := h'
  · exact h.congr hsame
  · obtain hsame | ⟨-, -, hthere⟩ := h
    · exact .inr ⟨hway, hsame ▸ hnone, hmade⟩
    · rw [hnone] at hthere
      cases hthere

theorem AsBefore.none_of (h : AsBefore d root e place) (hnone : e.node? place = none) :
    d.node? place = none := by
  obtain hsame | ⟨-, hbefore, -⟩ := h
  · rwa [← hsame]
  · exact hbefore

theorem keeps_of_asBefore (h : ∀ place, AsBefore d root e place) : d.Keeps e := by
  intro place hplace
  obtain hsame | ⟨-, -, hmade⟩ := h place
  · rwa [hsame]
  · exact hmade

/-! ## Disks with uploads -/

/-- A disk with the directories of these uploads, made under a root on a disk `ground` on which it
stands.  Where each of their paths leads, nothing was (`anchored`), and `outside` of them nothing
was made but what leads to the root. -/
structure Laden (ground : Disk) (root : String) (sets : List UploadSet) (e : Disk) : Prop where
  grounded : ground.Connected
  walk : ground.walk [] (Text.Path.steps (Text.Path.join "/" root)) = .ok (destination root)
  keeps : ground.Keeps e
  anchored : ∀ set ∈ sets, ∃ spot, ground.locate set.directory = .ok spot ∧ spot.place ≠ [] ∧
    ground.node? spot.place = none
  outside : ∀ place, (∀ set ∈ sets, ∀ spot, ground.locate set.directory = .ok spot →
    ¬ spot.place <+: place) → AsBefore ground root e place
  connected : e.Connected

theorem laden_nil (h : ground.Connected)
    (hwalk : ground.walk [] (Text.Path.steps (Text.Path.join "/" root)) = .ok (destination root)) :
    Laden ground root [] ground :=
  ⟨h, hwalk, fun _ => id, by simp, fun _ _ => .inl rfl, h⟩

namespace Laden

/-- What leads to the root may be made again on a disk that is `Laden`. -/
theorem asBefore (h : Laden ground root sets e) (hsame : ∀ place, AsBefore e root f place)
    (hf : f.Connected) : Laden ground root sets f :=
  { h with
    keeps := h.keeps.trans (keeps_of_asBefore hsame)
    outside := fun place hplace => (h.outside place hplace).trans (hsame place)
    connected := hf }

theorem ground_none (h : Laden ground root sets e) (hnone : e.node? place = none) :
    ground.node? place = none := by
  by_cases hin : ∀ set ∈ sets, ∀ spot, ground.locate set.directory = .ok spot →
      ¬ spot.place <+: place
  · exact (h.outside place hin).none_of hnone
  · push Not at hin
    obtain ⟨set, hset, spot, hspot, hplace⟩ := hin
    obtain ⟨spot', hspot', -, hfree⟩ := h.anchored set hset
    cases hspot.symm.trans hspot'
    exact h.grounded.none_of_prefix hfree hplace

theorem push {name directory : String} {fresh : Disk} (h : Laden ground root sets e)
    (hmade : Made e root name directory fresh) (filenames : List String)
    (done : List (String × List UInt8)) :
    Laden ground root (sets ++ [⟨directory, filenames⟩])
      (fresh.fill (destination root ++ [name]) done) := by
  have hlocate : ground.locate directory = .ok ⟨destination root ++ [name], true, false⟩ := by
    rw [hmade.directory]
    exact (Disk.locate_join_eq_ok_iff hmade.isName h.walk).2 ⟨hmade.fits, rfl⟩
  refine ⟨h.grounded, h.walk, h.keeps.trans (hmade.keeps_fill done), fun set hset => ?_,
    fun place hplace => ?_, hmade.connected_fill done⟩
  · obtain hset | hset := List.mem_append.1 hset
    · exact h.anchored set hset
    · rw [List.mem_singleton.1 hset]
      exact ⟨_, hlocate, by simp, h.ground_none hmade.free⟩
  · have hnew := hplace _ (List.mem_append_right sets (List.mem_singleton_self _)) _ hlocate
    exact (h.outside place fun set hset => hplace set (List.mem_append_left _ hset)).congr
      (hmade.node?_fill_of_not_prefix done hnew)

theorem store (h : Laden ground root sets e) {files : List Upload}
    (hstore : store e root files = (.ok set, f)) : Laden ground root (sets ++ [set]) f := by
  obtain ⟨directory, names⟩ := set
  obtain ⟨-, hroot, fresh, hfresh, hall⟩ := store_eq_ok_iff.1 hstore
  have hmade := made_of_makeFresh h.connected hroot hfresh
  obtain ⟨done, hdone⟩ := exists_fill_of_writeAll files hmade.filling
  rw [hall] at hdone
  subst hdone
  exact (h.asBefore (asBefore_makeDirectories e root)
    (h.connected.makeDirectories root)).push hmade names done

/-- The first upload is removed, and the others are still there. -/
theorem discard (h : Laden ground root (set :: sets) e) :
    Laden ground root sets (set.discard e) := by
  obtain ⟨spot, hspot, hroot, hfree⟩ := h.anchored set List.mem_cons_self
  have hnode := Disk.node?_removeTree (h.keeps.locate hspot) hroot
  refine ⟨h.grounded, h.walk, fun place hplace => ?_,
    fun other hother => h.anchored other (List.mem_cons_of_mem set hother),
    fun place hplace => ?_, h.connected.removeTree set.directory⟩
  · -- nothing was below the place of the directory, so no directory that was there is lost
    have hout : ¬ spot.place <+: place := fun hin => by
      rw [h.grounded.none_of_prefix hfree hin] at hplace
      cases hplace
    rw [UploadSet.discard, hnode, if_neg hout]
    exact h.keeps place hplace
  · by_cases hin : spot.place <+: place
    · refine .inl ?_
      rw [UploadSet.discard, hnode, if_pos hin, h.grounded.none_of_prefix hfree hin]
    · refine (h.outside place fun other hother spot' hspot' => ?_).congr
        (by rw [UploadSet.discard, hnode, if_neg hin])
      obtain rfl | hother := List.mem_cons.1 hother
      · cases hspot.symm.trans hspot'
        exact hin
      · exact hplace other hother spot' hspot'

/-- **When all are removed nothing is left of them.** -/
theorem discardAll (h : Laden ground root sets e) :
    (∀ place, AsBefore ground root (discardAll sets e) place) ∧ (discardAll sets e).Connected := by
  induction sets generalizing e with
  | nil => exact ⟨fun place => h.outside place (by simp), h.connected⟩
  | cons set rest ih => exact ih h.discard

end Laden

/-! ## The uploads of one request -/

/-- A disk while a request is filled: as it was, or with uploads under the root that was made for
the first of them (`Laden`). -/
def Held (d : Disk) (root : String) (sets : List UploadSet) (e : Disk) : Prop :=
  sets = [] ∧ e = d ∨
    ∃ ground, (∀ place, AsBefore d root ground place) ∧ Laden ground root sets e

namespace Held

theorem connected (h : Held d root sets e) (hd : d.Connected) : e.Connected := by
  obtain ⟨-, rfl⟩ | ⟨_, -, hladen⟩ := h
  · exact hd
  · exact hladen.connected

theorem store (h : Held d root sets e) (hd : d.Connected) {files : List Upload}
    (hstore : store e root files = (.ok set, f)) : Held d root (sets ++ [set]) f := by
  obtain ⟨rfl, rfl⟩ | ⟨ground, hground, hladen⟩ := h
  · obtain ⟨directory, names⟩ := set
    obtain ⟨-, hroot, fresh, hfresh, hall⟩ := store_eq_ok_iff.1 hstore
    have hmade := made_of_makeFresh hd hroot hfresh
    obtain ⟨done, hdone⟩ := exists_fill_of_writeAll files hmade.filling
    rw [hall] at hdone
    subst hdone
    exact .inr ⟨_, asBefore_makeDirectories e root,
      (laden_nil hmade.connected hmade.walk).push hmade names done⟩
  · exact .inr ⟨ground, hground, hladen.store hstore⟩

theorem cleared (h : Held d root sets e) (hd : d.Connected) :
    Cleared d root (discardAll sets e) := by
  obtain ⟨rfl, rfl⟩ | ⟨ground, hground, hladen⟩ := h
  · exact cleared_of_asBefore (fun _ => .inl rfl) hd
  · obtain ⟨hsame, hconnected⟩ := hladen.discardAll
    exact cleared_of_asBefore (fun place => (hground place).trans (hsame place)) hconnected

/-- An upload that is not stored leaves nothing beside the others, which are discarded with it. -/
theorem cleared_of_store (h : Held d root sets e) (hd : d.Connected) {files : List Upload}
    {fault : Fault} (hstore : UploadSet.store e root files = (.error fault, f)) :
    Cleared d root (discardAll sets f) := by
  have hclear := UploadSet.cleared_of_store (h.connected hd) hstore
  obtain ⟨rfl, rfl⟩ | ⟨ground, hground, hladen⟩ := h
  · exact hclear
  · exact Held.cleared (.inr ⟨ground, hground, hladen.asBefore hclear.asBefore hclear.connected⟩) hd

end Held

end UploadSet
end Coursework
