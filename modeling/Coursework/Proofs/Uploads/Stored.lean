import Coursework.Proofs.Uploads.Kept

/-!
# Uploads are stored all or not at all

Either each file of an upload is in a new directory under the root, under the name that is kept of
the client's, with nothing else beside it; or, whatever came in the way, nothing is left of them
(`UploadSet.store_all_or_nothing`).  Which of the two depends on each file by itself and on no two
being kept under one name (`UploadSet.Storable`).

A root need not be there yet.  The directories on the way to it stay when the files cannot be
stored, and nothing else does (`UploadSet.Cleared`).
-/

set_option autoImplicit false

namespace Coursework
namespace UploadSet

open Text (Path.IsName)
open Disk (Fits OnWay destination)

variable {d e fresh : Disk} {root directory : String} {names : List String} {files : List Upload}
  {set : UploadSet}

/-! ## What storing comes to -/

/-- Whether a file can be written under a name into a new directory under a root. -/
def Writable (d : Disk) (root name : String) (octets : List UInt8) : Prop :=
  ∃ directory fresh e, d.makeFresh root "grader-upload-" = .ok (directory, fresh) ∧
    fresh.write (Text.Path.join directory name) octets = .ok e

/-- What it takes to store files: there are some, the root is there or can be made, each has a last
component that without blanks at its ends still names something, what `keptName?` keeps of two is
never the same, and each can be written. -/
structure Storable (d : Disk) (root : String) (files : List Upload) : Prop where
  nonempty : files ≠ []
  rootMade : (d.makeDirectories root).1 = .ok ()
  named : ∀ u ∈ files, ∃ last, Text.Path.fileName? u.filename = some last ∧
    Text.trim last ≠ "" ∧ Text.trim last ≠ "." ∧ Text.trim last ≠ ".."
  distinct : (files.map fun u => keptName? u.filename).Nodup
  writable : ∀ u ∈ files, ∀ name, keptName? u.filename = some name →
    Writable (d.makeDirectories root).2 root name u.octets

/-- What stands at a place is as it was, but that it may be a directory which was made on the way to
a root. -/
def AsBefore (d : Disk) (root : String) (e : Disk) (place : List String) : Prop :=
  e.node? place = d.node? place ∨
    OnWay [] (Text.Path.components root) place ∧ d.node? place = none ∧
      e.node? place = some .directory

/-- Nothing is left but the way to the root.  Under the root nothing was made (`below`), unless its
own path comes through there. -/
structure Cleared (d : Disk) (root : String) (e : Disk) : Prop where
  asBefore : ∀ place, AsBefore d root e place
  below : ∀ place, destination root <+: place → ¬ OnWay [] (Text.Path.components root) place →
    e.node? place = d.node? place
  connected : e.Connected

/-- Files as they are stored in a new directory of this name, right below the root.  There is one
name for each file, in the order of the upload (`filenames`); the directory `holds` these files and
nothing else, and they are read as they came (`contents`); and when the set is `discarded`, it is as
if they had not been stored. -/
structure Stored (d : Disk) (root : String) (files : List Upload) (set : UploadSet) (name : String)
    (e : Disk) : Prop where
  filenames : set.filenames.map some = files.map fun u => keptName? u.filename
  distinct : set.filenames.Nodup
  kept : ∀ filename ∈ set.filenames, KeptName filename
  isName : Path.IsName name
  directory : set.directory = Text.Path.join (Text.Path.join "/" root) name
  free : d.node? (destination root ++ [name]) = none
  made : e.node? (destination root ++ [name]) = some .directory
  holds : ∀ rest ≠ [], ∀ n, e.node? (destination root ++ [name] ++ rest) = some n ↔
    ∃ f ∈ set.filenames.zip (files.map fun u => u.octets), rest = [f.1] ∧ n = .file f.2
  contents : set.contents e = files.map fun u => u.octets
  outside : ∀ place, ¬ destination root ++ [name] <+: place → AsBefore d root e place
  connected : e.Connected
  discarded : Cleared d root (set.discard e)

/-- Where the path of the root does not lead upwards, nothing at all was made under it. -/
theorem Cleared.below_of_notUp (h : Cleared d root e) (hup : ".." ∉ Text.Path.components root)
    {rest : List String} (hrest : rest ≠ []) :
    e.node? (destination root ++ rest) = d.node? (destination root ++ rest) := by
  refine h.below _ (List.prefix_append _ _) fun hway => hrest ?_
  rw [Disk.onWay_iff_of_notUp hup, destination, Disk.arrive_of_notUp hup, List.nil_append] at hway
  have hlength := hway.length_le
  rw [List.length_append] at hlength
  exact List.length_eq_zero_iff.1 (by omega)

/-! ## Nothing but the root -/

theorem asBefore_makeDirectories (d : Disk) (root : String) (place : List String) :
    AsBefore d root (d.makeDirectories root).2 place := by
  by_cases hsame : (d.makeDirectories root).2.node? place = d.node? place
  · exact .inl hsame
  · exact .inr ⟨Disk.onWay_of_makeDirectories hsame,
      (Disk.grows_makeDirectories d root place).resolve_left hsame⟩

theorem AsBefore.congr {e' : Disk} {place : List String} (h : AsBefore d root e place)
    (hsame : e'.node? place = e.node? place) : AsBefore d root e' place := by
  rwa [AsBefore, hsame]

theorem cleared_of_asBefore (h : ∀ place, AsBefore d root e place) (he : e.Connected) :
    Cleared d root e :=
  ⟨h, fun place _ hway => (h place).resolve_right fun hmade => hway hmade.1, he⟩

/-- When the directory that was `Made` for files is removed, nothing is left but the way to the
root. -/
theorem Made.cleared {name : String} (h : Made (d.makeDirectories root).2 root name directory fresh)
    (done : List (String × List UInt8)) :
    Cleared d root ((fresh.fill (destination root ++ [name]) done).removeTree directory) :=
  cleared_of_asBefore
    (fun place => (asBefore_makeDirectories d root place).congr (h.node?_removeTree done place))
    ((h.connected_fill done).removeTree directory)

/-! ## How storing goes -/

/-- Whether a file can be written depends on its name alone: it has to fit behind the path of the
new directory, and that behind the path of the root. -/
theorem writable_iff (hd : d.Connected) (hroot : (d.makeDirectories root).1 = .ok ())
    {filename : String} (hname : Path.IsName filename) (octets : List UInt8) :
    Writable (d.makeDirectories root).2 root filename octets ↔
      ∃ name, name = (d.makeDirectories root).2.freshName (destination root) "grader-upload-" ∧
        Fits (Text.Path.join "/" root) name ∧
        Fits (Text.Path.join (Text.Path.join "/" root) name) filename := by
  constructor
  · rintro ⟨directory, fresh, e, hfresh, hwrite⟩
    have hmade := made_of_makeFresh hd hroot hfresh
    have hfits := (hmade.exists_write_iff hname octets).1 ⟨e, hwrite⟩
    rw [hmade.directory] at hfits
    exact ⟨_, rfl, hmade.fits, hfits⟩
  · rintro ⟨_, rfl, hfits, hfile⟩
    have hfresh := (Disk.makeFresh_eq_ok_iff (hd.makeDirectories root)
      (Disk.walk_of_makeDirectories hroot) isName_stem noNul_stem).2 ⟨hfits, rfl, rfl⟩
    obtain ⟨e, he⟩ := ((made_of_makeFresh hd hroot hfresh).exists_write_iff hname octets).2 hfile
    exact ⟨_, _, e, hfresh, he⟩

/-- When files are not stored, the disk is as it was, or as making the root left it, or a directory
that was made for them was removed again. -/
theorem disk_of_store_eq_error {f : Fault} (h : store d root files = (.error f, e)) :
    e = d ∨ e = (d.makeDirectories root).2 ∨ (d.makeDirectories root).1 = .ok () ∧
      ∃ directory fresh,
        (d.makeDirectories root).2.makeFresh root "grader-upload-" = .ok (directory, fresh) ∧
        e = (writeAll directory fresh [] files).2.removeTree directory := by
  rw [store] at h
  split at h
  · cases h
    exact .inl rfl
  · right
    split at h
    · next made hmade =>
      cases h
      rw [hmade]
      exact .inl rfl
    · next made hmade =>
      rw [hmade]
      split at h
      · cases h
        exact .inl rfl
      · next directory fresh hfresh =>
        split at h
        · next e' hall =>
          cases h
          exact .inr ⟨rfl, directory, fresh, hfresh, by rw [hall]⟩
        · cases h

/-! ## All or nothing -/

theorem exists_of_kept {kept : List String}
    (h : kept.map some = files.map fun u => keptName? u.filename) :
    (∀ u ∈ files, ∃ filename ∈ kept, keptName? u.filename = some filename) ∧
      ∀ filename ∈ kept, ∃ u ∈ files, keptName? u.filename = some filename := by
  constructor
  · intro u hu
    have hin : keptName? u.filename ∈ kept.map some := h ▸ List.mem_map_of_mem hu
    obtain ⟨filename, hfilename, heq⟩ := List.mem_map.1 hin
    exact ⟨filename, hfilename, heq.symm⟩
  · intro filename hfilename
    have hin : some filename ∈ files.map fun u => keptName? u.filename :=
      h ▸ List.mem_map_of_mem hfilename
    exact List.mem_map.1 hin

/-- What is written is fit to be written alone, too. -/
theorem storable_of_store (hd : d.Connected) (h : store d root files = (.ok set, e)) :
    Storable d root files := by
  obtain ⟨directory, names⟩ := set
  obtain ⟨hfiles, hroot, fresh, hfresh, hall⟩ := store_eq_ok_iff.1 h
  have hmade := made_of_makeFresh hd hroot hfresh
  obtain ⟨kept, -, hkept, ⟨hnodup, hproper⟩, -⟩ := (writeAll_eq_ok_iff hmade.filling).1 hall
  obtain ⟨hnamed, -⟩ := exists_of_kept hkept
  refine ⟨hfiles, hroot, fun u hu => ?_, ?_, fun u hu filename hfilename => ?_⟩
  · obtain ⟨filename, -, hfilename⟩ := hnamed u hu
    obtain ⟨last, hlast, rfl, hlast'⟩ := keptName?_eq_some_iff.1 hfilename
    exact ⟨last, hlast, hlast'⟩
  · rw [← hkept]
    exact hnodup.map fun _ _ => Option.some.inj
  · obtain ⟨filename', hin, hfilename'⟩ := hnamed u hu
    cases hfilename.symm.trans hfilename'
    obtain ⟨e', he⟩ := (hmade.exists_write_iff (keptName_of_eq_some hfilename).isName u.octets).2
      (hproper filename hin).2
    exact ⟨directory, fresh, e', hfresh, he⟩

/-- What is fit to be written alone is written with the others, since their names are not the
same. -/
theorem store_of_storable (hd : d.Connected) (h : Storable d root files) :
    ∃ set, (store d root files).1 = .ok set := by
  have hnamed : ∀ u ∈ files, ∃ filename, keptName? u.filename = some filename := fun u hu => by
    obtain ⟨last, hlast, hproper⟩ := h.named u hu
    exact ⟨_, keptName?_eq_some_iff.2 ⟨last, hlast, rfl, hproper⟩⟩
  -- any file will do to see that the directory can be made
  obtain ⟨u, hu⟩ := List.exists_mem_of_ne_nil files h.nonempty
  obtain ⟨filename, hfilename⟩ := hnamed u hu
  obtain ⟨directory, fresh, -, hfresh, -⟩ := h.writable u hu filename hfilename
  have hmade := made_of_makeFresh hd h.rootMade hfresh
  have hkept : (files.map fun u => (keptName? u.filename).getD "").map some =
      files.map fun u => keptName? u.filename := by
    rw [List.map_map]
    refine List.map_congr_left fun u hu => ?_
    obtain ⟨filename, hfilename⟩ := hnamed u hu
    rw [Function.comp_apply, hfilename, Option.getD_some]
  have hfits : ∀ filename ∈ files.map (fun u => (keptName? u.filename).getD ""),
      filename ∉ [] ∧ Fits directory filename := fun filename hin => by
    obtain ⟨u, hu, hfilename⟩ := (exists_of_kept hkept).2 filename hin
    obtain ⟨directory', fresh', e, hfresh', hwrite⟩ := h.writable u hu filename hfilename
    cases hfresh.symm.trans hfresh'
    exact ⟨List.not_mem_nil, (hmade.exists_write_iff (keptName_of_eq_some hfilename).isName _).1
      ⟨e, hwrite⟩⟩
  have hall := (writeAll_eq_ok_iff hmade.filling).2
    ⟨_, rfl, hkept, ⟨List.Nodup.of_map some (hkept ▸ h.distinct), hfits⟩, rfl⟩
  have hstore := store_eq_ok_iff.2 ⟨h.nonempty, h.rootMade, fresh, hfresh, hall⟩
  exact ⟨_, congrArg Prod.fst hstore⟩

theorem filterMap_of_zip {α β : Type} {f : α → Option β} {xs : List α} {ys : List β}
    (hlength : xs.length = ys.length) (h : ∀ p ∈ xs.zip ys, f p.1 = some p.2) :
    xs.filterMap f = ys := by
  induction xs generalizing ys with
  | nil => exact (List.length_eq_zero_iff.1 hlength.symm).symm
  | cons x xs ih =>
    rcases ys with _ | ⟨y, ys⟩
    · cases hlength
    · rw [List.zip_cons_cons] at h
      rw [List.filterMap_cons_some (h (x, y) List.mem_cons_self),
        ih (Nat.succ.inj hlength) fun p hp => h p (List.mem_cons_of_mem _ hp)]

theorem stored_of_store (hd : d.Connected) (h : store d root files = (.ok set, e)) :
    ∃ name, Stored d root files set name e := by
  obtain ⟨directory, names⟩ := set
  obtain ⟨-, hroot, fresh, hfresh, hall⟩ := store_eq_ok_iff.1 h
  have hmade := made_of_makeFresh hd hroot hfresh
  obtain ⟨_, rfl, hkept, ⟨hnodup, hproper⟩, rfl⟩ := (writeAll_eq_ok_iff hmade.filling).1 hall
  have hlength : names.length = (files.map fun u => u.octets).length := by
    simpa using congrArg List.length hkept
  have hfirst : ((names.zip (files.map fun u => u.octets)).map Prod.fst) = names :=
    List.map_fst_zip (Nat.le_of_eq hlength)
  have hname : ∀ filename ∈ names, KeptName filename := fun filename hin => by
    obtain ⟨u, -, hu⟩ := (exists_of_kept hkept).2 filename hin
    exact keptName_of_eq_some hu
  refine ⟨_, hkept, hnodup, hname, hmade.isName, hmade.directory, ?_, hmade.node?_fill_self _,
    fun rest hrest n => ?_, ?_, fun place hplace => ?_, hmade.connected_fill _, hmade.cleared _⟩
  · -- nothing that was there is gone when the root is made
    obtain hsame | ⟨hnone, -⟩ := Disk.grows_makeDirectories d root (destination root ++ [_])
    · rw [← hsame, hmade.free]
    · exact hnone
  · exact Disk.node?_fill_below hmade.node?_fresh_below (hfirst.symm ▸ hnodup) hrest
  · refine filterMap_of_zip hlength fun f hf => ?_
    have hin : f.1 ∈ names := (List.of_mem_zip hf).1
    have hread := Disk.read_join (hname f.1 hin).isName (hproper f.1 hin).2 (hmade.walk_fill _)
      (Disk.node?_fill_of_mem (hfirst.symm ▸ hnodup) hf)
    rw [path, hread]
    rfl
  · exact (asBefore_makeDirectories d root place).congr (hmade.node?_fill_of_not_prefix _ hplace)

theorem cleared_of_store (hd : d.Connected) {f : Fault} (h : store d root files = (.error f, e)) :
    Cleared d root e := by
  obtain rfl | rfl | ⟨hroot, directory, fresh, hfresh, rfl⟩ := disk_of_store_eq_error h
  · exact cleared_of_asBefore (fun _ => .inl rfl) hd
  · exact cleared_of_asBefore (asBefore_makeDirectories d root) (hd.makeDirectories root)
  · have hmade := made_of_makeFresh hd hroot hfresh
    obtain ⟨done, hdone⟩ := exists_fill_of_writeAll files hmade.filling
    rw [hdone]
    exact hmade.cleared done

/-- **Uploads are stored all or not at all**, on a disk where everything stands in a directory: it
is known which are stored (`Storable`), how they are (`Stored`), and that nothing is left of the
others (`Cleared`). -/
theorem store_all_or_nothing {d : Disk} (hd : d.Connected) (root : String) (files : List Upload) :
    ((∃ set, (store d root files).1 = .ok set) ↔ Storable d root files) ∧
      (∀ set e, store d root files = (.ok set, e) → ∃ name, Stored d root files set name e) ∧
      ∀ f e, store d root files = (.error f, e) → Cleared d root e := by
  refine ⟨⟨?_, store_of_storable hd⟩, fun _ _ => stored_of_store hd, fun _ _ => cleared_of_store hd⟩
  rintro ⟨set, hset⟩
  exact storable_of_store hd (Prod.ext hset rfl)

def twoFiles : List Upload :=
  [⟨"notes/ a.txt", [104, 105]⟩, ⟨"b", []⟩]

/-- Two files are stored under a root that is made for them, one with the path that it had at the
client's. -/
theorem store_all_or_nothing_two : Disk.empty.Connected ∧ Storable Disk.empty "up" twoFiles ∧
    ∃ name, Stored Disk.empty "up" twoFiles ⟨"/up/grader-upload-000000", ["a.txt", "b"]⟩ name
      (store Disk.empty "up" twoFiles).2 := by
  obtain ⟨hstorable, hstored, -⟩ := store_all_or_nothing Disk.connected_empty "up" twoFiles
  have hset : (store Disk.empty "up" twoFiles).1 =
      .ok ⟨"/up/grader-upload-000000", ["a.txt", "b"]⟩ := rfl
  exact ⟨Disk.connected_empty, hstorable.1 ⟨_, hset⟩, hstored _ _ (Prod.ext hset rfl)⟩

end UploadSet
end Coursework
