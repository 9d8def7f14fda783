import Coursework.Proofs.Text.Pieces
import Coursework.Proofs.Uploads

/-!
# What is kept of an upload

The names of uploaded files are the client's, and so could be anything.  What is kept of one is a
single component that leads neither here nor upwards (`UploadSet.KeptName`), so that a path to it
leads right below the directory of the upload.

All files are written exactly if a name is kept of each that fits, and no name is kept twice
(`UploadSet.writeAll_eq_ok_iff`).  The directory was made for them (`UploadSet.Made`), so nothing
else is in it, and when it is removed all is as it was before (`UploadSet.Made.node?_removeTree`).
-/

set_option autoImplicit false

namespace Coursework
namespace UploadSet

open Text (Path.IsName)
open Disk (Fits OnWay destination)

/-! ## Names that are kept -/

theorem keptName?_eq_some_iff {filename name : String} :
    keptName? filename = some name ↔ ∃ last, Text.Path.fileName? filename = some last ∧
      Text.trim last = name ∧ name ≠ "" ∧ name ≠ "." ∧ name ≠ ".." := by
  rw [keptName?]
  rcases Text.Path.fileName? filename with _ | last
  · simp
  · dsimp only
    constructor
    · intro h
      split at h
      · cases h
      · next hname =>
        cases h
        rw [not_or, not_or] at hname
        exact ⟨last, rfl, rfl, hname⟩
    · rintro ⟨_, ⟨⟩, rfl, hname⟩
      rw [if_neg (by rw [not_or, not_or]; exact hname)]

theorem fileName?_of_isName {name : String} (h : Path.IsName name) :
    Text.Path.fileName? name = some name := by
  have hcomponents : Text.Path.components name = [name] := by
    rw [Text.Path.components, Text.Path.steps_of_isName h]
    simp [h.notHere]
  rw [Text.Path.fileName?, hcomponents]
  exact if_neg h.notUp

/-- A name that a file is kept under: one component, without blanks at its ends, and one that
`keptName?` would keep as it is. -/
structure KeptName (name : String) : Prop where
  isName : Path.IsName name
  trimmed : Text.trim name = name
  fixed : keptName? name = some name

theorem keptName_of_eq_some {filename name : String} (h : keptName? filename = some name) :
    KeptName name := by
  obtain ⟨last, hlast, rfl, hproper⟩ := keptName?_eq_some_iff.1 h
  have hstep : last ∈ Text.Path.steps filename := by
    rw [Text.Path.fileName?] at hlast
    split at hlast
    · next s hs =>
      split at hlast
      · cases hlast
      · cases hlast
        exact (List.mem_filter.1 (List.mem_of_getLast? hs)).1
    · cases hlast
  have hname : Path.IsName (Text.trim last) :=
    ⟨fun c hc => Text.Path.noSlash_of_mem_steps hstep c (Text.mem_of_mem_trim hc), hproper.1,
      hproper.2.1, hproper.2.2⟩
  have htrim := Text.trim_trim last
  exact ⟨hname, htrim, keptName?_eq_some_iff.2 ⟨_, fileName?_of_isName hname, htrim, hproper⟩⟩

/-! ## Writing the files -/

variable {d e : Disk} {directory root : String} {place written names : List String}
  {files : List Upload}

/-- The directory of an upload while it is filled: nothing is in it but under the names that were
written. -/
structure Filling (d : Disk) (directory : String) (place written : List String) : Prop where
  walk : d.walk [] (Text.Path.steps directory) = .ok place
  free : ∀ name, name ∉ written → d.node? (place ++ [name]) = none

theorem Filling.put (h : Filling d directory place written) {name : String} (hname : name ∉ written)
    (octets : List UInt8) :
    Filling (d.put (place ++ [name]) (.file octets)) directory place (written ++ [name]) := by
  have hold := Disk.ne_directory_of_none (h.free name hname)
  refine ⟨(Disk.keeps_put hold _).walk h.walk, fun other hother => ?_⟩
  rw [List.mem_append, not_or, List.mem_singleton] at hother
  rw [Disk.node?_put_of_ne (by simpa using hother.2)]
  exact h.free other hother.1

/-- Under a new name a file is written exactly if the name fits (`Disk.Fits`). -/
theorem Filling.write_eq_ok_iff (h : Filling d directory place written) {name : String}
    (hname : Path.IsName name) (hnew : name ∉ written) (octets : List UInt8) (e : Disk) :
    d.write (Text.Path.join directory name) octets = .ok e ↔
      Fits directory name ∧ e = d.put (place ++ [name]) (.file octets) :=
  Disk.write_join_eq_ok_iff hname h.walk (h.free name hnew)

/-- One file is written exactly if a name is kept that is new and fits; then the others are. -/
theorem writeAll_cons_eq_ok_iff (h : Filling d directory place written) {u : Upload} :
    writeAll directory d written (u :: files) = (.ok names, e) ↔
      ∃ name, keptName? u.filename = some name ∧ name ∉ written ∧ Fits directory name ∧
        writeAll directory (d.put (place ++ [name]) (.file u.octets)) (written ++ [name]) files =
          (.ok names, e) := by
  rw [writeAll]
  rcases hkept : keptName? u.filename with _ | name
  · simp
  · have hname := (keptName_of_eq_some hkept).isName
    by_cases hold : name ∈ written
    · simp [hold]
    · have hwrite := h.write_eq_ok_iff hname hold u.octets
      simp only [if_neg hold]
      constructor
      · intro hall
        split at hall
        · cases hall
        · next e' he =>
          obtain ⟨hfits, rfl⟩ := (hwrite e').1 he
          exact ⟨name, rfl, hold, hfits, hall⟩
      · rintro ⟨_, ⟨⟩, -, hfits, hall⟩
        rw [(hwrite _).2 ⟨hfits, rfl⟩]
        exact hall

/-- All files are written exactly if a name is kept of each, all of them are new and fit, and no two
are the same. -/
theorem writeAll_eq_ok_iff (h : Filling d directory place written) :
    writeAll directory d written files = (.ok names, e) ↔ ∃ kept, names = written ++ kept ∧
      kept.map some = (files.map fun u => keptName? u.filename) ∧
      (kept.Nodup ∧ ∀ name ∈ kept, name ∉ written ∧ Fits directory name) ∧
      e = d.fill place (kept.zip (files.map fun u => u.octets)) := by
  induction files generalizing d written with
  | nil =>
    rw [writeAll]
    constructor
    · rintro ⟨⟩
      exact ⟨[], (List.append_nil _).symm, rfl, ⟨List.nodup_nil, by simp⟩, rfl⟩
    · rintro ⟨kept, rfl, hkept, -, rfl⟩
      rw [List.map_eq_nil_iff.1 hkept, List.append_nil]
      rfl
  | cons u rest ih =>
    rw [writeAll_cons_eq_ok_iff h]
    constructor
    · rintro ⟨name, hname, hnew, hfits, hall⟩
      obtain ⟨kept, rfl, hkept, ⟨hnodup, hproper⟩, rfl⟩ := (ih (h.put hnew u.octets)).1 hall
      refine ⟨name :: kept, by simp, by rw [List.map_cons, List.map_cons, hkept, hname],
        ⟨List.nodup_cons.2 ⟨fun hin => ?_, hnodup⟩, ?_⟩, rfl⟩
      · exact (hproper name hin).1 (by simp)
      · intro other hother
        obtain rfl | hother := List.mem_cons.1 hother
        · exact ⟨hnew, hfits⟩
        · exact ⟨fun hin => (hproper other hother).1 (List.mem_append_left _ hin),
            (hproper other hother).2⟩
    · rintro ⟨kept, rfl, hkept, ⟨hnodup, hproper⟩, rfl⟩
      rcases kept with _ | ⟨name, kept⟩
      · cases hkept
      · rw [List.map_cons, List.map_cons, List.cons.injEq] at hkept
        rw [List.nodup_cons] at hnodup
        obtain ⟨hnew, hfits⟩ := hproper name List.mem_cons_self
        refine ⟨name, hkept.1.symm, hnew, hfits, (ih (h.put hnew u.octets)).2
          ⟨kept, by simp, hkept.2, ⟨hnodup.2, fun other hother => ⟨?_, ?_⟩⟩, rfl⟩⟩
        · rw [List.mem_append, not_or, List.mem_singleton]
          refine ⟨(hproper other (List.mem_cons_of_mem name hother)).1, ?_⟩
          rintro rfl
          exact hnodup.1 hother
        · exact (hproper other (List.mem_cons_of_mem name hother)).2

/-- However far `writeAll` got, files were put into the directory and nothing else happened. -/
theorem exists_fill_of_writeAll (files : List Upload) (h : Filling d directory place written) :
    ∃ done, (writeAll directory d written files).2 = d.fill place done := by
  induction files generalizing d written with
  | nil => exact ⟨[], rfl⟩
  | cons u rest ih =>
    rw [writeAll]
    split
    · exact ⟨[], rfl⟩
    · next name hkept =>
      split
      · exact ⟨[], rfl⟩
      · next hnew =>
        have hname := (keptName_of_eq_some hkept).isName
        dsimp only
        split
        · exact ⟨[], rfl⟩
        · next e he =>
          obtain ⟨-, rfl⟩ := (h.write_eq_ok_iff hname hnew u.octets e).1 he
          obtain ⟨done, hdone⟩ := ih (h.put hnew u.octets)
          exact ⟨(name, u.octets) :: done, hdone⟩

/-! ## The directory -/

theorem noNul_stem : ¬ "grader-upload-".toList.contains '\x00' = true := by decide

/-- A directory that was made for an upload under a root, where nothing was before (`free`). -/
structure Made (d : Disk) (root name directory : String) (fresh : Disk) : Prop where
  isName : Path.IsName name
  directory : directory = Text.Path.join (Text.Path.join "/" root) name
  fits : Fits (Text.Path.join "/" root) name
  free : d.node? (destination root ++ [name]) = none
  fresh : fresh = d.put (destination root ++ [name]) .directory
  connected : d.Connected
  walk : d.walk [] (Text.Path.steps (Text.Path.join "/" root)) = .ok (destination root)

variable {name : String} {fresh : Disk}

theorem made_of_makeFresh (hd : d.Connected) (hroot : (d.makeDirectories root).1 = .ok ())
    (h : (d.makeDirectories root).2.makeFresh root "grader-upload-" = .ok (directory, fresh)) :
    Made (d.makeDirectories root).2 root
      ((d.makeDirectories root).2.freshName (destination root) "grader-upload-") directory
      fresh := by
  have hmade := hd.makeDirectories root
  have hwalk := Disk.walk_of_makeDirectories hroot
  obtain ⟨hfits, rfl, rfl⟩ := (Disk.makeFresh_eq_ok_iff hmade hwalk isName_stem noNul_stem).1 h
  exact ⟨Disk.isName_freshName _ _ isName_stem, rfl, hfits, Disk.node?_freshName _ _ _, rfl, hmade,
    hwalk⟩

namespace Made

theorem none_below (h : Made d root name directory fresh) {rest : List String} :
    d.node? (destination root ++ [name] ++ rest) = none :=
  h.connected.none_of_prefix h.free (List.prefix_append _ rest)

theorem node?_fresh (h : Made d root name directory fresh) :
    fresh.node? (destination root ++ [name]) = some .directory := by
  rw [h.fresh, Disk.node?_put_self (by simp)]

theorem node?_fresh_below (h : Made d root name directory fresh) :
    ∀ rest ≠ [], fresh.node? (destination root ++ [name] ++ rest) = none := by
  intro rest hrest
  rw [h.fresh, Disk.node?_put_of_ne (by simpa using hrest), h.none_below]

theorem node?_fresh_of_not_prefix (h : Made d root name directory fresh) {place : List String}
    (hplace : ¬ destination root ++ [name] <+: place) : fresh.node? place = d.node? place := by
  rw [h.fresh, Disk.node?_put_of_ne]
  rintro rfl
  exact hplace (List.prefix_refl _)

theorem connected_fresh (h : Made d root name directory fresh) : fresh.Connected := by
  rw [h.fresh]
  exact h.connected.put (h.connected.node?_of_walk (Disk.node?_root d) h.walk)
    (Disk.ne_directory_of_none h.free) _

theorem connected_fill (h : Made d root name directory fresh) (done : List (String × List UInt8)) :
    (fresh.fill (destination root ++ [name]) done).Connected :=
  h.connected_fresh.fill h.node?_fresh fun f _ =>
    Disk.ne_directory_of_none (h.node?_fresh_below [f.1] (by simp))

theorem node?_fill_of_not_prefix (h : Made d root name directory fresh)
    (done : List (String × List UInt8)) {place : List String}
    (hplace : ¬ destination root ++ [name] <+: place) :
    (fresh.fill (destination root ++ [name]) done).node? place = d.node? place := by
  rw [Disk.node?_fill_of_ne, h.node?_fresh_of_not_prefix hplace]
  rintro f - rfl
  exact hplace (List.prefix_append _ _)

theorem node?_fill_self (h : Made d root name directory fresh)
    (done : List (String × List UInt8)) :
    (fresh.fill (destination root ++ [name]) done).node? (destination root ++ [name]) =
      some .directory := by
  rw [Disk.node?_fill_of_ne (fun f _ => by simp), h.node?_fresh]

theorem keeps_fill (h : Made d root name directory fresh) (done : List (String × List UInt8)) :
    d.Keeps (fresh.fill (destination root ++ [name]) done) := by
  intro place hplace
  rw [h.node?_fill_of_not_prefix done, hplace]
  rintro ⟨rest, rfl⟩
  rw [h.none_below] at hplace
  cases hplace

theorem walk_fill (h : Made d root name directory fresh) (done : List (String × List UInt8)) :
    (fresh.fill (destination root ++ [name]) done).walk [] (Text.Path.steps directory) =
      .ok (destination root ++ [name]) := by
  rw [h.directory]
  exact Disk.walk_join h.isName h.fits.short ((h.keeps_fill done).walk h.walk)
    (h.node?_fill_self done)

theorem filling (h : Made d root name directory fresh) :
    Filling fresh directory (destination root ++ [name]) [] :=
  ⟨h.walk_fill [], fun other _ => h.node?_fresh_below [other] (by simp)⟩

/-- When the directory is removed, however much was put there, all is as it was before it was
made. -/
theorem node?_removeTree (h : Made d root name directory fresh)
    (done : List (String × List UInt8)) (place : List String) :
    ((fresh.fill (destination root ++ [name]) done).removeTree directory).node? place =
      d.node? place := by
  have hlocate := (Disk.locate_join_eq_ok_iff h.isName ((h.keeps_fill done).walk h.walk)).2
    ⟨h.fits, rfl⟩
  rw [← h.directory] at hlocate
  rw [Disk.node?_removeTree hlocate (by simp)]
  split
  · next hin =>
    obtain ⟨rest, rfl⟩ := hin
    exact h.none_below.symm
  · next hout => exact h.node?_fill_of_not_prefix done hout

/-- A file can be written alone to a directory that was `Made` for it exactly if its name fits. -/
theorem exists_write_iff (h : Made d root name directory fresh) {filename : String}
    (hname : Path.IsName filename) (octets : List UInt8) :
    (∃ e, fresh.write (Text.Path.join directory filename) octets = .ok e) ↔
      Fits directory filename := by
  have hwrite := h.filling.write_eq_ok_iff hname List.not_mem_nil octets
  constructor
  · rintro ⟨e, he⟩
    exact ((hwrite e).1 he).1
  · intro hfits
    exact ⟨_, (hwrite _).2 ⟨hfits, rfl⟩⟩

end Made

end UploadSet
end Coursework
