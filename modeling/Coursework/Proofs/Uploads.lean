import Coursework.Proofs.Disk.Directories
import Coursework.Uploads

/-!
# The directory of an upload

Files that come with a request are kept in a directory of their own, which is removed when the
request was answered (`UploadSet.holds_discard`).

Removing a directory takes away what the path of the directory leads to, so it matters where the
path leads afterwards.  There are no links, so a path that leads anywhere leads to the same place on
every disk (`Disk.locate_unique`).  The root alone cannot be removed, and the directory of an upload
is not the root because its path ends in a name (`Path.getLast?_steps_join`).
-/

set_option autoImplicit false

namespace Coursework

/-! ## Files of one request -/

namespace UploadSet

theorem isName_stem : Text.Path.IsName "grader-upload-" := by decide

theorem filenames_writeAll {directory : String} {files : List Upload} {d e : Disk}
    {written names : List String} (h : writeAll directory d written files = (.ok names, e)) :
    names.map some = written.map some ++ files.map fun u => keptName? u.filename := by
  induction files generalizing d written with
  | nil =>
    cases h
    simp
  | cons u rest ih =>
    rw [writeAll] at h
    split at h
    · cases h
    · next name hname =>
      split at h
      · cases h
      · dsimp only at h
        split at h
        · cases h
        · rw [ih h, List.map_cons, hname]
          simp

/-- Files are stored if there are some, a directory is made for them (`Disk.makeFresh`), and all are
written there. -/
theorem store_eq_ok_iff {d e : Disk} {root directory : String} {names : List String}
    {files : List Upload} : store d root files = (.ok ⟨directory, names⟩, e) ↔ files ≠ [] ∧
    (d.makeDirectories root).1 = .ok () ∧ ∃ fresh,
      (d.makeDirectories root).2.makeFresh root "grader-upload-" = .ok (directory, fresh) ∧
      writeAll directory fresh [] files = (.ok names, e) := by
  rw [store]
  constructor
  · intro h
    split at h
    · cases h
    · next hfiles =>
      refine ⟨fun hnone => hfiles (by rw [hnone]; rfl), ?_⟩
      split at h
      · cases h
      · next made hmade =>
        rw [hmade]
        split at h
        · cases h
        · next directory fresh hfresh =>
          split at h
          · cases h
          · next names e' hall =>
            cases h
            exact ⟨rfl, fresh, hfresh, hall⟩
  · rintro ⟨hfiles, hroot, fresh, hfresh, hall⟩
    rw [if_neg (by simpa using hfiles)]
    rcases hmade : d.makeDirectories root with ⟨result, made⟩
    rw [hmade] at hroot hfresh
    cases hroot
    dsimp only at hfresh ⊢
    rw [hfresh]
    dsimp only
    rw [hall]

/-- The files of a request are in a directory that has a name, in their order. -/
theorem store_eq_ok {d e : Disk} {root : String} {files : List Upload} {set : UploadSet}
    (h : store d root files = (.ok set, e)) :
    (∃ name, Text.Path.IsName name ∧
        set.directory = Text.Path.join (Text.Path.join "/" root) name) ∧
      set.filenames.map some = files.map fun u => keptName? u.filename := by
  obtain ⟨directory, names⟩ := set
  obtain ⟨-, -, fresh, hfresh, hall⟩ := store_eq_ok_iff.1 h
  exact ⟨Disk.exists_of_makeFresh isName_stem hfresh, filenames_writeAll hall⟩

/-- **Uploads do not stay**: the directory of an upload is gone once it was removed, whatever became
of the disk in between. -/
theorem holds_discard {d e : Disk} {root : String} {files : List Upload} {set : UploadSet}
    (h : store d root files = (.ok set, e)) (now : Disk) :
    (set.discard now).holds set.directory = false := by
  obtain ⟨⟨name, hname, hdirectory⟩, -⟩ := store_eq_ok h
  rw [discard, hdirectory]
  exact Disk.holds_removeTree fun spot hspot => Disk.place_ne_root hname hspot

end UploadSet
end Coursework
