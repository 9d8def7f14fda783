import Coursework.Disk
import Coursework.Fault

/-!
# Uploaded files

The files that come with a request are kept in a directory of their own until the request has been
answered.  Each keeps the last component of the name that the client gave it, so that nothing is
written anywhere else; two files may not end up with one name.
-/

set_option autoImplicit false

namespace Coursework

/-- A file as it was uploaded, under the name that the client gave it. -/
structure Upload where
  filename : String
  octets : List UInt8
deriving DecidableEq, Repr

/-- Uploaded files in their `directory`, under the names that they were kept by (`keptName?`) in the
order of the upload. -/
structure UploadSet where
  directory : String
  filenames : List String
deriving DecidableEq, Repr

namespace UploadSet

/-- The name under which a file is kept: the last component of the client's name, without blanks at
its ends.  A name that leads to a directory, or to nothing, is none. -/
def keptName? (filename : String) : Option String :=
  match Text.Path.fileName? filename with
  | none => none
  | some name =>
    let name := Text.trim name
    if name = "" ∨ name = "." ∨ name = ".." then none else some name

/-- Write files into `directory`, behind those with the names `written`, none of which may come
again. -/
def writeAll (directory : String) (d : Disk) (written : List String) :
    List Upload → Except Fault (List String) × Disk
  | [] => (.ok written, d)
  | u :: rest =>
    match keptName? u.filename with
    | none => (.error (.fileStoreFailed ("invalid uploaded filename '" ++ u.filename ++ "'")), d)
    | some name =>
      if name ∈ written then
        (.error (.fileStoreFailed ("duplicate uploaded filename '" ++ name ++ "'")), d)
      else
        let path := Text.Path.join directory name
        match d.write path u.octets with
        | .error e =>
          (.error (.fileStoreFailed ("failed to write " ++ path ++ ": " ++ e.message)), d)
        | .ok d => writeAll directory d (written ++ [name]) rest

/-- Keep uploaded files in a new directory under `root`, which is made if it is missing.  When that
fails, the new directory is gone again; the root and what is above it stay. -/
def store (d : Disk) (root : String) (files : List Upload) : Except Fault UploadSet × Disk :=
  if files.isEmpty then (.error .noFiles, d)
  else
    match d.makeDirectories root with
    | (.error e, d) =>
      (.error (.fileStoreFailed ("failed to create upload root " ++ root ++ ": " ++ e.message)), d)
    | (.ok (), d) =>
      match d.makeFresh root "grader-upload-" with
      | .error e =>
        (.error (.fileStoreFailed ("failed to create upload dir: " ++ e.message)), d)
      | .ok (directory, d) =>
        match writeAll directory d [] files with
        | (.error e, d) => (.error e, d.removeTree directory)
        | (.ok names, d) => (.ok ⟨directory, names⟩, d)

def path (s : UploadSet) (name : String) : String :=
  Text.Path.join s.directory name

/-- What the files hold, in the order of the upload; one that can no longer be read is left out. -/
def contents (s : UploadSet) (d : Disk) : List (List UInt8) :=
  s.filenames.filterMap fun name => (d.read (s.path name)).toOption

def discard (s : UploadSet) (d : Disk) : Disk :=
  d.removeTree s.directory

def discardAll (sets : List UploadSet) (d : Disk) : Disk :=
  sets.foldl (fun d s => s.discard d) d

end UploadSet
end Coursework
