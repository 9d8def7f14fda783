import Coursework.Table
import Coursework.Text.Decimal
import Coursework.Text.Path

/-!
# A tree of files

A `Disk` holds directories, files and sockets under absolute paths.  Its operations fail for the
reasons a file system has: something is missing or in the way, a name is too long, or a text is no
path at all.

Paths are walked from the root, one component at a time.  A component that leads upwards goes back
one step, and every component but the last has to be a directory, whatever follows it; so has the
last one when a slash stands behind it.
-/

set_option autoImplicit false

namespace Coursework

/-- What stands at a path.  A socket has the number of the listener that bound it, by which a later
one at the same path is told from an earlier. -/
inductive Node where
  | directory
  | file (octets : List UInt8)
  | socket (listener : Nat)
deriving DecidableEq, Repr

/-- Why an operation on files fails.  A text that cannot be a path at all is a `badPath`, and a
socket opened as a file is `unsupported`. -/
inductive DiskError where
  | notFound
  | notDirectory
  | isDirectory
  | occupied
  | nameTooLong
  | badPath
  | unsupported
deriving DecidableEq, Repr

/-- The words of the operating system for a failure, which end up in `Fault.fileStoreFailed` and in
what a start reports. -/
def DiskError.message : DiskError → String
  | notFound => "No such file or directory (os error 2)"
  | notDirectory => "Not a directory (os error 20)"
  | isDirectory => "Is a directory (os error 21)"
  | occupied => "File exists (os error 17)"
  | nameTooLong => "File name too long (os error 36)"
  | badPath => "file name contained an unexpected NUL byte"
  | unsupported => "No such device or address (os error 6)"

/-- A tree of files.  The table `nodes` has what stands at each path but the root, which is a
directory that is always there. -/
structure Disk where
  nodes : Table (List String) Node
deriving DecidableEq

namespace Disk

def empty : Disk := ⟨Table.empty⟩

instance : Inhabited Disk := ⟨empty⟩

/-- The most octets a component of a path may have. -/
def nameMax : Nat := 255

/-- The most octets a path may have as `locate` gets it. -/
def pathMax : Nat := 4095

/-- The most octets the path of a socket may have as `bind` gets it, which are far fewer. -/
def socketPathMax : Nat := 107

/-- What stands at the place with these components, of which the empty list is the root. -/
def node? (d : Disk) (place : List String) : Option Node :=
  if place = [] then some .directory else d.nodes.find? place

def put (d : Disk) (place : List String) (n : Node) : Disk :=
  ⟨d.nodes.insert place n⟩

def clear (d : Disk) (place : List String) : Disk :=
  ⟨d.nodes.erase place⟩

/-! ## Finding a place -/

/-- Walk on from the directory `here` through components that must all be directories, to the place
that is reached.  A component `..` leads back by one step, also after one that was just entered. -/
def walk (d : Disk) (here : List String) : List String → Except DiskError (List String)
  | [] => .ok here
  | c :: rest =>
    if c = "." then walk d here rest
    else if c = ".." then walk d here.dropLast rest
    else if nameMax < Text.size c then .error .nameTooLong
    else
      match d.node? (here ++ [c]) with
      | none => .error .notFound
      | some .directory => walk d (here ++ [c]) rest
      | some _ => .error .notDirectory

/-- Where a path leads.  What stands there may be missing, but the directory it would be in is not.
The path is `named` if it ends in a name and not in a component that leads to a directory as such,
and it `wantsDirectory` if a slash stands behind the name. -/
structure Spot where
  place : List String
  named : Bool
  wantsDirectory : Bool
deriving DecidableEq, Repr

def spotIn (here : List String) (last : String) (slash : Bool) : Except DiskError Spot :=
  if last = "." then .ok ⟨here, false, slash⟩
  else if last = ".." then .ok ⟨here.dropLast, false, slash⟩
  else if nameMax < Text.size last then .error .nameTooLong
  else .ok ⟨here ++ [last], true, slash⟩

/-- Where a path leads: all components but the last are walked (`walk`), and the last gives the
`Spot`. -/
def locate (d : Disk) (path : String) : Except DiskError Spot :=
  if path = "" then .error .notFound
  else if path.toList.contains '\x00' then .error .badPath
  else if pathMax < Text.size path then .error .nameTooLong
  else
    let steps := Text.Path.steps path
    match steps.getLast? with
    | none => .ok ⟨[], false, true⟩
    | some last =>
      match d.walk [] steps.dropLast with
      | .error e => .error e
      | .ok here => spotIn here last (Text.Path.endsInSlash path)

/-- What stands at a path, if anything does.  With a slash behind its name, anything but a directory
is an error. -/
def lookUp (d : Disk) (path : String) : Except DiskError (Option Node) :=
  match d.locate path with
  | .error e => .error e
  | .ok spot =>
    match d.node? spot.place with
    | none => .ok none
    | some .directory => .ok (some .directory)
    | some n => if spot.wantsDirectory then .error .notDirectory else .ok (some n)

def holds (d : Disk) (path : String) : Bool :=
  match d.lookUp path with
  | .ok (some _) => true
  | _ => false

/-! ## Files -/

/-- The octets of the file at a path; everything else there, or nothing, is an error. -/
def read (d : Disk) (path : String) : Except DiskError (List UInt8) :=
  match d.lookUp path with
  | .error e => .error e
  | .ok none => .error .notFound
  | .ok (some .directory) => .error .isDirectory
  | .ok (some (.socket _)) => .error .unsupported
  | .ok (some (.file octets)) => .ok octets

/-- Write a file, in place of one that is there, but not of a directory or of a socket. -/
def write (d : Disk) (path : String) (octets : List UInt8) : Except DiskError Disk :=
  match d.locate path with
  | .error e => .error e
  | .ok spot =>
    if !spot.named || spot.wantsDirectory then .error .isDirectory
    else
      match d.node? spot.place with
      | some .directory => .error .isDirectory
      | some (.socket _) => .error .unsupported
      | some (.file _) | none => .ok (d.put spot.place (.file octets))

/-- Remove a file or a socket, at the `Spot` that the path leads to and nowhere else. -/
def remove (d : Disk) (path : String) : Except DiskError Disk :=
  match d.locate path with
  | .error e => .error e
  | .ok spot =>
    match d.node? spot.place with
    | none => .error .notFound
    | some .directory => .error .isDirectory
    | some _ =>
      if spot.wantsDirectory then .error .notDirectory else .ok (d.clear spot.place)

/-- Remove a file or a socket if it is there: `remove`, for which a path that leads nowhere is as
good as an empty place. -/
def removeIfThere (d : Disk) (path : String) : Except DiskError Disk :=
  match d.remove path with
  | .ok d => .ok d
  | .error .notFound => .ok d
  | .error e => .error e

/-- Move what is at `source` to `target`, in place of what is there unless that is a directory.
Directories are not moved here. -/
def rename (d : Disk) (source target : String) : Except DiskError Disk :=
  match d.locate source, d.locate target with
  | .error e, _ => .error e
  | _, .error e => .error e
  | .ok a, .ok b =>
    match d.node? a.place, d.node? b.place with
    | none, _ => .error .notFound
    | some .directory, _ => .error .unsupported
    | some _, some .directory => .error .isDirectory
    | some n, _ =>
      if a.wantsDirectory || b.wantsDirectory then .error .notDirectory
      else .ok ((d.clear a.place).put b.place n)

/-! ## Directories -/

/-- Make the directories that are missing on the way from `here` on.  Those made before a failure
stay.  With a point behind its name (`pointed`), the last one is not made but has to be there.  Once
something was missing (`missed`), each one is tried by itself. -/
def makePath (d : Disk) (pointed missed : Bool) (here : List String) :
    List String → Except DiskError Unit × Disk
  | [] => (.ok (), d)
  | c :: rest =>
    if c = ".." then makePath d pointed missed here.dropLast rest
    else if nameMax < Text.size c then (.error .nameTooLong, d)
    else
      let next := here ++ [c]
      let last := rest.isEmpty
      match d.node? next with
      | none =>
        if last && pointed then (.error .notFound, d)
        else makePath (d.put next .directory) pointed true next rest
      | some .directory => makePath d pointed missed next rest
      | some _ =>
        (.error (if (if last then !pointed else missed) then .occupied else .notDirectory), d)

/-- Make a directory and those above it that are missing (`makePath`).  The disk is answered along
with the error, since a failure may leave some of them behind. -/
def makeDirectories (d : Disk) (path : String) : Except DiskError Unit × Disk :=
  if path.toList.contains '\x00' then (.error .badPath, d)
  else if pathMax < Text.size path then (.error .nameTooLong, d)
  else
    d.makePath ((Text.Path.steps path).getLast? == some ".") false [] (Text.Path.components path)

def parent (path : String) : String :=
  "/" ++ Text.join "/" (Text.Path.components path).dropLast

/-- A name that nothing has at a place: `stem` with six digits behind it, or more once these run
out. -/
def freshName (d : Disk) (place : List String) (stem : String) : String :=
  let names := (List.range (d.nodes.size + 1)).map fun n => stem ++ Text.padded 6 n
  (names.find? fun name => (d.node? (place ++ [name])).isNone).getD stem

/-- Make a directory with a `freshName` inside the directory `root`, and say where, by a path that
begins at the root of the disk. -/
def makeFresh (d : Disk) (root stem : String) : Except DiskError (String × Disk) :=
  let base := Text.Path.join "/" root
  match d.locate base with
  | .error e => .error e
  | .ok spot =>
    match d.node? spot.place with
    | none => .error .notFound
    | some .directory =>
      let name := d.freshName spot.place stem
      let path := Text.Path.join base name
      if nameMax < Text.size name ∨ pathMax < Text.size path then .error .nameTooLong
      else .ok (path, d.put (spot.place ++ [name]) .directory)
    | some _ => .error .notDirectory

def inside (place top : List String) : Bool :=
  place.take top.length == top

/-- Remove a directory with everything `inside` it.  What is not there is not missed, and the root
stays. -/
def removeTree (d : Disk) (path : String) : Disk :=
  match d.locate path with
  | .error _ => d
  | .ok spot =>
    if spot.place = [] then d
    else
      ((d.nodes.keys.filter fun place => inside place spot.place).foldl
        (fun d place => d.clear place) d)

def count (d : Disk) (path : String) (kind : Node → Bool) : Nat :=
  match d.locate path with
  | .error _ => 0
  | .ok spot =>
    (d.nodes.entries.filter fun e => e.1.dropLast == spot.place && kind e.2).length

/-! ## Sockets -/

/-- Bind a socket at a path where nothing is; the `listener` is who bound it. -/
def bind (d : Disk) (path : String) (listener : Nat) : Except DiskError Disk :=
  if socketPathMax < Text.size path then .error .badPath
  else
    match d.locate path with
    | .error e => .error e
    | .ok spot =>
      match d.node? spot.place with
      | some _ => .error .occupied
      | none =>
        if spot.wantsDirectory then .error .notFound
        else .ok (d.put spot.place (.socket listener))

end Disk
end Coursework
