import Coursework.Text

/-!
# File paths

A path is a text whose components are separated by slashes.  Repeated slashes say nothing, and a
component that is a single point names the place that the path has reached already.
-/

set_option autoImplicit false

namespace Coursework
namespace Text
namespace Path

def isAbsolute (path : String) : Bool :=
  path.toList.head? == some '/'

def endsInSlash (path : String) : Bool :=
  path.toList.getLast? == some '/'

/-- The path of `part` seen from `base`: `part` itself when it starts at the root (`isAbsolute`). -/
def join (base part : String) : String :=
  if isAbsolute part ∨ base = "" then part
  else if endsInSlash base then base ++ part
  else base ++ "/" ++ part

/-- The components in their order, those that are points included, as `Disk.locate` walks them. -/
def steps (path : String) : List String :=
  ((splitAt (· == '/') path.toList).map String.ofList).filter fun s => s != ""

/-- The components that count, which are neither empty nor a single point. -/
def components (path : String) : List String :=
  (steps path).filter fun s => s != "."

/-- The last component, unless there is none or it leads upwards: the name under which an upload is
kept. -/
def fileName? (path : String) : Option String :=
  match (components path).getLast? with
  | some s => if s = ".." then none else some s
  | none => none

end Path
end Text
end Coursework
