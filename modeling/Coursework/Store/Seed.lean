import Coursework.Entropy
import Coursework.Store.Basic

/-!
# Filling a store from a document

A `Seed` lists courses with their assignments, and users.  Filling a store writes one item after the
other, courses first, and stops at the first that is refused; what was written before stays.
-/

set_option autoImplicit false

namespace Coursework

open Json

structure SeedCourse where
  id : String
  name : String
  assignments : List Assignment

/-- A user of a seed.  The password is what a client would send, and it is optional. -/
structure SeedUser where
  email : String
  name : Option String
  role : ServerRole
  pass : Option String
  courses : Table String CourseRole

/-- What a store is filled with: courses with their assignments, then users. -/
structure Seed where
  courses : List SeedCourse
  users : List SeedUser

/-- The account of a user, who has a password under `salt` if the seed gives one. -/
def SeedUser.account (u : SeedUser) (salt : String) : Except StoreError Account :=
  let a : Account := ⟨u.email, u.name, u.role, "", "", u.courses⟩
  match u.pass with
  | none => .ok a
  | some pass =>
    match a.setPassword pass salt with
    | .ok (a, _) => .ok a
    | .error e => .error (.invalid e)

namespace Seed

/-! ## Documents -/

def decodeCourse : Decoder SeedCourse := fun s => do
  let f ← Decode.record? ["id", "name", "assignments"] s
  let id ← f.required "id" Decode.string
  let name ← f.orElse "name" "" Decode.string
  let assignments ← f.orElse "assignments" [] (Decode.list Assignment.decode)
  some ⟨id, name, assignments⟩

def decodeUser : Decoder SeedUser := fun s => do
  let f ← Decode.record? ["email", "name", "role", "pass", "courses"] s
  let email ← f.required "email" Decode.string
  let name ← f.orElse "name" none (Decode.optional Decode.string)
  let role ← f.orElse "role" .user ServerRole.decode
  let pass ← f.orElse "pass" none (Decode.optional Decode.string)
  let courses ← f.orElse "courses" [] (Decode.map CourseRole.decode)
  some ⟨email, name, role, pass, Table.ofList courses⟩

def decode : Decoder Seed := fun s => do
  let f ← Decode.record? ["courses", "users"] s
  let courses ← f.orElse "courses" [] (Decode.list decodeCourse)
  let users ← f.orElse "users" [] (Decode.list decodeUser)
  some ⟨courses, users⟩

def courseToJson? (c : SeedCourse) : Option Value := do
  let assignments ← c.assignments.mapM Assignment.toJson?
  some (.object [("id", .string c.id), ("name", .string c.name),
    ("assignments", .array assignments)])

def userToJson (u : SeedUser) : Value :=
  .object [("email", .string u.email), ("name", .optional .string u.name),
    ("role", u.role.toJson), ("pass", .optional .string u.pass),
    ("courses", .object ((u.courses.sorted fun a b => decide (a ≤ b)).map
      fun c => (c.1, c.2.toJson)))]

def toJson? (s : Seed) : Option Value := do
  let courses ← s.courses.mapM courseToJson?
  some (.object [("courses", .array courses), ("users", .array (s.users.map userToJson))])

/-! ## Filling a store -/

/-- One write of a seed.  An assignment comes with the course under which it is listed. -/
inductive Item where
  | course (c : Course)
  | assignment (course : String) (a : Assignment)
  | user (u : SeedUser)

def courseItems (c : SeedCourse) : List Item :=
  .course ⟨c.id, c.name⟩ :: c.assignments.map (.assignment c.id)

def items (s : Seed) : List Item :=
  s.courses.flatMap courseItems ++ s.users.map .user

/-- Write one item under a fresh salt.  An assignment without a course is taken for one of the
course that lists it, and nobody may be seeded as root. -/
def Item.write (i : Item) (salt : String) (s : Store) : Except StoreError Store :=
  match i with
  | .course c => s.putCourse c
  | .assignment owner a =>
    if a.courseId = "" then s.putAssignment { a with courseId := owner }
    else if a.courseId = owner then s.putAssignment a
    else
      .error (.seed ("assignment " ++ a.id ++ " declares course " ++ a.courseId
        ++ " but is listed under " ++ owner))
  | .user u =>
    if u.role = .root then
      .error (.seed ("user " ++ u.email ++ " cannot have the root role"))
    else
      match u.account salt with
      | .error e => .error e
      | .ok a => s.putAccount a

/-- The outcome of filling a store: whether it went through, what the store holds, and the random
octets left. -/
structure Filled where
  result : Except StoreError Unit
  store : Store
  entropy : Entropy

/-- Write items in their order up to the first that is refused (`Item.write`).  What was written
before stays, and each item draws a salt, whether or not it needs one. -/
def writeItems (s : Store) (e : Entropy) : List Item → Filled
  | [] => ⟨.ok (), s, e⟩
  | i :: rest =>
    let (salt, e) := e.drawHex Account.saltSize
    match i.write salt s with
    | .error err => ⟨.error err, s, e⟩
    | .ok s => writeItems s e rest

def apply (seed : Seed) (s : Store) (e : Entropy) : Filled :=
  writeItems s e seed.items

/-- Fill an empty store from the text of a seed.  Of a text that holds none the error says no more
than that; what the reader says of it is left out. -/
def load (text : List UInt8) (e : Entropy) : Filled :=
  match Text.ofUtf8? text with
  | none => ⟨.error (.io "stream did not contain valid UTF-8"), Store.empty, e⟩
  | some text =>
    match decodeText? decode text with
    | none => ⟨.error (.document ""), Store.empty, e⟩
    | some seed => seed.apply Store.empty e

end Seed
end Coursework
