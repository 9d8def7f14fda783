import Coursework.Digest
import Coursework.Role
import Coursework.Table

/-!
# Accounts

A client proves who it is with the SHA-256 digest of a password, in hexadecimal.  An account keeps
that digest, in small letters, only behind a random salt and a second digest.  An account without a
stored digest accepts no password.
-/

set_option autoImplicit false

namespace Coursework

open Json

/-- A user known to the server.  Of the password the account has the `salt`, in hexadecimal, and the
`passwordHash`, which is the `saltedHash` of the two and empty as long as no password was set;
`courses` has the role of each enrollment. -/
structure Account where
  email : String
  name : Option String
  role : ServerRole
  salt : String
  passwordHash : String
  courses : Table String CourseRole
deriving DecidableEq

namespace Account

def rootEmail : String := "root"

def saltSize : Nat := 16

def fresh (email : String) : Account :=
  ⟨email, none, .user, "", "", Table.empty⟩

/-- The identity of a trusted local caller, who shows a live nonce in place of a password.  It has
the server role `root` and no enrollment. -/
def root : Account :=
  { fresh rootEmail with role := .root }

/-- Whether this is the identity of a trusted local caller, as `root` is; it goes by the role and
not by the email. -/
def isRoot (a : Account) : Bool :=
  a.role == .root

def enroll (a : Account) (course : String) (role : CourseRole) : Account :=
  { a with courses := a.courses.insert course role }

/-- The role of a user in a course: the one that the server role implies
(`ServerRole.impliedCourseRole?`), else the one the user is enrolled with. -/
def courseRole? (a : Account) (course : String) : Option CourseRole :=
  match a.role.impliedCourseRole? with
  | some r => some r
  | none => a.courses.find? course

/-! ## Passwords -/

/-- What is stored for a password: the digest of `salt` followed by `pass` in small letters, so that
the case in which a client writes hexadecimal digits makes no difference. -/
def saltedHash (salt pass : String) : String :=
  Digest.sha256Hex (Text.utf8 (salt ++ Text.lower pass))

/-- Whether `pass` is the password of the account.  An account without one, whose `passwordHash` is
empty, has no password that fits. -/
def checkPassword (a : Account) (pass : String) : Bool :=
  if a.passwordHash = "" then false
  else Digest.sameText (saltedHash a.salt pass) a.passwordHash

/-- Set a password under a fresh salt.  The flag says whether it was the password already, by
`checkPassword` on the account as it was; what has not the form of a digest (`Digest.isSha256Hex`)
is refused. -/
def setPassword (a : Account) (pass salt : String) : Except Invalid (Account × Bool) :=
  if Digest.isSha256Hex pass then
    .ok ({ a with salt := salt, passwordHash := saltedHash salt pass }, a.checkPassword pass)
  else .error ⟨.digest, "password must be a SHA-256 hex digest"⟩

/-! ## Documents -/

/-- The courses of an account in the order of their ids, each with the role of the enrollment,
whatever `courseRole?` says. -/
def courseList (a : Account) : List (String × CourseRole) :=
  a.courses.sorted fun x y => decide (x ≤ y)

/-- Read an account from a document, in which everything but the email may be missing. -/
def decode : Decoder Account := fun s => do
  let f ← Decode.record? ["email", "name", "role", "salt", "password-hash", "courses"] s
  let email ← f.required "email" Decode.string
  let name ← f.orElse "name" none (Decode.optional Decode.string)
  let role ← f.orElse "role" .user ServerRole.decode
  let salt ← f.orElse "salt" "" Decode.string
  let hash ← f.orElse "password-hash" "" Decode.string
  let courses ← f.orElse "courses" [] (Decode.map CourseRole.decode)
  some ⟨email, name, role, salt, hash, Table.ofList courses⟩

def coursesToJson (a : Account) : Value :=
  .object (a.courseList.map fun c => (c.1, c.2.toJson))

/-- An account as a document, with the salt and the digest: what `decode` reads. -/
def toJson (a : Account) : Value :=
  .object [("email", .string a.email), ("name", .optional .string a.name),
    ("role", a.role.toJson), ("salt", .string a.salt),
    ("password-hash", .string a.passwordHash), ("courses", a.coursesToJson)]

/-- What may be shown of an account: `toJson` with the length of the salt in place of the salt, and
with a flag in place of the digest. -/
def summary (a : Account) : Value :=
  .object [("email", .string a.email), ("name", .optional .string a.name),
    ("role", a.role.toJson), ("courses", a.coursesToJson),
    ("salt-length", .nat (Text.size a.salt)), ("has-password", .bool (a.passwordHash != "")),
    ("is-root", .bool a.isRoot)]

end Account
end Coursework
