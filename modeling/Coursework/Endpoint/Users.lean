import Coursework.Service.Route

/-!
# The endpoints of a user's own account

`users/auth` confirms who the sender is, and `users/pass/change` sets the sender's password.
-/

set_option autoImplicit false

namespace Coursework
namespace Endpoint

open Json

/-- The schema of both endpoints: a user, and nothing else. -/
def userSchema : Schema :=
  Schema.build [.user]

/-! ## Confirming credentials -/

def authKind : RequestKind Unit where
  name := "UserAuthRequest"
  schema := userSchema
  decode := RequestKind.decodeWith [] fun _ => some ()
  hydrate := RequestKind.hydrateNone

/-- Say who the sender is, as `Request.authenticate` found out. -/
def auth (m : Materialized Unit) : Except Fault Value :=
  match m.needIdentity with
  | .error f => .error f
  | .ok i =>
    .ok (.object [("success", .bool true), ("email", .string i.account.email),
      ("name", .optional .string i.account.name), ("server-role", i.account.role.toJson)])

def authRoute : Route :=
  Route.of (Route.path "users/auth") authKind fun m s =>
    (Reply.ofResult ((auth m).map .ok), s)

/-! ## Changing the password -/

/-- A request for a new password: its digest, as the client makes it. -/
structure PasswordChange where
  newPass : String
deriving DecidableEq, Repr

def passwordKind : RequestKind PasswordChange where
  name := "ChangePassRequest"
  schema := userSchema
  decode := RequestKind.decodeWith ["new-pass"] fun f => do
    let newPass ← f.orElse "new-pass" "" Decode.string
    some ⟨newPass⟩
  hydrate := RequestKind.hydrateNone

/-- The account with the new password under a salt, and whether that was the password already
(`Account.setPassword`). -/
def withNewPassword (m : Materialized PasswordChange) (salt : String) :
    Except Fault (Account × Bool) :=
  match m.needIdentity with
  | .error f => .error f
  | .ok i =>
    if i.account.isRoot then .error (.badRequest "the root identity has no password")
    else
      let pass := Text.trim m.request.newPass
      if pass = "" then .error (.badRequest "new-pass must not be empty")
      else
        match i.account.setPassword pass salt with
        | .error e => .error (.badRequest e.message)
        | .ok changed => .ok changed

/-- Set the sender's password.  What is written back is the account that the sender was identified
by, whatever the store has under its email by now. -/
def changePassword (m : Materialized PasswordChange) (s : Server) : Except Fault Value × Server :=
  let (salt, entropy) := s.entropy.drawHex Account.saltSize
  match withNewPassword m salt with
  | .error f => (.error f, s)
  | .ok (account, duplicate) =>
    match s.backend.putAccount account with
    | .error e => (.error (.store e), { s with entropy := entropy })
    | .ok backend =>
      (.ok (.object [("success", .bool true), ("duplicate", .bool duplicate)]),
        { s with backend := backend, entropy := entropy })

def passwordRoute : Route :=
  Route.of (Route.path "users/pass/change") passwordKind fun m s =>
    let (answer, s) := changePassword m s
    (Reply.ofResult (answer.map .ok), s)

end Endpoint
end Coursework
