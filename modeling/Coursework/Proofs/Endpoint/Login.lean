import Coursework.Endpoint.Users
import Coursework.Proofs.Json.Records
import Coursework.Proofs.Json.Writing
import Coursework.Proofs.Request.Stages
import Coursework.Proofs.Store.Seeded

/-!
# Who can log in

An account is kept under the email that it was written with, and found under the email that a
request shows, without the blanks around it.  A seed takes an email as it stands, so long as it is
not all blank.  So an account whose email has no blanks around it is found and accepts its password,
in whatever letter case, and one whose email has some is never found.

* `Request.checkCredentials_eq_ok_iff`: which account a request is identified as;
* `Endpoint.authRoute_call`: how the confirmation of credentials answers;
* `Endpoint.seeded_login`: which users of a seed it is confirmed to.
-/

set_option autoImplicit false

namespace Coursework

open Json

namespace Request

/-- A request is identified as the account that is kept under its email, without the blanks around
it, if that account accepts its password. -/
theorem checkCredentials_eq_ok_iff {b : Backend} {context : Context} {a : Account} :
    checkCredentials b context = .ok a ↔
      Text.trim context.userEmail ≠ "" ∧ .account ∉ b.down ∧
        b.store.account? (Text.trim context.userEmail) = some a ∧
        a.checkPassword context.userPass = true := by
  rw [checkCredentials, Backend.account?, Backend.guarded]
  split
  · next hblank => simp [hblank]
  · next hblank =>
    by_cases hdown : Operation.account ∈ b.down
    · simp [hdown]
    · rw [if_neg hdown]
      rcases hfound : b.store.account? (Text.trim context.userEmail) with _ | c
      · simp
      · dsimp only
        split
        · next hcheck =>
          constructor
          · rintro ⟨⟩
            exact ⟨hblank, hdown, rfl, hcheck⟩
          · rintro ⟨-, -, hc, -⟩
            rw [Option.some.inj hc]
        · next hcheck =>
          constructor
          · rintro ⟨⟩
          · rintro ⟨-, -, hc, ha⟩
            rw [Option.some.inj hc] at hcheck
            exact absurd ha hcheck

theorem checkCredentials_of_authenticate {b : Backend} {nonces : Nonces} {context : Context}
    {course : Option Course} {i : Identity}
    (h : (authenticate b nonces context course).1 = .ok i) (hnonce : context.nonce = "") :
    checkCredentials b context = .ok i.account := by
  rw [authenticate, if_pos hnonce] at h
  rcases hcheck : checkCredentials b context with f | a
  · rw [hcheck] at h
    cases h
  · rw [hcheck] at h
    cases h
    rfl

end Request

/-- The account of a user whom the seed gives a password accepts that password in any letter
case. -/
theorem SeedUser.checkPassword_account {u : SeedUser} {salt p q : String} {a : Account}
    (h : u.account salt = .ok a) (hpass : u.pass = some p) (hq : Text.lower q = Text.lower p) :
    a.checkPassword q = true := by
  rw [SeedUser.account, hpass] at h
  dsimp only at h
  split at h
  · next hset =>
    cases h
    exact (Account.checkPassword_of_setPassword hset q).2 (Account.saltedHash_congr hq.symm salt)
  · cases h

namespace Endpoint

/-- A request to confirm credentials (`authKind`) that shows an email and a password, and no
nonce. -/
def Presents (raw : RawRequest) (email pass : String) : Prop :=
  ∃ context, decodeText? authKind.decode raw.content = some ((), context) ∧
    context.userEmail = email ∧ context.userPass = pass ∧ context.nonce = ""

def credentials (email pass : String) : RawRequest :=
  ⟨(Value.object [("user-email", .string email), ("user-pass", .string pass)]).text, []⟩

theorem presents_credentials (email pass : String) :
    Presents (credentials email pass) email pass := by
  refine ⟨⟨"", "", email, pass, ""⟩, ?_, rfl, rfl, rfl⟩
  rw [decodeText?, credentials, Value.ofString?_text]
  rfl

def confirmation (email : String) (name : Option String) (role : ServerRole) : Value :=
  .ofMembers [("success", .bool true), ("email", .string email), ("name", .optional .string name),
    ("server-role", role.toJson)]

theorem confirmation_inj {email email' : String} {name name' : Option String}
    {role role' : ServerRole} (h : confirmation email name role = confirmation email' name' role') :
    email = email' := by
  have hfields := congrArg (Value.field? · "email") h
  simp only [confirmation, Value.field?_ofMembers] at hfields
  simpa [List.lookup_cons] using hfields

/-- A request that asks for its sender only (`userSchema`) is materialized for whoever it is
identified as. -/
theorem materialize_of_authenticate {R : Type} {kind : RequestKind R}
    (hschema : kind.schema = userSchema) {raw : RawRequest} {r : R} {context : Context}
    (hdecode : decodeText? kind.decode raw.content = some (r, context)) (s : Server) :
    Request.materialize kind raw s =
      ((Request.authenticate s.backend s.nonces context none).1.map fun i =>
          ⟨r, none, none, some i, []⟩,
        { s with nonces := (Request.authenticate s.backend s.nonces context none).2 }) := by
  have hvalid : kind.schema.validate = .ok () := by rw [hschema]; rfl
  have hresolve : Request.resolve kind.schema context s.backend = .ok (none, none) := by
    rw [hschema]; rfl
  have hneeds : kind.schema.needsUser = true := by rw [hschema]; rfl
  have hfields : kind.schema.fields = [] := by rw [hschema]; rfl
  have hmay : ∀ i, Request.authorize kind.schema i = .ok () := fun i => by rw [hschema]; rfl
  rw [Request.materialize_of_resolved hdecode hvalid hresolve, Request.admitSender, if_pos hneeds]
  rcases Request.authenticate s.backend s.nonces context none with ⟨f | i, nonces⟩
  · rfl
  · simp only [hmay, Request.complete_of_no_fields hfields, Except.map]

theorem materialize_of_userSchema {R : Type} {kind : RequestKind R}
    (hschema : kind.schema = userSchema)
    {raw : RawRequest} {r : R} {context : Context}
    (hdecode : decodeText? kind.decode raw.content = some (r, context))
    (hnonce : context.nonce = "") (s : Server) :
    Request.materialize kind raw s =
      match Request.checkCredentials s.backend context with
      | .error f => (.error f, s)
      | .ok a => (.ok ⟨r, none, none, some (Request.identify a none false), []⟩, s) := by
  have hauthenticate : Request.authenticate s.backend s.nonces context none =
      ((Request.checkCredentials s.backend context).map fun a => Request.identify a none false,
        s.nonces) := by
    rw [Request.authenticate, if_pos hnonce]
  rw [materialize_of_authenticate hschema hdecode, hauthenticate]
  rcases Request.checkCredentials s.backend context with f | a <;> rfl

theorem ofResult_auth {m : Materialized Unit} {i : Identity} (h : m.identity = some i) :
    Reply.ofResult ((auth m).map .ok) =
      .content (confirmation i.account.email i.account.name i.account.role) := by
  have hauth : auth m = .ok (.object [("success", .bool true), ("email", .string i.account.email),
      ("name", .optional .string i.account.name), ("server-role", i.account.role.toJson)]) := by
    simp only [auth, Materialized.needIdentity, h]
  rw [hauth, Except.map, Reply.ofResult, Reply.ofContent, confirmation]
  simp only [Value.canonical, Value.canonicalMembers, Value.canonical_optional_string]
  rfl

/-- Credentials are confirmed to the account that they identify, and nothing changes. -/
theorem authRoute_call {raw : RawRequest} {context : Context}
    (hdecode : decodeText? authKind.decode raw.content = some ((), context))
    (hnonce : context.nonce = "") (s : Server) :
    authRoute.call raw s =
      match Request.checkCredentials s.backend context with
      | .error f => (.refused f, s)
      | .ok a => (.content (confirmation a.email a.name a.role), s) := by
  have hrun : authRoute.call =
      Route.run authKind fun m s => (Reply.ofResult ((auth m).map .ok), s) := rfl
  rw [hrun, Route.run, materialize_of_userSchema rfl hdecode hnonce]
  rcases Request.checkCredentials s.backend context with f | a
  · rfl
  · dsimp only
    rw [ofResult_auth rfl]
    rfl

/-- **A seeded account can log in if there are no blanks around its email**, and only then: whoever
`Presents` its email and password is shown the account (`confirmation`) exactly in this case.  Of
the users with one email the last counts, and letter case does not matter in the password. -/
theorem seeded_login {seed : Seed} {s : Store} {e : Entropy} (hproper : s.Proper)
    (hresult : (seed.apply s e).result = .ok ()) {front back : List SeedUser} {u : SeedUser}
    (husers : seed.users = front ++ u :: back) (hlast : ∀ v ∈ back, v.email ≠ u.email)
    {p q : String} (hpass : u.pass = some p) (hq : Text.lower q = Text.lower p) {server : Server}
    (hstore : server.backend.store = (seed.apply s e).store)
    (hup : .account ∉ server.backend.down) {raw : RawRequest} (hraw : Presents raw u.email q) :
    (authRoute.call raw server).1 = .content (confirmation u.email u.name u.role) ↔
      Text.trim u.email = u.email := by
  obtain ⟨context, hdecode, hemail, huserPass, hnonce⟩ := hraw
  have hafter : (seed.apply s e).store.Proper := Seed.proper_writeItems hproper e seed.items
  rw [authRoute_call hdecode hnonce]
  constructor
  · intro hanswer
    rcases hcheck : Request.checkCredentials server.backend context with f | a
    · rw [hcheck] at hanswer
      cases hanswer
    · rw [hcheck] at hanswer
      obtain ⟨-, -, haccount, -⟩ := Request.checkCredentials_eq_ok_iff.1 hcheck
      rw [hstore, hemail] at haccount
      rw [← hafter.account _ a haccount]
      exact confirmation_inj (Reply.content.inj hanswer)
  · intro htrim
    obtain ⟨salt, a, hof, haccount⟩ := Seed.exists_account_of_apply hresult husers hlast
    have hsame := Seed.withoutPassword_account hof
    have haemail : a.email = u.email := congrArg Account.email hsame
    have hname : a.name = u.name := congrArg Account.name hsame
    have hblank := hafter.notBlank u.email a haccount
    have hcheck : Request.checkCredentials server.backend context = .ok a := by
      rw [Request.checkCredentials_eq_ok_iff, hemail, huserPass, htrim, hstore]
      rw [haemail, htrim] at hblank
      exact ⟨hblank, hup, haccount, SeedUser.checkPassword_account hof hpass hq⟩
    rw [hcheck]
    simp only [haemail, hname, Seed.role_account hof]

def kim (email : String) : SeedUser :=
  ⟨email, some "Kim", .user, some (String.ofList (List.replicate 64 'a')), Table.empty⟩

def kimSeed (email : String) : Seed :=
  ⟨[], [kim email]⟩

def kimServer (email : String) : Server :=
  .start ((kimSeed email).apply Store.empty .foreseeable).store ⟨0, 0⟩ .foreseeable (.generous 0)
    .empty "/uploads"

/-- Kim logs in with the password in capitals. -/
theorem seeded_login_kim :
    ((kimSeed "kim@school.edu").apply Store.empty .foreseeable).result = .ok () ∧
      (authRoute.call (credentials "kim@school.edu" (String.ofList (List.replicate 64 'A')))
        (kimServer "kim@school.edu")).1 =
        .content (confirmation "kim@school.edu" (some "Kim") .user) := by
  have hresult : ((kimSeed "kim@school.edu").apply Store.empty .foreseeable).result = .ok () := rfl
  have husers : (kimSeed "kim@school.edu").users = [] ++ kim "kim@school.edu" :: [] := rfl
  refine ⟨hresult, (seeded_login Store.proper_empty hresult husers nofun rfl (by decide +kernel) rfl
    List.not_mem_nil (presents_credentials _ _)).2 (by decide +kernel)⟩

/-- With a blank before the email there is an account, but nobody is found under the email that Kim
shows. -/
theorem seeded_login_blank :
    ((kimSeed " kim@school.edu").apply Store.empty .foreseeable).result = .ok () ∧
      (authRoute.call (credentials " kim@school.edu" (String.ofList (List.replicate 64 'a')))
        (kimServer " kim@school.edu")).1 = .refused (.userNotFound "kim@school.edu") := by
  refine ⟨rfl, ?_⟩
  obtain ⟨context, hdecode, hemail, -, hnonce⟩ :=
    presents_credentials " kim@school.edu" (String.ofList (List.replicate 64 'a'))
  have htrim : Text.trim " kim@school.edu" = "kim@school.edu" := by decide +kernel
  have hnobody : (kimServer " kim@school.edu").backend.account? "kim@school.edu" = .ok none := rfl
  have hcheck : Request.checkCredentials (kimServer " kim@school.edu").backend context =
      .error (.userNotFound "kim@school.edu") := by
    rw [Request.checkCredentials, hemail, htrim, if_neg (by decide), hnobody]
  rw [authRoute_call hdecode hnonce, hcheck]

end Endpoint
end Coursework
