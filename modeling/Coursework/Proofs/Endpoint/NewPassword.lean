import Coursework.Proofs.Account.Passwords
import Coursework.Proofs.Endpoint.Ordinary
import Coursework.Proofs.Hall.Passwords
import Coursework.Proofs.Text.Pieces

/-!
# Logging in with a new password

A new password is set without the blanks around it, and a login takes the password that it shows as
it stands.  So a request for a new password may be granted and the text that it sent be refused
right after: `Endpoint.new_password_works` says that the text works if and only if it had no blanks
around it.  The new password itself works in whatever letter case, anything else is refused that
does not collide with it, and nobody else notices.
-/

set_option autoImplicit false

namespace Coursework

open Json

namespace Text

/-- A text with blanks around it differs from what is between them in more than letter case. -/
theorem lower_eq_lower_trim_iff (s : String) : lower s = lower (trim s) ↔ trim s = s := by
  refine ⟨fun h => ?_, fun h => by rw [h]⟩
  obtain ⟨front, back, hchars, -, -⟩ := exists_of_trimChars s.toList
  have hlength : s.toList.length = (trimChars s.toList).length := by
    have hlower := congrArg (fun t : String => t.toList.length) h
    simpa only [lower, trim, String.toList_ofList, List.length_map] using hlower
  have hsum := congrArg List.length hchars
  rw [List.length_append, List.length_append] at hsum
  obtain rfl : front = [] := List.length_eq_zero_iff.1 (by omega)
  obtain rfl : back = [] := List.length_eq_zero_iff.1 (by omega)
  rw [List.nil_append, List.append_nil] at hchars
  rw [trim, ← hchars, String.ofList_toList]

end Text

namespace Endpoint

/-! ## The request for a new password -/

/-- How a request for a new password is answered whose sender was found out. -/
theorem passwordRoute_call {raw : RawRequest} {x : String} {context : Context}
    (hdecode : decodeText? passwordKind.decode raw.content = some (⟨x⟩, context)) (s : Server) :
    passwordRoute.call raw s =
      match Request.authenticate s.backend s.nonces context none with
      | (.error f, nonces) => (.refused f, { s with nonces := nonces })
      | (.ok i, nonces) =>
        let changed := changePassword ⟨⟨x⟩, none, none, some i, []⟩ { s with nonces := nonces }
        (Reply.ofResult (changed.1.map .ok), changed.2) := by
  have hrun : passwordRoute.call = Route.run passwordKind fun m s =>
      (Reply.ofResult ((changePassword m s).1.map .ok), (changePassword m s).2) := rfl
  rw [hrun, Route.run, materialize_of_authenticate rfl hdecode]
  rcases Request.authenticate s.backend s.nonces context none with ⟨f | i, nonces⟩ <;> rfl

/-- The salt of a new password, which is drawn from the entropy of the server. -/
def saltOf (s : Server) : String :=
  (s.entropy.drawHex Account.saltSize).1

/-- A request for a new password has set `pass` for the account `a`, under the email that it
shows. -/
structure Renewed (s : Server) (context : Context) (pass : String) (a : Account) (after : Server) :
    Prop where
  notBlank : Text.trim context.userEmail ≠ ""
  up : .account ∉ s.backend.down
  found : s.backend.store.account? (Text.trim context.userEmail) = some a
  stored : ∀ email, after.backend.store.account? email =
    if email = Text.trim context.userEmail then
      some { a with salt := saltOf s, passwordHash := Account.saltedHash (saltOf s) pass }
    else s.backend.store.account? email
  down : after.backend.down = s.backend.down
  nonces : after.nonces = s.nonces
  wording : after.wording = s.wording

/-- What a request for a new password does when it succeeds (`Renewed`).  Its sender is no trusted
local caller, so that it shows no nonce. -/
theorem renewed_of_call {s after : Server} (hkeyed : s.backend.store.Keyed) {raw : RawRequest}
    {x : String} {context : Context}
    (hdecode : decodeText? passwordKind.decode raw.content = some (⟨x⟩, context)) {v : Value}
    (hcall : passwordRoute.call raw s = (.content v, after)) :
    ∃ a, Renewed s context (Text.trim x) a after := by
  rw [passwordRoute_call hdecode] at hcall
  rcases hauthenticate : Request.authenticate s.backend s.nonces context none with
    ⟨f | i, nonces⟩ <;>
    rw [hauthenticate] at hcall
  · cases hcall
  · obtain ⟨hreply, rfl⟩ := Prod.mk.inj hcall
    have hok : (Request.authenticate s.backend s.nonces context none).1 = .ok i := by
      rw [hauthenticate]
    rcases changePassword_cases ⟨⟨x⟩, none, none, some i, []⟩ { s with nonces := nonces } with
      ⟨f, hrefused, -⟩ | ⟨written, duplicate, hnew, hput⟩
    · rw [hrefused] at hreply
      cases hreply
    · obtain ⟨_, ⟨⟩, hroot, hset⟩ := setPassword_of_withNewPassword hnew
      obtain ⟨-, rfl, -⟩ := Account.setPassword_eq_ok hset
      rcases Request.authenticate_cases hok with ⟨-, -, -, haccount⟩ | ⟨hnonce, -, -⟩
      · rw [haccount] at hroot
        cases hroot
      · have hcredentials := Request.checkCredentials_of_authenticate hok hnonce
        obtain ⟨hblank, hup, hfound, -⟩ := Request.checkCredentials_eq_ok_iff.1 hcredentials
        have hemail := hkeyed.account _ _ hfound
        have hstays : nonces = s.nonces := by
          rw [Request.authenticate, if_pos hnonce] at hauthenticate
          exact (Prod.mk.inj hauthenticate).2.symm
        refine ⟨i.account, hblank, hup, hfound, fun email => ?_, ?_, ?_, ?_⟩
        · rw [Store.account?_putAccount (Backend.putAccount_eq_ok hput)]
          simp only [hemail]
          rfl
        · exact (Backend.guarded_map_eq_ok hput).2
        · exact (nonces_changePassword _ _).trans hstays
        · exact wording_changePassword _ _

/-! ## Logging in afterwards -/

namespace Renewed

variable {s after : Server} {context : Context} {pass : String} {a : Account}
  (h : Renewed s context pass a after)
include h

/-- Who shows the email and a password that has the digest of the new one is identified. -/
theorem checkCredentials_of_same {login : Context}
    (hemail : Text.trim login.userEmail = Text.trim context.userEmail) :
    Request.checkCredentials after.backend login =
      if Account.saltedHash (saltOf s) pass = Account.saltedHash (saltOf s) login.userPass then
        .ok { a with salt := saltOf s, passwordHash := Account.saltedHash (saltOf s) pass }
      else .error .badCredentials := by
  have hstored := h.stored (Text.trim login.userEmail)
  rw [if_pos hemail] at hstored
  have hup : Operation.account ∉ after.backend.down := by
    rw [h.down]
    exact h.up
  rw [Request.checkCredentials, hemail, if_neg h.notBlank, Backend.account?, Backend.guarded,
    if_neg hup, ← hemail, hstored]
  simp only [Account.checkPassword_iff]

theorem checkCredentials_of_ne {login : Context}
    (hemail : Text.trim login.userEmail ≠ Text.trim context.userEmail) :
    Request.checkCredentials after.backend login = Request.checkCredentials s.backend login := by
  have hstored := h.stored (Text.trim login.userEmail)
  rw [if_neg hemail] at hstored
  rw [Request.checkCredentials, Request.checkCredentials, Backend.account?, Backend.account?,
    Backend.guarded, Backend.guarded, h.down, hstored]

theorem authenticate_eq {login : Context}
    (hother : login.nonce ≠ "" ∨ Text.trim login.userEmail ≠ Text.trim context.userEmail)
    (course : Option Course) :
    Request.authenticate after.backend after.nonces login course =
      Request.authenticate s.backend s.nonces login course := by
  rw [Request.authenticate, Request.authenticate, h.nonces]
  split
  · next hnonce => rw [h.checkCredentials_of_ne (hother.resolve_left (not_not_intro hnonce))]
  · rfl

theorem authRoute_of_lower_eq {login : RawRequest} {email q : String}
    (hlogin : Presents login email q) (hemail : Text.trim email = Text.trim context.userEmail)
    (hq : Text.lower q = Text.lower pass) :
    authRoute.call login after = (.content (confirmation a.email a.name a.role), after) := by
  obtain ⟨shown, hdecode, rfl, rfl, hnonce⟩ := hlogin
  rw [authRoute_call hdecode hnonce, h.checkCredentials_of_same hemail,
    if_pos (Account.saltedHash_congr hq.symm _)]

/-- Anything else is refused, unless it collides with the new password behind the salt
(`Digest.Collide`). -/
theorem authRoute_of_lower_ne {login : RawRequest} {email q : String}
    (hlogin : Presents login email q) (hemail : Text.trim email = Text.trim context.userEmail)
    (hq : Text.lower q ≠ Text.lower pass)
    (hcollide : ¬ Digest.Collide (Account.message (saltOf s) pass) (Account.message (saltOf s) q)) :
    authRoute.call login after = (.refused .badCredentials, after) := by
  obtain ⟨shown, hdecode, rfl, rfl, hnonce⟩ := hlogin
  have hdiffer : Account.saltedHash (saltOf s) pass ≠
      Account.saltedHash (saltOf s) shown.userPass := by
    intro hsame
    rcases (Account.saltedHash_eq_iff _ _ _).1 hsame with hlower | hcollides
    · exact hq hlower.symm
    · exact hcollide hcollides
  rw [authRoute_call hdecode hnonce, h.checkCredentials_of_same hemail, if_neg hdiffer]

theorem authRoute_of_other {login : RawRequest}
    (hother : ∀ shown, decodeText? authKind.decode login.content = some ((), shown) →
      shown.nonce ≠ "" ∨ Text.trim shown.userEmail ≠ Text.trim context.userEmail) :
    (authRoute.call login after).1 = (authRoute.call login s).1 := by
  have hrun : authRoute.call =
      Route.run authKind fun m s => (Reply.ofResult ((auth m).map .ok), s) := rfl
  rw [hrun, Route.run, Route.run]
  rcases hdecode : decodeText? authKind.decode login.content with _ | ⟨⟨⟩, shown⟩
  · have hsame : Request.unread authKind login.content after =
        Request.unread authKind login.content s := by rw [Request.unread, h.wording, Request.unread]
    rw [Request.materialize_of_unread hdecode, Request.materialize_of_unread hdecode, hsame]
  · rw [materialize_of_authenticate rfl hdecode, materialize_of_authenticate rfl hdecode,
      h.authenticate_eq (hother shown hdecode)]
    rcases Request.authenticate s.backend s.nonces shown none with ⟨f | i, nonces⟩ <;> rfl

end Renewed

/-- **A new password works as it was sent if it was sent without blanks around it**, and only then.
Let a request for a new password succeed, over a store that keeps accounts under their emails.

* Whoever then shows (`Presents`) the same email and the new password without the blanks around it,
  in whatever letter case, is confirmed; whoever shows anything else is refused, if it does not
  collide with the new password behind the salt.
* So the text of the request is itself confirmed if and only if there are no blanks around it.
* Whoever shows another email or a nonce is answered, and is identified at any endpoint
  (`Request.authenticate`), as before. -/
theorem new_password_works {s after : Server} (hkeyed : s.backend.store.Keyed) {raw : RawRequest}
    {x : String} {context : Context}
    (hdecode : decodeText? passwordKind.decode raw.content = some (⟨x⟩, context)) {v : Value}
    (hcall : passwordRoute.call raw s = (.content v, after)) :
    ∃ a, s.backend.store.account? (Text.trim context.userEmail) = some a ∧
      (∀ login email q, Presents login email q → Text.trim email = Text.trim context.userEmail →
        (Text.lower q = Text.lower (Text.trim x) →
          authRoute.call login after = (.content (confirmation a.email a.name a.role), after)) ∧
        (Text.lower q ≠ Text.lower (Text.trim x) →
          ¬ Digest.Collide (Account.message (saltOf s) (Text.trim x))
            (Account.message (saltOf s) q) →
          authRoute.call login after = (.refused .badCredentials, after))) ∧
      (∀ login email, Presents login email x → Text.trim email = Text.trim context.userEmail →
        ¬ Digest.Collide (Account.message (saltOf s) (Text.trim x)) (Account.message (saltOf s) x) →
        ((authRoute.call login after).1 = .content (confirmation a.email a.name a.role) ↔
          Text.trim x = x)) ∧
      (∀ login, (∀ shown, decodeText? authKind.decode login.content = some ((), shown) →
          shown.nonce ≠ "" ∨ Text.trim shown.userEmail ≠ Text.trim context.userEmail) →
        (authRoute.call login after).1 = (authRoute.call login s).1) ∧
      ∀ (shown : Context) course,
        shown.nonce ≠ "" ∨ Text.trim shown.userEmail ≠ Text.trim context.userEmail →
        Request.authenticate after.backend after.nonces shown course =
          Request.authenticate s.backend s.nonces shown course := by
  obtain ⟨a, h⟩ := renewed_of_call hkeyed hdecode hcall
  refine ⟨a, h.found, fun login email q hlogin hemail => ?_,
    fun login email hlogin hemail hcollide => ?_, fun login hother => h.authRoute_of_other hother,
    fun shown course hother => h.authenticate_eq hother course⟩
  · exact ⟨h.authRoute_of_lower_eq hlogin hemail, h.authRoute_of_lower_ne hlogin hemail⟩
  · rw [← Text.lower_eq_lower_trim_iff]
    constructor
    · intro hanswer
      refine Decidable.of_not_not fun hblanks => ?_
      rw [h.authRoute_of_lower_ne hlogin hemail hblanks hcollide] at hanswer
      cases hanswer
    · intro hsame
      rw [h.authRoute_of_lower_eq hlogin hemail hsame]

/-! ## Kim's new password -/

theorem decode_kimChange (old new : String) :
    decodeText? passwordKind.decode (Hall.kimChange old new).content =
      some (⟨new⟩, ⟨"", "", "kim@school.edu", old, ""⟩) := by
  rw [decodeText?, Hall.kimChange, Value.ofString?_text]
  rfl

def kimRenews (new : String) : Reply × Server :=
  passwordRoute.call (Hall.kimChange (Hall.digits 'a') new) (kimServer "kim@school.edu")

def granted : Reply → Bool
  | .content _ => true
  | .refused _ | .crashed => false

theorem exists_of_granted {outcome : Reply × Server} (h : granted outcome.1 = true) :
    ∃ v, outcome = (.content v, outcome.2) := by
  rcases outcome with ⟨_ | _ | _, after⟩
  · exact ⟨_, rfl⟩
  · cases h
  · cases h

/-- Kim sets a password and logs in with it in capitals. -/
theorem new_password_works_kim :
    granted (kimRenews (Hall.digits 'b')).1 = true ∧
      (authRoute.call (credentials "kim@school.edu" (Hall.digits 'B'))
        (kimRenews (Hall.digits 'b')).2).1 =
          .content (confirmation "kim@school.edu" (some "Kim") .user) := by
  have hgranted : granted (kimRenews (Hall.digits 'b')).1 = true := by
    rw [kimRenews, passwordRoute_call (decode_kimChange _ _)]
    decide +kernel
  obtain ⟨v, hcall⟩ := exists_of_granted hgranted
  have hkeyed : (kimServer "kim@school.edu").backend.store.Keyed :=
    (Seed.seeded_apply (kimSeed "kim@school.edu") .foreseeable).toProper.toKeyed
  obtain ⟨a, hfound, hlogin, -⟩ := new_password_works hkeyed (decode_kimChange _ _) hcall
  have hseen : ((kimServer "kim@school.edu").backend.store.account?
      (Text.trim "kim@school.edu")).map (fun a => (a.email, a.name, a.role)) =
        some ("kim@school.edu", some "Kim", .user) := by
    decide +kernel
  rw [hfound, Option.map_some, Option.some.injEq, Prod.mk.injEq, Prod.mk.injEq] at hseen
  obtain ⟨hemail, hname, hrole⟩ := hseen
  refine ⟨hgranted, ?_⟩
  rw [(hlogin _ _ _ (presents_credentials _ _) rfl).1 (by decide +kernel), hemail, hname, hrole]

/-- Kim sets a password with a blank before it, and cannot log in with what was sent. -/
theorem new_password_blank :
    granted (kimRenews (" " ++ Hall.digits 'b')).1 = true ∧
      (authRoute.call (credentials "kim@school.edu" (" " ++ Hall.digits 'b'))
        (kimRenews (" " ++ Hall.digits 'b')).2).1 = .refused .badCredentials := by
  have hgranted : granted (kimRenews (" " ++ Hall.digits 'b')).1 = true := by
    rw [kimRenews, passwordRoute_call (decode_kimChange _ _)]
    decide +kernel
  obtain ⟨v, hcall⟩ := exists_of_granted hgranted
  have hkeyed : (kimServer "kim@school.edu").backend.store.Keyed :=
    (Seed.seeded_apply (kimSeed "kim@school.edu") .foreseeable).toProper.toKeyed
  obtain ⟨a, h⟩ := renewed_of_call hkeyed (decode_kimChange _ _) hcall
  have hdiffer : Digest.sha256 (Account.message (saltOf (kimServer "kim@school.edu"))
      (Text.trim (" " ++ Hall.digits 'b'))) ≠
        Digest.sha256 (Account.message (saltOf (kimServer "kim@school.edu"))
          (" " ++ Hall.digits 'b')) := by
    decide +kernel
  refine ⟨hgranted, ?_⟩
  rw [h.authRoute_of_lower_ne (presents_credentials _ _) rfl (by decide +kernel)
    fun hcollide => hdiffer hcollide.same]

end Endpoint
end Coursework
