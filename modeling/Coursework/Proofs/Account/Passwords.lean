import Coursework.Proofs.Account

/-!
# One password after another

A call that sets a password checks the form of the password first.  Then it writes a fresh salt and
the digest behind it, one after the other, into the account (`Account.setInPlace`).  What comes of
it is what `Account.setPassword` says (`Account.setInPlace_eq`).

Two passwords have one digest behind a salt if they differ in letter case alone, or if two different
messages have one SHA-256 digest (`Account.saltedHash_eq_iff`).  So after any sequence of calls the
account accepts the password of the last one that went through, in whatever letter case, and nothing
else that a collision does not let in (`Account.passwords_in_turn`).
-/

set_option autoImplicit false

namespace Coursework

/-! ## Digests and what they are of -/

namespace Text

theorem hexValue?_hexDigit {n : Nat} (h : n < 16) : hexValue? (hexDigit n) = some n := by
  revert n
  decide

theorem unhexChars?_flatMap (octets found : List UInt8) :
    unhexChars? (octets.flatMap hexOctet) found = some (found.reverse ++ octets) := by
  induction octets generalizing found with
  | nil => rw [List.flatMap_nil, unhexChars?, List.append_nil]
  | cons b rest ih =>
    have hb : b.toNat < 256 := b.toNat_lt_size
    have hvalue : UInt8.ofNat (16 * (b.toNat / 16) + b.toNat % 16) = b := by
      rw [Nat.div_add_mod, UInt8.ofNat_toNat]
    rw [List.flatMap_cons, hexOctet]
    simp only [List.cons_append, List.nil_append, unhexChars?]
    rw [hexValue?_hexDigit (by omega), hexValue?_hexDigit (by omega)]
    dsimp only
    rw [hvalue, ih, List.reverse_cons, List.append_assoc, List.singleton_append]

theorem unhex?_hex (octets : List UInt8) : unhex? (hex octets) = some octets := by
  rw [unhex?, hex, String.toList_ofList, unhexChars?_flatMap, List.reverse_nil, List.nil_append]

theorem hex_inj {a b : List UInt8} : hex a = hex b ↔ a = b := by
  refine ⟨fun h => ?_, congrArg hex⟩
  have hread := congrArg unhex? h
  rw [unhex?_hex, unhex?_hex] at hread
  exact Option.some.inj hread

/-- An ASCII hexadecimal digit, in either case.  `Digest.isSha256Hex` looks at characters; this says
which. -/
def IsHexDigit (c : Char) : Prop :=
  ('0' ≤ c ∧ c ≤ '9') ∨ ('a' ≤ c ∧ c ≤ 'f') ∨ ('A' ≤ c ∧ c ≤ 'F')

theorem isHexDigit_iff (c : Char) : isHexDigit c = true ↔ IsHexDigit c := by
  have hdigit : ('0' ≤ c ∧ c ≤ '9') ↔ (48 ≤ c.toNat ∧ c.toNat ≤ 57) := Iff.rfl
  have hsmall : ('a' ≤ c ∧ c ≤ 'f') ↔ (97 ≤ c.toNat ∧ c.toNat ≤ 102) := Iff.rfl
  have hcapital : ('A' ≤ c ∧ c ≤ 'F') ↔ (65 ≤ c.toNat ∧ c.toNat ≤ 70) := Iff.rfl
  rw [IsHexDigit, hdigit, hsmall, hcapital, isHexDigit, hexValue?]
  split
  · next h => simp [h]
  · next h =>
    split
    · next h' => simp [h']
    · next h' => split <;> simp_all

end Text

namespace Digest

/-- The form of a digest: sixty-four ASCII hexadecimal digits (`IsHexDigit`). -/
structure IsForm (s : String) : Prop where
  length : s.toList.length = 64
  digits : ∀ c ∈ s.toList, Text.IsHexDigit c

theorem isSha256Hex_iff (s : String) : isSha256Hex s = true ↔ IsForm s := by
  rw [isSha256Hex, Bool.and_eq_true, beq_iff_eq, List.all_eq_true]
  simp only [Text.isHexDigit_iff]
  exact ⟨fun h => ⟨h.1, h.2⟩, fun h => ⟨h.length, h.digits⟩⟩

/-- Two different messages with one `sha256` digest. -/
structure Collide (m n : List UInt8) : Prop where
  different : m ≠ n
  same : sha256 m = sha256 n

theorem sha256Hex_eq_iff (m n : List UInt8) : sha256Hex m = sha256Hex n ↔ m = n ∨ Collide m n := by
  rw [sha256Hex, sha256Hex, Text.hex_inj]
  constructor
  · intro h
    by_cases hsame : m = n
    · exact .inl hsame
    · exact .inr ⟨hsame, h⟩
  · rintro (rfl | h)
    · rfl
    · exact h.same

end Digest

namespace Account

/-- What the `saltedHash` is the digest of: the octets of the salt, and of the password in small
letters. -/
def message (salt pass : String) : List UInt8 :=
  Text.utf8 (salt ++ Text.lower pass)

theorem message_inj {salt p q : String} :
    message salt p = message salt q ↔ Text.lower p = Text.lower q := by
  constructor
  · intro h
    have hread := congrArg Text.ofUtf8? h
    rw [message, message, Text.ofUtf8?_utf8, Text.ofUtf8?_utf8, Option.some.injEq] at hread
    have hchars := congrArg String.toList hread
    rw [String.toList_append, String.toList_append, List.append_cancel_left_eq] at hchars
    exact String.toList_inj.1 hchars
  · intro h
    rw [message, message, h]

/-- Behind a salt two passwords have one digest if they differ in letter case alone, or
`Collide`. -/
theorem saltedHash_eq_iff (salt p q : String) :
    saltedHash salt p = saltedHash salt q ↔
      Text.lower p = Text.lower q ∨ Digest.Collide (message salt p) (message salt q) := by
  rw [← @message_inj salt p q, ← Digest.sha256Hex_eq_iff]
  rfl

end Account

/-! ## One call -/

/-- A call to set a password, with the salt that is drawn for it. -/
structure PasswordCall where
  pass : String
  salt : String

namespace Account

/-- Set a password in place: it is held against the old one, and then the salt and the digest are
written.  It is the same as `setPassword`, by `passwords_in_turn`. -/
def setInPlace (a : Account) (c : PasswordCall) : Except Invalid Bool × Account :=
  if Digest.isSha256Hex c.pass then
    let duplicate := a.checkPassword c.pass
    let a := { a with salt := c.salt }
    let a := { a with passwordHash := saltedHash a.salt c.pass }
    (.ok duplicate, a)
  else (.error ⟨.digest, "password must be a SHA-256 hex digest"⟩, a)

theorem setInPlace_eq (a : Account) (c : PasswordCall) :
    a.setInPlace c =
      match a.setPassword c.pass c.salt with
      | .ok (b, duplicate) => (.ok duplicate, b)
      | .error e => (.error e, a) := by
  rw [setInPlace, setPassword]
  split <;> rfl

theorem setInPlace_cases (a : Account) (c : PasswordCall) :
    (¬ Digest.IsForm c.pass ∧ ∃ e, a.setInPlace c = (.error e, a)) ∨
      (Digest.IsForm c.pass ∧ a.setInPlace c = (.ok (a.checkPassword c.pass),
        { a with salt := c.salt, passwordHash := saltedHash c.salt c.pass })) := by
  rw [← Digest.isSha256Hex_iff, setInPlace]
  split
  · next hform => exact .inr ⟨hform, rfl⟩
  · next hform => exact .inl ⟨hform, _, rfl⟩

/-- What a call to set a password is answered, and what it does to the account, by whether its text
`IsForm`. -/
structure Sets (a : Account) (c : PasswordCall) (answer : Except Invalid Bool) (after : Account) :
    Prop where
  refused_iff : (∃ e, answer = .error e) ↔ ¬ Digest.IsForm c.pass
  unchanged : ∀ e, answer = .error e → after = a
  duplicate : ∀ d, answer = .ok d → d = a.checkPassword c.pass
  changed : ∀ d, answer = .ok d →
    after = { a with salt := c.salt, passwordHash := after.passwordHash }

theorem sets_setInPlace (a : Account) (c : PasswordCall) :
    a.Sets c (a.setInPlace c).1 (a.setInPlace c).2 := by
  rcases a.setInPlace_cases c with ⟨hform, e, h⟩ | ⟨hform, h⟩ <;> rw [h]
  · exact ⟨iff_of_true ⟨e, rfl⟩ hform, fun _ _ => rfl, nofun, nofun⟩
  · refine ⟨iff_of_false nofun (not_not_intro hform), nofun, fun d hd => ?_, fun _ _ => rfl⟩
    exact (Except.ok.inj hd).symm

/-! ## All calls -/

def setAll (a : Account) (calls : List PasswordCall) : Account :=
  calls.foldl (fun a c => (a.setInPlace c).2) a

theorem setAll_append (a : Account) (front back : List PasswordCall) :
    a.setAll (front ++ back) = (a.setAll front).setAll back :=
  List.foldl_append

theorem setAll_cons (a : Account) (c : PasswordCall) (calls : List PasswordCall) :
    a.setAll (c :: calls) = (a.setInPlace c).2.setAll calls := rfl

theorem setAll_of_refused (a : Account) {calls : List PasswordCall}
    (h : ∀ c ∈ calls, ¬ Digest.IsForm c.pass) : a.setAll calls = a := by
  induction calls with
  | nil => rfl
  | cons c rest ih =>
    obtain ⟨hc, hrest⟩ := List.forall_mem_cons.1 h
    rcases a.setInPlace_cases c with ⟨-, e, hcall⟩ | ⟨hform, -⟩
    · rw [setAll_cons, hcall, ih hrest]
    · exact absurd hform hc

/-- After the last call that went through, the account keeps the digest of that call. -/
theorem checkPassword_setAll (a : Account) {front back : List PasswordCall} {c : PasswordCall}
    (hc : Digest.IsForm c.pass) (hlast : ∀ d ∈ back, ¬ Digest.IsForm d.pass) (q : String) :
    (a.setAll (front ++ c :: back)).checkPassword q = true ↔
      saltedHash c.salt q = saltedHash c.salt c.pass := by
  rw [setAll_append, setAll_cons, setAll_of_refused _ hlast, checkPassword_iff]
  rcases (a.setAll front).setInPlace_cases c with ⟨hform, -⟩ | ⟨-, hcall⟩
  · exact absurd hc hform
  · rw [hcall]
    exact eq_comm

theorem checkPassword_of_empty {a : Account} (h : a.passwordHash = "") (q : String) :
    a.checkPassword q = false := by
  rw [checkPassword, if_pos h]

/-- **Each password counts until the next one.**  Let calls with arbitrary texts and salts set the
password of an account.

* A call (`setInPlace`) is refused exactly if its text has not the form of a digest
  (`Digest.IsForm`), and then changes nothing.  One that goes through says whether the account
  accepted that password just before, and changes the salt and the digest only.
* After the last of all calls (`setAll`) that went through, `checkPassword` accepts its password in
  every letter case, and any other text only if that collides with the password behind the salt
  (`Digest.Collide`).
* An account without a digest accepts nothing. -/
theorem passwords_in_turn (a : Account) (calls : List PasswordCall) :
    (∀ (b : Account) c, b.setInPlace c =
      match b.setPassword c.pass c.salt with
      | .ok (after, duplicate) => (.ok duplicate, after)
      | .error e => (.error e, b)) ∧
    (∀ front c back, calls = front ++ c :: back →
      (a.setAll front).Sets c ((a.setAll front).setInPlace c).1 (a.setAll (front ++ [c]))) ∧
    (∀ front c back, calls = front ++ c :: back → Digest.IsForm c.pass →
      (∀ d ∈ back, ¬ Digest.IsForm d.pass) → ∀ q,
        (Text.lower q = Text.lower c.pass → (a.setAll calls).checkPassword q = true) ∧
        (Text.lower q ≠ Text.lower c.pass → (a.setAll calls).checkPassword q = true →
          Digest.Collide (message c.salt q) (message c.salt c.pass))) ∧
    ((a.setAll calls).passwordHash = "" → ∀ q, (a.setAll calls).checkPassword q = false) := by
  refine ⟨setInPlace_eq, fun front c back _ => ?_, ?_, checkPassword_of_empty⟩
  · rw [setAll_append]
    exact sets_setInPlace _ c
  · rintro front c back rfl hc hlast q
    rw [checkPassword_setAll a hc hlast, saltedHash_eq_iff]
    exact ⟨.inl, fun hcase haccepts => haccepts.resolve_left hcase⟩

end Account
end Coursework
