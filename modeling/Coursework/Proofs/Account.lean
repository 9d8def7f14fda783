import Coursework.Account
import Coursework.Proofs.Text.Utf8

/-!
# Which passwords an account accepts

An account keeps a salt and the digest of salt and password.  To compare two digests every octet of
them is looked at, and all differences are gathered in one octet (`Digest.sameText`).  That this is
equality (`Digest.sameText_iff`) and that no digest is empty are what there is to know, so that an
account accepts a password exactly when it keeps its digest (`Account.checkPassword_iff`), and one
with a new password accepts that password in whatever letter case.
-/

set_option autoImplicit false

namespace Coursework

namespace Digest

/-- Differences are gathered: the fold in `Digest.sameText` comes to zero exactly if no two octets
differ. -/
theorem foldl_or_xor_eq_zero_iff (ps : List (UInt8 × UInt8)) (seen : UInt8) :
    ps.foldl (fun seen p => seen ||| (p.1 ^^^ p.2)) seen = 0 ↔ seen = 0 ∧ ∀ p ∈ ps, p.1 = p.2 := by
  induction ps generalizing seen with
  | nil => simp
  | cons p rest ih =>
    rw [List.foldl_cons, ih, UInt8.or_eq_zero_iff, UInt8.xor_eq_zero_iff, List.forall_mem_cons,
      and_assoc]

theorem forall_zip_iff {as bs : List UInt8} (hlength : as.length = bs.length) :
    (∀ p ∈ as.zip bs, p.1 = p.2) ↔ as = bs := by
  constructor
  · intro h
    refine List.ext_getElem hlength fun n ha hb => ?_
    have hn : n < (as.zip bs).length := by
      rw [List.length_zip]
      exact Nat.lt_min.2 ⟨ha, hb⟩
    have hpair := h (as.zip bs)[n] (List.getElem_mem hn)
    rwa [List.getElem_zip] at hpair
  · rintro rfl p hp
    obtain ⟨n, hn, rfl⟩ := List.mem_iff_getElem.1 hp
    rw [List.getElem_zip]

theorem sameText_iff (a b : String) : sameText a b = true ↔ a = b := by
  rw [sameText, Bool.and_eq_true, beq_iff_eq, beq_iff_eq, foldl_or_xor_eq_zero_iff]
  constructor
  · rintro ⟨hsize, -, hpairs⟩
    have hoctets : Text.utf8 a = Text.utf8 b := (forall_zip_iff hsize).1 hpairs
    have hread := congrArg Text.ofUtf8? hoctets
    rw [Text.ofUtf8?_utf8, Text.ofUtf8?_utf8] at hread
    exact Option.some.inj hread
  · rintro rfl
    exact ⟨rfl, rfl, (forall_zip_iff rfl).2 rfl⟩

theorem sha256Hex_ne_empty (message : List UInt8) : sha256Hex message ≠ "" :=
  Text.hex_cons_ne_empty _ _

end Digest

namespace Account

theorem saltedHash_congr {p q : String} (h : Text.lower p = Text.lower q) (salt : String) :
    saltedHash salt p = saltedHash salt q := by
  rw [saltedHash, saltedHash, h]

theorem saltedHash_ne_empty (salt pass : String) : saltedHash salt pass ≠ "" :=
  Digest.sha256Hex_ne_empty _

/-- An account accepts the passwords whose `saltedHash`, behind its salt, is the one that it
keeps. -/
theorem checkPassword_iff (a : Account) (pass : String) :
    a.checkPassword pass = true ↔ a.passwordHash = saltedHash a.salt pass := by
  rw [checkPassword]
  split
  · next hempty =>
    rw [hempty]
    exact iff_of_false Bool.false_ne_true (saltedHash_ne_empty a.salt pass).symm
  · rw [Digest.sameText_iff]
    exact eq_comm

/-- What is known of an account that got a new password from `setPassword`: the text had the form of
a digest, and salt and digest are the new ones. -/
theorem setPassword_eq_ok {a b : Account} {pass salt : String} {duplicate : Bool}
    (h : a.setPassword pass salt = .ok (b, duplicate)) :
    Digest.isSha256Hex pass = true ∧
      b = { a with salt := salt, passwordHash := saltedHash salt pass } ∧
      duplicate = a.checkPassword pass := by
  rw [setPassword] at h
  split at h
  · next hform =>
    cases h
    exact ⟨hform, rfl, rfl⟩
  · cases h

/-- An account with a new password accepts the password and what has the same digest. -/
theorem checkPassword_of_setPassword {a b : Account} {pass salt : String} {duplicate : Bool}
    (h : a.setPassword pass salt = .ok (b, duplicate)) (q : String) :
    b.checkPassword q = true ↔ saltedHash salt pass = saltedHash salt q := by
  obtain ⟨-, rfl, -⟩ := setPassword_eq_ok h
  exact checkPassword_iff _ q

end Account
end Coursework
