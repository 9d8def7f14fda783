import Coursework.Proofs.Json.Records
import Coursework.Text.Hex
import Mathlib.Algebra.GroupWithZero.Nat

/-!
# The size of a document

An object is as long as its members together, each with the comma or the brace behind it
(`Value.length_octets_object`).  So what a member adds to an object that it is put into is known
without looking at the others (`Value.sum_memberSize_insertMember`).
-/

set_option autoImplicit false

namespace Coursework
namespace Json

theorem length_encode_append (front back : List Char) :
    (encode (front ++ back)).length = (encode front).length + (encode back).length := by
  rw [encode, List.flatMap_append, List.length_append]

theorem length_encode_cons {c : Char} (h : c.toNat < 128) (cs : List Char) :
    (encode (c :: cs)).length = (encode cs).length + 1 := by
  rw [encode, List.flatMap_cons, List.length_append, Text.encodeChar_of_ascii h]
  exact Nat.add_comm _ _

theorem length_encode_quoted_hex (octets : List UInt8) :
    (encode (quoted (Text.hex octets))).length = 2 * octets.length + 2 := by
  have hdigit : ∀ n < 16, (encode (quotedChar (Text.hexDigit n))).length = 1 := by decide
  have hdigits : (encode ((octets.flatMap Text.hexOctet).flatMap quotedChar)).length =
      2 * octets.length := by
    induction octets with
    | nil => rfl
    | cons b octets ih =>
      have hhigh := hdigit (b.toNat / 16) (by have := b.toNat_lt; omega)
      have hlow := hdigit (b.toNat % 16) (by omega)
      rw [List.flatMap_cons, List.flatMap_append, length_encode_append, ih, Text.hexOctet,
        List.flatMap_cons, List.flatMap_singleton, length_encode_append, hhigh, hlow,
        List.length_cons]
      omega
  rw [quoted, Text.hex, String.toList_ofList, length_encode_cons (by decide), length_encode_append,
    hdigits]
  rfl

namespace Value

theorem octets_eq_encode (v : Value) : v.octets = encode v.chars :=
  Text.utf8_ofList v.chars

/-- The octets of a member, with the mark in it and the one behind it. -/
def memberSize (m : String × Value) : Nat :=
  (encode (quoted m.1)).length + m.2.octets.length + 2

theorem length_encode_memberChars (m : String × Value) (rest : List (String × Value)) :
    (encode (memberChars (m :: rest))).length + 1 = ((m :: rest).map memberSize).sum := by
  induction rest generalizing m with
  | nil =>
    rw [memberChars, length_encode_append, length_encode_cons (by decide), List.map_singleton,
      List.sum_singleton, memberSize, octets_eq_encode]
    omega
  | cons n rest ih =>
    rw [memberChars, length_encode_append, length_encode_cons (by decide), length_encode_append,
      length_encode_cons (by decide), List.map_cons, List.sum_cons, ← ih n, memberSize,
      octets_eq_encode]
    · omega
    · exact List.cons_ne_nil n rest

theorem length_octets_object (members : List (String × Value)) :
    (object members).octets.length =
      (members.map memberSize).sum + if members = [] then 2 else 1 := by
  rw [octets_eq_encode, chars, length_encode_cons (by decide), length_encode_append]
  cases members with
  | nil => rfl
  | cons m rest =>
    rw [← length_encode_memberChars, if_neg (List.cons_ne_nil m rest),
      length_encode_cons (by decide)]
    rfl

theorem insertMember_ne_nil (key : String) (v : Value) (members : List (String × Value)) :
    insertMember key v members ≠ [] := by
  intro hnil
  have hlookup := lookup_insertMember_self key v members
  rw [hnil] at hlookup
  cases hlookup

/-- What a member takes that is put in among others is its own size, less that of the one whose
place it takes. -/
theorem sum_memberSize_insertMember {members : List (String × Value)} (h : KeysIncrease members)
    (key : String) (v : Value) :
    ((insertMember key v members).map memberSize).sum +
        ((members.lookup key).elim 0 fun old => memberSize (key, old)) =
      (members.map memberSize).sum + memberSize (key, v) := by
  induction members with
  | nil => simp [insertMember]
  | cons m rest ih =>
    obtain ⟨hfirst, hrest⟩ := List.pairwise_cons.1 h
    rw [insertMember]
    split
    · next hlt =>
      have hnone : (m :: rest).lookup key = none := by
        refine List.lookup_eq_none_iff.2 fun e he => bne_iff_ne.2 ?_
        rintro rfl
        obtain rfl | he := List.mem_cons.1 he
        · exact String.lt_irrefl _ hlt
        · exact String.lt_irrefl _ (String.lt_trans hlt (hfirst e he))
      rw [hnone, Option.elim_none, List.map_cons, List.sum_cons]
      omega
    · split
      · next heq =>
        obtain ⟨_, old⟩ := m
        subst heq
        rw [List.lookup_cons_self, Option.elim_some, List.map_cons, List.sum_cons, List.map_cons,
          List.sum_cons]
        omega
      · next hne =>
        have hlookup : (m :: rest).lookup key = rest.lookup key := by
          rw [List.lookup_cons, beq_false_of_ne hne]
        have hih := ih hrest
        rw [hlookup, List.map_cons, List.sum_cons, List.map_cons, List.sum_cons]
        omega

end Value
end Json
end Coursework
