import Coursework.Text.Lossy

/-!
# Text and its octets

The octets of a text are those of its characters, one after the other (`utf8_ofList`), so that what
is read from octets can be found out character by character.  Both ways of reading octets give back
a text that was written as octets: the strict one (`ofUtf8?_utf8`), and the one that never fails
(`lossy_utf8`), which takes a mark at the beginning for no part of the text.
-/

set_option autoImplicit false

namespace Coursework
namespace Text

theorem utf8_ofList (cs : List Char) : utf8 (String.ofList cs) =
      cs.flatMap String.utf8EncodeChar := by
  rw [utf8, String.toByteArray_ofList, List.utf8Encode]
  simp

theorem utf8_eq_flatMap (s : String) : utf8 s = s.toList.flatMap String.utf8EncodeChar := by
  rw [← utf8_ofList, String.ofList_toList]

@[simp] theorem utf8_append (s t : String) : utf8 (s ++ t) = utf8 s ++ utf8 t := by
  rw [utf8_eq_flatMap, utf8_eq_flatMap, utf8_eq_flatMap, String.toList_append, List.flatMap_append]

theorem ofUtf8?_utf8 (s : String) : ofUtf8? (utf8 s) = some s := by
  have hoctets : (⟨(utf8 s).toArray⟩ : ByteArray) = s.toByteArray := by simp [utf8]
  rw [ofUtf8?, hoctets, String.fromUTF8?, dif_pos s.isValidUTF8]
  rfl

/-! ## One character -/

theorem encodeChar_of_ascii {c : Char} (h : c.toNat < 128) :
    String.utf8EncodeChar c = [UInt8.ofNat c.toNat] := by
  rw [String.utf8EncodeChar]
  exact if_pos (Nat.le_of_lt_succ h)

theorem high_of_mem_encodeChar {c : Char} (h : 128 ≤ c.toNat) {b : UInt8}
    (hb : b ∈ String.utf8EncodeChar c) : 128 ≤ b.toNat := by
  have hc : c.val.toNat = c.toNat := rfl
  rw [String.utf8EncodeChar] at hb
  simp only [hc] at hb
  split at hb
  · omega
  · split at hb
    · simp only [List.mem_cons, List.not_mem_nil, or_false] at hb
      rcases hb with rfl | rfl <;> rw [UInt8.toNat_ofNat'] <;> omega
    · split at hb
      · simp only [List.mem_cons, List.not_mem_nil, or_false] at hb
        rcases hb with rfl | rfl | rfl <;> rw [UInt8.toNat_ofNat'] <;> omega
      · simp only [List.mem_cons, List.not_mem_nil, or_false] at hb
        rcases hb with rfl | rfl | rfl | rfl <;> rw [UInt8.toNat_ofNat'] <;> omega

theorem toNat_valid (c : Char) : c.toNat < 0xD800 ∨ 0xDFFF < c.toNat ∧ c.toNat < 0x110000 :=
  c.valid

theorem lossyUtf8From_lead {b : UInt8} {p : Utf8Pending} (h : utf8Lead b = .inr (some p))
    (found : List Char) (rest : List UInt8) :
    lossyUtf8From none found (b :: rest) = lossyUtf8From (some p) found rest := by
  rw [lossyUtf8From, utf8Begin, h]

/-- Each octet behind the first says six bits of a character, so that `lossyUtf8From` goes on with
them. -/
theorem lossyUtf8From_next {value left k : Nat} {low high : UInt8} (hk : k < 64)
    (hlow : low.toNat ≤ k + 128) (hhigh : k + 128 ≤ high.toNat) (found : List Char)
    (rest : List UInt8) :
    lossyUtf8From (some ⟨value, left, low, high⟩) found (UInt8.ofNat (k + 128) :: rest) =
      if left ≤ 1 then lossyUtf8From none (Char.ofNat (value * 64 + k) :: found) rest
      else lossyUtf8From (some ⟨value * 64 + k, left - 1, 0x80, 0xBF⟩) found rest := by
  have hb : (UInt8.ofNat (k + 128)).toNat = k + 128 := by rw [UInt8.toNat_ofNat']; omega
  rw [lossyUtf8From]
  simp only [UInt8.le_iff_toNat_le, hb, if_pos (And.intro hlow hhigh), Nat.add_sub_cancel]

/-! What the first octet of a character says.  Of three and of four octets the first may narrow the
second, so that nothing is written in more octets than it takes. -/

theorem utf8Lead_two {n : Nat} (hlow : 2 ≤ n) (hhigh : n < 32) :
    utf8Lead (UInt8.ofNat (n % 32 + 192)) = .inr (some ⟨n, 1, 0x80, 0xBF⟩) := by
  have hb : (UInt8.ofNat (n % 32 + 192)).toNat = n + 192 := by
    rw [UInt8.toNat_ofNat']
    omega
  simp only [utf8Lead, hb]
  rw [if_neg (by omega), if_pos (by omega), Nat.add_sub_cancel]

theorem utf8Lead_three {n : Nat} (h : n < 16) :
    utf8Lead (UInt8.ofNat (n % 16 + 224)) =
      .inr (some ⟨n, 2, if n + 224 = 0xE0 then 0xA0 else 0x80,
        if n + 224 = 0xED then 0x9F else 0xBF⟩) := by
  have hb : (UInt8.ofNat (n % 16 + 224)).toNat = n + 224 := by
    rw [UInt8.toNat_ofNat']
    omega
  simp only [utf8Lead, hb]
  rw [if_neg (by omega), if_neg (by omega), if_pos (by omega), Nat.add_sub_cancel]

theorem utf8Lead_four {n : Nat} (h : n < 5) :
    utf8Lead (UInt8.ofNat (n % 8 + 240)) =
      .inr (some ⟨n, 3, if n + 240 = 0xF0 then 0x90 else 0x80,
        if n + 240 = 0xF4 then 0x8F else 0xBF⟩) := by
  have hb : (UInt8.ofNat (n % 8 + 240)).toNat = n + 240 := by
    rw [UInt8.toNat_ofNat']
    omega
  simp only [utf8Lead, hb]
  rw [if_neg (by omega), if_neg (by omega), if_neg (by omega), if_pos (by omega),
    Nat.add_sub_cancel]

/-- A character is read from the octets of its encoding, whatever was found before and comes
behind. -/
theorem lossyUtf8From_encodeChar (c : Char) (found : List Char) (rest : List UInt8) :
    lossyUtf8From none found (String.utf8EncodeChar c ++ rest) =
      lossyUtf8From none (c :: found) rest := by
  have hc : c.val.toNat = c.toNat := rfl
  have hvalid := toNat_valid c
  have hback : ∀ n, n = c.toNat → Char.ofNat n = c := fun n hn => hn ▸ Char.ofNat_toNat c
  have hlow : ∀ n, (0x80 : UInt8).toNat ≤ n % 64 + 128 := fun n => Nat.le_add_left 128 _
  have hhigh : ∀ n, n % 64 + 128 ≤ (0xBF : UInt8).toNat := fun n => by
    show _ ≤ 191
    omega
  rw [String.utf8EncodeChar]
  simp only [hc]
  split
  · have hb : (UInt8.ofNat c.toNat).toNat = c.toNat := by rw [UInt8.toNat_ofNat']; omega
    rw [List.singleton_append, lossyUtf8From, utf8Begin, utf8Lead]
    simp only [hb]
    rw [if_pos (by omega), Char.ofNat_toNat]
  · split
    · -- two octets
      rw [List.cons_append, List.singleton_append,
        lossyUtf8From_lead (utf8Lead_two (by omega) (by omega)),
        lossyUtf8From_next (Nat.mod_lt _ (by decide)) (hlow _) (hhigh _), if_pos (Nat.le_refl 1),
        hback _ (by omega)]
    · split
      · -- three octets
        rw [List.cons_append, List.cons_append, List.singleton_append,
          lossyUtf8From_lead (utf8Lead_three (by omega)),
          lossyUtf8From_next (Nat.mod_lt _ (by decide)), if_neg (by decide),
          lossyUtf8From_next (Nat.mod_lt _ (by decide)) (hlow _) (hhigh _), if_pos (Nat.le_refl 1),
          hback _ (by omega)]
        · split
          · show 160 ≤ _
            omega
          · exact hlow _
        · split
          · show _ ≤ 159
            omega
          · exact hhigh _
      · -- four octets
        rw [List.cons_append, List.cons_append, List.cons_append, List.singleton_append,
          lossyUtf8From_lead (utf8Lead_four (by omega)),
          lossyUtf8From_next (Nat.mod_lt _ (by decide)), if_neg (by decide),
          lossyUtf8From_next (Nat.mod_lt _ (by decide)) (hlow _) (hhigh _), if_neg (by decide),
          lossyUtf8From_next (Nat.mod_lt _ (by decide)) (hlow _) (hhigh _),
          if_pos (Nat.le_refl 1), hback _ (by omega)]
        · split
          · show 144 ≤ _
            omega
          · exact hlow _
        · split
          · show _ ≤ 143
            omega
          · exact hhigh _

theorem lossyUtf8From_utf8 (s : String) (found : List Char) :
    lossyUtf8From none found (utf8 s) = found.reverse ++ s.toList := by
  rw [utf8_eq_flatMap]
  generalize s.toList = cs
  induction cs generalizing found with
  | nil => simp [lossyUtf8From]
  | cons c rest ih =>
    rw [List.flatMap_cons, lossyUtf8From_encodeChar, ih]
    simp

/-- A text that begins with an ASCII character is read as it was written.  It could begin with the
mark of an encoding otherwise, which `lossy` drops. -/
theorem lossy_utf8 {s : String} {c : Char} {cs : List Char} (h : s.toList = c :: cs)
    (hc : c.toNat < 128) : lossy (utf8 s) = s := by
  have hoctets : utf8 s = UInt8.ofNat c.toNat :: cs.flatMap String.utf8EncodeChar := by
    rw [utf8_eq_flatMap, h, List.flatMap_cons, encodeChar_of_ascii hc]
    rfl
  have hfirst : ∀ b : UInt8, 128 ≤ b.toNat → ∀ rest, utf8 s ≠ b :: rest := by
    intro b hb rest heq
    have hbc := (List.cons.inj (hoctets.symm.trans heq)).1
    rw [← hbc, UInt8.toNat_ofNat'] at hb
    omega
  have hread : lossy (utf8 s) = String.ofList (lossyUtf8From none [] (utf8 s)) := by
    unfold lossy
    congr 1
    split
    · next heq => exact absurd heq (hfirst _ (by decide) _)
    · next heq => exact absurd heq (hfirst _ (by decide) _)
    · next heq => exact absurd heq (hfirst _ (by decide) _)
    · rfl
  rw [hread, lossyUtf8From_utf8, List.reverse_nil, List.nil_append, String.ofList_toList]

end Text
end Coursework
