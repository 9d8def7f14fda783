import Coursework.Text.Decimal

/-!
# Decimal text and back

An integer in decimal is a text of digits behind at most a minus sign.  One that a signed 64-bit
field can hold is read back as it was (`int64?_decimal`), so that two such integers have different
texts.  So have two numbers that are filled up with zeros to one width (`padded_injective`).
-/

set_option autoImplicit false

namespace Coursework
namespace Text

theorem digitValue?_of_isDigit {c : Char} (h : c.isDigit = true) :
    digitValue? c = some (c.toNat - 48) :=
  if_pos (Char.isDigit_iff_toNat.1 h)

theorem naturalFrom?_of_isDigit {cs : List Char} (h : ∀ c ∈ cs, c.isDigit = true) (value : Nat) :
    naturalFrom? value cs = some (Nat.ofDigitChars 10 cs value) := by
  induction cs generalizing value with
  | nil => rfl
  | cons c rest ih =>
    rw [naturalFrom?, digitValue?_of_isDigit (h c List.mem_cons_self)]
    exact ih (fun d hd => h d (List.mem_cons_of_mem c hd)) _

theorem natural?_toDigits (k : Nat) : natural? (Nat.toDigits 10 k) = some k := by
  have hdigits : ∀ c ∈ Nat.toDigits 10 k, c.isDigit = true := fun c hc =>
    Nat.isDigit_of_mem_toDigits (by decide) (by decide) hc
  have hread := naturalFrom?_of_isDigit hdigits 0
  rw [Nat.ofDigitChars_toDigits (by decide) (by decide)] at hread
  cases hcs : Nat.toDigits 10 k with
  | nil => exact absurd hcs Nat.toDigits_ne_nil
  | cons c rest =>
    rw [hcs] at hread
    exact hread

theorem integer?_of_isDigit {c : Char} {rest : List Char} (h : c.isDigit = true) :
    integer? (c :: rest) = (natural? (c :: rest)).map fun n => (n : Int) := by
  rw [integer?]
  · rintro _ ⟨rfl, -⟩
    cases h
  · rintro _ ⟨rfl, -⟩
    cases h

theorem integer?_decimal (n : Int) : integer? (decimal n).toList = some n := by
  cases n with
  | ofNat k =>
    have hread := natural?_toDigits k
    rw [decimal, String.toList_ofList]
    cases hcs : Nat.toDigits 10 k with
    | nil => exact absurd hcs Nat.toDigits_ne_nil
    | cons c rest =>
      have hc : c.isDigit = true :=
        Nat.isDigit_of_mem_toDigits (b := 10) (n := k) (by decide) (by decide)
          (hcs ▸ List.mem_cons_self)
      rw [hcs] at hread
      rw [integer?_of_isDigit hc, hread]
      rfl
  | negSucc k =>
    rw [decimal, String.toList_ofList, integer?, natural?_toDigits]
    rfl

theorem decimal_injective : Function.Injective decimal := fun m n h => by
  have hread := integer?_decimal m
  rw [h, integer?_decimal] at hread
  exact (Option.some.inj hread).symm

/-- An integer that a signed 64-bit field can hold is read by `int64?` as `decimal` writes it. -/
theorem int64?_decimal {n : Int} (hmin : int64Min ≤ n) (hmax : n ≤ int64Max) :
    int64? (decimal n) = some n := by
  rw [int64?, integer?_decimal]
  exact if_pos ⟨hmin, hmax⟩

theorem mem_decimal {n : Int} {c : Char} (h : c ∈ (decimal n).toList) :
    c.isDigit = true ∨ c = '-' := by
  cases n with
  | ofNat k =>
    rw [decimal, String.toList_ofList] at h
    exact .inl (Nat.isDigit_of_mem_toDigits (by decide) (by decide) h)
  | negSucc k =>
    rw [decimal, String.toList_ofList] at h
    rcases List.mem_cons.1 h with rfl | hdigit
    · exact .inr rfl
    · exact .inl (Nat.isDigit_of_mem_toDigits (by decide) (by decide) hdigit)

/-! ## Zeros in front -/

theorem ofDigitChars_zeros (k : Nat) : Nat.ofDigitChars 10 (List.replicate k '0') 0 = 0 := by
  induction k with
  | zero => rfl
  | succ k ih => rw [List.replicate_succ, Nat.ofDigitChars_cons]; exact ih

theorem isDigit_of_mem_padded {width n : Nat} {c : Char} (h : c ∈ (padded width n).toList) :
    c.isDigit = true := by
  rw [padded, String.toList_ofList] at h
  obtain hzero | hdigit := List.mem_append.1 h
  · rw [(List.mem_replicate.1 hzero).2]
    rfl
  · exact Nat.isDigit_of_mem_toDigits (by decide) (by decide) hdigit

theorem ofDigitChars_padded (width n : Nat) :
    Nat.ofDigitChars 10 (padded width n).toList 0 = n := by
  rw [padded, String.toList_ofList, Nat.ofDigitChars_append, ofDigitChars_zeros,
    Nat.ofDigitChars_toDigits (by decide) (by decide)]

theorem padded_injective (width : Nat) : Function.Injective (padded width) := fun m n h => by
  rw [← ofDigitChars_padded width m, h, ofDigitChars_padded]

/-! ## Separators -/

theorem colon_notMem_decimal (n : Int) : ':' ∉ (decimal n).toList := by
  intro h
  rcases mem_decimal h with hdigit | hminus
  · cases hdigit
  · cases hminus

end Text
end Coursework
