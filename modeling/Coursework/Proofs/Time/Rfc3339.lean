import Mathlib.Algebra.Group.Nat.Defs
import Coursework.Proofs.Text.Decimal
import Coursework.Proofs.Time.Calendar
import Coursework.Time.Rfc3339

/-!
# Moments in text and back

Whatever moment can be written in RFC 3339 is read back as it was, with its instant to the
nanosecond and with its offset (`Moment.ofRfc3339?_of_write`).

Numbers are written at a fixed width and read at that width (`digits?_padded`).  The fraction of a
second is written without the zeros at its end and read from the left, each digit by its weight;
zeros at the end have none (`weight_append_zeros`).
-/

set_option autoImplicit false

namespace Coursework
namespace Time

/-! ## Numbers of a fixed width -/

/-- Digits `cs` of a number `n` at a fixed width. -/
structure Spelled (width n : Nat) (cs : List Char) : Prop where
  length : cs.length = width
  digits : ∀ c ∈ cs, c.isDigit = true
  value : Nat.ofDigitChars 10 cs 0 = n

theorem spelled_padded {width n : Nat} (hwidth : 0 < width) (h : n < 10 ^ width) :
    Spelled width n (Text.padded width n).toList := by
  have hlength := (Nat.length_toDigits_le_iff (b := 10) (by decide) hwidth).2 h
  refine ⟨?_, fun c => Text.isDigit_of_mem_padded, Text.ofDigitChars_padded width n⟩
  rw [Text.padded, String.toList_ofList, List.length_append, List.length_replicate]
  omega

theorem getLast?_padded (width n : Nat) :
    ∃ c, (Text.padded width n).toList.getLast? = some c ∧ c.isDigit = true := by
  obtain ⟨c, hc⟩ := Option.ne_none_iff_exists'.1
    (mt List.getLast?_eq_none_iff.1 (Nat.toDigits_ne_nil (b := 10) (n := n)))
  refine ⟨c, ?_, Nat.isDigit_of_mem_toDigits (by decide) (by decide) (List.mem_of_getLast? hc)⟩
  rw [Text.padded, String.toList_ofList, List.getLast?_append, hc, Option.some_or]

namespace Moment

theorem digits?_append {cs : List Char} (h : ∀ c ∈ cs, c.isDigit = true) (value : Nat)
    (rest : List Char) :
    digits? value cs.length (cs ++ rest) = some (Nat.ofDigitChars 10 cs value, rest) := by
  induction cs generalizing value with
  | nil => rfl
  | cons c cs ih =>
    rw [List.length_cons, List.cons_append, digits?,
      Text.digitValue?_of_isDigit (h c List.mem_cons_self)]
    exact ih (fun d hd => h d (List.mem_cons_of_mem c hd)) _

/-- A number that `padded` writes at a fixed width is read by `digits?` at that width. -/
theorem digits?_padded {width n : Nat} (hwidth : 0 < width) (h : n < 10 ^ width)
    (rest : List Char) :
    digits? 0 width ((Text.padded width n).toList ++ rest) = some (n, rest) := by
  have hspelled := spelled_padded hwidth h
  have hread := digits?_append hspelled.digits 0 rest
  rwa [hspelled.length, hspelled.value] at hread

/-! ## Fractions -/

/-- What digits of a fraction count for when the first one counts for `unit`, as `fraction?` adds
them up. -/
def weight (unit : Nat) : List Char → Nat
  | [] => 0
  | c :: cs => (c.toNat - 48) * unit + weight (unit / 10) cs

def EndsDigits (rest : List Char) : Prop :=
  ∀ c ∈ rest.head?, Text.digitValue? c = none

theorem fraction_append {cs rest : List Char} (h : ∀ c ∈ cs, c.isDigit = true)
    (hrest : EndsDigits rest) (nanos unit : Nat) :
    fraction nanos unit (cs ++ rest) = (nanos + weight unit cs, rest) := by
  induction cs generalizing nanos unit with
  | nil =>
    cases rest with
    | nil => rfl
    | cons c rest => rw [List.nil_append, fraction, hrest c rfl]; rfl
  | cons c cs ih =>
    rw [List.cons_append, fraction, Text.digitValue?_of_isDigit (h c List.mem_cons_self)]
    dsimp only
    rw [ih (fun d hd => h d (List.mem_cons_of_mem c hd)), weight, Nat.add_assoc]

theorem weight_zeros (k unit : Nat) : weight unit (List.replicate k '0') = 0 := by
  induction k generalizing unit with
  | zero => rfl
  | succ k ih =>
    rw [List.replicate_succ, weight, ih]
    simp

theorem weight_append_zeros (cs : List Char) (k unit : Nat) :
    weight unit (cs ++ List.replicate k '0') = weight unit cs := by
  induction cs generalizing unit with
  | nil => rw [List.nil_append, weight_zeros]; rfl
  | cons c cs ih => rw [List.cons_append, weight, weight, ih]

theorem weight_eq {cs : List Char} {k : Nat} (h : cs.length = k + 1) (value : Nat) :
    value * 10 ^ (k + 1) + weight (10 ^ k) cs = Nat.ofDigitChars 10 cs value := by
  induction cs generalizing k value with
  | nil => cases h
  | cons c cs ih =>
    rw [Nat.ofDigitChars_cons, weight]
    cases k with
    | zero =>
      obtain rfl : cs = [] := List.length_eq_zero_iff.1 (Nat.succ.inj h)
      simp [weight, Nat.mul_comm]
    | succ k =>
      rw [← ih (Nat.succ.inj h), Nat.pow_succ 10 k, Nat.mul_div_cancel _ (by decide)]
      have h0 : '0'.toNat = 48 := rfl
      rw [h0, Nat.add_mul, Nat.pow_succ, Nat.pow_succ]
      grind

/-- The digits of a fraction, without the zeros at their end, which have no `weight`. -/
theorem fractionDigits_spec {n : Nat} (h : n < 1000000000) :
    (∀ c ∈ fractionDigits n, c.isDigit = true) ∧ weight 100000000 (fractionDigits n) = n := by
  have hspelled : Spelled 9 n (Text.padded 9 n).toList := spelled_padded (by decide) h
  generalize hcs : (Text.padded 9 n).toList = cs at hspelled
  have hsplit : cs = fractionDigits n ++ (cs.reverse.takeWhile (· == '0')).reverse := by
    rw [fractionDigits, hcs, ← List.reverse_append, List.takeWhile_append_dropWhile,
      List.reverse_reverse]
  have hzeros : (cs.reverse.takeWhile (· == '0')).reverse =
      List.replicate (cs.reverse.takeWhile (· == '0')).length '0' := by
    rw [List.eq_replicate_iff]
    refine ⟨List.length_reverse, fun c hc => ?_⟩
    have hall := List.all_takeWhile (l := cs.reverse) (p := (· == '0'))
    simpa using List.all_eq_true.1 hall c (List.mem_reverse.1 hc)
  refine ⟨fun c hc => hspelled.digits c ?_, ?_⟩
  · rw [hsplit]
    exact List.mem_append_left _ hc
  · have hweight := weight_eq (k := 8) hspelled.length 0
    rw [hspelled.value, hsplit, hzeros, weight_append_zeros] at hweight
    simpa using hweight

/-- A fraction is read as it was written, if no digit follows. -/
theorem fraction?_fractionDigits {n : Nat} (h : n < 1000000000) {c : Char} (hpoint : c ≠ '.')
    (hdigit : Text.digitValue? c = none) (rest : List Char) :
    fraction? ((if (fractionDigits n).isEmpty then "" else
      "." ++ String.ofList (fractionDigits n)).toList ++ c :: rest) = some (n, c :: rest) := by
  obtain ⟨hdigits, hweight⟩ := fractionDigits_spec h
  cases hcs : fractionDigits n with
  | nil =>
    rw [hcs] at hweight
    cases hweight
    show fraction? (c :: rest) = some (0, c :: rest)
    rw [fraction?.eq_def]
    split
    · next heq => exact absurd (List.cons.inj heq).1 hpoint
    · next heq => exact absurd (List.cons.inj heq).1 hpoint
    · rfl
  | cons d ds =>
    rw [hcs] at hdigits hweight
    have htext : ("." ++ String.ofList (d :: ds)).toList ++ c :: rest =
        '.' :: (d :: ds ++ c :: rest) := by
      rw [String.toList_append, @String.toList_ofList (d :: ds)]
      rfl
    have hends : EndsDigits (c :: rest) := fun e he => by
      cases he
      exact hdigit
    have hread := fraction_append hdigits hends 0 100000000
    rw [hweight, Nat.zero_add] at hread
    rw [List.isEmpty_cons, if_neg (by decide), htext, List.cons_append, fraction?,
      Text.digitValue?_of_isDigit (hdigits d List.mem_cons_self)]
    exact congrArg some hread

/-! ## Offsets -/

theorem offset?_signed {sign : Char} (hsign : sign = '+' ∨ sign = '-') {hours minutes : Nat}
    (hhours : hours ≤ 23) (hminutes : minutes ≤ 59) :
    offset? (sign :: ((Text.padded 2 hours).toList ++ ':' :: (Text.padded 2 minutes).toList)) =
      some (if sign = '-' then -((hours * 3600 + minutes * 60 : Nat) : Int)
        else (hours * 3600 + minutes * 60 : Nat)) := by
  have hhour := digits?_padded (n := hours) (by decide : 0 < 2) (by omega)
    (':' :: (Text.padded 2 minutes).toList)
  have hminute := digits?_padded (n := minutes) (by decide : 0 < 2) (by omega) []
  rw [List.append_nil] at hminute
  rw [offset?, if_pos hsign, hhour]
  · simp only [char?, if_true, hminute, if_pos (And.intro hhours hminutes)]
  · rintro rfl
    simp at hsign
  · rintro rfl
    simp at hsign

/-- An offset of whole minutes below a day is read as it was written. -/
theorem offset?_offsetText {offset : Int} (hhours : offset.natAbs / 3600 ≤ 23)
    (hseconds : offset.natAbs % 60 = 0) :
    offset? (if offset = 0 then "Z" else offsetText offset).toList = some offset := by
  by_cases hzero : offset = 0
  · rw [if_pos hzero, hzero]
    rfl
  have hminutes : offset.natAbs / 60 % 60 ≤ 59 := by omega
  have htext : (offsetText offset).toList = (if offset < 0 then '-' else '+') ::
      ((Text.padded 2 (offset.natAbs / 3600)).toList ++
        ':' :: (Text.padded 2 (offset.natAbs / 60 % 60)).toList) := by
    simp only [offsetText, String.toList_append]
    split <;> simp
  rw [if_neg hzero, htext]
  by_cases hneg : offset < 0
  · rw [if_pos hneg, offset?_signed (.inr rfl) hhours hminutes, if_pos rfl]
    congr 1
    omega
  · rw [if_neg hneg, offset?_signed (.inl rfl) hhours hminutes, if_neg (by decide)]
    congr 1
    omega

/-- The text of an offset begins neither with a point nor with a digit, so that a fraction ends
before it. -/
theorem offsetText_first (offset : Int) :
    ∃ c rest, (if offset = 0 then "Z" else offsetText offset).toList = c :: rest ∧ c ≠ '.' ∧
      Text.digitValue? c = none := by
  split
  · exact ⟨'Z', [], rfl, by decide, rfl⟩
  · rw [offsetText]
    split
    · exact ⟨'-', _, by simp only [String.toList_append]; rfl, by decide, rfl⟩
    · exact ⟨'+', _, by simp only [String.toList_append]; rfl, by decide, rfl⟩

/-! ## The time of day -/

section TimeOfDay

variable (t : Moment)

theorem nanosOfDay_lt : t.nanosOfDay < 86400000000000 := by
  have hpos : 0 ≤ t.localNanos % (secondsPerDay * nanosPerSecond) := Int.emod_nonneg _ (by decide)
  have hlt : t.localNanos % (secondsPerDay * nanosPerSecond) < secondsPerDay * nanosPerSecond :=
    Int.emod_lt_of_pos _ (by decide)
  rw [secondsPerDay, nanosPerSecond] at hlt hpos
  rw [nanosOfDay, secondsPerDay, nanosPerSecond]
  omega

theorem hour_le : t.hour ≤ 23 := by
  have hlt := t.nanosOfDay_lt
  rw [hour]
  omega

theorem minute_le : t.minute ≤ 59 := by
  rw [minute]
  omega

theorem second_le : t.second ≤ 59 := by
  rw [second]
  omega

theorem nanosecond_lt : t.nanosecond < 1000000000 := by
  rw [nanosecond]
  omega

theorem ofLocal?_self :
    ofLocal? t.date t.hour t.minute t.second t.nanosecond t.offset = some t := by
  have hvalid : t.date.Valid ∧ t.hour ≤ 23 ∧ t.minute ≤ 59 ∧ t.second ≤ 59 ∧
      t.nanosecond ≤ 999999999 :=
    ⟨Date.valid_ofDayNumber _, t.hour_le, t.minute_le, t.second_le,
      Nat.le_of_lt_succ t.nanosecond_lt⟩
  have hday : t.date.dayNumber = t.localNanos / (secondsPerDay * nanosPerSecond) :=
    Date.dayNumber_ofDayNumber _
  have hnanos : (t.nanosOfDay : Int) = t.localNanos % (secondsPerDay * nanosPerSecond) :=
    Int.toNat_of_nonneg (Int.emod_nonneg _ (by decide))
  have htime :
      (t.hour * 3600 + t.minute * 60 + t.second) * 1000000000 + t.nanosecond = t.nanosOfDay := by
    rw [hour, minute, second, nanosecond]
    omega
  have hdiv := Int.mul_ediv_add_emod t.localNanos (secondsPerDay * nanosPerSecond)
  rw [← hnanos, ← hday, localNanos, nanosPerSecond, secondsPerDay] at hdiv
  have hinstant : (t.date.dayNumber * 86400 + (t.hour * 3600 + t.minute * 60 + t.second : Nat) -
      t.offset) * 1000000000 + (t.nanosecond : Nat) = t.instant := by
    omega
  rw [ofLocal?, if_pos hvalid]
  exact congrArg (fun instant => some (Moment.mk instant t.offset)) hinstant

end TimeOfDay

/-! ## Whole moments -/

/-- What is written, and when: `writeRfc3339` takes four digits of a year and an offset of whole
minutes. -/
theorem writeRfc3339_eq_ok {t : Moment} {s : String} (h : t.writeRfc3339 = .ok s) :
    (0 ≤ t.date.year ∧ t.date.year ≤ 9999) ∧ t.offset.natAbs / 3600 ≤ 23 ∧
      t.offset.natAbs % 60 = 0 ∧
      s.toList = (Text.padded 4 t.date.year.toNat).toList ++
        '-' :: ((Text.padded 2 t.date.month).toList
        ++ '-' :: ((Text.padded 2 t.date.day).toList ++ 'T' :: ((Text.padded 2 t.hour).toList
        ++ ':' :: ((Text.padded 2 t.minute).toList ++ ':' :: ((Text.padded 2 t.second).toList
        ++ ((if (fractionDigits t.nanosecond).isEmpty then "" else
          "." ++ String.ofList (fractionDigits t.nanosecond)).toList
        ++ (if t.offset = 0 then "Z" else offsetText t.offset).toList)))))) := by
  rw [writeRfc3339] at h
  split at h
  · cases h
  next hyear =>
  split at h
  · cases h
  next hhours =>
  split at h
  · cases h
  next hseconds =>
  rw [← Except.ok.inj h]
  refine ⟨by omega, by omega, by omega, ?_⟩
  simp

theorem parts?_of_write {t : Moment} {s : String} (h : t.writeRfc3339 = .ok s) :
    parts? s.toList =
      some ⟨t.date, t.hour, t.minute, t.second, t.nanosecond, t.offset⟩ := by
  obtain ⟨⟨hyear, hyear9999⟩, hhours, hseconds, htext⟩ := writeRfc3339_eq_ok h
  obtain ⟨-, hmonth, -, hday⟩ : t.date.Valid := Date.valid_ofDayNumber _
  have hlength := daysInMonth_le t.date.year t.date.month
  have hhour := t.hour_le
  have hminute := t.minute_le
  have hsecond := t.second_le
  have hoffset := offset?_offsetText hhours hseconds
  obtain ⟨c, rest, hfirst, hpoint, hdigit⟩ := offsetText_first t.offset
  rw [hfirst] at hoffset htext
  have hfraction := fraction?_fractionDigits t.nanosecond_lt hpoint hdigit rest
  have hfour := fun rest => digits?_padded (n := t.date.year.toNat) (by decide : 0 < 4)
    (by omega) rest
  have htwo := fun {n} (hn : n < 100) rest => digits?_padded (n := n) (by decide : 0 < 2) hn rest
  rw [htext, parts?, hfour]
  simp only [Option.bind_eq_bind, Option.bind_some, char?, if_true,
    htwo (n := t.date.month) (by omega), htwo (n := t.date.day) (by omega),
    htwo (n := t.hour) (by omega), htwo (n := t.minute) (by omega),
    htwo (n := t.second) (by omega), hfraction, hoffset]
  rw [if_pos (by decide), Int.toNat_of_nonneg hyear]

/-- **A moment that is written in RFC 3339 is read back as it was.** -/
theorem ofRfc3339?_of_write {t : Moment} {s : String} (h : t.writeRfc3339 = .ok s) :
    ofRfc3339? s = some t := by
  have hsecond : t.second ≠ 60 := Nat.ne_of_lt (Nat.lt_succ_of_le t.second_le)
  rw [ofRfc3339?, parts?_of_write h, Option.bind_some, ofParts?, if_neg hsecond]
  exact t.ofLocal?_self

/-! ## The end of a text -/

theorem getLast?_offsetText (offset : Int) :
    ∃ c, (if offset = 0 then "Z" else offsetText offset).toList.getLast? = some c ∧
      (c = 'Z' ∨ c.isDigit = true) := by
  split
  · exact ⟨'Z', rfl, .inl rfl⟩
  · obtain ⟨c, hc, hdigit⟩ := getLast?_padded 2 (offset.natAbs / 60 % 60)
    refine ⟨c, ?_, .inr hdigit⟩
    rw [offsetText, String.toList_append, List.getLast?_append, hc, Option.some_or]

theorem getLast?_of_write {t : Moment} {s : String} (h : t.writeRfc3339 = .ok s) :
    ∃ c, s.toList.getLast? = some c ∧ (c = 'Z' ∨ c.isDigit = true) := by
  obtain ⟨c, hc, hend⟩ := getLast?_offsetText t.offset
  refine ⟨c, ?_, hend⟩
  rw [writeRfc3339] at h
  split at h
  · cases h
  · split at h
    · cases h
    · split at h
      · cases h
      · rw [← Except.ok.inj h, String.toList_append, List.getLast?_append, hc, Option.some_or]

theorem getLast?_longForm (t : Moment) :
    ∃ c, t.longForm.toList.getLast? = some c ∧ c.isDigit = true := by
  obtain ⟨c, hc, hdigit⟩ := getLast?_padded 2 (t.offset.natAbs % 60)
  obtain ⟨front, hfront⟩ : ∃ front, t.longForm = front ++ Text.padded 2 (t.offset.natAbs % 60) :=
    ⟨_, rfl⟩
  refine ⟨c, ?_, hdigit⟩
  rw [hfront, String.toList_append, List.getLast?_append, hc, Option.some_or]

/-- A moment in words ends in the letter for UTC or in a digit. -/
theorem getLast?_describe (t : Moment) :
    ∃ c, t.describe.toList.getLast? = some c ∧ (c = 'Z' ∨ c.isDigit = true) := by
  rw [describe]
  split
  · next s hs => exact getLast?_of_write hs
  · obtain ⟨c, hc, hdigit⟩ := t.getLast?_longForm
    exact ⟨c, hc, .inr hdigit⟩

/-! ## What can be written -/

/-- A moment that `writeRfc3339` can write: four digits of a year, and an offset of whole minutes
that is less than a day. -/
structure Expressible (t : Moment) : Prop where
  year : 0 ≤ t.date.year ∧ t.date.year ≤ 9999
  offset : t.offset.natAbs < 86400
  minutes : t.offset.natAbs % 60 = 0

theorem Expressible.exists_writeRfc3339 {t : Moment} (h : t.Expressible) :
    ∃ text, t.writeRfc3339 = .ok text := by
  obtain ⟨hyear, hoffset, hminutes⟩ := h
  rw [writeRfc3339, if_neg (by omega), if_neg (by omega), if_neg (by omega)]
  exact ⟨_, rfl⟩

end Moment
end Time
end Coursework
