import Coursework.Proofs.Json.Lexing

/-!
# Numbers as they are written

Every number is written as a numeral (`spells_decimal`, `spells_floatText`), but for the doubles
that have none, and a whole number in range is the one that its numeral says.

The lexer walks through the parts of a number, and which part it is in says what may follow.
`Leads` is one stretch of that walk, and the layouts of a double are put together from stretches.
That digits do not begin with a zero is what the search for the shortest decimal has to see to
(`Decimal.shortest_digits`).
-/

set_option autoImplicit false

namespace Coursework

/-! ## Decimal digits -/

structure Leading (cs : List Char) : Prop where
  first : ∃ c rest, cs = c :: rest ∧ c ≠ '0'
  digits : ∀ c ∈ cs, c.isDigit = true

theorem isDigit_toDigits {n : Nat} {c : Char} (h : c ∈ Nat.toDigits 10 n) : c.isDigit = true :=
  Nat.isDigit_of_mem_toDigits (by decide) (by decide) h

theorem leading_toDigits {n : Nat} (h : n ≠ 0) : Leading (Nat.toDigits 10 n) where
  digits _ hc := isDigit_toDigits hc
  first := by
    induction n using Nat.strongRecOn with
    | ind n ih =>
      rw [Nat.toDigits_eq_if (by decide)]
      split
      · next hlt =>
        have hnonzero : ∀ k < 10, k ≠ 0 → Nat.digitChar k ≠ '0' := by decide
        exact ⟨_, [], rfl, hnonzero n hlt h⟩
      · next hge =>
        obtain ⟨c, rest, hcs, hc⟩ := ih (n / 10) (by omega) (by omega)
        exact ⟨c, rest ++ [(n % 10).digitChar], by rw [hcs, List.cons_append], hc⟩

theorem Leading.take {cs : List Char} (h : Leading cs) {n : Nat} (hn : 0 < n) :
    Leading (cs.take n) where
  digits c hc := h.digits c (List.mem_of_mem_take hc)
  first := by
    obtain ⟨c, rest, rfl, hc⟩ := h.first
    obtain ⟨k, rfl⟩ : ∃ k, n = k + 1 := ⟨n - 1, by omega⟩
    exact ⟨c, rest.take k, rfl, hc⟩

namespace Decimal

theorem stripZeros_fst (reversed : List Char) (t : Int) :
    (stripZeros reversed t).1 = (reversed.dropWhile (· == '0')).reverse := by
  induction reversed generalizing t with
  | nil => rfl
  | cons c rest ih =>
    by_cases hc : c = '0'
    · rw [hc, stripZeros, ih, List.dropWhile_cons_of_pos (by decide)]
    · rw [stripZeros, List.dropWhile_cons_of_neg (by simpa using hc)]
      exact fun rest' h => hc (List.cons.inj h).1

theorem leading_stripZeros {cs : List Char} (h : Leading cs) (t : Int) :
    Leading (stripZeros cs.reverse t).1 := by
  obtain ⟨⟨c, rest, rfl, hc⟩, hdigits⟩ := h
  have hkept : ∃ kept, kept.Sublist rest ∧ (stripZeros (c :: rest).reverse t).1 = c :: kept := by
    rw [stripZeros_fst, List.reverse_cons, List.dropWhile_append]
    split
    · exact ⟨[], List.nil_sublist _, by rw [List.dropWhile_cons_of_neg (by simpa using hc)]; rfl⟩
    · refine ⟨(rest.reverse.dropWhile (· == '0')).reverse, ?_, by simp⟩
      simpa using (List.dropWhile_sublist (l := rest.reverse) (· == '0')).reverse
  obtain ⟨kept, hsub, hkept⟩ := hkept
  rw [hkept]
  exact ⟨⟨c, kept, rfl, hc⟩, fun d hd => hdigits d ((hsub.cons_cons c).subset hd)⟩

theorem tenTo_pos (t : Int) : 0 < tenTo t :=
  Nat.pow_pos (by decide)

theorem twoTo_pos (e : Int) : 0 < twoTo e :=
  Nat.pow_pos (by decide)

theorem Interval.onGrid?_ne_zero {i : Interval} (hlow : 0 < i.low) (t : Int) :
    i.onGrid? t ≠ some 0 := by
  have hzero : i.holds 0 t = false := by
    have hpos : 0 < i.low * tenTo (-t) := Nat.mul_pos hlow (tenTo_pos _)
    simp only [holds, Nat.zero_mul]
    split <;> simp only [decide_eq_false_iff_not] <;> omega
  intro hgrid
  simp only [onGrid?] at hgrid
  split at hgrid
  · next hd _ =>
    split at hgrid
    · rw [Option.some.inj hgrid, hzero] at hd
      cases hd
    · cases Option.some.inj hgrid
  · next hd _ =>
    rw [Option.some.inj hgrid, hzero] at hd
    cases hd
  · cases Option.some.inj hgrid
  · cases hgrid

theorem Interval.search_cases {i : Interval} (hlow : 0 < i.low) (t : Int) (tries : Nat) :
    i.search t tries = (0, 0) ∨ (i.search t tries).1 ≠ 0 := by
  induction tries generalizing t with
  | zero => exact .inl rfl
  | succ tries ih =>
    rw [search]
    split
    · next d hd =>
      refine .inr fun hzero => onGrid?_ne_zero hlow t ?_
      rw [hd, show d = 0 from hzero]
    · exact ih _

theorem low_around_pos {m : Nat} (hm : 0 < m) (q : Int) : 0 < (Interval.around m q).low := by
  refine Nat.mul_pos ?_ (twoTo_pos _)
  split <;> omega

theorem binaryParts_pos {bits : Nat} (hpos : bits ≠ 0) (hbits : bits < twoTo 63) :
    0 < (binaryParts bits).1 := by
  have h52 : twoTo 52 = 4503599627370496 := rfl
  have h63 : twoTo 63 = 9223372036854775808 := rfl
  simp only [binaryParts, h52]
  rw [h63] at hbits
  split
  · next he =>
    show 0 < bits % _
    omega
  · show 0 < _ + _
    omega

/-- The digits of a positive double do not begin with a zero.  (Where the search of `shortest` comes
to nothing there are no digits.) -/
theorem shortest_digits {bits : Nat} (hpos : bits ≠ 0) (hbits : bits < twoTo 63) :
    shortest bits = ([], 1) ∨ Leading (shortest bits).1 := by
  have hlow := low_around_pos (binaryParts_pos hpos hbits) (binaryParts bits).2
  rw [shortest]
  dsimp only
  rcases Interval.search_cases hlow
    (leadingExponent (Interval.around (binaryParts bits).1 (binaryParts bits).2).value
      (Interval.around (binaryParts bits).1 (binaryParts bits).2).scale 400) 17 with hnone | hsome
  · rw [hnone]
    exact .inl rfl
  · exact .inr (leading_stripZeros (leading_toDigits hsome) _)

end Decimal

namespace Json

/-! ## The parts of a number -/

def Digits.steps (d : Digits) : List UInt8 → Option Digits
  | [] => some d
  | b :: rest => (d.step b).bind fun e => e.steps rest

theorem Digits.steps_append (d : Digits) (front back : List UInt8) :
    d.steps (front ++ back) = (d.steps front).bind fun e => e.steps back := by
  induction front generalizing d with
  | nil => rfl
  | cons b rest ih =>
    rw [List.cons_append, steps, steps]
    cases d.step b with
    | none => rfl
    | some e => exact ih e

theorem lex_number {d e : Digits} {octets : List UInt8} (h : d.steps octets = some e) :
    lex (.number d) octets = some ([], .number e) := by
  induction octets generalizing d with
  | nil =>
    cases h
    rfl
  | cons b rest ih =>
    obtain ⟨f, hstep, hrest⟩ := Option.bind_eq_some_iff.1 h
    rw [lex, Lexer.step, hstep]
    simp [ih hrest]

theorem digit?_of_isDigit {c : Char} (h : c.isDigit = true) :
    String.utf8EncodeChar c = [UInt8.ofNat c.toNat] ∧
      Digits.digit? (UInt8.ofNat c.toNat) = some (c.toNat - 48) := by
  obtain ⟨hlow, hhigh⟩ := Char.isDigit_iff_toNat.1 h
  have h0 : '0'.toNat = 48 := rfl
  have h9 : '9'.toNat = 57 := rfl
  have hb : (UInt8.ofNat c.toNat).toNat = c.toNat := by rw [UInt8.toNat_ofNat']; omega
  have h48 : (48 : UInt8).toNat = 48 := rfl
  have h57 : (57 : UInt8).toNat = 57 := rfl
  refine ⟨Text.encodeChar_of_ascii (by omega), ?_⟩
  simp only [Digits.digit?, UInt8.le_iff_toNat_le, hb, h48, h57]
  exact if_pos ⟨hlow, hhigh⟩

theorem Digits.steps_digit {c : Char} (h : c.isDigit = true) (d : Digits) (cs : List Char) :
    d.steps (encode (c :: cs)) =
      (match d.part with
        | .sign => some { d with
            part := if c.toNat - 48 = 0 then .zero else .whole, whole := [c.toNat - 48] }
        | .zero => none
        | .whole => some { d with whole := (c.toNat - 48) :: d.whole }
        | .point | .fraction => some { d with
            part := .fraction, fraction := (c.toNat - 48) :: d.fraction }
        | .mark | .markSign | .exponent => some { d with
            part := .exponent, exponent := (c.toNat - 48) :: d.exponent }).bind
        fun e => e.steps (encode cs) := by
  obtain ⟨hencode, hdigit⟩ := digit?_of_isDigit h
  cases hpart : d.part <;>
    simp only [encode, List.flatMap_cons, hencode, List.singleton_append, steps, step,
      hdigit, hpart]

theorem Digits.steps_whole {cs : List Char} (hcs : ∀ c ∈ cs, c.isDigit = true) {d : Digits}
    (h : d.part = .whole) :
    d.steps (encode cs) =
      some { d with whole := (cs.map fun c => c.toNat - 48).reverse ++ d.whole } := by
  induction cs generalizing d with
  | nil => rfl
  | cons c rest ih =>
    rw [steps_digit (hcs c List.mem_cons_self), h]
    simp only [Option.bind_some]
    rw [ih (fun e he => hcs e (List.mem_cons_of_mem c he)) rfl]
    simp

/-- Characters take a number from one part to another, whatever was read of it before. -/
def Leads (p : NumberPart) (cs : List Char) (q : NumberPart) : Prop :=
  ∀ d : Digits, d.part = p → ∃ e, d.steps (encode cs) = some e ∧ e.part = q

theorem Leads.append {p q r : NumberPart} {front back : List Char} (h : Leads p front q)
    (hback : Leads q back r) : Leads p (front ++ back) r := by
  intro d hd
  obtain ⟨e, he, hq⟩ := h d hd
  obtain ⟨f, hf, hr⟩ := hback e hq
  refine ⟨f, ?_, hr⟩
  rw [encode, List.flatMap_append, Digits.steps_append, he]
  exact hf

theorem leads_nil (p : NumberPart) : Leads p [] p :=
  fun d hd => ⟨d, rfl, hd⟩

theorem leads_whole {cs : List Char} (h : ∀ c ∈ cs, c.isDigit = true) : Leads .whole cs .whole :=
  fun _ hd => ⟨_, Digits.steps_whole h hd, hd⟩

theorem digit_ne_zero {c : Char} (h : c.isDigit = true) (hc : c ≠ '0') : c.toNat - 48 ≠ 0 := by
  have hlow : 48 ≤ c.toNat := (Char.isDigit_iff_toNat.1 h).1
  have hne : c.toNat ≠ 48 := fun he => hc (Char.toNat_inj.1 he)
  omega

theorem leads_first {c : Char} (h : c.isDigit = true) (hc : c ≠ '0') : Leads .sign [c] .whole := by
  intro d hd
  refine ⟨_, by rw [Digits.steps_digit h, hd]; rfl, ?_⟩
  simp only [if_neg (digit_ne_zero h hc)]

theorem leads_zero : Leads .sign ['0'] .zero :=
  fun d hd => ⟨_, by rw [Digits.steps_digit rfl, hd]; rfl, rfl⟩

theorem leads_leading {cs : List Char} (h : Leading cs) : Leads .sign cs .whole := by
  obtain ⟨⟨c, rest, rfl, hc⟩, hdigits⟩ := h
  exact (leads_first (hdigits c List.mem_cons_self) hc).append
    (leads_whole fun e he => hdigits e (List.mem_cons_of_mem c he))

/-- Digits that go on with a part of their own. -/
theorem leads_digits {p q : NumberPart} {cs : List Char} (h : ∀ c ∈ cs, c.isDigit = true)
    (hq : ∀ c : Char, c.isDigit = true → Leads q [c] q)
    (hp : ∀ c : Char, c.isDigit = true → Leads p [c] q) (hne : cs ≠ []) : Leads p cs q := by
  induction cs generalizing p with
  | nil => exact absurd rfl hne
  | cons c rest ih =>
    have hdigits : ∀ e ∈ rest, e.isDigit = true := fun e he => h e (List.mem_cons_of_mem c he)
    have hrest : Leads q rest q := by
      by_cases hnil : rest = []
      · rw [hnil]
        exact leads_nil q
      · exact ih hdigits hq hnil
    exact (hp c (h c List.mem_cons_self)).append hrest

theorem leads_fraction {cs : List Char} (h : ∀ c ∈ cs, c.isDigit = true) (hne : cs ≠ []) :
    Leads .point cs .fraction :=
  leads_digits h (fun _ hc d hd => ⟨_, by rw [Digits.steps_digit hc, hd]; rfl, rfl⟩)
    (fun _ hc d hd => ⟨_, by rw [Digits.steps_digit hc, hd]; rfl, rfl⟩) hne

theorem leads_exponent {cs : List Char} (h : ∀ c ∈ cs, c.isDigit = true) (hne : cs ≠ []) :
    Leads .markSign cs .exponent :=
  leads_digits h (fun _ hc d hd => ⟨_, by rw [Digits.steps_digit hc, hd]; rfl, rfl⟩)
    (fun _ hc d hd => ⟨_, by rw [Digits.steps_digit hc, hd]; rfl, rfl⟩) hne

theorem leads_octet {p q : NumberPart} {c : Char} {b : UInt8}
    (hencode : String.utf8EncodeChar c = [b])
    (h : ∀ d : Digits, d.part = p → ∃ e, d.step b = some e ∧ e.part = q) : Leads p [c] q := by
  intro d hd
  obtain ⟨e, he, hq⟩ := h d hd
  exact ⟨e, by rw [encode, List.flatMap_singleton, hencode]; simp [Digits.steps, he], hq⟩

theorem leads_point {p : NumberPart} (hp : p = .zero ∨ p = .whole) : Leads p ['.'] .point := by
  refine leads_octet (b := 46) rfl fun d hd => ⟨{ d with part := .point, pointed := true }, ?_, rfl⟩
  rcases hp with rfl | rfl <;> simp [Digits.step, Digits.digit?, hd]

theorem leads_mark {p : NumberPart} (hp : p = .whole ∨ p = .fraction) : Leads p ['e'] .mark := by
  refine leads_octet (b := 101) rfl fun d hd => ⟨{ d with part := .mark }, ?_, rfl⟩
  rcases hp with rfl | rfl <;> simp [Digits.step, Digits.digit?, hd]

theorem leads_markSign {c : Char} (hc : c = '+' ∨ c = '-') : Leads .mark [c] .markSign := by
  rcases hc with rfl | rfl
  · exact leads_octet (b := 43) rfl fun d hd =>
      ⟨{ d with part := .markSign, below := false }, by simp [Digits.step, Digits.digit?, hd], rfl⟩
  · exact leads_octet (b := 45) rfl fun d hd =>
      ⟨{ d with part := .markSign, below := true }, by simp [Digits.step, Digits.digit?, hd], rfl⟩

/-! ## Whole texts -/

def signed (negative : Bool) (body : List Char) : List Char :=
  if negative then '-' :: body else body

/-- A digit begins a number, just as if there had been a sign before it. -/
theorem step_idle_digit {b : UInt8} {n : Nat} (h : Digits.digit? b = some n) :
    Lexer.idle.step b =
      some ([], .number (.start (if n = 0 then .zero else .whole) false [n])) := by
  have hother : ∀ other : UInt8, Digits.digit? other = none → b ≠ other := by
    rintro other hnone rfl
    rw [h] at hnone
    cases hnone
  have h32 := hother 32 rfl
  have h10 := hother 10 rfl
  have h9 := hother 9 rfl
  have h13 := hother 13 rfl
  have h123 := hother 123 rfl
  have h125 := hother 125 rfl
  have h91 := hother 91 rfl
  have h93 := hother 93 rfl
  have h44 := hother 44 rfl
  have h58 := hother 58 rfl
  have h34 := hother 34 rfl
  have h110 := hother 110 rfl
  have h116 := hother 116 rfl
  have h102 := hother 102 rfl
  have h45 := hother 45 rfl
  simp only [Lexer.step, Lexer.start, h32, h10, h9, h13, h123, h125, h91, h93, h44, h58, h34, h110,
    h116, h102, h45, or_self, if_false, h]

/-- A number that has come to an end is one token. -/
theorem spells_signed {negative : Bool} {c : Char} {rest : List Char} {d : Digits}
    (hc : c.isDigit = true)
    (hsteps : (Digits.start .sign negative []).steps (encode (c :: rest)) = some d)
    (hcomplete : d.complete = true) :
    Spells (encode (signed negative (c :: rest))) [.number d.numeral] := by
  have hbody : lex (.number (.start .sign negative [])) (encode (c :: rest)) =
      some ([], .number d) := lex_number hsteps
  have hfinish : Lexer.finish (.number d) = some [.number d.numeral] := by
    rw [Lexer.finish, if_pos hcomplete]
  cases negative with
  | true =>
    refine ⟨[], .number d, [.number d.numeral], ?_, hfinish, rfl⟩
    have hencode : encode (signed true (c :: rest)) = 45 :: encode (c :: rest) := rfl
    have hstart : Lexer.idle.step 45 = some ([], .number (.start .sign true [])) := rfl
    rw [hencode, lex, hstart]
    simp only [hbody]
    rfl
  | false =>
    refine ⟨[], .number d, [.number d.numeral], ?_, hfinish, rfl⟩
    obtain ⟨hencode, hdigit⟩ := digit?_of_isDigit hc
    have hstart := step_idle_digit hdigit
    rw [Digits.steps_digit hc] at hsteps
    have hlex := lex_number (d := .start (if c.toNat - 48 = 0 then .zero else .whole) false
      [c.toNat - 48]) hsteps
    rw [signed, if_neg (by decide), encode, List.flatMap_cons, hencode, List.singleton_append, lex,
      hstart]
    simp only [hlex]
    rfl

theorem spells_of_leads {negative : Bool} {body : List Char} {q : NumberPart}
    (h : Leads .sign body q) (hq : q = .fraction ∨ q = .exponent)
    (hfirst : ∃ c rest, body = c :: rest ∧ c.isDigit = true) :
    ∃ n, Spells (encode (signed negative body)) [.number n] := by
  obtain ⟨c, rest, rfl, hc⟩ := hfirst
  obtain ⟨d, hsteps, hpart⟩ := h (.start .sign negative []) rfl
  refine ⟨d.numeral, spells_signed hc hsteps ?_⟩
  rw [Digits.complete, hpart]
  rcases hq with rfl | rfl <;> rfl

theorem isDigit_of_mem_replicate {n : Nat} {c : Char} (h : c ∈ List.replicate n '0') :
    c.isDigit = true := by
  rw [(List.mem_replicate.1 h).2]
  rfl

/-! ### Doubles -/

theorem leads_exponentText (e : Int) : Leads .mark (Number.exponentText e) .exponent := by
  have hdecimal : ∀ k, Leads .markSign (Nat.toDigits 10 k) .exponent := fun k =>
    leads_exponent (fun _ hc => isDigit_toDigits hc) (by
      cases k with
      | zero => rw [Nat.toDigits_zero]; exact List.cons_ne_nil _ _
      | succ k =>
        obtain ⟨c, rest, hcs, -⟩ := (leading_toDigits (Nat.succ_ne_zero k)).first
        rw [hcs]
        exact List.cons_ne_nil _ _)
  cases e with
  | ofNat k =>
    have htext : Number.exponentText (.ofNat k) = ['+'] ++ Nat.toDigits 10 k := by
      rw [Number.exponentText, if_neg (by exact Int.not_lt.2 (Int.natCast_nonneg k)), Text.decimal,
        String.toList_ofList]
      rfl
    rw [htext]
    exact (leads_markSign (.inl rfl)).append (hdecimal k)
  | negSucc k =>
    have htext : Number.exponentText (.negSucc k) = ['-'] ++ Nat.toDigits 10 (k + 1) := by
      rw [Number.exponentText, if_pos (Int.negSucc_lt_zero k), Text.decimal, String.toList_ofList]
      rfl
    rw [htext]
    exact (leads_markSign (.inr rfl)).append (hdecimal (k + 1))

/-- A point with digits behind it ends the whole part of a number. -/
theorem leads_pointed {p : NumberPart} (hp : p = .zero ∨ p = .whole) {cs : List Char}
    (h : ∀ c ∈ cs, c.isDigit = true) (hne : cs ≠ []) : Leads p ('.' :: cs) .fraction :=
  (leads_point hp).append (leads_fraction h hne)

/-- However digits are laid out by `Number.layout`, they are a number. -/
theorem leads_layout {digits : List Char} (h : Leading digits) (t : Int) :
    ∃ q, Leads .sign (Number.layout digits t) q ∧ (q = .fraction ∨ q = .exponent) := by
  have hzeros : ∀ n, Leads .whole (List.replicate n '0') .whole := fun n =>
    leads_whole fun _ hc => isDigit_of_mem_replicate hc
  have hdigits : ∀ c ∈ digits, c.isDigit = true := h.digits
  have hne : digits ≠ [] := by
    obtain ⟨c, rest, rfl, -⟩ := h.first
    exact List.cons_ne_nil _ _
  simp only [Number.layout]
  split
  · -- zeros are filled up to the point
    refine ⟨.fraction, ?_, .inl rfl⟩
    exact ((leads_leading h).append (hzeros _)).append
      (leads_pointed (.inr rfl) (by simp) (by decide))
  · split
    · -- the point stands among the digits
      next hpoint =>
      refine ⟨.fraction, ?_, .inl rfl⟩
      have htake : 0 < ((digits.length : Int) + t).toNat := by omega
      have hdrop : digits.drop ((digits.length : Int) + t).toNat ≠ [] := by
        rw [ne_eq, List.drop_eq_nil_iff]
        omega
      exact (leads_leading (h.take htake)).append
        (leads_pointed (.inr rfl) (fun c hc => hdigits c (List.mem_of_mem_drop hc)) hdrop)
    · split
      · -- the point stands before all digits
        refine ⟨.fraction, ?_, .inl rfl⟩
        refine leads_zero.append (leads_pointed (.inl rfl) ?_ ?_)
        · intro c hc
          rcases List.mem_append.1 hc with hzero | hdigit
          · exact isDigit_of_mem_replicate hzero
          · exact hdigits c hdigit
        · exact fun hnil => hne (List.append_eq_nil_iff.1 hnil).2
      · -- an exponent
        refine ⟨.exponent, ?_, .inr rfl⟩
        have hback : ∀ p, p = .whole ∨ p = .fraction →
            Leads p ('e' :: Number.exponentText ((digits.length : Int) + t - 1)) .exponent :=
          fun p hp => (leads_mark hp).append (leads_exponentText _)
        split
        · exact (leads_leading h).append (hback .whole (.inl rfl))
        · next hlength =>
          have hdrop : digits.drop 1 ≠ [] := by
            have hpos := List.length_pos_iff.2 hne
            rw [ne_eq, List.drop_eq_nil_iff]
            omega
          have hmiddle := leads_pointed (.inr rfl)
            (fun c hc => hdigits c (List.mem_of_mem_drop hc)) hdrop
          exact ((leads_leading (h.take Nat.one_pos)).append hmiddle).append
            (hback .fraction (.inr rfl))

theorem layout_first {digits : List Char} (h : Leading digits) (t : Int) :
    ∃ c rest, Number.layout digits t = c :: rest ∧ c.isDigit = true := by
  obtain ⟨c, rest, rfl, -⟩ := h.first
  have hc := h.digits c List.mem_cons_self
  simp only [Number.layout]
  split
  · exact ⟨c, _, rfl, hc⟩
  · split
    · next hpoint =>
      obtain ⟨k, hk⟩ : ∃ k, ((((c :: rest).length : Nat) : Int) + t).toNat = k + 1 :=
        ⟨((((c :: rest).length : Nat) : Int) + t).toNat - 1, by omega⟩
      rw [hk]
      exact ⟨c, _, rfl, hc⟩
    · split
      · exact ⟨'0', _, rfl, rfl⟩
      · split
        · exact ⟨c, _, rfl, hc⟩
        · exact ⟨c, _, rfl, hc⟩

/-- The text of a double leads through a number, perhaps behind a minus sign. -/
theorem leads_floatText (x : Float) :
    ∃ negative body q, Number.floatText x = signed negative body ∧ Leads .sign body q ∧
      (q = .fraction ∨ q = .exponent) ∧ ∃ c rest, body = c :: rest ∧ c.isDigit = true := by
  have hmod : x.toBits.toNat % Decimal.twoTo 63 < Decimal.twoTo 63 :=
    Nat.mod_lt _ (Decimal.twoTo_pos 63)
  have hsigned : Number.floatText x = signed (x.toBits.toNat != x.toBits.toNat % Decimal.twoTo 63)
      (if x.toBits.toNat % Decimal.twoTo 63 = 0 then ['0', '.', '0']
        else Number.layout (Decimal.shortest (x.toBits.toNat % Decimal.twoTo 63)).1
          (Decimal.shortest (x.toBits.toNat % Decimal.twoTo 63)).2) := by
    simp only [Number.floatText, signed, bne_iff_ne, ne_eq, ite_not]
  have hzero : Leads .sign ['0', '.', '0'] .fraction :=
    leads_zero.append (leads_pointed (.inl rfl) (by simp) (by decide))
  rw [hsigned]
  generalize x.toBits.toNat % Decimal.twoTo 63 = bits at hmod ⊢
  by_cases hpos : bits = 0
  · rw [if_pos hpos]
    exact ⟨_, _, _, rfl, hzero, .inl rfl, '0', _, rfl, rfl⟩
  · rw [if_neg hpos]
    rcases Decimal.shortest_digits hpos hmod with hnone | hdigits
    · rw [hnone]
      exact ⟨_, _, _, rfl, hzero, .inl rfl, '0', _, rfl, rfl⟩
    · obtain ⟨q, hleads, hq⟩ := leads_layout hdigits (Decimal.shortest bits).2
      exact ⟨_, _, q, rfl, hleads, hq, layout_first hdigits _⟩

theorem spells_floatText (x : Float) : ∃ n, Spells (encode (Number.floatText x)) [.number n] := by
  obtain ⟨negative, body, q, htext, hleads, hq, hfirst⟩ := leads_floatText x
  rw [htext]
  exact spells_of_leads hleads hq hfirst

/-! ### Whole numbers -/

theorem natural_map_toNat (cs : List Char) :
    Numeral.natural (cs.map fun c => c.toNat - 48) = Nat.ofDigitChars 10 cs 0 := by
  rw [Numeral.natural, List.foldl_map]
  rfl

theorem spells_toDigits (negative : Bool) (k : Nat) :
    ∃ n, Spells (encode (signed negative (Nat.toDigits 10 k))) [.number n] ∧
      n.negative = negative ∧ Numeral.natural n.whole = k ∧ n.fraction = none ∧
      n.exponent = none := by
  by_cases hk : k = 0
  · subst hk
    have hsteps : (Digits.start .sign negative []).steps (encode ['0']) =
        some ⟨.zero, negative, [0], [], false, false, []⟩ := by
      rw [Digits.steps_digit rfl]
      rfl
    exact ⟨_, spells_signed (c := '0') rfl hsteps rfl, rfl, rfl, rfl, rfl⟩
  · obtain ⟨⟨c, rest, hcs, hc⟩, hdigits⟩ := leading_toDigits hk
    have hnatural := natural_map_toNat (Nat.toDigits 10 k)
    rw [Nat.ofDigitChars_toDigits (by decide) (by decide)] at hnatural
    rw [hcs] at hdigits hnatural ⊢
    have hfirst := hdigits c List.mem_cons_self
    have hsteps : (Digits.start .sign negative []).steps (encode (c :: rest)) =
        some ⟨.whole, negative, ((c :: rest).map fun c => c.toNat - 48).reverse, [], false,
            false, []⟩ := by
      rw [Digits.steps_digit hfirst]
      simp only [Digits.start, Option.bind_some, if_neg (digit_ne_zero hfirst hc)]
      rw [Digits.steps_whole (fun e he => hdigits e (List.mem_cons_of_mem c he)) rfl]
      simp
    refine ⟨_, spells_signed hfirst hsteps rfl, rfl, ?_, rfl, rfl⟩
    rw [Digits.numeral, List.reverse_reverse]
    exact hnatural

/-- A whole number is one number, and it is that number if it is in range. -/
theorem spells_decimal (n : Int) :
    ∃ numeral, Spells (encode (Text.decimal n).toList) [.number numeral] ∧
      (-9223372036854775808 ≤ n → n ≤ Text.uint64Max → numeral.toInt? = some n) := by
  cases n with
  | ofNat k =>
    obtain ⟨numeral, hspells, hneg, hwhole, hfraction, hexponent⟩ := spells_toDigits false k
    refine ⟨numeral, ?_, fun _ hmax => ?_⟩
    · rw [Text.decimal, String.toList_ofList]
      exact hspells
    · have hk : k ≤ Text.uint64Max := Int.ofNat_le.1 hmax
      simp only [Numeral.toInt?, hfraction, hexponent, hneg, hwhole, if_pos hk]
      rfl
  | negSucc k =>
    obtain ⟨numeral, hspells, hneg, hwhole, hfraction, hexponent⟩ := spells_toDigits true (k + 1)
    refine ⟨numeral, ?_, fun hmin _ => ?_⟩
    · rw [Text.decimal, String.toList_ofList]
      exact hspells
    · have hk : 0 < k + 1 ∧ k + 1 ≤ 9223372036854775808 := by omega
      simp only [Numeral.toInt?, hfraction, hexponent, hneg, hwhole, if_pos hk]
      rfl

end Json
end Coursework
