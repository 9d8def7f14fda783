import Coursework.Text

/-!
# Blanks around a text and separators in it

`Text.trim` leaves a text alone that has no blank at either end (`Trimmed`), and what it leaves has
none.

`Text.pieces` takes the leftmost `::` each time, so that of three colons in a row the first two are
the separator.  A text comes back as a piece if no `::` is in it and it does not end in a colon: if
it is `Separable`, that is, has no `::` in it even with one more colon behind it.  All pieces but
the last are so (`exists_of_pieces_eq`), and whatever is so is cut off at once (`pieces_append`).
`Splits` says what pieces are without a word on how they are found, and `pieces_eq_iff` that they
are found.
-/

set_option autoImplicit false

namespace Coursework
namespace Text

/-! ## Blanks -/

/-- There is no blank at either end, so that `trimChars` leaves the text alone. -/
structure Trimmed (cs : List Char) : Prop where
  first : ∀ c ∈ cs.head?, isBlank c = false
  last : ∀ c ∈ cs.getLast?, isBlank c = false

theorem isBlank_of_printable {c : Char} (h : 33 ≤ c.toNat ∧ c.toNat ≤ 126) : isBlank c = false := by
  simp only [isBlank, Bool.or_eq_false_iff, Bool.and_eq_false_iff, decide_eq_false_iff_not,
    beq_eq_false_iff_ne]
  omega

theorem trimmed_of_forall {cs : List Char} (h : ∀ c ∈ cs, isBlank c = false) : Trimmed cs :=
  ⟨fun c hc => h c (List.mem_of_mem_head? hc), fun c hc => h c (List.mem_of_getLast? hc)⟩

theorem Trimmed.append {front back : List Char} (hfront : Trimmed front) (hback : Trimmed back)
    (hne : front ≠ []) (hne' : back ≠ []) (between : List Char) :
    Trimmed (front ++ between ++ back) := by
  obtain ⟨c, rest, rfl⟩ := List.exists_cons_of_ne_nil hne
  obtain ⟨d, hd⟩ := Option.ne_none_iff_exists'.1 (mt List.getLast?_eq_none_iff.1 hne')
  refine ⟨hfront.first, ?_⟩
  rw [List.getLast?_append, hd, Option.some_or, ← hd]
  exact hback.last

theorem dropWhile_isBlank {cs : List Char} (h : ∀ c ∈ cs.head?, isBlank c = false) :
    cs.dropWhile isBlank = cs := by
  rcases cs with _ | ⟨c, rest⟩
  · rfl
  · exact List.dropWhile_cons_of_neg (by simp [h c rfl])

theorem Trimmed.trimChars_eq {cs : List Char} (h : Trimmed cs) : trimChars cs = cs := by
  have hlast : ∀ c ∈ cs.reverse.head?, isBlank c = false := by
    rw [List.head?_reverse]
    exact h.last
  rw [trimChars, dropWhile_isBlank h.first, dropWhile_isBlank hlast, List.reverse_reverse]

theorem isBlank_of_mem_head?_dropWhile (cs : List Char) :
    ∀ c ∈ (cs.dropWhile isBlank).head?, isBlank c = false := by
  intro c hc
  have hhead := List.head?_dropWhile_not isBlank cs
  rwa [Option.mem_def.1 hc] at hhead

theorem trimmed_trimChars (cs : List Char) : Trimmed (trimChars cs) := by
  refine ⟨fun c hc => ?_, fun c hc => ?_⟩
  · -- what is dropped at the end is behind the first character
    obtain ⟨dropped, hdropped⟩ := List.dropWhile_suffix isBlank
      (l := (cs.dropWhile isBlank).reverse)
    have hfront : trimChars cs ++ dropped.reverse = cs.dropWhile isBlank := by
      rw [trimChars, ← List.reverse_append, hdropped, List.reverse_reverse]
    refine isBlank_of_mem_head?_dropWhile cs c ?_
    rw [← hfront, List.head?_append, Option.mem_def.1 hc]
    rfl
  · rw [trimChars, List.getLast?_reverse] at hc
    exact isBlank_of_mem_head?_dropWhile _ c hc

/-- Blanks at the ends are dropped, and what is `Trimmed` in between is left. -/
theorem trimChars_append {front core back : List Char} (hfront : ∀ c ∈ front, isBlank c = true)
    (hback : ∀ c ∈ back, isBlank c = true) (h : Trimmed core) :
    trimChars (front ++ core ++ back) = core := by
  rw [trimChars, List.append_assoc, List.dropWhile_append_of_pos hfront]
  rcases core with _ | ⟨c, rest⟩
  · have hnone : (back ++ []).dropWhile isBlank = [] := List.dropWhile_append_of_pos hback
    rw [List.nil_append, ← List.append_nil back, hnone]
    rfl
  · have hfirst : ∀ d ∈ (c :: rest ++ back).head?, isBlank d = false := h.first
    have hblank : ∀ d ∈ back.reverse, isBlank d = true :=
      fun d hd => hback d (List.mem_reverse.1 hd)
    have hcore := h.trimChars_eq
    rw [trimChars, dropWhile_isBlank h.first] at hcore
    rw [dropWhile_isBlank hfirst, List.reverse_append, List.dropWhile_append_of_pos hblank, hcore]

theorem exists_of_trimChars (cs : List Char) : ∃ front back, cs = front ++ trimChars cs ++ back ∧
    (∀ c ∈ front, isBlank c = true) ∧ ∀ c ∈ back, isBlank c = true := by
  refine ⟨cs.takeWhile isBlank, ((cs.dropWhile isBlank).reverse.takeWhile isBlank).reverse, ?_,
    List.all_eq_true.1 List.all_takeWhile,
    fun c hc => List.all_eq_true.1 List.all_takeWhile c (List.mem_reverse.1 hc)⟩
  rw [trimChars, List.append_assoc, ← List.reverse_append, List.takeWhile_append_dropWhile,
    List.reverse_reverse, List.takeWhile_append_dropWhile]

theorem trim_of_trimmed {s : String} (h : Trimmed s.toList) : trim s = s := by
  rw [trim, h.trimChars_eq, String.ofList_toList]

theorem trim_trim (s : String) : trim (trim s) = trim s := by
  refine trim_of_trimmed ?_
  rw [trim, String.toList_ofList]
  exact trimmed_trimChars _

theorem mem_of_mem_trim {s : String} {c : Char} (h : c ∈ (trim s).toList) : c ∈ s.toList := by
  rw [trim, String.toList_ofList, trimChars, List.mem_reverse] at h
  have hfront := (List.dropWhile_sublist _).subset h
  exact (List.dropWhile_sublist _).subset (List.mem_reverse.1 hfront)

/-! ## Separators -/

/-- A text that `::` can be put behind, to be found there again as the first separator: there is
none in it, and it does not end in a colon. -/
def Separable (cs : List Char) : Prop :=
  ¬ [':', ':'] <:+: cs ++ [':']

instance (cs : List Char) : Decidable (Separable cs) :=
  inferInstanceAs (Decidable (¬ _))

theorem separable_nil : Separable [] := by
  decide

theorem Separable.of_cons {c : Char} {cs : List Char} (h : Separable (c :: cs)) : Separable cs :=
  fun hin => h (List.infix_cons hin)

theorem separable_of_notMem {cs : List Char} (h : ':' ∉ cs) : Separable cs := by
  intro hin
  have hcount := hin.sublist.count_le ':'
  rw [List.count_append, List.count_eq_zero_of_not_mem h] at hcount
  exact absurd hcount (by decide)

theorem pieces_ne_nil (cs : List Char) : pieces cs ≠ [] := by
  fun_cases pieces cs <;> simp_all

theorem pieces_cons {c : Char} {rest p : List Char} {ps : List (List Char)}
    (h : ¬ [':', ':'] <+: c :: rest) (hrest : pieces rest = p :: ps) :
    pieces (c :: rest) = (c :: p) :: ps := by
  rw [pieces, hrest]
  rintro more rfl rfl
  exact h ⟨more, rfl⟩

theorem pieces_of_not_infix {cs : List Char} (h : ¬ [':', ':'] <:+: cs) : pieces cs = [cs] := by
  induction cs with
  | nil => rfl
  | cons c rest ih =>
    exact pieces_cons (fun hprefix => h hprefix.isInfix) (ih fun hin => h (List.infix_cons hin))

theorem prefix_append_separator (cs rest : List Char) :
    cs ++ [':'] <+: cs ++ ':' :: ':' :: rest :=
  ⟨':' :: rest, by simp⟩

/-- What is separable is cut off by `pieces` at the separator behind it. -/
theorem pieces_append {cs : List Char} (h : Separable cs) (rest : List Char) :
    pieces (cs ++ ':' :: ':' :: rest) = cs :: pieces rest := by
  induction cs with
  | nil => rfl
  | cons c cs ih =>
    refine pieces_cons (fun hprefix => h ?_) (ih h.of_cons)
    -- the two characters in front are in the text with its colon
    have hcolon := prefix_append_separator (c :: cs) rest
    exact (List.prefix_of_prefix_length_le hprefix hcolon (by simp)).isInfix

/-- All pieces but the last are separable, and separators stand behind them. -/
theorem exists_of_pieces_eq {cs p q : List Char} {ps : List (List Char)}
    (h : pieces cs = p :: q :: ps) :
    Separable p ∧ ∃ rest, cs = p ++ ':' :: ':' :: rest ∧ pieces rest = q :: ps := by
  fun_induction pieces cs generalizing p with
  | case1 => cases h
  | case2 rest =>
    obtain ⟨rfl, hrest⟩ := List.cons.inj h
    exact ⟨separable_nil, rest, rfl, hrest⟩
  | case3 c rest hcolons hnone => exact absurd hnone (pieces_ne_nil rest)
  | case4 c rest hcolons first others hrest ih =>
    obtain ⟨rfl, rfl⟩ := List.cons.inj h
    obtain ⟨hfirst, behind, rfl, hbehind⟩ := ih hrest
    refine ⟨fun hin => ?_, behind, rfl, hbehind⟩
    rcases List.infix_cons_iff.1 hin with hprefix | hlater
    · obtain ⟨more, hmore⟩ := hprefix.trans (prefix_append_separator (c :: first) behind)
      obtain ⟨hc, hcolon⟩ := List.cons.inj hmore
      exact hcolons more hc.symm hcolon.symm
    · exact hfirst hlater

theorem not_infix_of_pieces_eq {cs p : List Char} (h : pieces cs = [p]) :
    cs = p ∧ ¬ [':', ':'] <:+: cs := by
  fun_induction pieces cs generalizing p with
  | case1 =>
    obtain ⟨rfl, -⟩ := List.cons.inj h
    exact ⟨rfl, by decide⟩
  | case2 rest => exact absurd (List.cons.inj h).2 (pieces_ne_nil rest)
  | case3 c rest hcolons hnone => exact absurd hnone (pieces_ne_nil rest)
  | case4 c rest hcolons first others hrest ih =>
    obtain ⟨rfl, rfl⟩ := List.cons.inj h
    obtain ⟨rfl, hnowhere⟩ := ih hrest
    refine ⟨rfl, fun hin => ?_⟩
    rcases List.infix_cons_iff.1 hin with ⟨more, hmore⟩ | hlater
    · obtain ⟨hc, hcolon⟩ := List.cons.inj hmore
      exact hcolons more hc.symm hcolon.symm
    · exact hnowhere hlater

/-- A text is cut at its separators, the leftmost first: what stands in front of one is separable,
and what is left behind the last has no separator in it. -/
inductive Splits : List Char → List (List Char) → Prop
  | last {cs : List Char} (h : ¬ [':', ':'] <:+: cs) : Splits cs [cs]
  | cut {p rest : List Char} {ps : List (List Char)} (hp : Separable p) (h : Splits rest ps) :
      Splits (p ++ ':' :: ':' :: rest) (p :: ps)

theorem splits_singleton_iff (cs p : List Char) :
    Splits cs [p] ↔ cs = p ∧ ¬ [':', ':'] <:+: cs := by
  constructor
  · rintro (h | ⟨-, ⟨⟩⟩)
    exact ⟨rfl, h⟩
  · rintro ⟨rfl, h⟩
    exact .last h

theorem splits_cons_iff (cs p q : List Char) (ps : List (List Char)) :
    Splits cs (p :: q :: ps) ↔
      Separable p ∧ ∃ rest, cs = p ++ ':' :: ':' :: rest ∧ Splits rest (q :: ps) := by
  constructor
  · rintro (- | ⟨hp, h⟩)
    exact ⟨hp, _, rfl, h⟩
  · rintro ⟨hp, rest, rfl, h⟩
    exact .cut hp h

theorem splits_of_pieces_eq {cs : List Char} {ps : List (List Char)} (h : pieces cs = ps) :
    Splits cs ps := by
  induction ps generalizing cs with
  | nil => exact absurd h (pieces_ne_nil cs)
  | cons p ps ih =>
    cases ps with
    | nil =>
      obtain ⟨rfl, hnowhere⟩ := not_infix_of_pieces_eq h
      exact .last hnowhere
    | cons q ps =>
      obtain ⟨hp, rest, rfl, hrest⟩ := exists_of_pieces_eq h
      exact .cut hp (ih hrest)

/-- There is one way to cut a text (`Splits`), and `pieces` finds it. -/
theorem pieces_eq_iff (cs : List Char) (ps : List (List Char)) : pieces cs = ps ↔ Splits cs ps := by
  refine ⟨splits_of_pieces_eq, fun h => ?_⟩
  induction h with
  | last h => exact pieces_of_not_infix h
  | cut hp _ ih => rw [pieces_append hp, ih]

end Text
end Coursework
