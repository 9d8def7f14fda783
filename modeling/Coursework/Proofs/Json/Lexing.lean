import Coursework.Json.Printer
import Coursework.Proofs.Text.Utf8

/-!
# Tokens of a text

`Source.readFrom` runs lexer and assembler side by side.  The lexer does not look at the assembler,
so the tokens of a text can be found first (`lex`) and put together afterwards (`readFrom_eq`).

A number has no end of its own, and the lexer gives out its token with the octet behind it or at the
end of the text.  `Spells` leaves that apart: octets spell tokens when the tokens come out by the
end of the text, and what spells tokens can be put in front of a delimiter and more
(`Spells.delimited`).  Strings spell their text (`spells_quoted`).
-/

set_option autoImplicit false

namespace Coursework
namespace Json

/-! ## Tokens first -/

/-- The tokens that octets complete, and the state behind them: `Lexer.step` for each of them. -/
def lex (lexer : Lexer) : List UInt8 → Option (List Token × Lexer)
  | [] => some ([], lexer)
  | b :: rest =>
    match lexer.step b with
    | none => none
    | some (tokens, lexer) => (lex lexer rest).map fun p => (tokens ++ p.1, p.2)

namespace Source

theorem Stage.steps_append (stage : Stage) (front back : List Token) :
    stage.steps (front ++ back) = (stage.steps front).bind fun s => s.steps back := by
  induction front generalizing stage with
  | nil => rfl
  | cons token rest ih =>
    rw [List.cons_append, steps, steps]
    split
    · exact ih _
    · rfl

/-- To read a text is to find its tokens and to put them together, although `readFrom` does both at
once. -/
theorem readFrom_eq (lexer : Lexer) (stage : Stage) (octets : List UInt8) :
    readFrom lexer stage octets = (lex lexer octets).bind fun p => p.2.finish.bind fun last =>
      (stage.steps (p.1 ++ last)).bind Stage.document? := by
  induction octets generalizing lexer stage with
  | nil =>
    simp only [readFrom, lex, Option.bind_some]
    cases lexer.finish <;> rfl
  | cons b rest ih =>
    rw [readFrom, lex]
    cases hstep : lexer.step b with
    | none => rfl
    | some p =>
      obtain ⟨tokens, lexer'⟩ := p
      cases hlex : lex lexer' rest with
      | none =>
        cases hsteps : stage.steps tokens with
        | none => simp [hsteps, hlex]
        | some stage' => simp [hsteps, ih, hlex]
      | some q =>
        obtain ⟨more, lexer''⟩ := q
        cases hsteps : stage.steps tokens with
        | none =>
          cases hfinish : lexer''.finish <;> simp [hsteps, hlex, hfinish, Stage.steps_append]
        | some stage' => simp [hsteps, ih, hlex, Stage.steps_append]

end Source

/-! ## Spelling -/

theorem lex_append {lexer lexer' : Lexer} {front : List UInt8} {tokens : List Token}
    (h : lex lexer front = some (tokens, lexer')) (back : List UInt8) :
    lex lexer (front ++ back) = (lex lexer' back).map fun p => (tokens ++ p.1, p.2) := by
  induction front generalizing lexer tokens with
  | nil =>
    cases h
    simp
  | cons b rest ih =>
    rw [lex] at h
    rw [List.cons_append, lex]
    cases hstep : lexer.step b with
    | none =>
      rw [hstep] at h
      cases h
    | some p =>
      rw [hstep] at h
      obtain ⟨⟨more, last⟩, hrest, heq⟩ := Option.map_eq_some_iff.1 h
      cases heq
      simp only [ih hrest, Option.map_map]
      congr 1
      funext q
      simp [List.append_assoc]

/-- Octets that are tokens by themselves: from a lexer that is idle they lead to these tokens, the
last of which may be complete only at the end. -/
def Spells (octets : List UInt8) (tokens : List Token) : Prop :=
  ∃ done lexer last, lex .idle octets = some (done, lexer) ∧ lexer.finish = some last ∧
    done ++ last = tokens

theorem Spells.read_eq {octets : List UInt8} {tokens : List Token} (h : Spells octets tokens) :
    Source.read octets = ((Source.Stage.value []).steps tokens).bind Source.Stage.document? := by
  obtain ⟨done, lexer, last, hlex, hfinish, rfl⟩ := h
  rw [Source.read, Source.readFrom_eq, hlex]
  simp only [Option.bind_some, hfinish]

/-- An octet that is a token and goes on with no number, so that it ends whatever stands before
it. -/
structure Delimits (b : UInt8) (token : Token) : Prop where
  start : Lexer.start b = some ([token], .idle)
  ends : ∀ d : Digits, d.step b = none

theorem delimits_of {b : UInt8} {token : Token} (h : Lexer.start b = some ([token], .idle))
    (hb : Digits.digit? b = none ∧ b ≠ 46 ∧ b ≠ 69 ∧ b ≠ 101 ∧ b ≠ 43 ∧ b ≠ 45) :
    Delimits b token where
  start := h
  ends d := by
    obtain ⟨hdigit, h46, h69, h101, h43, h45⟩ := hb
    simp [Digits.step, hdigit, h46, h69, h101, h43, h45]

theorem delimits_comma : Delimits 44 .comma := delimits_of rfl (by decide)

theorem delimits_colon : Delimits 58 .colon := delimits_of rfl (by decide)

theorem delimits_closeArray : Delimits 93 .closeArray := delimits_of rfl (by decide)

theorem delimits_closeObject : Delimits 125 .closeObject := delimits_of rfl (by decide)

theorem Delimits.step {b : UInt8} {token : Token} (h : Delimits b token) {lexer : Lexer}
    {last : List Token} (hlast : lexer.finish = some last) :
    lexer.step b = some (last ++ [token], .idle) := by
  cases lexer with
  | idle =>
    cases hlast
    exact h.start
  | number d =>
    rw [Lexer.finish] at hlast
    split at hlast
    · next hcomplete =>
      cases hlast
      simp only [Lexer.step, h.ends d, hcomplete, if_true, h.start]
      rfl
    · cases hlast
  | word rest token => cases hlast
  | text pieces => cases hlast
  | escape pieces => cases hlast
  | unit pieces left value => cases hlast

theorem spells_nil : Spells [] [] :=
  ⟨[], .idle, [], rfl, rfl, rfl⟩

/-- What is spelled may stand in front of a delimiter. -/
theorem Spells.delimited {front back : List UInt8} {first rest : List Token}
    (hfront : Spells front first)
    {b : UInt8} {token : Token} (hb : Delimits b token) (hback : Spells back rest) :
    Spells (front ++ b :: back) (first ++ token :: rest) := by
  obtain ⟨done, lexer, last, hlex, hfinish, rfl⟩ := hfront
  obtain ⟨done', lexer', last', hlex', hfinish', rfl⟩ := hback
  refine ⟨done ++ (last ++ token :: done'), lexer', last', ?_, hfinish', by simp⟩
  rw [lex_append hlex, lex, hb.step hfinish]
  simp [hlex']

theorem Spells.behind {back : List UInt8} {rest : List Token} (hback : Spells back rest) {b : UInt8}
    {token : Token} (hb : Lexer.start b = some ([token], .idle)) :
    Spells (b :: back) (token :: rest) := by
  obtain ⟨done, lexer, last, hlex, hfinish, rfl⟩ := hback
  refine ⟨token :: done, lexer, last, ?_, hfinish, rfl⟩
  have hstep : Lexer.idle.step b = some ([token], .idle) := hb
  rw [lex, hstep]
  simp [hlex]

/-! ## Strings -/

abbrev encode (cs : List Char) : List UInt8 :=
  cs.flatMap String.utf8EncodeChar

/-- Pieces, last to first, that stand for octets, whatever octets come behind them
(`assembleReversed`). -/
def StandFor (pieces : List Piece) (octets : List UInt8) : Prop :=
  ∀ found, assembleReversed pieces found = some (octets ++ found)

theorem standFor_nil : StandFor [] [] :=
  fun _ => rfl

theorem StandFor.octet {pieces : List Piece} {octets : List UInt8} (h : StandFor pieces octets)
    (b : UInt8) : StandFor (.octet b :: pieces) (octets ++ [b]) := by
  intro found
  rw [assembleReversed, h]
  simp

theorem StandFor.unit {pieces : List Piece} {octets : List UInt8} (h : StandFor pieces octets)
    {u : Nat} (hu : u < 0xD800) :
    StandFor (.unit u :: pieces) (octets ++ String.utf8EncodeChar (Char.ofNat u)) := by
  intro found
  have hlow : isLowHalf u = false := by
    rw [isLowHalf, Bool.and_eq_false_iff, decide_eq_false_iff_not]
    omega
  have hhigh : isHighHalf u = false := by
    rw [isHighHalf, Bool.and_eq_false_iff, decide_eq_false_iff_not]
    omega
  have hone : Text.utf8 (String.singleton (Char.ofNat u)) =
      String.utf8EncodeChar (Char.ofNat u) := by
    rw [Text.utf8_eq_flatMap, String.toList_singleton]
    simp
  rw [assembleReversed.eq_def]
  simp only [hlow, hhigh, Bool.false_eq_true, if_false, hone, List.append_assoc]
  exact h _

/-- Octets that stand for themselves within quotes. -/
theorem lex_plain {octets : List UInt8} (hplain : ∀ b ∈ octets, b ≠ 34 ∧ b ≠ 92 ∧ ¬b < 32)
    {pieces : List Piece} {found : List UInt8} (h : StandFor pieces found) :
    ∃ more, lex (.text pieces) octets = some ([], .text more) ∧
      StandFor more (found ++ octets) := by
  induction octets generalizing pieces found with
  | nil => exact ⟨pieces, rfl, by simpa using h⟩
  | cons b rest ih =>
    obtain ⟨hquote, hslash, hlow⟩ := hplain b List.mem_cons_self
    obtain ⟨more, hlex, hmore⟩ := ih (fun c hc => hplain c (List.mem_cons_of_mem b hc)) (h.octet b)
    refine ⟨more, ?_, by simpa using hmore⟩
    rw [lex, Lexer.step, if_neg hquote, if_neg hslash, if_neg hlow]
    simp [hlex]

theorem lex_escape {b c : UInt8} (hb : b ≠ 117) (hshort : shortEscape? b = some c)
    (pieces : List Piece) : lex (.text pieces) [92, b] = some ([], .text (.octet c :: pieces)) := by
  simp [lex, Lexer.step, hb, hshort]

theorem lex_escapedUnit {high low : UInt8} {h l : Nat} (hhigh : hexValue? high = some h)
    (hlow : hexValue? low = some l) (pieces : List Piece) :
    lex (.text pieces) [92, 117, 48, 48, high, low] =
      some ([], .text (.unit (16 * h + l) :: pieces)) := by
  have hzero : hexValue? 48 = some 0 := rfl
  simp [lex, Lexer.step, hzero, hhigh, hlow]

/-- A control character without a short escape is written as a unit. -/
theorem encode_quotedChar_control {n : Nat} (hn : n < 32) (hshort : n ∉ [8, 9, 10, 12, 13]) :
    ∃ high low, encode (quotedChar (Char.ofNat n)) = [92, 117, 48, 48, high, low] ∧
      hexValue? high = some (n / 16) ∧ hexValue? low = some (n % 16) := by
  have hall : ∀ n < 32, n ∈ [8, 9, 10, 12, 13] ∨
      encode (quotedChar (Char.ofNat n)) =
        [92, 117, 48, 48, UInt8.ofNat (48 + n / 16),
          UInt8.ofNat (if n % 16 < 10 then 48 + n % 16 else 87 + n % 16)] ∧
      hexValue? (UInt8.ofNat (48 + n / 16)) = some (n / 16) ∧
      hexValue? (UInt8.ofNat (if n % 16 < 10 then 48 + n % 16 else 87 + n % 16)) =
        some (n % 16) := by decide
  exact ⟨_, _, (hall n hn).resolve_left hshort⟩

theorem plain_of_mem_encodeChar {c : Char} (hquote : c ≠ '"') (hslash : c ≠ '\\')
    (hcontrol : ¬c.toNat < 32) {b : UInt8} (hb : b ∈ String.utf8EncodeChar c) :
    b ≠ 34 ∧ b ≠ 92 ∧ ¬b < 32 := by
  by_cases hascii : c.toNat < 128
  · rw [Text.encodeChar_of_ascii hascii, List.mem_singleton] at hb
    have hvalue : b.toNat = c.toNat := by rw [hb, UInt8.toNat_ofNat']; omega
    have hne : ∀ d : Char, d.toNat < 128 → c ≠ d → b ≠ UInt8.ofNat d.toNat := by
      rintro d hd hcd rfl
      rw [UInt8.toNat_ofNat'] at hvalue
      exact hcd (Char.toNat_inj.1 (by omega))
    refine ⟨hne '"' (by decide) hquote, hne '\\' (by decide) hslash, ?_⟩
    rw [UInt8.lt_iff_toNat_lt, hvalue]
    exact hcontrol
  · have hhigh := Text.high_of_mem_encodeChar (Nat.le_of_not_lt hascii) hb
    refine ⟨?_, ?_, ?_⟩
    · rintro rfl
      exact absurd hhigh (by decide)
    · rintro rfl
      exact absurd hhigh (by decide)
    · rw [UInt8.lt_iff_toNat_lt, Nat.not_lt]
      exact Nat.le_trans (by decide) hhigh

/-- Whatever way a character is written within quotes (`quotedChar`), it is read as itself. -/
theorem lex_quotedChar (c : Char) {pieces : List Piece} {found : List UInt8}
    (h : StandFor pieces found) :
    ∃ more, lex (.text pieces) (encode (quotedChar c)) = some ([], .text more) ∧
      StandFor more (found ++ String.utf8EncodeChar c) := by
  have hshort : ∀ (d : Char) (b e : UInt8), encode (quotedChar d) = [92, b] → b ≠ 117 →
      shortEscape? b = some e → String.utf8EncodeChar d = [e] → c = d →
      ∃ more, lex (.text pieces) (encode (quotedChar c)) = some ([], .text more) ∧
        StandFor more (found ++ String.utf8EncodeChar c) := by
    rintro d b e hd hb he hself rfl
    rw [hd, hself]
    exact ⟨_, lex_escape hb he pieces, h.octet e⟩
  by_cases hquote : c = '"'
  · exact hshort '"' 34 34 rfl (by decide) rfl rfl hquote
  by_cases hslash : c = '\\'
  · exact hshort '\\' 92 92 rfl (by decide) rfl rfl hslash
  have hchar : ∀ n, c.toNat = n → c = Char.ofNat n := fun n hn => by rw [← hn, Char.ofNat_toNat]
  by_cases h8 : c.toNat = 8
  · exact hshort _ 98 8 rfl (by decide) rfl rfl (hchar 8 h8)
  by_cases h12 : c.toNat = 12
  · exact hshort _ 102 12 rfl (by decide) rfl rfl (hchar 12 h12)
  by_cases h10 : c.toNat = 10
  · exact hshort _ 110 10 rfl (by decide) rfl rfl (hchar 10 h10)
  by_cases h13 : c.toNat = 13
  · exact hshort _ 114 13 rfl (by decide) rfl rfl (hchar 13 h13)
  by_cases h9 : c.toNat = 9
  · exact hshort _ 116 9 rfl (by decide) rfl rfl (hchar 9 h9)
  by_cases hcontrol : c.toNat < 32
  · obtain ⟨high, low, hencode, hhigh, hlow⟩ :=
      encode_quotedChar_control hcontrol (by simp [h8, h9, h10, h12, h13])
    rw [Char.ofNat_toNat] at hencode
    have hvalue : 16 * (c.toNat / 16) + c.toNat % 16 = c.toNat := Nat.div_add_mod _ _
    have hunit := h.unit (u := c.toNat) (by omega)
    rw [Char.ofNat_toNat] at hunit
    refine ⟨_, hencode ▸ lex_escapedUnit hhigh hlow pieces, ?_⟩
    rwa [hvalue]
  · have hself : quotedChar c = [c] := by
      simp [quotedChar, hquote, hslash, h8, h12, h10, h13, h9, hcontrol]
    have hencode : encode (quotedChar c) = String.utf8EncodeChar c := by rw [hself]; simp
    rw [hencode]
    exact lex_plain (fun b => plain_of_mem_encodeChar hquote hslash hcontrol) h

theorem lex_quotedChars (cs : List Char) {pieces : List Piece} {found : List UInt8}
    (h : StandFor pieces found) :
    ∃ more, lex (.text pieces) (encode (cs.flatMap quotedChar)) = some ([], .text more) ∧
      StandFor more (found ++ encode cs) := by
  induction cs generalizing pieces found with
  | nil => exact ⟨pieces, rfl, by simpa using h⟩
  | cons c rest ih =>
    obtain ⟨first, hlex, hfirst⟩ := lex_quotedChar c h
    obtain ⟨more, hrest, hmore⟩ := ih hfirst
    refine ⟨more, ?_, by simpa using hmore⟩
    rw [List.flatMap_cons, encode, List.flatMap_append, lex_append hlex]
    simp [hrest]

/-- A string within quotes is one token, and the token is the string. -/
theorem spells_quoted (s : String) : Spells (encode (quoted s)) [.string (some s)] := by
  obtain ⟨pieces, hlex, hpieces⟩ := lex_quotedChars s.toList standFor_nil
  have htext : textOfPieces? pieces = some s := by
    have hself : encode s.toList = Text.utf8 s := (Text.utf8_eq_flatMap s).symm
    rw [textOfPieces?, hpieces]
    simp only [List.nil_append, List.append_nil, hself, Option.bind_some, Text.ofUtf8?_utf8]
  have hclose : Lexer.step (.text pieces) 34 = some ([.string (some s)], .idle) := by
    rw [Lexer.step, if_pos rfl, htext]
  have hencode : encode (quoted s) = 34 :: (encode (s.toList.flatMap quotedChar) ++ [34]) := by
    simp [encode, quoted]
    rfl
  refine ⟨[.string (some s)], .idle, [], ?_, rfl, rfl⟩
  have hopen : Lexer.idle.step 34 = some ([], .text []) := rfl
  rw [hencode, lex, hopen]
  simp only [lex_append hlex, lex, hclose]
  rfl

end Json
end Coursework
