import Coursework.Proofs.Json.Writing

/-!
# Values over several lines

A value that is written over several lines is read as the value that it is (`Value.read_pretty`).
The lexer drops blanks between tokens, and a blank ends a number as a delimiter does.
-/

set_option autoImplicit false

namespace Coursework
namespace Json

/-! ## Blanks -/

/-- An octet that is no token and goes on with no number, such as those that `Value.newLine` is made
of. -/
structure Blank (b : UInt8) : Prop where
  start : Lexer.start b = some ([], .idle)
  ends : ∀ d : Digits, d.step b = none

theorem blank_space : Blank 32 where
  start := rfl
  ends d := by simp [Digits.step, show Digits.digit? 32 = none from rfl]

theorem blank_newLine : Blank 10 where
  start := rfl
  ends d := by simp [Digits.step, show Digits.digit? 10 = none from rfl]

theorem Blank.step {b : UInt8} (h : Blank b) {lexer : Lexer} {last : List Token}
    (hlast : lexer.finish = some last) : lexer.step b = some (last, .idle) := by
  cases lexer with
  | idle =>
    cases hlast
    exact h.start
  | number d =>
    rw [Lexer.finish] at hlast
    split at hlast
    · next hcomplete =>
      cases hlast
      simp only [Lexer.step, h.ends d, hcomplete, if_true, h.start]
    · cases hlast
  | word rest token => cases hlast
  | text pieces => cases hlast
  | escape pieces => cases hlast
  | unit pieces left value => cases hlast

theorem Spells.blank {front back : List UInt8} {first rest : List Token}
    (hfront : Spells front first) {b : UInt8} (hb : Blank b) (hback : Spells back rest) :
    Spells (front ++ b :: back) (first ++ rest) := by
  obtain ⟨done, lexer, last, hlex, hfinish, rfl⟩ := hfront
  obtain ⟨done', lexer', last', hlex', hfinish', rfl⟩ := hback
  refine ⟨done ++ (last ++ done'), lexer', last', ?_, hfinish', by simp⟩
  rw [lex_append hlex, lex, hb.step hfinish]
  simp [hlex']

theorem Spells.behindSpace {back : List Char} {rest : List Token}
    (hback : Spells (encode back) rest) : Spells (encode (' ' :: back)) rest :=
  spells_nil.blank blank_space hback

theorem Spells.newLine {front back : List Char} {first rest : List Token}
    (hfront : Spells (encode front) first) (level : Nat) (hback : Spells (encode back) rest) :
    Spells (encode (front ++ (Value.newLine level ++ back))) (first ++ rest) := by
  have hspaces : ∀ count, Spells (encode (List.replicate count ' ' ++ back)) rest := by
    intro count
    induction count with
    | zero => exact hback
    | succ count ih => exact ih.behindSpace
  rw [encode, List.flatMap_append]
  exact hfront.blank blank_newLine (hspaces (2 * level))

/-! ## Spelling over several lines -/

namespace Value

def furtherItems (items : List Value) : List Token :=
  items.flatMap fun v => .comma :: v.tokens

theorem itemTokens_cons (v : Value) (items : List Value) :
    itemTokens (v :: items) = v.tokens ++ furtherItems items := by
  induction items generalizing v with
  | nil => simp [itemTokens, furtherItems]
  | cons w items ih =>
    rw [itemTokens, ih w]
    · simp [furtherItems]
    · exact List.cons_ne_nil w items

def furtherMembers (members : List (String × Value)) : List Token :=
  members.flatMap fun m => .comma :: .string (some m.1) :: .colon :: m.2.tokens

theorem memberTokens_cons (m : String × Value) (members : List (String × Value)) :
    memberTokens (m :: members) =
      .string (some m.1) :: .colon :: (m.2.tokens ++ furtherMembers members) := by
  induction members generalizing m with
  | nil => simp [memberTokens, furtherMembers]
  | cons n members ih =>
    rw [memberTokens, ih n]
    · simp [furtherMembers]
    · exact List.cons_ne_nil n members

theorem spells_encode_nil : Spells (encode []) [] :=
  spells_nil

theorem spells_closed {front : List Char} {first : List Token}
    (hfront : Spells (encode front) first) (level : Nat) {c : Char} {token : Token}
    (hc : Lexer.start (UInt8.ofNat c.toNat) = some ([token], .idle)) (hascii : c.toNat < 128) :
    Spells (encode (front ++ (newLine level ++ [c]))) (first ++ [token]) :=
  hfront.newLine level (spells_encode_nil.behindMark hc hascii)

mutual

theorem spells_prettyChars : ∀ (level : Nat) (v : Value),
    Spells (encode (prettyChars level v)) v.tokens
  | _, .array [] =>
    (spells_encode_nil.behindMark (c := ']') rfl (by decide)).behindMark (c := '[') rfl
      (by decide)
  | level, .array (v :: items) => by
    have hfirst : Spells (encode (newLine (level + 1) ++ prettyChars (level + 1) v)) v.tokens :=
      spells_encode_nil.newLine _ (spells_prettyChars (level + 1) v)
    have hitems := spells_prettyItems (level + 1) items hfirst
    have hclosed := spells_closed hitems level (c := ']') rfl (by decide)
    have hall := hclosed.behindMark (c := '[') rfl (by decide)
    rw [prettyChars, tokens, itemTokens_cons]
    simpa only [List.append_assoc] using hall
  | _, .object [] =>
    (spells_encode_nil.behindMark (c := '\x7d') rfl (by decide)).behindMark (c := '\x7b') rfl
      (by decide)
  | level, .object ((k, v) :: members) => by
    have hvalue := (spells_prettyChars (level + 1) v).behindSpace
    have hmember := (spells_quoted k).mark (c := ':') delimits_colon (by decide) hvalue
    have hfirst := spells_encode_nil.newLine (level + 1) hmember
    have hmembers := spells_prettyMembers (level + 1) members hfirst
    have hclosed := spells_closed hmembers level (c := '\x7d') rfl (by decide)
    have hall := hclosed.behindMark (c := '\x7b') rfl (by decide)
    rw [prettyChars, tokens, memberTokens_cons]
    simpa only [List.append_assoc, List.cons_append, List.nil_append] using hall
  | _, .null => spells_chars .null
  | _, .bool b => spells_chars (.bool b)
  | _, .number n => spells_chars (.number n)
  | _, .string s => spells_chars (.string s)

theorem spells_prettyItems (level : Nat) : ∀ (items : List Value) {front : List Char}
    {first : List Token}, Spells (encode front) first →
      Spells (encode (front ++ prettyItems level items)) (first ++ furtherItems items)
  | [], front, first, h => by
    rw [prettyItems, List.append_nil, furtherItems, List.flatMap_nil, List.append_nil]
    exact h
  | v :: items, front, first, h => by
    have hline := spells_encode_nil.newLine level (spells_prettyChars level v)
    have hitem := h.mark (c := ',') delimits_comma (by decide) hline
    have hall := spells_prettyItems level items hitem
    rw [prettyItems, furtherItems, List.flatMap_cons]
    simpa only [List.append_assoc, List.cons_append, List.nil_append, furtherItems] using hall

theorem spells_prettyMembers (level : Nat) : ∀ (members : List (String × Value))
    {front : List Char} {first : List Token}, Spells (encode front) first →
      Spells (encode (front ++ prettyMembers level members)) (first ++ furtherMembers members)
  | [], front, first, h => by
    rw [prettyMembers, List.append_nil, furtherMembers, List.flatMap_nil, List.append_nil]
    exact h
  | (k, v) :: members, front, first, h => by
    have hvalue := (spells_prettyChars level v).behindSpace
    have hmember := (spells_quoted k).mark (c := ':') delimits_colon (by decide) hvalue
    have hline := spells_encode_nil.newLine level hmember
    have hfirst := h.mark (c := ',') delimits_comma (by decide) hline
    have hall := spells_prettyMembers level members hfirst
    rw [prettyMembers, furtherMembers, List.flatMap_cons]
    simpa only [List.append_assoc, List.cons_append, List.nil_append, furtherMembers] using hall

end

/-- **A value over several lines is read as what it is**: `pretty` and `text` are two spellings of
the same tokens. -/
theorem read_pretty (v : Value) : Source.read (Text.utf8 v.pretty) = some v.source :=
  ofString?_of_spells_tokens (spells_prettyChars 0 v)

end Value
end Json
end Coursework
