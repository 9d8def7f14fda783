import Coursework.Json.Decode
import Coursework.Proofs.Json.Numerals

/-!
# What is written is read

Whatever value is written, its text is a document (`Source.ofString?_text`), and the document says
of the value all that can be said: `Value.source` has its members in their order and its strings as
they are.

The value of that document is the value that was written (`toValue?_source`) if its containers are
not nested too deeply, its members are in order, and its numbers survive being written and read.
Whole numbers in range do (`Number.survives_int`); of doubles that cannot be said in general, since
those that are read are not always the nearest ones.
-/

set_option autoImplicit false

namespace Coursework
namespace Json

open Source (Stage Open)

/-! ## The document of a value -/

def Number.source (n : Number) : Source :=
  (Source.ofString? (String.ofList n.text)).getD .null

def Number.token (n : Number) : Token :=
  match n.source with
  | .number x => .number x
  | _ => .null

namespace Value

mutual

/-- The document that a value is written as: what `Source.read` makes of its text. -/
def source : Value → Source
  | .null => .null
  | .bool b => .bool b
  | .number n => n.source
  | .string s => .string (some s)
  | .array items => .array (itemSources items)
  | .object members => .object (memberSources members)

def itemSources : List Value → List Source
  | [] => []
  | v :: rest => v.source :: itemSources rest

def memberSources : List (String × Value) → List (Option String × Source)
  | [] => []
  | (k, v) :: rest => (some k, v.source) :: memberSources rest

end

mutual

/-- The tokens that a value is written as, whatever blanks stand between them. -/
def tokens : Value → List Token
  | .null => [.null]
  | .bool b => [.bool b]
  | .number n => [n.token]
  | .string s => [.string (some s)]
  | .array items => .openArray :: (itemTokens items ++ [.closeArray])
  | .object members => .openObject :: (memberTokens members ++ [.closeObject])

def itemTokens : List Value → List Token
  | [] => []
  | [v] => tokens v
  | v :: rest => tokens v ++ .comma :: itemTokens rest

def memberTokens : List (String × Value) → List Token
  | [] => []
  | [(k, v)] => .string (some k) :: .colon :: tokens v
  | (k, v) :: rest => .string (some k) :: .colon :: (tokens v ++ .comma :: memberTokens rest)

end

end Value

/-! ## Spelling a value -/

theorem ofString?_of_spells {cs : List Char} {tokens : List Token} (h : Spells (encode cs) tokens) :
    Source.ofString? (String.ofList cs) =
      ((Stage.value []).steps tokens).bind Stage.document? := by
  rw [Source.ofString?, Text.utf8_ofList]
  exact h.read_eq

/-- What is written may be followed by a mark and more. -/
theorem Spells.mark {front back : List Char} {first rest : List Token}
    (hfront : Spells (encode front) first) {c : Char} {token : Token}
    (hc : Delimits (UInt8.ofNat c.toNat) token) (hascii : c.toNat < 128)
    (hback : Spells (encode back) rest) :
    Spells (encode (front ++ c :: back)) (first ++ token :: rest) := by
  have hall := hfront.delimited hc hback
  rwa [encode, List.flatMap_append, List.flatMap_cons, Text.encodeChar_of_ascii hascii]

theorem Spells.behindMark {back : List Char} {rest : List Token} (hback : Spells (encode back) rest)
    {c : Char} {token : Token} (hc : Lexer.start (UInt8.ofNat c.toNat) = some ([token], .idle))
    (hascii : c.toNat < 128) : Spells (encode (c :: back)) (token :: rest) := by
  have hall := hback.behind hc
  rwa [encode, List.flatMap_cons, Text.encodeChar_of_ascii hascii]

theorem spells_null : Spells (encode ['n', 'u', 'l', 'l']) [.null] :=
  ⟨[.null], .idle, [], rfl, rfl, rfl⟩

namespace Number

theorem spells_text (n : Number) :
    (∃ x, Spells (encode n.text) [.number x]) ∨ Spells (encode n.text) [.null] := by
  cases n with
  | int k =>
    obtain ⟨x, hx, -⟩ := spells_decimal k
    exact .inl ⟨x, hx⟩
  | float x =>
    rw [text]
    split
    · exact .inl (spells_floatText x)
    · exact .inr spells_null

theorem token_of_spells {n : Number} {x : Numeral} (h : Spells (encode n.text) [.number x]) :
    n.token = .number x := by
  rw [token, source, ofString?_of_spells h]
  rfl

theorem source_of_spells {n : Number} {x : Numeral} (h : Spells (encode n.text) [.number x]) :
    n.source = .number x := by
  rw [source, ofString?_of_spells h]
  rfl

theorem source_of_spells_null {n : Number} (h : Spells (encode n.text) [.null]) :
    n.source = .null := by
  rw [source, ofString?_of_spells h]
  rfl

theorem spells_token (n : Number) : Spells (encode n.text) [n.token] := by
  obtain ⟨x, hx⟩ | hnull := n.spells_text
  · rwa [token_of_spells hx]
  · rwa [token, source_of_spells_null hnull]

theorem begin_token (n : Number) (outer : List Open) :
    Stage.begin outer n.token = some (.after outer n.source) := by
  obtain ⟨x, hx⟩ | hnull := n.spells_text
  · rw [token_of_spells hx, source_of_spells hx]
    rfl
  · rw [token, source_of_spells_null hnull]
    rfl

theorem token_ne_closeArray (n : Number) : n.token ≠ .closeArray := by
  intro h
  have hbegin := n.begin_token []
  rw [h] at hbegin
  cases hbegin

end Number

namespace Value

mutual

/-- The text of a value (`Value.chars`) is its tokens. -/
theorem spells_chars : ∀ v : Value, Spells (encode v.chars) v.tokens
  | .null => spells_null
  | .bool true => ⟨[.bool true], .idle, [], rfl, rfl, rfl⟩
  | .bool false => ⟨[.bool false], .idle, [], rfl, rfl, rfl⟩
  | .number n => n.spells_token
  | .string s => spells_quoted s
  | .array items =>
    have hclosed : Spells (encode (itemChars items ++ [']'])) (itemTokens items ++ [.closeArray]) :=
      (spells_itemChars items).mark delimits_closeArray (by decide) spells_nil
    hclosed.behindMark (c := '[') rfl (by decide)
  | .object members =>
    have hclosed : Spells (encode (memberChars members ++ ['\x7d']))
        (memberTokens members ++ [.closeObject]) :=
      (spells_memberChars members).mark delimits_closeObject (by decide) spells_nil
    hclosed.behindMark (c := '\x7b') rfl (by decide)

theorem spells_itemChars : ∀ items : List Value,
    Spells (encode (itemChars items)) (itemTokens items)
  | [] => spells_nil
  | [v] => spells_chars v
  | v :: w :: rest =>
    (spells_chars v).mark delimits_comma (by decide) (spells_itemChars (w :: rest))

theorem spells_memberChars : ∀ members : List (String × Value),
    Spells (encode (memberChars members)) (memberTokens members)
  | [] => spells_nil
  | [(k, v)] => (spells_quoted k).mark delimits_colon (by decide) (spells_chars v)
  | (k, v) :: m :: rest =>
    (spells_quoted k).mark delimits_colon (by decide)
      ((spells_chars v).mark delimits_comma (by decide) (spells_memberChars (m :: rest)))

end

/-! ## Tokens put together -/

theorem steps_firstItem (v : Value) (rest : List Token) (outer : List Open) :
    (Stage.firstItem outer).steps (v.tokens ++ rest) =
      (Stage.value (.array [] :: outer)).steps (v.tokens ++ rest) := by
  cases v with
  | number n =>
    have hstep : (Stage.firstItem outer).step n.token =
        Stage.begin (.array [] :: outer) n.token := by
      have hne := n.token_ne_closeArray
      revert hne
      cases n.token <;> intro hne <;> first | rfl | exact absurd rfl hne
    rw [tokens, List.cons_append, Stage.steps, Stage.steps, hstep]
    rfl
  | _ => rfl

mutual

/-- The tokens of a value are put together to its document. -/
theorem steps_tokens : ∀ (v : Value) (outer : List Open),
    (Stage.value outer).steps v.tokens = some (.after outer v.source)
  | .null, _ => rfl
  | .bool _, _ => rfl
  | .number n, outer => by
    simp only [tokens, Stage.steps, Stage.step, n.begin_token, source]
  | .string _, _ => rfl
  | .array [], _ => rfl
  | .array (v :: rest), outer => by
    have hitems := steps_itemTokens (v :: rest) (List.cons_ne_nil v rest) [] outer
    have hfirst : (Stage.firstItem outer).steps (itemTokens (v :: rest) ++ [.closeArray]) =
        (Stage.value (.array [] :: outer)).steps (itemTokens (v :: rest) ++ [.closeArray]) := by
      cases rest with
      | nil => exact steps_firstItem v _ outer
      | cons w rest =>
        rw [itemTokens, List.append_assoc]
        · exact steps_firstItem v _ outer
        · exact List.cons_ne_nil _ _
    rw [tokens, Stage.steps]
    exact hfirst.trans hitems
  | .object [], _ => rfl
  | .object ((k, v) :: rest), outer => by
    have hmembers := steps_memberTokens ((k, v) :: rest) (List.cons_ne_nil _ rest) [] outer
    rw [tokens, Stage.steps]
    cases rest <;> exact hmembers

theorem steps_itemTokens : ∀ (items : List Value) (_ : items ≠ []) (done : List Source)
    (outer : List Open),
    (Stage.value (.array done :: outer)).steps (itemTokens items ++ [.closeArray]) =
      some (.after outer (.array (done.reverse ++ itemSources items)))
  | [], h, _, _ => absurd rfl h
  | [v], _, done, outer => by
    rw [itemTokens, Stage.steps_append, steps_tokens v]
    simp [Stage.steps, Stage.step, itemSources]
  | v :: w :: rest, _, done, outer => by
    have hrest := steps_itemTokens (w :: rest) (List.cons_ne_nil w rest) (v.source :: done) outer
    rw [itemTokens, List.append_assoc, Stage.steps_append, steps_tokens v]
    · simp only [Option.bind_some, List.cons_append, Stage.steps, Stage.step, hrest]
      simp [itemSources]
    · exact List.cons_ne_nil w rest

theorem steps_memberTokens : ∀ (members : List (String × Value)) (_ : members ≠ [])
    (done : List (Option String × Source)) (outer : List Open),
    (Stage.key outer done).steps (memberTokens members ++ [.closeObject]) =
      some (.after outer (.object (done.reverse ++ memberSources members)))
  | [], h, _, _ => absurd rfl h
  | [(k, v)], _, done, outer => by
    rw [memberTokens, List.cons_append, List.cons_append, Stage.steps]
    simp only [Stage.step, Stage.steps, Stage.steps_append, steps_tokens v]
    simp [memberSources]
  | (k, v) :: m :: rest, _, done, outer => by
    have hrest := steps_memberTokens (m :: rest) (List.cons_ne_nil m rest)
      ((some k, v.source) :: done) outer
    rw [memberTokens]
    · rw [List.cons_append, List.cons_append, List.append_assoc]
      simp only [Stage.step, Stage.steps]
      rw [Stage.steps_append, steps_tokens v]
      simp only [Option.bind_some, List.cons_append, Stage.step, Stage.steps]
      rw [hrest, List.reverse_cons, List.append_assoc]
      rfl
    · exact List.cons_ne_nil m rest

end

theorem ofString?_of_spells_tokens {v : Value} {cs : List Char} (h : Spells (encode cs) v.tokens) :
    Source.ofString? (String.ofList cs) = some v.source := by
  rw [ofString?_of_spells h, v.steps_tokens]
  rfl

/-- **The text of a value is a document**, which has the members of each object as the value has
them. -/
theorem ofString?_text (v : Value) : Source.ofString? v.text = some v.source :=
  ofString?_of_spells_tokens v.spells_chars

end Value

/-! ## No control characters -/

/-- No octet is a control character of ASCII below the blank, so that a text may stand in a form. -/
def Graphic (octets : List UInt8) : Prop :=
  ∀ b ∈ octets, 32 ≤ b.toNat

theorem Graphic.append {front back : List UInt8} (hfront : Graphic front) (hback : Graphic back) :
    Graphic (front ++ back) := by
  intro b hb
  obtain hb | hb := List.mem_append.1 hb
  · exact hfront b hb
  · exact hback b hb

theorem graphic_encode {cs : List Char} (h : ∀ c ∈ cs, 32 ≤ c.toNat) : Graphic (encode cs) := by
  intro b hb
  obtain ⟨c, hc, hb⟩ := List.mem_flatMap.1 hb
  by_cases hascii : c.toNat < 128
  · rw [Text.encodeChar_of_ascii hascii, List.mem_singleton] at hb
    rw [hb, UInt8.toNat_ofNat']
    have hlow := h c hc
    omega
  · exact Nat.le_trans (by decide) (Text.high_of_mem_encodeChar (Nat.le_of_not_lt hascii) hb)

theorem Digits.graphic_of_steps {d e : Digits} {octets : List UInt8} (h : d.steps octets = some e) :
    Graphic octets := by
  induction octets generalizing d with
  | nil => exact fun _ hb => absurd hb List.not_mem_nil
  | cons b rest ih =>
    obtain ⟨f, hstep, hrest⟩ := Option.bind_eq_some_iff.1 h
    refine List.forall_mem_cons.2 ⟨Nat.le_of_not_lt fun hlow => ?_, ih hrest⟩
    have hne : ∀ c : UInt8, 32 ≤ c.toNat → b ≠ c := by
      rintro c hc rfl
      omega
    have hdigit : digit? b = none := by
      rw [digit?, if_neg]
      rw [UInt8.le_iff_toNat_le]
      exact fun h => absurd (Nat.lt_of_le_of_lt h.1 hlow) (by decide)
    simp [step, hdigit, hne 46 (by decide), hne 69 (by decide), hne 101 (by decide),
      hne 43 (by decide), hne 45 (by decide)] at hstep

theorem graphic_signed {negative : Bool} {body : List Char} (h : Graphic (encode body)) :
    Graphic (encode (signed negative body)) := by
  cases negative with
  | true =>
    have hminus : Graphic (encode ['-']) := graphic_encode (by simp)
    exact hminus.append h
  | false => exact h

theorem Number.graphic_text (n : Number) : Graphic (encode n.text) := by
  have hdigits : ∀ k, Graphic (encode (Nat.toDigits 10 k)) := fun k =>
    graphic_encode fun c hc => Nat.le_trans (by decide)
      (Char.isDigit_iff_toNat.1 (isDigit_toDigits hc)).1
  cases n with
  | int k =>
    cases k with
    | ofNat k =>
      rw [text, Text.decimal, String.toList_ofList]
      exact hdigits k
    | negSucc k =>
      rw [text, Text.decimal, String.toList_ofList]
      exact @graphic_signed true _ (hdigits (k + 1))
  | float x =>
    rw [text]
    split
    · obtain ⟨negative, body, q, htext, hleads, -, -⟩ := leads_floatText x
      obtain ⟨d, hsteps, -⟩ := hleads (.start .sign false []) rfl
      rw [htext]
      exact graphic_signed (Digits.graphic_of_steps hsteps)
    · exact graphic_encode (by simp)

theorem graphic_quotedChar (c : Char) : ∀ d ∈ quotedChar c, 32 ≤ d.toNat := by
  have hcontrol : ∀ n < 32, (quotedChar (Char.ofNat n)).all (fun d => 32 ≤ d.toNat) = true := by
    decide
  by_cases hc : c.toNat < 32
  · have hall := hcontrol c.toNat hc
    rw [Char.ofNat_toNat, List.all_eq_true] at hall
    exact fun d hd => of_decide_eq_true (hall d hd)
  · by_cases hquote : c = '"'
    · subst hquote
      simp [quotedChar]
    by_cases hslash : c = '\\'
    · subst hslash
      simp [quotedChar]
    have hne : ∀ n < 32, c.toNat ≠ n := by
      rintro n hn rfl
      exact hc hn
    have hself : quotedChar c = [c] := by
      simp [quotedChar, hquote, hslash, hc, hne 8 (by decide), hne 12 (by decide),
        hne 10 (by decide), hne 13 (by decide), hne 9 (by decide)]
    rw [hself]
    exact List.forall_mem_singleton.2 (Nat.le_of_not_lt hc)

theorem graphic_mark {front back : List Char} (hfront : Graphic (encode front)) {c : Char}
    (hc : 32 ≤ c.toNat) (hback : Graphic (encode back)) :
    Graphic (encode (front ++ c :: back)) := by
  have hmark : Graphic (encode [c]) := graphic_encode (List.forall_mem_singleton.2 hc)
  have hall := hfront.append (hmark.append hback)
  rwa [← List.flatMap_append, ← List.flatMap_append] at hall

theorem graphic_enclosed {inside : List Char} (h : Graphic (encode inside)) {a b : Char}
    (ha : 32 ≤ a.toNat) (hb : 32 ≤ b.toNat) : Graphic (encode (a :: (inside ++ [b]))) := by
  have hfirst : Graphic (encode [a]) := graphic_encode (List.forall_mem_singleton.2 ha)
  have hlast : Graphic (encode [b]) := graphic_encode (List.forall_mem_singleton.2 hb)
  have hall := hfirst.append (h.append hlast)
  rwa [← List.flatMap_append, ← List.flatMap_append] at hall

theorem graphic_quoted (s : String) : Graphic (encode (quoted s)) := by
  refine graphic_enclosed (graphic_encode fun d hd => ?_) (by decide) (by decide)
  obtain ⟨c, -, hd⟩ := List.mem_flatMap.1 hd
  exact graphic_quotedChar c d hd

namespace Value

mutual

theorem graphic_chars : ∀ v : Value, Graphic (encode v.chars)
  | .null => graphic_encode (by simp [chars])
  | .bool true => graphic_encode (by simp [chars])
  | .bool false => graphic_encode (by simp [chars])
  | .number n => n.graphic_text
  | .string s => graphic_quoted s
  | .array items =>
    graphic_enclosed (graphic_itemChars items) (a := '[') (b := ']') (by decide) (by decide)
  | .object members =>
    graphic_enclosed (graphic_memberChars members) (a := '\x7b') (b := '\x7d') (by decide)
      (by decide)

theorem graphic_itemChars : ∀ items : List Value, Graphic (encode (itemChars items))
  | [] => graphic_encode (by simp [itemChars])
  | [v] => graphic_chars v
  | v :: w :: rest => graphic_mark (graphic_chars v) (by decide) (graphic_itemChars (w :: rest))

theorem graphic_memberChars : ∀ members : List (String × Value),
    Graphic (encode (memberChars members))
  | [] => graphic_encode (by simp [memberChars])
  | [(k, v)] => graphic_mark (graphic_quoted k) (by decide) (graphic_chars v)
  | (k, v) :: m :: rest =>
    graphic_mark (graphic_quoted k) (by decide)
      (graphic_mark (graphic_chars v) (by decide) (graphic_memberChars (m :: rest)))

end

end Value
end Json
end Coursework
