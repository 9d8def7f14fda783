import Coursework.Proofs.Table
import Coursework.Proofs.Uploads
import Coursework.Transport.Http
import Coursework.Transport.Url

/-!
# Paths that lead to an endpoint

An endpoint is served under its own text if that is a plain path: no character of it has a meaning
of its own in an address or in a pattern, and it has no dot segments (`Url.PlainPath`).  A client's
library leaves such a path as it is (`Url.path_of_plain`), and of all endpoints whose patterns take
it the one that is spelled so is chosen (`Pattern.choose?_plain`), since it has a character wherever
another has a name.
-/

set_option autoImplicit false

namespace Coursework

/-! ## Addresses -/

namespace Url

/-- A text that stands for itself as the path of an address (`Url.path`) and as a pattern. -/
structure PlainPath (path : String) : Prop where
  slash : ∃ rest, path.toList = '/' :: rest
  plain : ∀ c ∈ path.toList, isPlain c = true ∧ c ≠ '\\'
  noDots : ∀ s ∈ Text.splitAt (fun c => c == '/' || c == '\\') path.toList,
    isHere s = false ∧ isUp s = false

instance (path : String) : Decidable (PlainPath path) :=
  decidable_of_iff (path.toList.head? = some '/' ∧
      path.toList.all (fun c => isPlain c && c != '\\') = true ∧
      (Text.splitAt (fun c => c == '/' || c == '\\') path.toList).all
        (fun s => !isHere s && !isUp s) = true)
    ⟨fun ⟨hslash, hplain, hdots⟩ => ⟨List.head?_eq_some_iff.1 hslash,
        by simpa using hplain, by simpa using hdots⟩,
      fun h => ⟨List.head?_eq_some_iff.2 h.slash, by simpa using h.plain, by simpa using h.noDots⟩⟩

/-- A plain character is no blank, ends no path and is no brace. -/
theorem of_isPlain {c : Char} (h : isPlain c = true) :
    32 < c.toNat ∧ c.toNat < 127 ∧ endsPath c = false ∧ c ≠ '\x7b' ∧ c ≠ '\x7d' := by
  simp only [isPlain, Bool.and_eq_true, decide_eq_true_eq, bne_iff_ne, ne_eq] at h
  obtain ⟨⟨⟨⟨⟨⟨⟨⟨⟨hlow, hhigh⟩, -⟩, -⟩, -⟩, -⟩, hopen⟩, hclose⟩, hhash⟩, hquestion⟩ := h
  refine ⟨hlow, hhigh, ?_, hopen, hclose⟩
  simp [endsPath, hhash, hquestion]

theorem resolve_of_noDots {segments : List (List Char)}
    (h : ∀ s ∈ segments, isHere s = false ∧ isUp s = false) (done : List (List Char)) :
    resolve done segments = done.reverse ++ segments := by
  induction segments generalizing done with
  | nil => rw [resolve, List.append_nil]
  | cons s rest ih =>
    obtain ⟨hhere, hup⟩ := h s List.mem_cons_self
    rw [resolve, hhere, hup, if_neg (by decide), if_neg (by decide),
      ih fun t ht => h t (List.mem_cons_of_mem s ht)]
    simp

/-- Segments with a slash before each are the path they were split from. -/
theorem flatMap_splitAt {cs : List Char} (h : ∀ c ∈ cs, c ≠ '\\') :
    ((Text.splitAt (fun c => c == '/' || c == '\\') cs).flatMap fun s => '/' :: s) = '/' :: cs := by
  induction cs with
  | nil => rfl
  | cons c rest ih =>
    have hrest := ih fun d hd => h d (List.mem_cons_of_mem c hd)
    have hc := h c List.mem_cons_self
    rw [Text.splitAt]
    split
    · next hsep =>
      have hslash : c = '/' := by simpa [hc] using hsep
      rw [List.flatMap_cons, hrest, hslash]
      rfl
    · cases hsplit : Text.splitAt (fun c => c == '/' || c == '\\') rest with
      | nil => exact absurd hsplit (Text.splitAt_ne_nil rest)
      | cons p ps =>
        rw [hsplit] at hrest
        simpa using hrest

theorem mem_of_mem_splitAt {α : Type} {separates : α → Bool} {xs : List α} {s : List α} {x : α}
    (hs : s ∈ Text.splitAt separates xs) (hx : x ∈ s) : x ∈ xs := by
  induction xs generalizing s with
  | nil =>
    rw [List.mem_singleton.1 hs] at hx
    cases hx
  | cons y rest ih =>
    rw [Text.splitAt] at hs
    split at hs
    · obtain rfl | hs := List.mem_cons.1 hs
      · cases hx
      · exact List.mem_cons_of_mem y (ih hs hx)
    · cases hsplit : Text.splitAt separates rest with
      | nil => exact absurd hsplit (Text.splitAt_ne_nil rest)
      | cons p ps =>
        rw [hsplit] at hs ih
        obtain rfl | hs := List.mem_cons.1 hs
        · obtain rfl | hx := List.mem_cons.1 hx
          · exact List.mem_cons_self
          · exact List.mem_cons_of_mem y (ih List.mem_cons_self hx)
        · exact List.mem_cons_of_mem y (ih (List.mem_cons_of_mem p hs) hx)

theorem flatMap_escapeChar {cs : List Char} (h : ∀ c ∈ cs, isPlain c = true) :
    cs.flatMap escapeChar = cs := by
  induction cs with
  | nil => rfl
  | cons c rest ih =>
    rw [List.flatMap_cons, ih fun d hd => h d (List.mem_cons_of_mem c hd), escapeChar,
      if_pos (h c List.mem_cons_self)]
    rfl

/-! Blanks are dropped and the path is cut before a query, which a plain text has no use for. -/

theorem filter_of_plain {cs : List Char} (h : ∀ c ∈ cs, isPlain c = true) :
    (cs.filter fun c => c != '\t' && c != '\n' && c != '\r') = cs := by
  rw [List.filter_eq_self]
  intro c hc
  have hlow := (of_isPlain (h c hc)).1
  have hne : ∀ d : Char, d.toNat ≤ 32 → c ≠ d := by
    rintro d hd rfl
    omega
  simp [hne '\t' (by decide), hne '\n' (by decide), hne '\r' (by decide)]

theorem trim_of_plain {cs : List Char} (h : ∀ c ∈ cs, isPlain c = true) :
    (cs.reverse.dropWhile fun c => c.toNat ≤ 32).reverse = cs := by
  cases hrev : cs.reverse with
  | nil =>
    rw [List.reverse_eq_nil_iff.1 hrev]
    rfl
  | cons c rest =>
    have hlow := (of_isPlain (h c (List.mem_reverse.1 (hrev ▸ List.mem_cons_self)))).1
    rw [List.dropWhile_cons_of_neg (by simpa using hlow), ← hrev, List.reverse_reverse]

theorem takeWhile_of_plain {cs : List Char} (h : ∀ c ∈ cs, isPlain c = true) :
    (cs.takeWhile fun c => !endsPath c) = cs := by
  have hall : ∀ c ∈ cs, (!endsPath c) = true := fun c hc => by
    rw [(of_isPlain (h c hc)).2.2.1]
    rfl
  have htake := @List.takeWhile_append_of_pos _ _ cs [] hall
  simpa using htake

theorem path_of_plain {p : String} (h : PlainPath p) : path p = p := by
  have hplain := fun c hc => (h.plain c hc).1
  obtain ⟨rest, hslash⟩ := h.slash
  have hsplit : (Text.splitAt (fun c => c == '/' || c == '\\') p.toList).drop 1 =
      Text.splitAt (fun c => c == '/' || c == '\\') rest := by
    rw [hslash]
    rfl
  have hrest : ∀ c ∈ rest, isPlain c = true ∧ c ≠ '\\' := fun c hc =>
    h.plain c (hslash ▸ List.mem_cons_of_mem '/' hc)
  have hescape : ∀ s ∈ Text.splitAt (fun c => c == '/' || c == '\\') rest,
      s.flatMap escapeChar = s :=
    fun s hs => flatMap_escapeChar fun c hc => (hrest c (mem_of_mem_splitAt hs hc)).1
  have hdots : resolve [] (Text.splitAt (fun c => c == '/' || c == '\\') rest) =
      Text.splitAt (fun c => c == '/' || c == '\\') rest := by
    refine (resolve_of_noDots (fun s hs => h.noDots s ?_) []).trans (List.nil_append _)
    rw [← hsplit] at hs
    exact List.mem_of_mem_drop hs
  have hall : (Text.splitAt (fun c => c == '/' || c == '\\') rest).flatMap
      (fun s => '/' :: s.flatMap escapeChar) = p.toList := by
    rw [hslash, ← flatMap_splitAt fun c hc => (hrest c hc).2]
    rw [List.flatMap_def, List.map_congr_left fun s hs => by rw [hescape s hs], ← List.flatMap_def]
  rw [path]
  simp only [filter_of_plain hplain, trim_of_plain hplain, takeWhile_of_plain hplain, hsplit, hdots,
    hall, String.ofList_toList]

end Url

/-! ## Patterns -/

namespace Pattern

theorem pieces_of_plain {cs : List Char} (h : ∀ c ∈ cs, c ≠ '\x7b' ∧ c ≠ '\x7d') :
    pieces false cs = cs.map .literal := by
  induction cs with
  | nil => rfl
  | cons c rest ih =>
    obtain ⟨hopen, hclose⟩ := h c List.mem_cons_self
    rw [pieces, ih fun d hd => h d (List.mem_cons_of_mem c hd), List.map_cons]
    all_goals simp [hopen, hclose]

theorem eq_of_pieces {cs ds : List Char} (h : ∀ c ∈ cs, c ≠ '\x7b' ∧ c ≠ '\x7d')
    (heq : pieces false ds = cs.map .literal) : ds = cs := by
  induction cs generalizing ds with
  | nil =>
    rw [pieces.eq_def] at heq
    split at heq
    · rfl
    · next hinside => cases hinside
    · next hinside => cases hinside
    all_goals cases heq
  | cons c rest ih =>
    obtain ⟨hopen, hclose⟩ := h c List.mem_cons_self
    rw [pieces.eq_def, List.map_cons] at heq
    split at heq
    · cases heq
    · next hinside => cases hinside
    · next hinside => cases hinside
    · exact absurd (Piece.literal.inj (List.cons.inj heq).1).symm hopen
    · exact absurd (Piece.literal.inj (List.cons.inj heq).1).symm hclose
    · cases heq
    · cases heq
    · obtain ⟨hc, hrest⟩ := List.cons.inj heq
      rw [Piece.literal.inj hc, ih (fun d hd => h d (List.mem_cons_of_mem c hd)) hrest]

theorem takes_literals (cs : List Char) : takes (cs.map .literal) cs = true := by
  induction cs with
  | nil => rfl
  | cons c rest ih =>
    rw [List.map_cons, takes, ih, beq_self_eq_true]
    rfl

theorem precedes_literal (c d : Char) (ps qs : List Piece) :
    precedes (.literal c :: ps) (.literal d :: qs) = (c == d && precedes ps qs) :=
  rfl

theorem precedes_plain (ps : List Piece) (cs : List Char) :
    precedes ps (cs.map .literal) = false := by
  induction cs generalizing ps with
  | nil => cases ps <;> rfl
  | cons c rest ih =>
    cases ps with
    | nil => rfl
    | cons p ps =>
      cases p with
      | literal d => rw [List.map_cons, precedes_literal, ih, Bool.and_false]
      | segment => rfl
      | remainder => rfl

theorem plain_precedes {ps : List Piece} {cs : List Char} (htakes : takes ps cs = true)
    (hne : ps ≠ cs.map .literal) : precedes (cs.map .literal) ps = true := by
  induction cs generalizing ps with
  | nil =>
    cases ps with
    | nil => exact absurd rfl hne
    | cons p ps => cases p <;> cases htakes
  | cons c rest ih =>
    cases ps with
    | nil => cases htakes
    | cons p ps =>
      cases p with
      | literal d =>
        rw [takes, Bool.and_eq_true, beq_iff_eq] at htakes
        obtain ⟨rfl, htakes⟩ := htakes
        have hrest : ps ≠ rest.map .literal := by
          rintro rfl
          exact hne rfl
        rw [List.map_cons, precedes_literal, ih htakes hrest, beq_self_eq_true, Bool.and_self]
      | segment => rfl
      | remainder => rfl

section Choice

variable {e : String} (hplain : ∀ c ∈ e.toList, c ≠ '\x7b' ∧ c ≠ '\x7d')

include hplain

theorem takes_plain : takes (ofEndpoint e) e.toList = true := by
  rw [ofEndpoint, pieces_of_plain hplain, takes_literals]

/-- An endpoint with a plain text is preferred to any other that takes it. -/
theorem prefer_plain {a b : String} (h : a = e ∨ b = e)
    (ha : takes (ofEndpoint a) e.toList = true) :
    prefer a b = e := by
  have hpieces : ofEndpoint e = e.toList.map .literal := pieces_of_plain hplain
  obtain rfl | rfl := h
  · rw [prefer, hpieces, precedes_plain, if_neg (by decide)]
  · rw [prefer, hpieces]
    by_cases heq : ofEndpoint a = b.toList.map .literal
    · have hab : a = b := String.toList_inj.1 (eq_of_pieces hplain heq)
      rw [hab, ite_self]
    · rw [plain_precedes ha heq, if_pos rfl]

theorem foldl_prefer_plain {endpoints : List String} {a : String}
    (hall : ∀ f ∈ endpoints, takes (ofEndpoint f) e.toList = true)
    (ha : takes (ofEndpoint a) e.toList = true) (h : a = e ∨ e ∈ endpoints) :
    endpoints.foldl prefer a = e := by
  induction endpoints generalizing a with
  | nil => exact h.resolve_right List.not_mem_nil
  | cons b rest ih =>
    have hb := hall b List.mem_cons_self
    have hrest := fun f hf => hall f (List.mem_cons_of_mem b hf)
    rw [List.foldl_cons]
    by_cases hhere : a = e ∨ b = e
    · have he := prefer_plain hplain hhere ha
      rw [he]
      exact ih hrest (takes_plain hplain) (.inl rfl)
    · obtain ⟨hae, hbe⟩ := not_or.1 hhere
      have hmem : e ∈ rest := (List.mem_cons.1 (h.resolve_left hae)).resolve_left fun heq =>
        hbe heq.symm
      refine ih hrest ?_ (.inr hmem)
      rw [prefer]
      split
      · exact hb
      · exact ha

/-- Of endpoints that take a plain path, `choose?` finds the one that is spelled so. -/
theorem choose?_plain {endpoints : List String} (he : e ∈ endpoints) :
    choose? endpoints e = some e := by
  have hmem : e ∈ endpoints.filter fun f => takes (ofEndpoint f) e.toList :=
    List.mem_filter.2 ⟨he, takes_plain hplain⟩
  rw [choose?]
  split
  · next hnil =>
    rw [hnil] at hmem
    cases hmem
  · next f fs hcons =>
    have hall : ∀ g ∈ f :: fs, takes (ofEndpoint g) e.toList = true := by
      intro g hg
      rw [← hcons] at hg
      exact (List.mem_filter.1 hg).2
    rw [hcons] at hmem
    have hfold := foldl_prefer_plain hplain (fun g hg => hall g (List.mem_cons_of_mem f hg))
      (hall f List.mem_cons_self) ((List.mem_cons.1 hmem).imp_left Eq.symm)
    rw [hfold]

end Choice

end Pattern

/-! ## Endpoints -/

namespace Http

/-- A registered endpoint with a plain text is what its own path is served with. -/
theorem resource?_plain {c : Config} {e : String} (hplain : Url.PlainPath e)
    (he : c.routes.contains e = true) :
    ∃ counters, resource? c (Url.path e) = some ⟨some e, counters⟩ := by
  have hbraces : ∀ d ∈ e.toList, d ≠ '\x7b' ∧ d ≠ '\x7d' := fun d hd =>
    (Url.of_isPlain (hplain.plain d hd).1).2.2.2
  obtain ⟨r, hr⟩ := (Table.contains_iff c.routes e).1 he
  have hmem : e ∈ c.routes.endpoints :=
    List.mem_mergeSort.2 (List.mem_map_of_mem (Table.mem_of_lookup hr))
  rw [Url.path_of_plain hplain, resource?]
  simp only [Pattern.choose?_plain hbraces (List.mem_append_left _ hmem), Option.map_some,
    he, if_true]
  exact ⟨_, rfl⟩

end Http
end Coursework
