import Coursework.Proofs.Endpoint.Ordinary

/-!
# Members that a request does not read

A request is an object, and a member of it counts only if somebody reads it: the request type a
field of its own, or the context one of its five.  Any other member can be left out, put in or given
another value, as long as its value can be read (`RequestKind.decodeWith_without`).  What the server
fills in is of this sort (`RequestKind.Ignores`), so that no client can put anything there
(`RequestKind.Disregards`).

The one trace that such a member leaves is in what the reader says of a text that it cannot read,
since it may say where in the text it stopped (`Wording`).
-/

set_option autoImplicit false

namespace Coursework
namespace Json

def Source.without (key : String) (members : List (Option String × Source)) :
    List (Option String × Source) :=
  members.filter fun m => decide (m.1 ≠ some key)

/-- To put in a member, wherever that may be, is to do nothing to the others. -/
theorem Source.without_append_cons (key : String) (front back : List (Option String × Source))
    (v : Source) : without key (front ++ (some key, v) :: back) = without key (front ++ back) := by
  simp [without]

namespace Decode

def Fields.without (key : String) (fields : Fields) : Fields :=
  fields.filter fun f => decide (f.1 ≠ key)

theorem textKeys_without (key : String) (members : List (Option String × Source)) :
    textKeys (Source.without key members) = (textKeys members).map (Fields.without key) := by
  induction members with
  | nil => rfl
  | cons m rest ih =>
    obtain ⟨name, v⟩ := m
    rw [Source.without] at ih ⊢
    cases name with
    | none => rfl
    | some name =>
      by_cases hname : name = key
      · rw [List.filter_cons_of_neg (by simp [hname]), ih, textKeys]
        cases textKeys rest with
        | none => rfl
        | some fields => simp [Fields.without, hname]
      · rw [List.filter_cons_of_pos (by simp [hname]), textKeys, textKeys, ih]
        cases textKeys rest with
        | none => rfl
        | some fields => simp [Fields.without, hname]

theorem mem_of_textKeys {members : List (Option String × Source)} {fields : Fields}
    (h : textKeys members = some fields) {key : String} {v : Source} (hv : (key, v) ∈ fields) :
    (some key, v) ∈ members := by
  induction members generalizing fields with
  | nil =>
    cases h
    cases hv
  | cons m rest ih =>
    obtain ⟨name, w⟩ := m
    cases name with
    | none => cases h
    | some name =>
      obtain ⟨others, hothers, rfl⟩ := Option.map_eq_some_iff.1 h
      obtain heq | hmem := List.mem_cons.1 hv
      · cases heq
        exact List.mem_cons_self
      · exact List.mem_cons_of_mem _ (ih hothers hmem)

section Without

variable {key : String} {own other : List String}

theorem lookup_without {name : String} (h : name ≠ key) (fields : Fields) :
    (fields.without key).lookup name = fields.lookup name := by
  rw [Fields.without, Table.lookup_filter_ne, if_neg h]

theorem eachOnce_without {names : List String} (h : key ∉ names) (fields : Fields) :
    eachOnce names (fields.without key) = eachOnce names fields := by
  have hsame : ∀ name ∈ names, ((fields.without key).filter fun f => f.1 == name) =
      fields.filter fun f => f.1 == name := by
    intro name hname
    have hne : name ≠ key := fun heq => h (heq ▸ hname)
    rw [Fields.without, List.filter_filter]
    refine List.filter_congr fun f _ => ?_
    by_cases hf : f.1 = name
    · simp [hf, hne]
    · simp [hf]
  rw [eachOnce, eachOnce, Bool.eq_iff_iff, List.all_eq_true, List.all_eq_true]
  exact forall₂_congr fun name hname => by rw [hsame name hname]

theorem keptReadable_without {fields : Fields}
    (hread : ∀ v, (key, v) ∈ fields → (v.toValue? (depthLimit - 1)).isSome = true) :
    keptReadable own (fields.without key) = keptReadable own fields := by
  rw [Bool.eq_iff_iff, keptReadable, keptReadable]
  simp only [Fields.without, List.all_eq_true, List.mem_filter, decide_eq_true_eq]
  refine ⟨fun hall f hf => ?_, fun hall f hf => hall f ⟨hf.1.1, hf.2⟩⟩
  by_cases hkey : f.1 = key
  · exact hread f.2 (hkey ▸ hf.1)
  · exact hall f ⟨⟨hf.1, hkey⟩, hf.2⟩

/-- What `merged?` reads out of an object is the same without a member that none of its readers
knows. -/
theorem merged?_without (hkey : key ∉ own ++ other) {members : List (Option String × Source)}
    (hread : ∀ v, (some key, v) ∈ members → (v.toValue? (depthLimit - 1)).isSome = true) :
    merged? own other (.object (Source.without key members)) =
      (merged? own other (.object members)).map (Fields.without key) := by
  rw [merged?, merged?, textKeys_without]
  cases hfields : textKeys members with
  | none => rfl
  | some fields =>
    have hkept : keptReadable own (fields.without key) = keptReadable own fields :=
      keptReadable_without fun v hv => hread v (mem_of_textKeys hfields hv)
    rw [keptReadable, keptReadable] at hkept
    simp only [Option.map_some, eachOnce_without hkey, hkept]
    split <;> rfl

end Without
end Decode
end Json

open Json Json.Decode

theorem Context.ofFields?_congr {f g : Fields}
    (h : ∀ name ∈ names, f.lookup name = g.lookup name) : ofFields? f = ofFields? g := by
  simp only [ofFields?, orElse_congr (h "course-id" (by decide)),
    orElse_congr (h "assignment-id" (by decide)), orElse_congr (h "user-email" (by decide)),
    orElse_congr (h "user-pass" (by decide)), orElse_congr (h "root-user-nonce" (by decide))]

/-- Two texts hold an object each, and these differ at most in what they have under a key; whatever
that is, it can be read as a value. -/
def AlikeBut (key a b : String) : Prop :=
  ∃ ms ns, Source.ofString? a = some (.object ms) ∧ Source.ofString? b = some (.object ns) ∧
    Source.without key ms = Source.without key ns ∧
    ∀ v, (some key, v) ∈ ms ++ ns → (v.toValue? (depthLimit - 1)).isSome = true

/-- Texts are alike if one of them has a member more, under a key that no other member has. -/
theorem AlikeBut.of_more {key a b : String} (front back : List (Option String × Source))
    {v : Source} (ha : Source.ofString? a = some (.object (front ++ (some key, v) :: back)))
    (hb : Source.ofString? b = some (.object (front ++ back)))
    (hnew : ∀ m ∈ front ++ back, m.1 ≠ some key)
    (hv : (v.toValue? (depthLimit - 1)).isSome = true) : AlikeBut key a b := by
  refine ⟨_, _, ha, hb, Source.without_append_cons .., fun w hw => ?_⟩
  have hcases : (some key, w) = (some key, v) ∨ (some key, w) ∈ front ++ back := by
    simp only [List.mem_append, List.mem_cons] at hw ⊢
    grind
  rcases hcases with heq | hmem
  · cases heq
    exact hv
  · exact absurd rfl (hnew _ hmem)

namespace RequestKind

variable {R : Type}

/-- A request type reads fields by their names, and neither one of its own nor one of the context
has this name. -/
def Ignores (kind : RequestKind R) (key : String) : Prop :=
  ∃ own read, kind.decode = decodeWith own read ∧ ByNames own read ∧ key ∉ own ++ Context.names

theorem decodeWith_without {own : List String} {read : Fields → Option R}
    (hnames : ByNames own read) {key : String} (hkey : key ∉ own ++ Context.names)
    {members : List (Option String × Source)}
    (hread : ∀ v, (some key, v) ∈ members → (v.toValue? (depthLimit - 1)).isSome = true) :
    decodeWith own read (.object (Source.without key members)) =
      decodeWith own read (.object members) := by
  rw [decodeWith, decodeWith, merged?_without hkey hread]
  cases merged? own Context.names (.object members) with
  | none => rfl
  | some fields =>
    have hne : ∀ name ∈ own ++ Context.names, name ≠ key := fun name hname heq => hkey (heq ▸ hname)
    have hown : read (fields.without key) = read fields := hnames _ _ fun name hname =>
      lookup_without (hne name (List.mem_append_left _ hname)) fields
    have hcontext : Context.ofFields? (fields.without key) = Context.ofFields? fields :=
      Context.ofFields?_congr fun name hname =>
        lookup_without (hne name (List.mem_append_right _ hname)) fields
    simp only [Option.map_some, bind, Option.bind_some, hown, hcontext]

/-- Texts that differ only in what nobody reads are read alike. -/
theorem Ignores.decode_congr {kind : RequestKind R} {key : String} (hkind : kind.Ignores key)
    {a b : String} (h : AlikeBut key a b) :
    decodeText? kind.decode a = decodeText? kind.decode b := by
  obtain ⟨own, read, hdecode, hnames, hkey⟩ := hkind
  obtain ⟨ms, ns, ha, hb, hsame, hread⟩ := h
  -- Both are read like the members that they have in common.
  rw [decodeText?, decodeText?, ha, hb, Option.bind_some, Option.bind_some, hdecode,
    ← decodeWith_without hnames hkey fun v hv => hread v (List.mem_append_left _ hv), hsame,
    decodeWith_without hnames hkey fun v hv => hread v (List.mem_append_right _ hv)]

/-- **A member that nobody reads makes no difference** to what becomes of a request that is read. -/
theorem Ignores.materialize_congr {kind : RequestKind R} {key : String} (hkind : kind.Ignores key)
    {a b : String} (h : AlikeBut key a b) (hread : (decodeText? kind.decode a).isSome)
    (files : List Upload) (s : Server) :
    Request.materialize kind ⟨a, files⟩ s = Request.materialize kind ⟨b, files⟩ s := by
  obtain ⟨decoded, hsome⟩ := Option.isSome_iff_exists.1 hread
  have hsome' := (hkind.decode_congr h).symm.trans hsome
  simp only [Request.materialize, hsome, hsome']

/-- A route disregards what stands under a key.  Texts that differ in nothing else (`AlikeBut`) are
the same request to it, and come to the same; only where they are none, each is refused in the words
that the reader has for it. -/
structure Disregards (kind : RequestKind R) (route : Route) (key : String) : Prop where
  read : ∀ a b, AlikeBut key a b → decodeText? kind.decode a = decodeText? kind.decode b
  same : ∀ a b, AlikeBut key a b → (decodeText? kind.decode a).isSome → ∀ files s,
    Request.materialize kind ⟨a, files⟩ s = Request.materialize kind ⟨b, files⟩ s ∧
      route.call ⟨a, files⟩ s = route.call ⟨b, files⟩ s
  unread : ∀ a, decodeText? kind.decode a = none → ∀ files s,
    Request.materialize kind ⟨a, files⟩ s = (.error (Request.unread kind a s), s) ∧
      route.call ⟨a, files⟩ s = (.refused (Request.unread kind a s), s)

theorem Ignores.disregards {kind : RequestKind R} {key : String} (hkind : kind.Ignores key)
    {endpoint : String} {handler : Materialized R → Server → Reply × Server} :
    kind.Disregards (.of endpoint kind handler) key where
  read _ _ h := hkind.decode_congr h
  same a b h hread files s := by
    have hsame := hkind.materialize_congr h hread files s
    exact ⟨hsame, by simp only [Route.of, Route.run, hsame]⟩
  unread a hnone files s := by
    have hrefused := Request.materialize_of_unread hnone files s
    exact ⟨hrefused, by simp only [Route.of, Route.run, hrefused]⟩

end RequestKind
end Coursework
