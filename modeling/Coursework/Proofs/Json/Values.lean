import Coursework.Proofs.Json.Writing

/-!
# Values that are read back

A document stands for a value in which the members of every object are in order and containers are
not nested too deeply: it is `Shaped` (`shaped_of_toValue?`).  A value of this shape is read back
from its own text, provided its numbers are (`Value.toValue?_source`).  Whole numbers in range are
(`Number.survives_int`); of doubles that cannot be said in general, since the one read is not always
the nearest, so that a statement about them has to ask for `Value.NumbersSurvive`.
-/

set_option autoImplicit false

namespace Coursework
namespace Json

/-! ## Members in order -/

/-- The keys of members increase, as those of `Value.sortMembers` do. -/
def KeysIncrease {α : Type} (members : List (String × α)) : Prop :=
  members.Pairwise fun a b => a.1 < b.1

namespace Value

variable {α : Type}

theorem mem_insertMember {key : String} {v : α} {members : List (String × α)} {e : String × α}
    (h : e ∈ insertMember key v members) : e = (key, v) ∨ e ∈ members := by
  induction members with
  | nil => exact .inl (List.mem_singleton.1 h)
  | cons m rest ih =>
    rw [insertMember] at h
    split at h
    · exact List.mem_cons.1 h
    · split at h
      · exact (List.mem_cons.1 h).imp_right (List.mem_cons_of_mem m)
      · obtain rfl | hrest := List.mem_cons.1 h
        · exact .inr List.mem_cons_self
        · exact (ih hrest).imp_right (List.mem_cons_of_mem m)

theorem keysIncrease_insertMember {members : List (String × α)} (h : KeysIncrease members)
    (key : String) (v : α) : KeysIncrease (insertMember key v members) := by
  induction members with
  | nil => exact List.pairwise_singleton _ _
  | cons m rest ih =>
    obtain ⟨hfirst, hrest⟩ := List.pairwise_cons.1 h
    rw [insertMember]
    split
    · next hlt =>
      refine List.pairwise_cons.2 ⟨fun e he => ?_, h⟩
      obtain rfl | he := List.mem_cons.1 he
      · exact hlt
      · exact String.lt_trans hlt (hfirst e he)
    · next hlt =>
      split
      · next heq =>
        refine List.pairwise_cons.2 ⟨fun e he => ?_, hrest⟩
        rw [heq]
        exact hfirst e he
      · next hne =>
        refine List.pairwise_cons.2 ⟨fun e he => ?_, ih hrest⟩
        obtain rfl | he := mem_insertMember he
        · exact Std.lt_of_le_of_ne (String.not_lt.1 hlt) (Ne.symm hne)
        · exact hfirst e he

theorem mem_foldl_insertMember {members sorted : List (String × α)} {e : String × α}
    (h : e ∈ members.foldl (fun sorted e => insertMember e.1 e.2 sorted) sorted) :
    e ∈ members ∨ e ∈ sorted := by
  induction members generalizing sorted with
  | nil => exact .inr h
  | cons m rest ih =>
    obtain hrest | hsorted := ih h
    · exact .inl (List.mem_cons_of_mem m hrest)
    · obtain rfl | hsorted := mem_insertMember hsorted
      · exact .inl List.mem_cons_self
      · exact .inr hsorted

theorem mem_of_mem_sortMembers {members : List (String × α)} {e : String × α}
    (h : e ∈ sortMembers members) : e ∈ members :=
  (mem_foldl_insertMember h).resolve_right List.not_mem_nil

theorem keysIncrease_sortMembers (members : List (String × α)) :
    KeysIncrease (sortMembers members) := by
  rw [sortMembers]
  suffices h : ∀ sorted, KeysIncrease sorted →
      KeysIncrease (members.foldl (fun sorted e => insertMember e.1 e.2 sorted) sorted) from
    h [] List.Pairwise.nil
  induction members with
  | nil => exact fun _ h => h
  | cons m rest ih => exact fun sorted h => ih _ (keysIncrease_insertMember h m.1 m.2)

theorem insertMember_of_last {key : String} {members : List (String × α)}
    (h : ∀ e ∈ members, e.1 < key) (v : α) :
    insertMember key v members = members ++ [(key, v)] := by
  induction members with
  | nil => rfl
  | cons m rest ih =>
    have hm := h m List.mem_cons_self
    have hne : key ≠ m.1 := by
      rintro rfl
      exact String.lt_irrefl _ hm
    rw [insertMember, if_neg (String.lt_asymm hm), if_neg hne,
      ih fun e he => h e (List.mem_cons_of_mem m he)]
    rfl

theorem sortMembers_of_increase {members : List (String × α)} (h : KeysIncrease members) :
    sortMembers members = members := by
  rw [sortMembers]
  suffices hall : ∀ sorted : List (String × α), KeysIncrease (sorted ++ members) →
      members.foldl (fun sorted e => insertMember e.1 e.2 sorted) sorted = sorted ++ members from
    hall [] h
  clear h
  induction members with
  | nil => exact fun sorted _ => (List.append_nil sorted).symm
  | cons m rest ih =>
    intro sorted h
    have hlast : ∀ e ∈ sorted, e.1 < m.1 := fun e he =>
      (List.pairwise_append.1 h).2.2 e he m List.mem_cons_self
    rw [List.foldl_cons, insertMember_of_last hlast, ih _ (by simpa using h)]
    simp

/-! ## Shape -/

mutual

/-- A value has at most `room` containers around any part of it, and every object has its members in
order. -/
def Shaped (room : Nat) : Value → Prop
  | .array items =>
    match room with
    | 0 => False
    | room + 1 => ItemsShaped room items
  | .object members =>
    match room with
    | 0 => False
    | room + 1 => KeysIncrease members ∧ MembersShaped room members
  | .null => True
  | .bool _ => True
  | .number _ => True
  | .string _ => True

def ItemsShaped (room : Nat) : List Value → Prop
  | [] => True
  | v :: rest => Shaped room v ∧ ItemsShaped room rest

def MembersShaped (room : Nat) : List (String × Value) → Prop
  | [] => True
  | (_, v) :: rest => Shaped room v ∧ MembersShaped room rest

end

theorem membersShaped_iff {room : Nat} {members : List (String × Value)} :
    MembersShaped room members ↔ ∀ e ∈ members, Shaped room e.2 := by
  induction members with
  | nil => simp [MembersShaped]
  | cons m rest ih => simp [MembersShaped, ih]

theorem shaped_insertMember {room : Nat} {members : List (String × Value)}
    (h : Shaped (room + 1) (.object members)) (key : String) {v : Value} (hv : Shaped room v) :
    Shaped (room + 1) (.object (insertMember key v members)) := by
  obtain ⟨hincrease, hmembers⟩ := h
  refine ⟨keysIncrease_insertMember hincrease key v, membersShaped_iff.2 fun e he => ?_⟩
  obtain rfl | he := mem_insertMember he
  · exact hv
  · exact membersShaped_iff.1 hmembers e he

end Value

mutual

/-- A document stands for nothing that is not `Shaped`. -/
theorem Source.shaped_of_toValue? : ∀ {s : Source} {room : Nat} {v : Value},
    s.toValue? room = some v → v.Shaped room
  | .null, _, _, h => by cases h; trivial
  | .bool _, _, _, h => by cases h; trivial
  | .number _, _, _, h => by
    obtain ⟨n, -, rfl⟩ := Option.map_eq_some_iff.1 h
    trivial
  | .string _, _, _, h => by
    obtain ⟨s, -, rfl⟩ := Option.map_eq_some_iff.1 h
    trivial
  | .array _, 0, _, h => by cases h
  | .array _, _ + 1, _, h => by
    obtain ⟨items, hitems, rfl⟩ := Option.map_eq_some_iff.1 h
    exact shaped_of_itemsToValues? hitems
  | .object _, 0, _, h => by cases h
  | .object _, _ + 1, _, h => by
    obtain ⟨members, hmembers, rfl⟩ := Option.map_eq_some_iff.1 h
    have hshaped := Value.membersShaped_iff.1 (shaped_of_membersToValues? hmembers)
    refine ⟨Value.keysIncrease_sortMembers members, Value.membersShaped_iff.2 fun e he => ?_⟩
    exact hshaped e (Value.mem_of_mem_sortMembers he)

theorem Source.shaped_of_itemsToValues? : ∀ {items : List Source} {room : Nat} {vs : List Value},
    itemsToValues? room items = some vs → Value.ItemsShaped room vs
  | [], _, _, h => by cases h; trivial
  | s :: rest, room, _, h => by
    rw [itemsToValues?] at h
    split at h
    · cases h
    · next v hv =>
      obtain ⟨vs, hvs, rfl⟩ := Option.map_eq_some_iff.1 h
      exact ⟨shaped_of_toValue? hv, shaped_of_itemsToValues? hvs⟩

theorem Source.shaped_of_membersToValues? : ∀ {members : List (Option String × Source)} {room : Nat}
    {ms : List (String × Value)},
    membersToValues? room members = some ms → Value.MembersShaped room ms
  | [], _, _, h => by cases h; trivial
  | (key, s) :: rest, room, _, h => by
    cases key with
    | none => cases h
    | some key =>
      simp only [membersToValues?] at h
      split at h
      · next hkey hv =>
        cases hkey
        obtain ⟨ms, hms, rfl⟩ := Option.map_eq_some_iff.1 h
        exact ⟨shaped_of_toValue? hv, shaped_of_membersToValues? hms⟩
      · cases h

end

/-! ## Numbers -/

/-- A number is written, and read as itself: its text spells one numeral, which means this
number. -/
def Number.Survives (n : Number) : Prop :=
  Value.ofString? (Value.number n).text = some (.number n)

theorem Number.toValue?_source {n : Number} (h : n.Survives) (room : Nat) :
    n.source.toValue? room = some (.number n) := by
  rw [Survives, Value.ofString?, Value.ofString?_text, Option.bind_some, Value.source] at h
  obtain ⟨x, hx⟩ | hnull := n.spells_text
  · rw [source_of_spells hx] at h ⊢
    exact h
  · rw [source_of_spells_null hnull] at h
    cases h

theorem Number.survives_int {n : Int} (hlow : -9223372036854775808 ≤ n)
    (hhigh : n ≤ Text.uint64Max) :
    (Number.int n).Survives := by
  obtain ⟨x, hspells, hvalue⟩ := spells_decimal n
  have hsource : (Number.int n).source = .number x := source_of_spells hspells
  rw [Survives, Value.ofString?, Value.ofString?_text, Option.bind_some, Value.source, hsource,
    Source.toValue?, Numeral.toNumber?, hvalue hlow hhigh]
  rfl

namespace Value

mutual

/-- Every number in a value survives (`Number.Survives`), so that the value is read as it was
written. -/
def NumbersSurvive : Value → Prop
  | .number n => n.Survives
  | .array items => ItemNumbersSurvive items
  | .object members => MemberNumbersSurvive members
  | .null => True
  | .bool _ => True
  | .string _ => True

def ItemNumbersSurvive : List Value → Prop
  | [] => True
  | v :: rest => NumbersSurvive v ∧ ItemNumbersSurvive rest

def MemberNumbersSurvive : List (String × Value) → Prop
  | [] => True
  | (_, v) :: rest => NumbersSurvive v ∧ MemberNumbersSurvive rest

end

mutual

def numbers : Value → List Number
  | .number n => [n]
  | .array items => itemNumbers items
  | .object members => memberNumbers members
  | .null => []
  | .bool _ => []
  | .string _ => []

def itemNumbers : List Value → List Number
  | [] => []
  | v :: rest => numbers v ++ itemNumbers rest

def memberNumbers : List (String × Value) → List Number
  | [] => []
  | (_, v) :: rest => numbers v ++ memberNumbers rest

end

mutual

theorem numbersSurvive_of_forall : ∀ {v : Value}, (∀ n ∈ v.numbers, n.Survives) → v.NumbersSurvive
  | .number _, h => h _ List.mem_cons_self
  | .array _, h => itemNumbersSurvive_of_forall h
  | .object _, h => memberNumbersSurvive_of_forall h
  | .null, _ => trivial
  | .bool _, _ => trivial
  | .string _, _ => trivial

theorem itemNumbersSurvive_of_forall : ∀ {items : List Value},
    (∀ n ∈ itemNumbers items, n.Survives) → ItemNumbersSurvive items
  | [], _ => trivial
  | _ :: _, h =>
    ⟨numbersSurvive_of_forall fun n hn => h n (List.mem_append_left _ hn),
      itemNumbersSurvive_of_forall fun n hn => h n (List.mem_append_right _ hn)⟩

theorem memberNumbersSurvive_of_forall : ∀ {members : List (String × Value)},
    (∀ n ∈ memberNumbers members, n.Survives) → MemberNumbersSurvive members
  | [], _ => trivial
  | _ :: _, h =>
    ⟨numbersSurvive_of_forall fun n hn => h n (List.mem_append_left _ hn),
      memberNumbersSurvive_of_forall fun n hn => h n (List.mem_append_right _ hn)⟩

end

/-- What a document can hold of a value's numbers: the whole ones are in the range of 64 bits, and
each double is read as it was written. -/
structure Writable (v : Value) : Prop where
  ints : ∀ n, .int n ∈ v.numbers → Text.int64Min ≤ n ∧ n ≤ Text.uint64Max
  doubles : ∀ x, .float x ∈ v.numbers → (Number.float x).Survives

theorem Writable.numbersSurvive {v : Value} (h : v.Writable) : v.NumbersSurvive := by
  refine numbersSurvive_of_forall fun n hn => ?_
  cases n with
  | int n =>
    obtain ⟨hlow, hhigh⟩ := h.ints n hn
    exact Number.survives_int hlow hhigh
  | float x => exact h.doubles x hn

theorem memberNumbersSurvive_iff {members : List (String × Value)} :
    MemberNumbersSurvive members ↔ ∀ e ∈ members, NumbersSurvive e.2 := by
  induction members with
  | nil => simp [MemberNumbersSurvive]
  | cons m rest ih => simp [MemberNumbersSurvive, ih]

theorem numbersSurvive_insertMember {members : List (String × Value)}
    (h : NumbersSurvive (.object members)) (key : String) {v : Value} (hv : NumbersSurvive v) :
    NumbersSurvive (.object (insertMember key v members)) := by
  refine memberNumbersSurvive_iff.2 fun e he => ?_
  obtain rfl | he := mem_insertMember he
  · exact hv
  · exact memberNumbersSurvive_iff.1 h e he

/-! ## Reading back -/

mutual

/-- The document that a value is written as stands for the value. -/
theorem toValue?_source : ∀ {v : Value} {room : Nat}, v.Shaped room → v.NumbersSurvive →
    v.source.toValue? room = some v
  | .null, _, _, _ => rfl
  | .bool _, _, _, _ => rfl
  | .string _, _, _, _ => rfl
  | .number _, room, _, hnumbers => Number.toValue?_source hnumbers room
  | .array _, 0, hshape, _ => hshape.elim
  | .array items, room + 1, hshape, hnumbers => by
    rw [source, Source.toValue?, toValues?_itemSources hshape hnumbers]
    rfl
  | .object _, 0, hshape, _ => hshape.elim
  | .object members, room + 1, hshape, hnumbers => by
    rw [source, Source.toValue?, toValues?_memberSources hshape.2 hnumbers, Option.map_some,
      ofMembers, sortMembers_of_increase hshape.1]

theorem toValues?_itemSources : ∀ {items : List Value} {room : Nat}, ItemsShaped room items →
    ItemNumbersSurvive items → Source.itemsToValues? room (itemSources items) = some items
  | [], _, _, _ => rfl
  | v :: rest, room, hshape, hnumbers => by
    simp only [itemSources, Source.itemsToValues?, toValue?_source hshape.1 hnumbers.1,
      toValues?_itemSources hshape.2 hnumbers.2, Option.map_some]

theorem toValues?_memberSources : ∀ {members : List (String × Value)} {room : Nat},
    MembersShaped room members → MemberNumbersSurvive members →
    Source.membersToValues? room (memberSources members) = some members
  | [], _, _, _ => rfl
  | (k, v) :: rest, room, hshape, hnumbers => by
    simp only [memberSources, Source.membersToValues?, toValue?_source hshape.1 hnumbers.1,
      toValues?_memberSources hshape.2 hnumbers.2, Option.map_some]

end

/-! ## Canonical values -/

/-- A value has at most `room` containers around any part of it, in whatever order its members
are. -/
inductive Fits : Nat → Value → Prop
  | null (room : Nat) : Fits room .null
  | bool (room : Nat) (b : Bool) : Fits room (.bool b)
  | number (room : Nat) (n : Number) : Fits room (.number n)
  | string (room : Nat) (s : String) : Fits room (.string s)
  | array {room : Nat} {items : List Value} (h : ∀ v ∈ items, Fits room v) :
    Fits (room + 1) (.array items)
  | object {room : Nat} {members : List (String × Value)} (h : ∀ e ∈ members, Fits room e.2) :
    Fits (room + 1) (.object members)

attribute [simp] Fits.null Fits.bool Fits.number Fits.string

@[simp] theorem Fits.int (room : Nat) (n : Int) : Fits room (.int n) := .number room _

@[simp] theorem Fits.nat (room n : Nat) : Fits room (.nat n) := .number room _

@[simp] theorem Fits.float (room : Nat) (x : Float) : Fits room (.float x) := .number room _

theorem Fits.optional {α : Type} {room : Nat} {render : α → Value} (h : ∀ a, Fits room (render a))
    (o : Option α) : Fits room (.optional render o) := by
  cases o with
  | none => exact .null room
  | some a => exact h a

mutual

/-- A value in `canonical` form has its members in order, and its containers are nested as
before. -/
theorem shaped_canonical : ∀ {v : Value} {room : Nat}, v.Fits room → v.canonical.Shaped room
  | .null, _, _ => trivial
  | .bool _, _, _ => trivial
  | .number _, _, _ => trivial
  | .string _, _, _ => trivial
  | .array items, _, .array h => shaped_canonicalItems h
  | .object members, _, .object h => by
    refine ⟨keysIncrease_sortMembers _, membersShaped_iff.2 fun e he => ?_⟩
    exact membersShaped_iff.1 (shaped_canonicalMembers h) e (mem_of_mem_sortMembers he)

theorem shaped_canonicalItems : ∀ {items : List Value} {room : Nat}, (∀ v ∈ items, v.Fits room) →
    ItemsShaped room (canonicalItems items)
  | [], _, _ => trivial
  | v :: _, _, h =>
    ⟨shaped_canonical (h v List.mem_cons_self),
      shaped_canonicalItems fun w hw => h w (List.mem_cons_of_mem v hw)⟩

theorem shaped_canonicalMembers : ∀ {members : List (String × Value)} {room : Nat},
    (∀ e ∈ members, e.2.Fits room) → MembersShaped room (canonicalMembers members)
  | [], _, _ => trivial
  | m :: _, _, h =>
    ⟨shaped_canonical (h m List.mem_cons_self),
      shaped_canonicalMembers fun e he => h e (List.mem_cons_of_mem m he)⟩

end

theorem canonical_optional_string (o : Option String) :
    (optional string o).canonical = optional string o := by
  cases o <;> rfl

end Value
end Json
end Coursework
