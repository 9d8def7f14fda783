import Coursework.Json.Decode
import Coursework.Proofs.Json.Values
import Coursework.Proofs.Table

/-!
# Records that are read back

An object is written as a document, and a record is read out of its fields.  The fields are the
members of the object (`Decode.fieldsOf`), whatever the record wants of them, and a decoder that
goes by the names of fields sees the members by their keys.
-/

set_option autoImplicit false

namespace Coursework
namespace Json

theorem KeysIncrease.nodup {α : Type} {members : List (String × α)} (h : KeysIncrease members) :
    (members.map Prod.fst).Nodup := by
  rw [List.nodup_iff_pairwise_ne, List.pairwise_map]
  refine h.imp fun hlt heq => ?_
  rw [heq] at hlt
  exact String.lt_irrefl _ hlt

/-- Members in the order of their keys are known by what stands under each key. -/
theorem KeysIncrease.ext {α : Type} {a b : List (String × α)} (ha : KeysIncrease a)
    (hb : KeysIncrease b) (h : ∀ name, a.lookup name = b.lookup name) : a = b := by
  have hmem : ∀ e, e ∈ a ↔ e ∈ b := fun e =>
    ⟨fun he => Table.mem_of_lookup ((h e.1).symm.trans (Table.lookup_of_mem ha.nodup he)),
      fun he => Table.mem_of_lookup ((h e.1).trans (Table.lookup_of_mem hb.nodup he))⟩
  have hdistinct : ∀ e f : String × α, e.1 ≠ f.1 → e ≠ f := fun _ _ => mt (congrArg Prod.fst)
  have hperm : a.Perm b :=
    (List.perm_ext_iff_of_nodup (List.Pairwise.of_map _ hdistinct ha.nodup)
      (List.Pairwise.of_map _ hdistinct hb.nodup)).2 hmem
  exact hperm.eq_of_pairwise (fun _ _ _ _ hlt hgt => absurd hlt (String.lt_asymm hgt)) ha hb

theorem Value.lookup_insertMember_self {α : Type} (key : String) (v : α)
    (members : List (String × α)) : (insertMember key v members).lookup key = some v := by
  induction members with
  | nil => exact List.lookup_cons_self
  | cons m rest ih =>
    rw [insertMember]
    split
    · exact List.lookup_cons_self
    · split
      · exact List.lookup_cons_self
      · next hne =>
        rw [List.lookup_cons, beq_false_of_ne hne]
        exact ih

theorem Value.lookup_insertMember_of_ne {α : Type} {key name : String} (h : name ≠ key) (v : α)
    (members : List (String × α)) : (insertMember key v members).lookup name =
      members.lookup name := by
  induction members with
  | nil => rw [insertMember, List.lookup_cons, beq_false_of_ne h]
  | cons m rest ih =>
    rw [insertMember]
    split
    · rw [List.lookup_cons, beq_false_of_ne h]
    · split
      · next heq => rw [List.lookup_cons, List.lookup_cons, ← heq, beq_false_of_ne h]
      · rw [List.lookup_cons, List.lookup_cons, ih]

theorem Value.lookup_sortMembers {α : Type} (members : List (String × α)) (name : String) :
    (sortMembers members).lookup name = members.reverse.lookup name := by
  rw [sortMembers, List.foldl_eq_foldr_reverse]
  induction members.reverse with
  | nil => rfl
  | cons m rest ih =>
    rw [List.foldr_cons]
    by_cases h : name = m.1
    · rw [h, lookup_insertMember_self, List.lookup_cons_self]
    · rw [lookup_insertMember_of_ne h, ih, List.lookup_cons, beq_false_of_ne h]

theorem Value.field?_ofMembers (members : List (String × Value)) (name : String) :
    (ofMembers members).field? name = members.reverse.lookup name :=
  lookup_sortMembers members name

namespace Decode

/-- The fields of a document that an object is written as, in the order of its members. -/
def fieldsOf (members : List (String × Value)) : Fields :=
  members.map fun m => (m.1, m.2.source)

theorem textKeys_memberSources (members : List (String × Value)) :
    textKeys (Value.memberSources members) = some (fieldsOf members) := by
  induction members with
  | nil => rfl
  | cons m rest ih =>
    rw [Value.memberSources, textKeys]
    simp only [ih, Option.map_some]
    rfl

theorem lookup_fieldsOf (members : List (String × Value)) (name : String) :
    (fieldsOf members).lookup name = (members.lookup name).map Value.source := by
  induction members with
  | nil => rfl
  | cons m rest ih =>
    rw [fieldsOf, List.map_cons, List.lookup_cons, List.lookup_cons]
    split
    · rfl
    · exact ih

theorem eachOnce_fieldsOf {members : List (String × Value)} (h : (members.map Prod.fst).Nodup)
    (names : List String) : eachOnce names (fieldsOf members) = true := by
  rw [eachOnce, List.all_eq_true]
  intro name _
  have hcount : ((fieldsOf members).filter fun f => f.1 == name).length =
      (members.map Prod.fst).count name := by
    rw [← List.countP_eq_length_filter, fieldsOf, List.countP_map, List.count_eq_countP,
      List.countP_map]
    rfl
  rw [decide_eq_true_iff, hcount]
  exact List.nodup_iff_count.1 h name

theorem record?_source {members : List (String × Value)} (h : (members.map Prod.fst).Nodup)
    (names : List String) : record? names (Value.object members).source =
      some (fieldsOf members) := by
  rw [Value.source, record?, textKeys_memberSources]
  simp only [eachOnce_fieldsOf h, if_true]

/-- An object whose keys are the names of a record is one, with the values of its members as
fields. -/
theorem record?_of_keys {names : List String} (h : names.Nodup) {members : List (String × Value)}
    (hkeys : members.map Prod.fst = names) :
    record? names (Value.object members).source = some (fieldsOf members) :=
  record?_source (hkeys ▸ h) names

theorem required_fieldsOf {α : Type} {members : List (String × Value)} {name : String} {v : Value}
    (h : members.lookup name = some v) (d : Decoder α) :
    (fieldsOf members).required name d = d v.source := by
  rw [Fields.required, lookup_fieldsOf, h]
  rfl

theorem orElse_fieldsOf {α : Type} {members : List (String × Value)} {name : String} {v : Value}
    (h : members.lookup name = some v) (absent : α) (d : Decoder α) :
    (fieldsOf members).orElse name absent d = d v.source := by
  rw [Fields.orElse, lookup_fieldsOf, h]
  rfl

theorem intBetween_source {n low high : Int} (h : low ≤ n ∧ n ≤ high) (hlow : Text.int64Min ≤ low)
    (hhigh : high ≤ Text.uint64Max) : intBetween low high (Value.int n).source = some n := by
  obtain ⟨x, hspells, hvalue⟩ := spells_decimal n
  have hsource : (Value.int n).source = .number x := Number.source_of_spells hspells
  have hint : x.toInt? = some n :=
    hvalue (Int.le_trans hlow h.1) (Int.le_trans h.2 hhigh)
  simp only [hsource, intBetween, hint]
  exact if_pos h

theorem natUpTo_source {n high : Nat} (h : n ≤ high) (hhigh : high ≤ Text.uint64Max) :
    natUpTo high (Value.nat n).source = some n := by
  have hbetween := @intBetween_source n 0 high (by omega) (by decide) (by omega)
  have hnat : Value.nat n = Value.int n := rfl
  rw [natUpTo, hnat, hbetween]
  rfl

theorem int64_source {n : Int} (h : Text.int64Min ≤ n ∧ n ≤ Text.int64Max) :
    int64 (Value.int n).source = some n :=
  intBetween_source h (Int.le_refl _) (by decide)

/-- A double that survives (`Number.Survives`) is read where a double is asked for. -/
theorem float_source {x : Float} (h : (Number.float x).Survives) :
    float (Value.float x).source = some x := by
  have hvalue := Number.toValue?_source h 0
  have hsource : (Value.float x).source = (Number.float x).source := rfl
  obtain ⟨n, hspells⟩ | hnull := (Number.float x).spells_text
  · rw [Number.source_of_spells hspells, Source.toValue?] at hvalue
    obtain ⟨m, hm, hnumber⟩ := Option.map_eq_some_iff.1 hvalue
    cases hnumber
    rw [hsource, Number.source_of_spells hspells, float, hm]
    rfl
  · rw [Number.source_of_spells_null hnull, Source.toValue?] at hvalue
    cases hvalue

theorem optional_of_eq_some {α : Type} {d : Decoder α} (hnull : d .null = none) {s : Source} {a : α}
    (h : d s = some a) : optional d s = some (some a) := by
  cases s with
  | null =>
    rw [hnull] at h
    cases h
  | _ => rw [optional, h] <;> first | rfl | nofun

/-- What may be absent is read as it was written, absent or not. -/
theorem optional_source {α : Type} {d : Decoder α} (hnull : d .null = none) {render : α → Value}
    {o : Option α} (h : ∀ a, o = some a → d (render a).source = some a) :
    optional d (Value.optional render o).source = some o := by
  cases o with
  | none => rfl
  | some a => exact optional_of_eq_some hnull (h a rfl)

theorem list_string_source (texts : List String) :
    list string (Value.array (texts.map .string)).source = some texts := by
  have hitems : all string (Value.itemSources (texts.map .string)) = some texts := by
    induction texts with
    | nil => rfl
    | cons s rest ih =>
      rw [List.map_cons, Value.itemSources, all]
      simp only [Value.source, string, ih, Option.map_some]
  exact hitems

end Decode
end Json
end Coursework
