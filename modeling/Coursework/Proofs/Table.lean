import Coursework.Table

/-!
# Look-ups and entries

The entries of a table are what its look-ups find, no more and no less, because no key occurs twice.
So a question about all entries is a question about look-ups.
-/

set_option autoImplicit false

namespace Coursework
namespace Table

variable {κ α : Type} [DecidableEq κ]

theorem find?_insert_self (t : Table κ α) (k : κ) (v : α) : (t.insert k v).find? k = some v := by
  rw [find?_insert, if_pos rfl]

theorem find?_insert_of_ne (t : Table κ α) {k j : κ} (v : α) (h : j ≠ k) :
    (t.insert k v).find? j = t.find? j := by
  rw [find?_insert, if_neg h]

theorem find?_erase_of_ne (t : Table κ α) {k j : κ} (h : j ≠ k) :
    (t.erase k).find? j = t.find? j := by
  rw [find?_erase, if_neg h]

theorem contains_iff (t : Table κ α) (k : κ) : t.contains k = true ↔ ∃ v, t.find? k = some v :=
  Option.isSome_iff_exists

theorem mem_of_lookup {es : List (κ × α)} {k : κ} {v : α} (h : es.lookup k = some v) :
    (k, v) ∈ es := by
  obtain ⟨front, back, rfl, -⟩ := List.lookup_eq_some_iff.1 h
  simp

theorem lookup_of_mem {es : List (κ × α)} (hes : (es.map Prod.fst).Nodup) {k : κ} {v : α}
    (h : (k, v) ∈ es) : es.lookup k = some v := by
  induction es with
  | nil => simp at h
  | cons e rest ih =>
    obtain ⟨i, w⟩ := e
    rw [List.map_cons, List.nodup_cons] at hes
    rw [lookup_entry]
    rcases List.mem_cons.1 h with he | hr
    · cases he
      rw [if_pos rfl]
    · have hne : k ≠ i := by
        rintro rfl
        exact hes.1 (List.mem_map.2 ⟨(k, v), hr, rfl⟩)
      rw [if_neg hne]
      exact ih hes.2 hr

theorem mem_entries_iff (t : Table κ α) (k : κ) (v : α) :
    (k, v) ∈ t.entries ↔ t.find? k = some v :=
  ⟨lookup_of_mem t.nodup, mem_of_lookup⟩

/-- Some entry passes a test exactly when some look-up finds a value that does. -/
theorem any_entries_iff (t : Table κ α) (p : κ × α → Bool) :
    t.entries.any p = true ↔ ∃ k v, t.find? k = some v ∧ p (k, v) = true := by
  rw [List.any_eq_true]
  constructor
  · rintro ⟨⟨k, v⟩, hmem, hp⟩
    exact ⟨k, v, (t.mem_entries_iff k v).1 hmem, hp⟩
  · rintro ⟨k, v, hfind, hp⟩
    exact ⟨(k, v), (t.mem_entries_iff k v).2 hfind, hp⟩

/-! ## Putting in twice -/

theorem insertEntry_insertEntry (k : κ) (v w : α) (es : List (κ × α)) :
    insertEntry k w (insertEntry k v es) = insertEntry k w es := by
  induction es with
  | nil => simp [insertEntry]
  | cons e rest ih =>
    rw [insertEntry, insertEntry]
    split
    · simp [insertEntry]
    · next hne => rw [insertEntry, if_neg hne, ih]

theorem insertEntry_of_lookup {k : κ} {v : α} {es : List (κ × α)} (h : es.lookup k = some v) :
    insertEntry k v es = es := by
  induction es with
  | nil => cases h
  | cons e rest ih =>
    obtain ⟨i, w⟩ := e
    rw [lookup_entry] at h
    rw [insertEntry]
    split at h
    · next hk =>
      subst hk
      rw [if_pos rfl, Option.some.inj h]
    · next hk =>
      have hik : i ≠ k := fun he => hk he.symm
      rw [if_neg hik, ih h]

theorem insert_insert (t : Table κ α) (k : κ) (v w : α) :
    (t.insert k v).insert k w = t.insert k w := by
  rw [insert, insert, insert, mk.injEq]
  exact insertEntry_insertEntry k v w t.entries

theorem insert_of_find? {t : Table κ α} {k : κ} {v : α} (h : t.find? k = some v) :
    t.insert k v = t := by
  obtain ⟨entries, nodup⟩ := t
  rw [insert, mk.injEq]
  exact insertEntry_of_lookup h

/-! ## Keys that stay -/

theorem mem_keys_iff (t : Table κ α) (k : κ) : k ∈ t.keys ↔ ∃ v, t.find? k = some v := by
  rw [keys, List.mem_map]
  constructor
  · rintro ⟨⟨i, v⟩, hmem, rfl⟩
    exact ⟨v, (t.mem_entries_iff i v).1 hmem⟩
  · rintro ⟨v, hv⟩
    exact ⟨(k, v), (t.mem_entries_iff k v).2 hv, rfl⟩

theorem contains_iff_mem_keys (t : Table κ α) (k : κ) : t.contains k = true ↔ k ∈ t.keys := by
  rw [contains_iff, mem_keys_iff]

theorem mem_keys_insert (t : Table κ α) (k j : κ) (v : α) :
    j ∈ (t.insert k v).keys ↔ j = k ∨ j ∈ t.keys := by
  rw [mem_keys_iff, find?_insert, mem_keys_iff]
  by_cases hkey : j = k
  · simp [hkey]
  · simp [hkey]

/-- To put in a value under a key that is there changes neither the keys nor their order. -/
theorem keys_insert_of_mem {t : Table κ α} {k : κ} (h : k ∈ t.keys) (v : α) :
    (t.insert k v).keys = t.keys := by
  have hmem : k ∈ t.entries.map Prod.fst := h
  rw [keys, insert, map_fst_insertEntry, if_pos hmem, keys]

/-- The entries show what the look-ups find under the keys, in the order of the keys. -/
theorem map_entries {β : Type} (f : κ → α → β) (t : Table κ α) :
    (t.entries.map fun e => some (f e.1 e.2)) = t.keys.map fun k => (t.find? k).map (f k) := by
  rw [keys, List.map_map]
  refine List.map_congr_left fun e he => ?_
  rw [Function.comp_apply, (t.mem_entries_iff e.1 e.2).1 he, Option.map_some]

/-- Tables with the same keys in the same order show the same if their look-ups do. -/
theorem map_entries_congr {β : Type} (f : κ → α → β) {t u : Table κ α} (hkeys : t.keys = u.keys)
    (hfind : ∀ k, (t.find? k).map (f k) = (u.find? k).map (f k)) :
    (t.entries.map fun e => f e.1 e.2) = u.entries.map fun e => f e.1 e.2 := by
  have hsome : (t.entries.map fun e => some (f e.1 e.2)) =
      u.entries.map fun e => some (f e.1 e.2) := by
    rw [map_entries, map_entries, hkeys]
    exact List.map_congr_left fun k _ => hfind k
  refine (List.map_inj_right fun _ _ => Option.some.inj).1 ?_
  rw [List.map_map, List.map_map]
  exact hsome

/-- Tables with the same keys in the same order are equal if their look-ups (`find?`) are. -/
theorem ext_find? {t u : Table κ α} (hkeys : t.keys = u.keys) (hfind : ∀ k, t.find? k = u.find? k) :
    t = u := by
  have hentries := map_entries_congr Prod.mk hkeys fun k => by rw [hfind]
  simp only [List.map_id'] at hentries
  obtain ⟨entries, nodup⟩ := t
  obtain ⟨entries', nodup'⟩ := u
  cases hentries
  rfl

end Table

/-! ## By increasing key -/

/-- What is shown by increasing key shows every key once, if no two of the keys are the same. -/
theorem increasing_mergeSort {α : Type} {key : α → String} {as : List α} (h : (as.map key).Nodup) :
    ((as.mergeSort fun a b => decide (key a ≤ key b)).map key).Pairwise (· < ·) := by
  have htrans : ∀ a b c, decide (key a ≤ key b) = true → decide (key b ≤ key c) = true →
      decide (key a ≤ key c) = true := fun a b c hab hbc =>
    decide_eq_true (String.le_trans (of_decide_eq_true hab) (of_decide_eq_true hbc))
  have htotal : ∀ a b, (decide (key a ≤ key b) || decide (key b ≤ key a)) = true := fun a b => by
    simpa using String.le_total (key a) (key b)
  have hsorted := List.pairwise_mergeSort htrans htotal as
  have hdistinct :=
    ((List.mergeSort_perm as fun a b => decide (key a ≤ key b)).map key).nodup_iff.2 h
  rw [List.pairwise_map]
  refine (hsorted.and (List.pairwise_map.1 hdistinct)).imp fun ⟨hle, hne⟩ => ?_
  exact String.not_le.1 fun hge => hne (String.le_antisymm (of_decide_eq_true hle) hge)

end Coursework
