/-!
# Finite tables

A `Table` is a finite map kept as a list of entries with distinct keys.  The list order is the
order of first insertion and no answer may depend on it: whoever shows the contents of a table
sorts them first.  All statements about a table go through the look-up `find?`.

* `find?_insert` and `find?_erase` say what the two updates do to every look-up.
-/

set_option autoImplicit false

namespace Coursework

/-- A finite map from `κ` to `α`: its `entries`, in the order in which their keys were first put in,
and the proof that no key occurs twice. -/
structure Table (κ α : Type) where
  entries : List (κ × α)
  nodup : (entries.map Prod.fst).Nodup
deriving DecidableEq

namespace Table

variable {κ α : Type} [DecidableEq κ]

def empty : Table κ α :=
  ⟨[], List.nodup_nil⟩

instance : EmptyCollection (Table κ α) := ⟨empty⟩

instance : Inhabited (Table κ α) := ⟨empty⟩

def keys (t : Table κ α) : List κ :=
  t.entries.map Prod.fst

def find? (t : Table κ α) (k : κ) : Option α :=
  t.entries.lookup k

def contains (t : Table κ α) (k : κ) : Bool :=
  (t.find? k).isSome

def size (t : Table κ α) : Nat :=
  t.entries.length

def isEmpty (t : Table κ α) : Bool :=
  t.entries.isEmpty

/-- The entries by increasing key, where `le` is the order of the keys: what is listed goes through
here, so that the order of insertion does not show. -/
def sorted (le : κ → κ → Bool) (t : Table κ α) : List (κ × α) :=
  t.entries.mergeSort fun a b => le a.1 b.1

/-- Put a value under a key in a list of entries: in place when the key is there, else at the
end. -/
def insertEntry (k : κ) (v : α) : List (κ × α) → List (κ × α)
  | [] => [(k, v)]
  | e :: rest => if e.1 = k then (k, v) :: rest else e :: insertEntry k v rest

theorem map_fst_insertEntry (k : κ) (v : α) (es : List (κ × α)) :
    (insertEntry k v es).map Prod.fst =
      if k ∈ es.map Prod.fst then es.map Prod.fst else es.map Prod.fst ++ [k] := by
  induction es with
  | nil => simp [insertEntry]
  | cons e rest ih =>
    rw [insertEntry]
    split
    · next h => simp [h]
    · next h =>
      have hk : k ≠ e.1 := fun he => h he.symm
      simp only [List.map_cons, List.mem_cons, hk, false_or, ih]
      split <;> simp

/-- Put a value under a key, in place of the one that is there (`insertEntry`). -/
def insert (t : Table κ α) (k : κ) (v : α) : Table κ α :=
  ⟨insertEntry k v t.entries, by
    rw [map_fst_insertEntry]
    split
    · exact t.nodup
    · next h =>
      refine List.nodup_append.2 ⟨t.nodup, by simp, ?_⟩
      intro a ha b hb hab
      simp only [List.mem_singleton] at hb
      exact h (hb ▸ hab ▸ ha)⟩

def erase (t : Table κ α) (k : κ) : Table κ α :=
  ⟨t.entries.filter fun e => decide (e.1 ≠ k), by
    have h : (t.entries.filter fun e => decide (e.1 ≠ k)).Sublist t.entries :=
      List.filter_sublist
    exact (h.map Prod.fst).nodup t.nodup⟩

/-- The table with these entries put in from left to right by `insert`, so that the last value of a
key wins. -/
def ofList (es : List (κ × α)) : Table κ α :=
  es.foldl (fun t e => t.insert e.1 e.2) empty

/-! ## Look-ups after an update -/

@[simp] theorem find?_empty (k : κ) : (empty : Table κ α).find? k = none := rfl

theorem lookup_entry (i j : κ) (w : α) (es : List (κ × α)) :
    ((i, w) :: es).lookup j = if j = i then some w else es.lookup j := by
  by_cases h : j = i
  · simp [h]
  · have hb : (j == i) = false := by simpa using h
    rw [List.lookup_cons, hb]
    simp [h]

theorem lookup_insertEntry (k j : κ) (v : α) (es : List (κ × α)) :
    (insertEntry k v es).lookup j = if j = k then some v else es.lookup j := by
  induction es with
  | nil => simp [insertEntry, lookup_entry]
  | cons e rest ih =>
    obtain ⟨i, w⟩ := e
    by_cases hik : i = k
    · subst hik
      by_cases hj : j = i <;> simp [insertEntry, lookup_entry, hj]
    · simp only [insertEntry, if_neg hik, lookup_entry, ih]
      by_cases hj : j = i
      · simp [hj, hik]
      · simp [hj]

/-- An insertion shows at its own key and nowhere else, and so does an erasure (`find?_erase`). -/
theorem find?_insert (t : Table κ α) (k j : κ) (v : α) :
    (t.insert k v).find? j = if j = k then some v else t.find? j :=
  lookup_insertEntry k j v t.entries

theorem lookup_filter_ne (k j : κ) (es : List (κ × α)) :
    (es.filter fun e => decide (e.1 ≠ k)).lookup j = if j = k then none else es.lookup j := by
  induction es with
  | nil => simp
  | cons e rest ih =>
    obtain ⟨i, w⟩ := e
    by_cases hik : i = k
    · rw [List.filter_cons_of_neg (by simp [hik]), ih, lookup_entry]
      by_cases hj : j = k
      · simp [hj]
      · simp [hj, hik]
    · rw [List.filter_cons_of_pos (by simp [hik]), lookup_entry, ih, lookup_entry]
      by_cases hj : j = i
      · simp [hj, hik]
      · simp [hj]

theorem find?_erase (t : Table κ α) (k j : κ) :
    (t.erase k).find? j = if j = k then none else t.find? j :=
  lookup_filter_ne k j t.entries

end Table
end Coursework
