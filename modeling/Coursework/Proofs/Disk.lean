import Coursework.Disk
import Coursework.Proofs.Table

/-!
# Where paths lead

There are no links on a disk, so a path that leads anywhere leads to the same place on every disk
(`Disk.locate_unique`), and goes on leading there while the directories stay (`Disk.Keeps.locate`).
What an operation does to a path is then known from what stands at each place.

`Disk.leaf?` is the file or the socket that a path leads to, and its place.  Reading and removing go
by it alone.  The operations that write say which places they put something at; making directories
touches no place where something is (`Disk.Grows`).
-/

set_option autoImplicit false

namespace Coursework

/-! ## Names at the end of a path -/

namespace Text

variable {α : Type} {separates : α → Bool}

theorem splitAt_ne_nil (xs : List α) : splitAt separates xs ≠ [] := by
  cases xs with
  | nil => exact List.cons_ne_nil _ _
  | cons x rest =>
    rw [splitAt]
    split
    · exact List.cons_ne_nil _ _
    · split <;> exact List.cons_ne_nil _ _

theorem splitAt_of_not_mem {xs : List α} (h : ∀ x ∈ xs, separates x = false) :
    splitAt separates xs = [xs] := by
  induction xs with
  | nil => rfl
  | cons x rest ih =>
    rw [splitAt, h x List.mem_cons_self, ih fun y hy => h y (List.mem_cons_of_mem x hy)]
    rfl

theorem separates_of_mem_splitAt {xs piece : List α} (hpiece : piece ∈ splitAt separates xs) {x : α}
    (hx : x ∈ piece) : separates x = false := by
  induction xs generalizing piece with
  | nil =>
    rw [List.mem_singleton.1 hpiece] at hx
    exact absurd hx List.not_mem_nil
  | cons y rest ih =>
    rw [splitAt] at hpiece
    split at hpiece
    · obtain rfl | hpiece := List.mem_cons.1 hpiece
      · exact absurd hx List.not_mem_nil
      · exact ih hpiece hx
    · next hy =>
      split at hpiece
      · next hrest => exact absurd hrest (splitAt_ne_nil rest)
      · next p ps hrest =>
        rw [hrest] at ih
        obtain rfl | hpiece := List.mem_cons.1 hpiece
        · obtain rfl | hx := List.mem_cons.1 hx
          · exact Bool.eq_false_iff.2 hy
          · exact ih List.mem_cons_self hx
        · exact ih (List.mem_cons_of_mem p hpiece) hx

theorem splitAt_append {sep : α} (h : separates sep = true) (xs ys : List α) :
    splitAt separates (xs ++ sep :: ys) = splitAt separates xs ++ splitAt separates ys := by
  induction xs with
  | nil => simp [splitAt, h]
  | cons x rest ih =>
    rw [List.cons_append, splitAt, splitAt, ih]
    split
    · rfl
    · cases hrest : splitAt separates rest with
      | nil => exact absurd hrest (splitAt_ne_nil rest)
      | cons p ps => rfl

namespace Path

/-- A name that a directory can have something under: not empty, no point and no two points, and
without a slash. -/
structure IsName (name : String) : Prop where
  noSlash : ∀ c ∈ name.toList, (c == '/') = false
  nonempty : name ≠ ""
  notHere : name ≠ "."
  notUp : name ≠ ".."

instance (name : String) : Decidable (IsName name) :=
  decidable_of_iff
    (name.toList.all (fun c => !(c == '/')) = true ∧ name ≠ "" ∧ name ≠ "." ∧ name ≠ "..")
    ⟨fun ⟨hslash, hempty, hhere, hup⟩ =>
      ⟨fun c hc => by simpa using List.all_eq_true.1 hslash c hc, hempty, hhere, hup⟩,
    fun h => ⟨List.all_eq_true.2 fun c hc => by simpa using h.noSlash c hc,
      h.nonempty, h.notHere, h.notUp⟩⟩

variable {name : String}

/-- What is on either side of a slash are the steps of a path by themselves. -/
theorem steps_append_slash (front back : String) :
    steps (front ++ "/" ++ back) = steps front ++ steps back := by
  have hsplit : splitAt (· == '/') (front.toList ++ ("/".toList ++ back.toList)) =
      splitAt (· == '/') front.toList ++ splitAt (· == '/') back.toList :=
    splitAt_append rfl front.toList back.toList
  rw [steps, String.toList_append, String.toList_append, List.append_assoc, hsplit,
    List.map_append, List.filter_append]
  rfl

theorem steps_of_isName (h : IsName name) : steps name = [name] := by
  rw [steps, splitAt_of_not_mem h.noSlash, List.map_singleton, String.ofList_toList]
  simp [h.nonempty]

theorem isAbsolute_of_isName (h : IsName name) : isAbsolute name = false := by
  rw [isAbsolute, beq_eq_false_iff_ne]
  intro hfirst
  exact absurd (h.noSlash '/' (List.mem_of_mem_head? hfirst)) (by decide)

theorem exists_of_endsInSlash {path : String} (h : endsInSlash path = true) :
    ∃ front, path = front ++ "/" := by
  obtain ⟨front, hfront⟩ := List.getLast?_eq_some_iff.1 (beq_iff_eq.1 h)
  refine ⟨String.ofList front, String.toList_inj.1 ?_⟩
  rw [hfront, String.toList_append, String.toList_ofList]
  rfl

theorem noSlash_of_mem_steps {path s : String} (h : s ∈ steps path) :
    ∀ c ∈ s.toList, (c == '/') = false := by
  intro c hc
  obtain ⟨piece, hpiece, rfl⟩ := List.mem_map.1 (List.mem_filter.1 h).1
  rw [String.toList_ofList] at hc
  exact separates_of_mem_splitAt hpiece hc

/-- A path to a name (`IsName`) in a directory has the steps to the directory, and then the name. -/
theorem steps_join (h : IsName name) (base : String) :
    steps (join base name) = steps base ++ [name] := by
  rw [join, isAbsolute_of_isName h]
  split
  · next hempty =>
    rw [hempty.resolve_left (by decide), steps_of_isName h]
    rfl
  · split
    · next hslash =>
      obtain ⟨front, rfl⟩ := exists_of_endsInSlash hslash
      have hend := steps_append_slash front ""
      rw [String.append_empty] at hend
      rw [steps_append_slash, hend, steps_of_isName h]
      simp [steps, splitAt]
    · rw [steps_append_slash, steps_of_isName h]

theorem getLast?_steps_join (h : IsName name) (base : String) :
    (steps (join base name)).getLast? = some name := by
  rw [steps_join h, List.getLast?_concat]

end Path
end Text

namespace Disk

/-! ## Places -/

/-- The first step of a walk that gets through: to where it is, upwards, or into a directory. -/
theorem walk_cons_eq_ok {d : Disk} {here p : List String} {c : String} {rest : List String} :
    d.walk here (c :: rest) = .ok p ↔ c = "." ∧ d.walk here rest = .ok p ∨
      c ≠ "." ∧ c = ".." ∧ d.walk here.dropLast rest = .ok p ∨
      c ≠ "." ∧ c ≠ ".." ∧ ¬ nameMax < Text.size c ∧
        d.node? (here ++ [c]) = some .directory ∧ d.walk (here ++ [c]) rest = .ok p := by
  rw [walk]
  by_cases hhere : c = "."
  · simp [hhere]
  · by_cases hup : c = ".."
    · simp [hup]
    · rw [if_neg hhere, if_neg hup]
      split
      · next hlong => simp [hhere, hup, hlong]
      · next hshort =>
        cases d.node? (here ++ [c]) with
        | none => simp [hhere, hup]
        | some n => cases n <;> simp [hhere, hup, Nat.not_lt.1 hshort]

/-- There are no links: a `walk` that gets through ends at the same place on every disk. -/
theorem walk_unique {d e : Disk} {here p q : List String} {steps : List String}
    (hd : d.walk here steps = .ok p) (he : e.walk here steps = .ok q) : p = q := by
  induction steps generalizing here with
  | nil =>
    cases hd
    cases he
    rfl
  | cons c rest ih =>
    obtain ⟨hhere, hd⟩ | ⟨hhere, hup, hd⟩ | ⟨hhere, hup, -, -, hd⟩ := walk_cons_eq_ok.1 hd
    all_goals
      obtain ⟨hhere', he⟩ | ⟨hhere', hup', he⟩ | ⟨hhere', hup', -, -, he⟩ := walk_cons_eq_ok.1 he
    all_goals first
      | exact ih hd he
      | contradiction

/-- A text that can be looked for as a path, which is what `locate` asks of it before any walk. -/
structure Legal (path : String) : Prop where
  nonempty : path ≠ ""
  noNul : ¬ path.toList.contains '\x00' = true
  short : ¬ pathMax < Text.size path

/-- A `Legal` path leads to the root if it has no steps, and else to its last step in the directory
that the others lead to. -/
theorem locate_eq_ok {d : Disk} {path : String} {spot : Spot} : d.locate path = .ok spot ↔
    Legal path ∧
      ((Text.Path.steps path).getLast? = none ∧ spot = ⟨[], false, true⟩ ∨
      ∃ last here, (Text.Path.steps path).getLast? = some last ∧
        d.walk [] (Text.Path.steps path).dropLast = .ok here ∧
        spotIn here last (Text.Path.endsInSlash path) = .ok spot) := by
  constructor
  · intro h
    simp only [locate] at h
    split at h
    · cases h
    · next hempty =>
      split at h
      · cases h
      · next hnul =>
        split at h
        · cases h
        · next hlong =>
          refine ⟨⟨hempty, hnul, hlong⟩, ?_⟩
          split at h
          · next hlast =>
            cases h
            exact .inl ⟨hlast, rfl⟩
          · next last hlast =>
            split at h
            · cases h
            · next here hwalk => exact .inr ⟨last, here, hlast, hwalk, h⟩
  · rintro ⟨⟨hempty, hnul, hlong⟩, ⟨hlast, rfl⟩ | ⟨last, here, hlast, hwalk, hspot⟩⟩
    · simp only [locate, if_neg hempty, if_neg hnul, if_neg hlong, hlast]
    · simp only [locate, if_neg hempty, if_neg hnul, if_neg hlong, hlast, hwalk, hspot]

theorem locate_unique {d e : Disk} {path : String} {p q : Spot} (hd : d.locate path = .ok p)
    (he : e.locate path = .ok q) : p = q := by
  obtain ⟨-, hroot | ⟨last, here, hlast, hwalk, hp⟩⟩ := locate_eq_ok.1 hd
  · obtain ⟨-, hroot' | ⟨last, here, hlast, -, -⟩⟩ := locate_eq_ok.1 he
    · rw [hroot.2, hroot'.2]
    · cases hroot.1.symm.trans hlast
  · obtain ⟨-, hroot | ⟨last', here', hlast', hwalk', hq⟩⟩ := locate_eq_ok.1 he
    · cases hroot.1.symm.trans hlast
    · cases hlast.symm.trans hlast'
      cases walk_unique hwalk hwalk'
      exact Except.ok.inj (hp.symm.trans hq)

/-- A path that ends in a name leads to something of that name. -/
theorem getLast?_place {d : Disk} {base name : String} (h : Text.Path.IsName name) {spot : Spot}
    (hspot : d.locate (Text.Path.join base name) = .ok spot) :
    spot.place.getLast? = some name ∧ spot.named = true := by
  have hname := Text.Path.getLast?_steps_join h base
  obtain ⟨-, ⟨hnone, -⟩ | ⟨last, here, hlast, -, hspot⟩⟩ := locate_eq_ok.1 hspot
  · cases hnone.symm.trans hname
  · cases hlast.symm.trans hname
    rw [spotIn, if_neg h.notHere, if_neg h.notUp] at hspot
    split at hspot
    · cases hspot
    · cases hspot
      exact ⟨List.getLast?_concat, rfl⟩

/-- A path that ends in a name does not lead to the root. -/
theorem place_ne_root {d : Disk} {base name : String} (h : Text.Path.IsName name) {spot : Spot}
    (hspot : d.locate (Text.Path.join base name) = .ok spot) : spot.place ≠ [] := by
  intro hroot
  have hlast := (getLast?_place h hspot).1
  rw [hroot] at hlast
  cases hlast

/-! ## What stands at a place -/

variable {d e : Disk} {place other : List String} {n : Node}

theorem node?_put_self (h : place ≠ []) (n : Node) : (d.put place n).node? place = some n := by
  rw [node?, if_neg h, put, Table.find?_insert, if_pos rfl]

theorem node?_put_of_ne (h : other ≠ place) (n : Node) :
    (d.put place n).node? other = d.node? other := by
  rw [node?, node?, put, Table.find?_insert, if_neg h]

theorem node?_clear_self (h : place ≠ []) : (d.clear place).node? place = none := by
  rw [node?, if_neg h, clear, Table.find?_erase, if_pos rfl]

theorem node?_clear_of_ne (h : other ≠ place) : (d.clear place).node? other = d.node? other := by
  rw [node?, node?, clear, Table.find?_erase, if_neg h]

theorem node?_of_clear (h : (d.clear place).node? other = some n) (hn : n ≠ .directory) :
    d.node? other = some n := by
  by_cases hother : other = place
  · by_cases hroot : place = []
    · rw [hother, hroot, node?, if_pos rfl] at h
      exact absurd (Option.some.inj h).symm hn
    · rw [hother, node?_clear_self hroot] at h
      cases h
  · rwa [node?_clear_of_ne hother] at h

theorem ne_root (h : d.node? place = some n) (hn : n ≠ .directory) : place ≠ [] := by
  rintro rfl
  exact hn (Option.some.inj h).symm

theorem ne_directory_of_none (h : d.node? place = none) : d.node? place ≠ some .directory := by
  simp [h]

/-! ## Directories that stay -/

/-- Every directory of a disk is one of another disk, too. -/
def Keeps (d e : Disk) : Prop :=
  ∀ place, d.node? place = some .directory → e.node? place = some .directory

theorem Keeps.refl (d : Disk) : d.Keeps d :=
  fun _ h => h

theorem Keeps.trans {f : Disk} (hde : d.Keeps e) (hef : e.Keeps f) : d.Keeps f :=
  fun place h => hef place (hde place h)

theorem keeps_put (h : d.node? place ≠ some .directory) (n : Node) : d.Keeps (d.put place n) := by
  intro p hp
  have hne : p ≠ place := by
    rintro rfl
    exact h hp
  rwa [node?_put_of_ne hne]

theorem keeps_clear (h : d.node? place ≠ some .directory) : d.Keeps (d.clear place) := by
  intro p hp
  have hne : p ≠ place := by
    rintro rfl
    exact h hp
  rwa [node?_clear_of_ne hne]

theorem clear_keeps (d : Disk) (place : List String) : (d.clear place).Keeps d := by
  intro p hp
  by_cases hroot : p = []
  · rw [hroot, node?, if_pos rfl]
  · by_cases hne : p = place
    · rw [hne, node?_clear_self (hne ▸ hroot)] at hp
      cases hp
    · rwa [node?_clear_of_ne hne] at hp

theorem Keeps.walk (h : d.Keeps e) {here p : List String} {steps : List String}
    (hd : d.walk here steps = .ok p) : e.walk here steps = .ok p := by
  induction steps generalizing here with
  | nil => exact hd
  | cons c rest ih =>
    obtain ⟨hhere, hd⟩ | ⟨hhere, hup, hd⟩ | ⟨hhere, hup, hshort, hnode, hd⟩ :=
      walk_cons_eq_ok.1 hd
    · exact walk_cons_eq_ok.2 (.inl ⟨hhere, ih hd⟩)
    · exact walk_cons_eq_ok.2 (.inr (.inl ⟨hhere, hup, ih hd⟩))
    · exact walk_cons_eq_ok.2 (.inr (.inr ⟨hhere, hup, hshort, h _ hnode, ih hd⟩))

theorem Keeps.locate (h : d.Keeps e) {path : String} {spot : Spot}
    (hd : d.locate path = .ok spot) : e.locate path = .ok spot := by
  obtain ⟨hlegal, hroot | ⟨last, here, hlast, hwalk, hspot⟩⟩ := locate_eq_ok.1 hd
  · exact locate_eq_ok.2 ⟨hlegal, .inl hroot⟩
  · exact locate_eq_ok.2 ⟨hlegal, .inr ⟨last, here, hlast, h.walk hwalk, hspot⟩⟩

/-! ## Files and sockets -/

/-- The file or the socket that a path leads to, and its place; a directory is no leaf. -/
def leaf? (d : Disk) (path : String) : Option (List String × Node) :=
  match d.locate path with
  | .error _ => none
  | .ok spot =>
    match d.node? spot.place with
    | none | some .directory => none
    | some n => if spot.wantsDirectory then none else some (spot.place, n)

variable {path : String}

theorem leaf?_eq_some : d.leaf? path = some (place, n) ↔ ∃ spot, d.locate path = .ok spot ∧
    spot.place = place ∧ spot.wantsDirectory = false ∧ d.node? place = some n ∧
      n ≠ .directory := by
  rw [leaf?]
  cases d.locate path with
  | error => simp
  | ok spot =>
    constructor
    · intro h
      dsimp only at h
      split at h
      · cases h
      · cases h
      · next m hdirectory hnode =>
        split at h
        · cases h
        · next hslash =>
          cases h
          exact ⟨spot, rfl, rfl, Bool.eq_false_iff.2 hslash, hnode, hdirectory⟩
    · rintro ⟨_, ⟨⟩, rfl, hslash, hnode, hdirectory⟩
      dsimp only
      rw [hnode]
      cases n with
      | directory => exact absurd rfl hdirectory
      | file octets => simp [hslash]
      | socket listener => simp [hslash]

theorem node?_of_leaf? (h : d.leaf? path = some (place, n)) : d.node? place = some n := by
  obtain ⟨-, -, -, -, hnode, -⟩ := leaf?_eq_some.1 h
  exact hnode

theorem ne_directory_of_leaf? (h : d.leaf? path = some (place, n)) : n ≠ .directory := by
  obtain ⟨-, -, -, -, -, hdirectory⟩ := leaf?_eq_some.1 h
  exact hdirectory

theorem node?_ne_directory (h : d.leaf? path = some (place, n)) :
    d.node? place ≠ some .directory := by
  intro hdirectory
  rw [node?_of_leaf? h] at hdirectory
  exact ne_directory_of_leaf? h (Option.some.inj hdirectory)

theorem ne_root_of_leaf? (h : d.leaf? path = some (place, n)) : place ≠ [] :=
  ne_root (node?_of_leaf? h) (ne_directory_of_leaf? h)

/-- While the directories stay (`Keeps`), a path leads to what stands at its place. -/
theorem Keeps.leaf? (hkeeps : d.Keeps e) (h : d.leaf? path = some (place, n)) {m : Node}
    (hm : e.node? place = some m) (hdirectory : m ≠ .directory) :
    e.leaf? path = some (place, m) := by
  obtain ⟨spot, hspot, hplace, hslash, -, -⟩ := leaf?_eq_some.1 h
  exact leaf?_eq_some.2 ⟨spot, hkeeps.locate hspot, hplace, hslash, hm, hdirectory⟩

theorem leaf?_place_unique (hd : d.leaf? path = some (place, n)) {m : Node}
    (he : e.leaf? path = some (other, m)) : other = place := by
  obtain ⟨spot, hspot, rfl, -, -, -⟩ := leaf?_eq_some.1 hd
  obtain ⟨spot', hspot', rfl, -, -, -⟩ := leaf?_eq_some.1 he
  rw [locate_unique hspot' hspot]

theorem read_eq_ok {octets : List UInt8} :
    d.read path = .ok octets ↔ ∃ place, d.leaf? path = some (place, .file octets) := by
  rw [read, lookUp, Disk.leaf?]
  cases d.locate path with
  | error e => simp
  | ok spot =>
    dsimp only
    cases d.node? spot.place with
    | none => simp
    | some n => cases n <;> cases spot.wantsDirectory <;> simp

theorem lookUp_eq_leaf (hn : n ≠ .directory) :
    d.lookUp path = .ok (some n) ↔ ∃ place, d.leaf? path = some (place, n) := by
  rw [lookUp, Disk.leaf?]
  cases d.locate path with
  | error e => simp
  | ok spot =>
    dsimp only
    cases d.node? spot.place with
    | none => simp
    | some m => cases m <;> cases spot.wantsDirectory <;> simp [hn.symm]

/-! ## Removing -/

theorem remove_of_leaf? (h : d.leaf? path = some (place, n)) :
    d.remove path = .ok (d.clear place) := by
  obtain ⟨spot, hspot, rfl, hslash, hnode, hdirectory⟩ := leaf?_eq_some.1 h
  rw [remove, hspot]
  dsimp only
  rw [hnode]
  cases n with
  | directory => exact absurd rfl hdirectory
  | file octets => simp [hslash]
  | socket listener => simp [hslash]

theorem leaf?_of_remove (h : d.remove path = .ok e) :
    ∃ place n, d.leaf? path = some (place, n) ∧ e = d.clear place := by
  rw [remove] at h
  split at h
  · cases h
  · next spot hspot =>
    split at h
    · cases h
    · cases h
    · next n hdirectory hnode =>
      split at h
      · cases h
      · next hslash =>
        cases h
        exact ⟨_, n, leaf?_eq_some.2 ⟨spot, hspot, rfl, Bool.eq_false_iff.2 hslash, hnode,
          hdirectory⟩, rfl⟩

/-- The disk without what a path leads to, unless that is a directory. -/
def without (d : Disk) (path : String) : Disk :=
  match d.leaf? path with
  | some (place, _) => d.clear place
  | none => d

theorem without_of_leaf? (h : d.leaf? path = some (place, n)) : d.without path = d.clear place := by
  rw [without, h]

theorem without_of_none (h : d.leaf? path = none) : d.without path = d := by
  rw [without, h]

/-- Removing what may be missing fails only where nothing can be removed, and else leaves the disk
`without` it. -/
theorem removeIfThere_cases (d : Disk) (path : String) :
    d.removeIfThere path = .ok (d.without path) ∨
      d.leaf? path = none ∧ ∃ e, d.removeIfThere path = .error e := by
  cases hremove : d.remove path with
  | ok e =>
    obtain ⟨place, n, hleaf, rfl⟩ := leaf?_of_remove hremove
    left
    rw [removeIfThere, hremove, without_of_leaf? hleaf]
  | error e =>
    have hnone : d.leaf? path = none := by
      cases hleaf : d.leaf? path with
      | none => rfl
      | some leaf =>
        rw [remove_of_leaf? hleaf] at hremove
        cases hremove
    rw [removeIfThere, hremove, without_of_none hnone]
    cases e <;> simp [hnone]

theorem without_keeps (d : Disk) (path : String) : (d.without path).Keeps d := by
  rw [without]
  split
  · exact clear_keeps d _
  · exact Keeps.refl d

theorem keeps_without (d : Disk) (path : String) : d.Keeps (d.without path) := by
  rw [without]
  split
  · next place n hleaf => exact keeps_clear (node?_ne_directory hleaf)
  · exact Keeps.refl d

theorem node?_of_without (h : (d.without path).node? place = some n) (hn : n ≠ .directory) :
    d.node? place = some n := by
  rw [without] at h
  split at h
  · exact node?_of_clear h hn
  · exact h

theorem node?_without (h : d.node? place = some n)
    (hother : ∀ m, d.leaf? path ≠ some (place, m)) : (d.without path).node? place = some n := by
  rw [without]
  split
  · next other m hleaf =>
    have hne : place ≠ other := by
      rintro rfl
      exact hother m hleaf
    rwa [node?_clear_of_ne hne]
  · exact h

/-- What is neither a file nor the socket at the path is left alone. -/
theorem node?_without_socket (h : d.node? place = some n)
    (hfile : ∀ octets, d.leaf? path ≠ some (place, .file octets))
    (hsocket : ∀ k, d.leaf? path ≠ some (place, .socket k)) :
    (d.without path).node? place = some n := by
  refine node?_without h fun m hm => ?_
  cases m with
  | directory => exact ne_directory_of_leaf? hm rfl
  | file octets => exact hfile octets hm
  | socket k => exact hsocket k hm

/-! ## Making directories -/

/-- Nothing changes but that directories are made where there was nothing, which is what
`makeDirectories` does whether or not it gets through. -/
def Grows (d e : Disk) : Prop :=
  ∀ place, e.node? place = d.node? place ∨
    d.node? place = none ∧ e.node? place = some .directory

theorem Grows.refl (d : Disk) : d.Grows d :=
  fun _ => .inl rfl

theorem Grows.trans {f : Disk} (hde : d.Grows e) (hef : e.Grows f) : d.Grows f := by
  intro place
  obtain h | ⟨hnone, hmade⟩ := hef place
  · rw [h]
    exact hde place
  · obtain h | ⟨-, hmade'⟩ := hde place
    · exact .inr ⟨h ▸ hnone, hmade⟩
    · rw [hnone] at hmade'
      cases hmade'

theorem Grows.node? (h : d.Grows e) (hnode : d.node? place = some n) : e.node? place = some n := by
  obtain hsame | ⟨hnone, -⟩ := h place
  · rwa [hsame]
  · rw [hnode] at hnone
    cases hnone

theorem Grows.keeps (h : d.Grows e) : d.Keeps e :=
  fun _ => h.node?

theorem Grows.node?_of (h : d.Grows e) (hnode : e.node? place = some n) (hn : n ≠ .directory) :
    d.node? place = some n := by
  obtain hsame | ⟨-, hmade⟩ := h place
  · rwa [← hsame]
  · rw [hnode] at hmade
    exact absurd (Option.some.inj hmade) hn

/-- One step of making the way: upwards, not at all, into a directory that is made, or into one that
is there. -/
theorem makePath_cases (d : Disk) (pointed missed : Bool) (here : List String) (c : String)
    (rest : List String) :
    (c = ".." ∧ d.makePath pointed missed here (c :: rest) =
      d.makePath pointed missed here.dropLast rest) ∨
    (∃ error, d.makePath pointed missed here (c :: rest) = (.error error, d)) ∨
    (c ≠ ".." ∧ ¬ nameMax < Text.size c ∧
      (d.node? (here ++ [c]) = none ∧ d.makePath pointed missed here (c :: rest) =
        (d.put (here ++ [c]) .directory).makePath pointed true (here ++ [c]) rest ∨
      d.node? (here ++ [c]) = some .directory ∧ d.makePath pointed missed here (c :: rest) =
        d.makePath pointed missed (here ++ [c]) rest)) := by
  rw [makePath]
  split
  · next hup => exact .inl ⟨hup, rfl⟩
  · next hup =>
    right
    split
    · exact .inl ⟨_, rfl⟩
    · next hshort =>
      dsimp only
      split
      · next hnone =>
        split
        · exact .inl ⟨_, rfl⟩
        · exact .inr ⟨hup, hshort, .inl ⟨hnone, rfl⟩⟩
      · next hthere => exact .inr ⟨hup, hshort, .inr ⟨hthere, rfl⟩⟩
      · exact .inl ⟨_, rfl⟩

theorem grows_put (h : d.node? place = none) (hroot : place ≠ []) :
    d.Grows (d.put place .directory) := by
  intro p
  by_cases hp : p = place
  · rw [hp, h, node?_put_self hroot]
    exact .inr ⟨rfl, rfl⟩
  · exact .inl (node?_put_of_ne hp _)

theorem grows_makePath (d : Disk) (pointed missed : Bool) (here steps : List String) :
    d.Grows (d.makePath pointed missed here steps).2 := by
  induction steps generalizing d missed here with
  | nil => exact Grows.refl d
  | cons c rest ih =>
    obtain ⟨-, hnext⟩ | ⟨error, hstop⟩ | ⟨-, -, ⟨hnone, hnext⟩ | ⟨-, hnext⟩⟩ :=
      makePath_cases d pointed missed here c rest
    · rw [hnext]
      exact ih d missed _
    · rw [hstop]
      exact Grows.refl d
    · rw [hnext]
      exact (grows_put hnone (by simp)).trans (ih _ true _)
    · rw [hnext]
      exact ih d missed _

theorem grows_makeDirectories (d : Disk) (path : String) :
    d.Grows (d.makeDirectories path).2 := by
  rw [makeDirectories]
  split
  · exact Grows.refl d
  · split
    · exact Grows.refl d
    · exact grows_makePath d _ _ _ _

/-! ## Writing -/

theorem write_eq_ok {octets : List UInt8} (h : d.write path octets = .ok e) :
    ∃ spot, d.locate path = .ok spot ∧ d.node? spot.place ≠ some .directory ∧
      (∀ listener, d.node? spot.place ≠ some (.socket listener)) ∧
      e = d.put spot.place (.file octets) := by
  rw [write] at h
  split at h
  · cases h
  · next spot hspot =>
    refine ⟨spot, hspot, ?_⟩
    split at h
    · cases h
    · split at h <;> simp_all

theorem rename_eq_ok {source target : String} (h : d.rename source target = .ok e) :
    ∃ a b n, d.locate source = .ok a ∧ d.locate target = .ok b ∧ d.node? a.place = some n ∧
      n ≠ .directory ∧ d.node? b.place ≠ some .directory ∧ b.wantsDirectory = false ∧
      e = (d.clear a.place).put b.place n := by
  rw [rename] at h
  split at h
  · cases h
  · cases h
  · next a b ha hb =>
    refine ⟨a, b, ?_⟩
    split at h
    · cases h
    · cases h
    · cases h
    · next n hdirectory htarget =>
      split at h
      · cases h
      · simp_all

theorem bind_eq_ok {listener : Nat} (h : d.bind path listener = .ok e) :
    ∃ spot, d.locate path = .ok spot ∧ d.node? spot.place = none ∧ spot.wantsDirectory = false ∧
      e = d.put spot.place (.socket listener) := by
  rw [bind] at h
  split at h
  · cases h
  · split at h
    · cases h
    · next spot hspot =>
      refine ⟨spot, hspot, ?_⟩
      split at h
      · cases h
      · next hnode =>
        split at h
        · cases h
        · next hslash =>
          cases h
          exact ⟨hnode, Bool.eq_false_iff.2 hslash, rfl⟩

end Disk
end Coursework
