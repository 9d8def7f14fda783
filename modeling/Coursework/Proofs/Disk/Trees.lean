import Coursework.Proofs.Disk

/-!
# What is below a directory

On a disk that came about by its operations everything stands in a directory (`Disk.Connected`), so
nothing is below a place where there is none.  All operations keep it so.  A directory that is
removed leaves nothing behind, and takes nothing else away (`Disk.node?_removeTree`).

A legal path to a directory leads to where all its steps lead (`Disk.Connected.walk_eq_ok_iff`), and
a path to a name leads right below it (`Disk.locate_join_eq_ok_iff`).
-/

set_option autoImplicit false

namespace Coursework

/-! ## Names -/

namespace Text
namespace Path

variable {name : String}

theorem IsName.append_digits (h : IsName name) {digits : String}
    (hdigits : ∀ c ∈ digits.toList, c.isDigit = true) : IsName (name ++ digits) := by
  have hother : ∀ other : String, other.toList.all (fun c => !c.isDigit) = true → name ≠ other →
      name ++ digits ≠ other := by
    rintro other hall hne rfl
    rw [String.toList_append, List.all_append, Bool.and_eq_true] at hall
    have hnone : digits.toList = [] := List.eq_nil_iff_forall_not_mem.2 fun c hc => by
      have hc' := List.all_eq_true.1 hall.2 c hc
      rw [hdigits c hc] at hc'
      exact absurd hc' (by decide)
    rw [String.toList_eq_nil_iff.1 hnone, String.append_empty] at hne
    exact hne rfl
  refine ⟨fun c hc => ?_, hother "" (by decide) h.nonempty, hother "." (by decide) h.notHere,
    hother ".." (by decide) h.notUp⟩
  rw [String.toList_append] at hc
  obtain hc | hc := List.mem_append.1 hc
  · exact h.noSlash c hc
  · rw [beq_eq_false_iff_ne]
    rintro rfl
    exact absurd (hdigits '/' hc) (by decide)

/-- A path to a name is longer than the path of its directory, by a slash at most. -/
theorem join_of_isName (h : IsName name) (base : String) :
    join base name = base ++ name ∨ join base name = base ++ "/" ++ name := by
  rw [join, isAbsolute_of_isName h]
  split
  · next hempty =>
    rw [hempty.resolve_left (by decide)]
    exact .inl (String.empty_append).symm
  · split
    · exact .inl rfl
    · exact .inr rfl

theorem endsInSlash_join (h : IsName name) (base : String) :
    endsInSlash (join base name) = false := by
  have hend : ∀ front : String, endsInSlash (front ++ name) = false := fun front => by
    obtain ⟨c, hc⟩ := Option.ne_none_iff_exists'.1
      (mt List.getLast?_eq_none_iff.1 (mt String.toList_eq_nil_iff.1 h.nonempty))
    rw [endsInSlash, String.toList_append, List.getLast?_append, hc, Option.some_or]
    exact h.noSlash c (List.mem_of_getLast? hc)
  obtain hjoin | hjoin := join_of_isName h base
  · rw [hjoin]
    exact hend base
  · rw [hjoin]
    exact hend _

theorem steps_join_root (path : String) : steps (join "/" path) = steps path := by
  rw [join]
  split
  · rfl
  · exact steps_append_slash "" path

theorem join_root_ne_empty (path : String) : join "/" path ≠ "" := by
  rw [join]
  split
  · next h =>
    rintro rfl
    exact absurd h (by decide)
  · intro h
    exact absurd (String.append_eq_empty_iff.1 h).1 (by decide)

theorem size_le_size_join (h : IsName name) (base : String) :
    size base ≤ size (join base name) := by
  obtain hjoin | hjoin := join_of_isName h base
  · rw [hjoin, size, size, String.utf8ByteSize_append]
    omega
  · rw [hjoin, size, size, String.utf8ByteSize_append, String.utf8ByteSize_append]
    omega

theorem components_eq_filter (path : String) :
    components path = (steps path).filter fun s => s != "." := rfl

end Path
end Text

namespace Disk

variable {d e : Disk} {place here : List String} {name path : String} {steps : List String}

/-! ## Everything is in a directory -/

def Connected (d : Disk) : Prop :=
  ∀ place name n, d.node? (place ++ [name]) = some n → d.node? place = some .directory

theorem node?_root (d : Disk) : d.node? [] = some .directory := rfl

theorem connected_empty : empty.Connected := by
  intro place name n h
  rw [node?, if_neg (by simp)] at h
  cases h

theorem Connected.none_below (h : d.Connected) (hplace : d.node? place ≠ some .directory)
    {rest : List String} (hrest : rest ≠ []) : d.node? (place ++ rest) = none := by
  induction rest generalizing place with
  | nil => exact absurd rfl hrest
  | cons c rest ih =>
    have hnext : d.node? (place ++ [c]) = none := by
      rw [Option.eq_none_iff_forall_ne_some]
      exact fun n hn => hplace (h place c n hn)
    by_cases hlast : rest = []
    · rw [hlast, hnext]
    · rw [List.append_cons]
      exact ih (ne_directory_of_none hnext) hlast

theorem Connected.none_of_prefix (h : d.Connected) {top : List String}
    (htop : d.node? top = none) (hplace : top <+: place) : d.node? place = none := by
  obtain ⟨rest, rfl⟩ := hplace
  by_cases hrest : rest = []
  · rw [hrest, List.append_nil, htop]
  · exact h.none_below (ne_directory_of_none htop) hrest

theorem Connected.dropLast (h : d.Connected) (hplace : d.node? place = some .directory) :
    d.node? place.dropLast = some .directory := by
  obtain rfl | ⟨front, last, rfl⟩ := List.eq_nil_or_concat place
  · exact hplace
  · rw [List.concat_eq_append, List.dropLast_concat]
    rw [List.concat_eq_append] at hplace
    exact h front last _ hplace

theorem Connected.put (h : d.Connected) (hplace : d.node? place = some .directory)
    (hold : d.node? (place ++ [name]) ≠ some .directory) (n : Node) :
    (d.put (place ++ [name]) n).Connected := by
  intro p c m hm
  by_cases hp : p ++ [c] = place ++ [name]
  · obtain ⟨rfl, -⟩ := List.append_inj' hp rfl
    rwa [node?_put_of_ne (by simp)]
  · rw [node?_put_of_ne hp] at hm
    have hdirectory := h p c m hm
    have hne : p ≠ place ++ [name] := by
      rintro rfl
      exact hold hdirectory
    rwa [node?_put_of_ne hne]

/-! ## Removing a directory -/

theorem node?_foldl_clear (places : List (List String)) (d : Disk) {place : List String}
    (hroot : place ≠ []) :
    (places.foldl (fun d p => d.clear p) d).node? place =
      if place ∈ places then none else d.node? place := by
  induction places generalizing d with
  | nil => rfl
  | cons p rest ih =>
    rw [List.foldl_cons, ih, node?, if_neg hroot, clear, Table.find?_erase]
    by_cases hp : place = p
    · simp [hp]
    · simp [hp, node?, hroot]

theorem mem_keys_iff (hroot : place ≠ []) :
    place ∈ d.nodes.keys ↔ ∃ n, d.node? place = some n := by
  rw [Table.mem_keys_iff, node?, if_neg hroot]

theorem inside_iff {top : List String} : inside place top = true ↔ top <+: place := by
  rw [inside, beq_iff_eq, List.prefix_iff_eq_take, eq_comm]

/-- `removeTree` takes away what is inside the directory, and nothing else. -/
theorem node?_removeTree {spot : Spot} (h : d.locate path = .ok spot)
    (hroot : spot.place ≠ []) (place : List String) :
    (d.removeTree path).node? place =
      if spot.place <+: place then none else d.node? place := by
  rw [removeTree, h]
  simp only [if_neg hroot]
  by_cases hplace : place = []
  · have hout : ¬ spot.place <+: place := fun hin => hroot (List.prefix_nil.1 (hplace ▸ hin))
    rw [if_neg hout, hplace]
    rfl
  have hmem : place ∈ (d.nodes.keys.filter fun p => inside p spot.place) ↔
      (∃ n, d.node? place = some n) ∧ spot.place <+: place := by
    rw [List.mem_filter, mem_keys_iff hplace, inside_iff]
  rw [node?_foldl_clear _ _ hplace]
  by_cases hin : spot.place <+: place
  · rw [if_pos hin]
    split
    · rfl
    · next hnone =>
      rw [Option.eq_none_iff_forall_ne_some]
      exact fun n hn => hnone (hmem.2 ⟨⟨n, hn⟩, hin⟩)
  · rw [if_neg fun hkey => hin (hmem.1 hkey).2, if_neg hin]

/-- A directory that was removed is gone, unless it is the root. -/
theorem holds_removeTree (hroot : ∀ spot, d.locate path = .ok spot → spot.place ≠ []) :
    (d.removeTree path).holds path = false := by
  rw [holds, lookUp]
  rcases hd : d.locate path with error | spot
  · rw [removeTree, hd]
    simp only [hd]
  · rcases hafter : (d.removeTree path).locate path with error | spot'
    · rfl
    · rw [locate_unique hafter hd]
      simp only [node?_removeTree hd (hroot spot hd), if_pos (List.prefix_refl spot.place)]

theorem Connected.removeTree (h : d.Connected) (path : String) : (d.removeTree path).Connected := by
  rcases hspot : d.locate path with error | spot
  · rwa [Disk.removeTree, hspot]
  by_cases hroot : spot.place = []
  · rw [Disk.removeTree, hspot]
    simpa only [if_pos hroot] using h
  intro p c n hn
  rw [node?_removeTree hspot hroot] at hn ⊢
  split at hn
  · cases hn
  · next hout =>
    rw [if_neg fun hin => hout (hin.trans (List.prefix_append p [c]))]
    exact h p c n hn

/-! ## Walking on -/

theorem walk_append {front back p : List String} :
    d.walk here (front ++ back) = .ok p ↔
      ∃ q, d.walk here front = .ok q ∧ d.walk q back = .ok p := by
  induction front generalizing here with
  | nil => simp [walk]
  | cons c rest ih =>
    simp only [List.cons_append, walk_cons_eq_ok, ih]
    constructor
    · rintro (⟨hc, q, hq, hp⟩ | ⟨hc, hup, q, hq, hp⟩ | ⟨hc, hup, hshort, hnode, q, hq, hp⟩)
      · exact ⟨q, .inl ⟨hc, hq⟩, hp⟩
      · exact ⟨q, .inr (.inl ⟨hc, hup, hq⟩), hp⟩
      · exact ⟨q, .inr (.inr ⟨hc, hup, hshort, hnode, hq⟩), hp⟩
    · rintro ⟨q, ⟨hc, hq⟩ | ⟨hc, hup, hq⟩ | ⟨hc, hup, hshort, hnode, hq⟩, hp⟩
      · exact .inl ⟨hc, q, hq, hp⟩
      · exact .inr (.inl ⟨hc, hup, q, hq, hp⟩)
      · exact .inr (.inr ⟨hc, hup, hshort, hnode, q, hq, hp⟩)

theorem walk_filter (d : Disk) (here steps : List String) :
    d.walk here (steps.filter fun s => s != ".") = d.walk here steps := by
  induction steps generalizing here with
  | nil => rfl
  | cons c rest ih =>
    by_cases hc : c = "."
    · rw [List.filter_cons_of_neg (by simp [hc]), walk, if_pos hc, ih]
    · rw [List.filter_cons_of_pos (by simp [hc]), walk, walk]
      simp only [ih]

/-- A walk from a directory ends in a directory. -/
theorem Connected.node?_of_walk (h : d.Connected) (hhere : d.node? here = some .directory)
    (hwalk : d.walk here steps = .ok place) : d.node? place = some .directory := by
  induction steps generalizing here with
  | nil =>
    cases hwalk
    exact hhere
  | cons c rest ih =>
    obtain ⟨-, hwalk⟩ | ⟨-, -, hwalk⟩ | ⟨-, -, -, hnode, hwalk⟩ := walk_cons_eq_ok.1 hwalk
    · exact ih hhere hwalk
    · exact ih (h.dropLast hhere) hwalk
    · exact ih hnode hwalk

/-- A last step can be walked exactly if it is to the spot of a directory. -/
theorem Connected.walk_singleton_eq_ok_iff (h : d.Connected)
    (hhere : d.node? here = some .directory) (last : String) (slash : Bool) :
    d.walk here [last] = .ok place ↔ ∃ spot, spotIn here last slash = .ok spot ∧
      spot.place = place ∧ d.node? place = some .directory := by
  constructor
  · intro hwalk
    have hdirectory := h.node?_of_walk hhere hwalk
    obtain ⟨hpoint, hend⟩ | ⟨hpoint, hup, hend⟩ | ⟨hpoint, hup, hshort, -, hend⟩ :=
      walk_cons_eq_ok.1 hwalk
    · exact ⟨⟨_, _, _⟩, by rw [spotIn, if_pos hpoint], Except.ok.inj hend, hdirectory⟩
    · exact ⟨⟨_, _, _⟩, by rw [spotIn, if_neg hpoint, if_pos hup], Except.ok.inj hend, hdirectory⟩
    · exact ⟨⟨_, _, _⟩, by rw [spotIn, if_neg hpoint, if_neg hup, if_neg hshort],
        Except.ok.inj hend, hdirectory⟩
  · rintro ⟨spot, hin, rfl, hdirectory⟩
    rw [walk_cons_eq_ok]
    rw [spotIn] at hin
    split at hin
    · next hpoint =>
      cases hin
      exact .inl ⟨hpoint, rfl⟩
    · next hpoint =>
      split at hin
      · next hup =>
        cases hin
        exact .inr (.inl ⟨hpoint, hup, rfl⟩)
      · next hup =>
        split at hin
        · cases hin
        · next hshort =>
          cases hin
          exact .inr (.inr ⟨hpoint, hup, hshort, hdirectory, rfl⟩)

/-- The directory that a `Legal` path leads to is where all its steps lead. -/
theorem Connected.walk_eq_ok_iff (h : d.Connected) (hlegal : Legal path) :
    d.walk [] (Text.Path.steps path) = .ok place ↔ ∃ spot, d.locate path = .ok spot ∧
      spot.place = place ∧ d.node? place = some .directory := by
  rcases hlast : (Text.Path.steps path).getLast? with _ | last
  · have hlocate : d.locate path = .ok ⟨[], false, true⟩ :=
      locate_eq_ok.2 ⟨hlegal, .inl ⟨hlast, rfl⟩⟩
    rw [List.getLast?_eq_none_iff.1 hlast, hlocate]
    constructor
    · rintro ⟨⟩
      exact ⟨_, rfl, rfl, node?_root d⟩
    · rintro ⟨_, ⟨⟩, rfl, -⟩
      rfl
  · obtain ⟨front, hsteps⟩ := List.getLast?_eq_some_iff.1 hlast
    have hlocate : ∀ spot, d.locate path = .ok spot ↔ ∃ q, d.walk [] front = .ok q ∧
        spotIn q last (Text.Path.endsInSlash path) = .ok spot := by
      intro spot
      rw [locate_eq_ok, hlast, hsteps, List.dropLast_concat]
      simp [hlegal]
    have hhere : ∀ q, d.walk [] front = .ok q → d.node? q = some .directory :=
      fun q => h.node?_of_walk (node?_root d)
    rw [hsteps, walk_append]
    constructor
    · rintro ⟨q, hq, hwalk⟩
      obtain ⟨spot, hin, hplace, hdirectory⟩ :=
        (h.walk_singleton_eq_ok_iff (hhere q hq) last (Text.Path.endsInSlash path)).1 hwalk
      exact ⟨spot, (hlocate spot).2 ⟨q, hq, hin⟩, hplace, hdirectory⟩
    · rintro ⟨spot, hspot, hplace, hdirectory⟩
      obtain ⟨q, hq, hin⟩ := (hlocate spot).1 hspot
      exact ⟨q, hq,
        (h.walk_singleton_eq_ok_iff (hhere q hq) last _).2 ⟨spot, hin, hplace, hdirectory⟩⟩

/-- A path to a name is legal if neither part has a character that no path has, and it is not too
long. -/
theorem legal_join_iff (hname : Text.Path.IsName name) {base : String} (hbase : base ≠ "") :
    Legal (Text.Path.join base name) ↔ ¬ base.toList.contains '\x00' = true ∧
      ¬ name.toList.contains '\x00' = true ∧ ¬ pathMax < Text.size (Text.Path.join base name) := by
  have hmem : '\x00' ∈ (Text.Path.join base name).toList ↔
      '\x00' ∈ base.toList ∨ '\x00' ∈ name.toList := by
    obtain hjoin | hjoin := Text.Path.join_of_isName hname base
    · rw [hjoin, String.toList_append, List.mem_append]
    · have hslash : '\x00' ∉ "/".toList := by decide
      rw [hjoin, String.toList_append, String.toList_append, List.mem_append, List.mem_append]
      simp only [hslash, or_false]
  simp only [List.contains_iff_mem]
  constructor
  · intro h
    have hclean := h.noNul
    rw [List.contains_iff_mem, hmem, not_or] at hclean
    exact ⟨hclean.1, hclean.2, h.short⟩
  · rintro ⟨hclean, hclean', hshort⟩
    refine ⟨?_, ?_, hshort⟩
    · obtain hjoin | hjoin := Text.Path.join_of_isName hname base
      · rw [hjoin]
        exact fun hempty => hbase (String.append_eq_empty_iff.1 hempty).1
      · rw [hjoin, String.append_assoc]
        exact fun hempty => hbase (String.append_eq_empty_iff.1 hempty).1
    · rw [List.contains_iff_mem, hmem, not_or]
      exact ⟨hclean, hclean'⟩

/-- A name that a directory at a path can have something under: the path to it is `Legal`, and the
name is not too long. -/
structure Fits (base name : String) : Prop where
  legal : Legal (Text.Path.join base name)
  short : ¬ nameMax < Text.size name

theorem locate_join_eq_ok_iff (hname : Text.Path.IsName name) {base : String}
    (hwalk : d.walk [] (Text.Path.steps base) = .ok place) {spot : Spot} :
    d.locate (Text.Path.join base name) = .ok spot ↔
      Fits base name ∧ spot = ⟨place ++ [name], true, false⟩ := by
  rw [locate_eq_ok, Text.Path.getLast?_steps_join hname, Text.Path.steps_join hname,
    List.dropLast_concat, Text.Path.endsInSlash_join hname, hwalk]
  constructor
  · rintro ⟨hlegal, ⟨⟨⟩, -⟩ | ⟨_, _, ⟨⟩, ⟨⟩, hspot⟩⟩
    rw [spotIn, if_neg hname.notHere, if_neg hname.notUp] at hspot
    split at hspot
    · cases hspot
    · next hshort =>
      cases hspot
      exact ⟨⟨hlegal, hshort⟩, rfl⟩
  · rintro ⟨hfits, rfl⟩
    refine ⟨hfits.legal, .inr ⟨name, place, rfl, rfl, ?_⟩⟩
    rw [spotIn, if_neg hname.notHere, if_neg hname.notUp, if_neg hfits.short]

theorem walk_join (hname : Text.Path.IsName name) {base : String}
    (hshort : ¬ nameMax < Text.size name)
    (hwalk : d.walk [] (Text.Path.steps base) = .ok place)
    (hnode : d.node? (place ++ [name]) = some .directory) :
    d.walk [] (Text.Path.steps (Text.Path.join base name)) = .ok (place ++ [name]) := by
  rw [Text.Path.steps_join hname, walk_append]
  exact ⟨place, hwalk, walk_cons_eq_ok.2 (.inr (.inr
    ⟨hname.notHere, hname.notUp, hshort, hnode, rfl⟩))⟩

/-- In a directory that has nothing of a name, a file of that name can be written exactly if the
name `Fits`. -/
theorem write_join_eq_ok_iff (hname : Text.Path.IsName name) {base : String}
    (hwalk : d.walk [] (Text.Path.steps base) = .ok place)
    (hfree : d.node? (place ++ [name]) = none) {octets : List UInt8} :
    d.write (Text.Path.join base name) octets = .ok e ↔
      Fits base name ∧ e = d.put (place ++ [name]) (.file octets) := by
  constructor
  · intro h
    obtain ⟨spot, hspot, -, -, he⟩ := write_eq_ok h
    obtain ⟨hfits, rfl⟩ := (locate_join_eq_ok_iff hname hwalk).1 hspot
    exact ⟨hfits, he⟩
  · rintro ⟨hfits, rfl⟩
    rw [write, (locate_join_eq_ok_iff hname hwalk).2 ⟨hfits, rfl⟩]
    simp [hfree]

/-! ## What the operations keep -/

theorem Connected.clear (h : d.Connected) (hplace : d.node? place ≠ some .directory) :
    (d.clear place).Connected := by
  intro p c n hn
  by_cases hp : p ++ [c] = place
  · rw [← hp, node?_clear_self (by simp)] at hn
    cases hn
  · rw [node?_clear_of_ne hp] at hn
    exact keeps_clear hplace p (h p c n hn)

/-- Where a path leads to no directory, it leads right below one, as long as the disk is
`Connected`. -/
theorem Connected.exists_of_locate (h : d.Connected) {spot : Spot}
    (hspot : d.locate path = .ok spot) (hplace : d.node? spot.place ≠ some .directory) :
    ∃ here name, spot.place = here ++ [name] ∧ d.node? here = some .directory := by
  obtain ⟨-, ⟨-, rfl⟩ | ⟨last, here, -, hwalk, hin⟩⟩ := locate_eq_ok.1 hspot
  · exact absurd (node?_root d) hplace
  · have hhere := h.node?_of_walk (node?_root d) hwalk
    rw [spotIn] at hin
    split at hin
    · cases hin
      exact absurd hhere hplace
    · split at hin
      · cases hin
        exact absurd (h.dropLast hhere) hplace
      · split at hin
        · cases hin
        · cases hin
          exact ⟨here, last, rfl, hhere⟩

theorem Connected.put_of_locate (h : d.Connected) {spot : Spot} (hspot : d.locate path = .ok spot)
    (hplace : d.node? spot.place ≠ some .directory) (n : Node) :
    (d.put spot.place n).Connected := by
  obtain ⟨here, name, heq, hhere⟩ := h.exists_of_locate hspot hplace
  rw [heq] at hplace ⊢
  exact h.put hhere hplace n

theorem Connected.write (h : d.Connected) {octets : List UInt8} (he : d.write path octets = .ok e) :
    e.Connected := by
  obtain ⟨spot, hspot, hplace, -, rfl⟩ := write_eq_ok he
  exact h.put_of_locate hspot hplace _

theorem Connected.bind (h : d.Connected) {listener : Nat} (he : d.bind path listener = .ok e) :
    e.Connected := by
  obtain ⟨spot, hspot, hnone, -, rfl⟩ := bind_eq_ok he
  exact h.put_of_locate hspot (ne_directory_of_none hnone) _

theorem Connected.remove (h : d.Connected) (he : d.remove path = .ok e) : e.Connected := by
  obtain ⟨place, n, hleaf, rfl⟩ := leaf?_of_remove he
  exact h.clear (node?_ne_directory hleaf)

theorem Connected.rename (h : d.Connected) {source target : String}
    (he : d.rename source target = .ok e) : e.Connected := by
  obtain ⟨a, b, n, -, hb, hn, hfile, htarget, -, rfl⟩ := rename_eq_ok he
  have hsource : d.node? a.place ≠ some .directory := by
    rw [hn]
    exact fun hsame => hfile (Option.some.inj hsame)
  obtain ⟨here, name, heq, hhere⟩ := h.exists_of_locate hb htarget
  rw [heq] at htarget ⊢
  exact (h.clear hsource).put (keeps_clear hsource here hhere)
    (fun hsame => htarget (clear_keeps d a.place _ hsame)) n

end Disk
end Coursework
