import Mathlib.Data.List.Nodup
import Mathlib.Data.List.Perm.Subperm
import Coursework.Proofs.Disk.Trees
import Coursework.Proofs.Text.Decimal

/-!
# Directories that are made

Where the steps of a path lead is known without a disk (`Disk.arrive`).  Making directories puts
something only at places on that way (`Disk.onWay_of_makeDirectories`), and afterwards the way can
be walked (`Disk.walk_of_makeDirectories`).

A directory of a new name can be made wherever its name fits, because some name is always free
(`Disk.freshName_eq`).  Nothing is below it, so that it holds exactly the files that are put there
(`Disk.node?_fill_below`).
-/

set_option autoImplicit false

namespace Coursework
namespace Disk

variable {d e : Disk} {place here : List String} {name path : String} {steps : List String}
  {pointed missed : Bool}

/-! ## The way to a place -/

/-- Where steps lead that all have names or go upwards, which no disk has a say in. -/
def arrive (here steps : List String) : List String :=
  steps.foldl (fun here c => if c = ".." then here.dropLast else here ++ [c]) here

theorem arrive_cons (here : List String) (c : String) (rest : List String) :
    arrive here (c :: rest) = arrive (arrive here [c]) rest := rfl

theorem arrive_singleton_up {c : String} (h : c = "..") (here : List String) :
    arrive here [c] = here.dropLast := if_pos h

theorem arrive_singleton {c : String} (h : c ≠ "..") (here : List String) :
    arrive here [c] = here ++ [c] := if_neg h

/-- A place that the steps pass through. -/
def OnWay (here steps place : List String) : Prop :=
  ∃ front, front <+: steps ∧ arrive here front = place

theorem OnWay.cons {c : String} (h : OnWay (arrive here [c]) steps place) :
    OnWay here (c :: steps) place := by
  obtain ⟨front, hfront, rfl⟩ := h
  exact ⟨c :: front, List.cons_prefix_cons.2 ⟨rfl, hfront⟩, rfl⟩

theorem arrive_of_notUp (h : ".." ∉ steps) : arrive here steps = here ++ steps := by
  induction steps generalizing here with
  | nil => rw [List.append_nil]; rfl
  | cons c rest ih =>
    rw [List.mem_cons, not_or] at h
    rw [arrive_cons, arrive_singleton (Ne.symm h.1), ih h.2, ← List.append_cons]

/-- Steps that do not lead upwards pass through what is above the place they lead to (`OnWay`). -/
theorem onWay_iff_of_notUp (h : ".." ∉ steps) :
    OnWay [] steps place ↔ place <+: steps := by
  constructor
  · rintro ⟨front, hfront, rfl⟩
    rwa [arrive_of_notUp fun hup => h (hfront.subset hup)]
  · intro hplace
    exact ⟨place, hplace, arrive_of_notUp fun hup => h (hplace.subset hup)⟩

theorem onWay_of_makePath
    (h : (d.makePath pointed missed here steps).2.node? place ≠ d.node? place) :
    OnWay here steps place := by
  induction steps generalizing d missed here with
  | nil => exact absurd rfl h
  | cons c rest ih =>
    obtain ⟨hup, hnext⟩ | ⟨error, hstop⟩ | ⟨hup, -, ⟨-, hnext⟩ | ⟨-, hnext⟩⟩ :=
      makePath_cases d pointed missed here c rest
    · rw [hnext] at h
      exact OnWay.cons (arrive_singleton_up hup here ▸ ih h)
    · rw [hstop] at h
      exact absurd rfl h
    · by_cases hplace : place = here ++ [c]
      · rw [hplace, ← arrive_singleton hup]
        exact ⟨[c], List.cons_prefix_cons.2 ⟨rfl, List.nil_prefix⟩, rfl⟩
      · have hput : (d.put (here ++ [c]) .directory).node? place = d.node? place :=
          node?_put_of_ne hplace _
        rw [hnext] at h
        exact OnWay.cons (arrive_singleton hup here ▸ ih fun hsame => h (hsame.trans hput))
    · rw [hnext] at h
      exact OnWay.cons (arrive_singleton hup here ▸ ih h)

theorem Connected.makePath (h : d.Connected) (hhere : d.node? here = some .directory) :
    (d.makePath pointed missed here steps).2.Connected := by
  induction steps generalizing d missed here with
  | nil => exact h
  | cons c rest ih =>
    obtain ⟨-, hnext⟩ | ⟨error, hstop⟩ | ⟨-, -, ⟨hnone, hnext⟩ | ⟨hthere, hnext⟩⟩ :=
      makePath_cases d pointed missed here c rest
    · rw [hnext]
      exact ih h (h.dropLast hhere)
    · rwa [hstop]
    · rw [hnext]
      exact ih (h.put hhere (ne_directory_of_none hnone) _) (node?_put_self (by simp) _)
    · rw [hnext]
      exact ih h hthere

theorem walk_of_makePath (hpoint : "." ∉ steps)
    (h : (d.makePath pointed missed here steps).1 = .ok ()) :
    (d.makePath pointed missed here steps).2.walk here steps = .ok (arrive here steps) := by
  induction steps generalizing d missed here with
  | nil => rfl
  | cons c rest ih =>
    rw [List.mem_cons, not_or] at hpoint
    have hc : c ≠ "." := Ne.symm hpoint.1
    rw [walk_cons_eq_ok, arrive_cons]
    obtain ⟨hup, hnext⟩ | ⟨error, hstop⟩ | ⟨hup, hshort, ⟨-, hnext⟩ | ⟨hthere, hnext⟩⟩ :=
      makePath_cases d pointed missed here c rest
    · rw [hnext] at h ⊢
      rw [arrive_singleton_up hup]
      exact .inr (.inl ⟨hc, hup, ih hpoint.2 h⟩)
    · rw [hstop] at h
      cases h
    · rw [hnext] at h ⊢
      rw [arrive_singleton hup]
      have hmade := (grows_makePath (d.put (here ++ [c]) .directory) pointed true (here ++ [c])
        rest).node? (node?_put_self (by simp) _)
      exact .inr (.inr ⟨hc, hup, hshort, hmade, ih hpoint.2 h⟩)
    · rw [hnext] at h ⊢
      rw [arrive_singleton hup]
      have hstays := (grows_makePath d pointed missed (here ++ [c]) rest).node? hthere
      exact .inr (.inr ⟨hc, hup, hshort, hstays, ih hpoint.2 h⟩)

/-! ## A root and what is made for it -/

/-- The place that a root stands at, whether or not it is there yet. -/
def destination (root : String) : List String :=
  arrive [] (Text.Path.components root)

theorem makeDirectories_eq_ok {root : String} (h : (d.makeDirectories root).1 = .ok ()) :
    ∃ pointed missed,
      d.makeDirectories root = d.makePath pointed missed [] (Text.Path.components root) := by
  rw [makeDirectories] at h ⊢
  split at h
  · cases h
  · next hclean =>
    rw [if_neg hclean]
    split at h
    · cases h
    · next hshort => exact ⟨_, _, if_neg hshort⟩

theorem Connected.makeDirectories (h : d.Connected) (root : String) :
    (d.makeDirectories root).2.Connected := by
  rw [Disk.makeDirectories]
  split
  · exact h
  · split
    · exact h
    · exact h.makePath (node?_root d)

/-- `makeDirectories` puts something only on the way, also when it fails. -/
theorem onWay_of_makeDirectories {root : String}
    (h : (d.makeDirectories root).2.node? place ≠ d.node? place) :
    OnWay [] (Text.Path.components root) place := by
  rw [makeDirectories] at h
  split at h
  · exact absurd rfl h
  · split at h
    · exact absurd rfl h
    · exact onWay_of_makePath h

/-- A root that was made is found, seen from the root of the disk, at its `destination`. -/
theorem walk_of_makeDirectories {root : String} (h : (d.makeDirectories root).1 = .ok ()) :
    (d.makeDirectories root).2.walk [] (Text.Path.steps (Text.Path.join "/" root)) =
      .ok (destination root) := by
  obtain ⟨pointed, missed, hmade⟩ := makeDirectories_eq_ok h
  rw [hmade] at h
  rw [Text.Path.steps_join_root, ← walk_filter, ← Text.Path.components_eq_filter, hmade]
  exact walk_of_makePath (by simp [Text.Path.components]) h

/-! ## A directory of a new name -/

theorem numbered_injective (stem : String) :
    Function.Injective fun n => stem ++ Text.padded 6 n := fun m n h => by
  have hlist := congrArg String.toList h
  simp only [String.toList_append] at hlist
  exact Text.padded_injective 6 (String.toList_inj.1 (List.append_cancel_left hlist))

/-- Of one number more than there are things on a disk, one is free. -/
theorem exists_free (d : Disk) (place : List String) (stem : String) :
    ∃ n ∈ List.range (d.nodes.size + 1), d.node? (place ++ [stem ++ Text.padded 6 n]) = none := by
  by_contra hnone
  have htaken : ((List.range (d.nodes.size + 1)).map fun n =>
      place ++ [stem ++ Text.padded 6 n]) ⊆ d.nodes.keys := by
    intro p hp
    obtain ⟨n, hn, rfl⟩ := List.mem_map.1 hp
    rw [mem_keys_iff (by simp), ← Option.ne_none_iff_exists']
    exact fun hfree => hnone ⟨n, hn, hfree⟩
  have hnodup : ((List.range (d.nodes.size + 1)).map fun n =>
      place ++ [stem ++ Text.padded 6 n]).Nodup :=
    List.nodup_range.map fun m n h => numbered_injective stem
      (List.singleton_inj.1 (List.append_cancel_left h))
  have hlength := (hnodup.subperm htaken).length_le
  rw [List.length_map, List.length_range, Table.keys, List.length_map, Table.size] at hlength
  omega

/-- A `freshName` is the stem with a number, and nothing has it. -/
theorem freshName_eq (d : Disk) (place : List String) (stem : String) :
    ∃ n, d.freshName place stem = stem ++ Text.padded 6 n ∧
      d.node? (place ++ [d.freshName place stem]) = none := by
  rcases hfound : ((List.range (d.nodes.size + 1)).map fun n => stem ++ Text.padded 6 n).find?
      fun name => (d.node? (place ++ [name])).isNone with _ | name
  · obtain ⟨n, hn, hfree⟩ := exists_free d place stem
    have htaken := List.find?_eq_none.1 hfound _ (List.mem_map_of_mem hn)
    rw [hfree] at htaken
    exact absurd rfl htaken
  · obtain ⟨n, -, hn⟩ := List.mem_map.1 (List.mem_of_find?_eq_some hfound)
    have hfree := List.find?_some hfound
    have hname : d.freshName place stem = name := by rw [freshName, hfound, Option.getD_some]
    exact ⟨n, by rw [hname, ← hn], by rw [hname]; simpa using hfree⟩

theorem isName_freshName (d : Disk) (place : List String) {stem : String}
    (h : Text.Path.IsName stem) : Text.Path.IsName (d.freshName place stem) := by
  obtain ⟨n, hn, -⟩ := freshName_eq d place stem
  rw [hn]
  exact h.append_digits fun c => Text.isDigit_of_mem_padded

theorem node?_freshName (d : Disk) (place : List String) (stem : String) :
    d.node? (place ++ [d.freshName place stem]) = none := by
  obtain ⟨-, -, hfree⟩ := freshName_eq d place stem
  exact hfree

theorem noNul_freshName (d : Disk) (place : List String) {stem : String}
    (h : ¬ stem.toList.contains '\x00' = true) :
    ¬ (d.freshName place stem).toList.contains '\x00' = true := by
  obtain ⟨n, hn, -⟩ := freshName_eq d place stem
  rw [hn, String.toList_append, List.contains_iff_mem, List.mem_append, not_or]
  refine ⟨by simpa using h, fun hdigit => ?_⟩
  exact absurd (Text.isDigit_of_mem_padded hdigit) (by decide)

/-- The path of a directory that is made anew ends in a name. -/
theorem exists_of_makeFresh {root stem : String} (hstem : Text.Path.IsName stem)
    (h : d.makeFresh root stem = .ok (path, e)) :
    ∃ name, Text.Path.IsName name ∧ path = Text.Path.join (Text.Path.join "/" root) name := by
  simp only [makeFresh] at h
  split at h
  · cases h
  · next spot hspot =>
    split at h
    · cases h
    · split at h
      · cases h
      · cases h
        exact ⟨_, isName_freshName d _ hstem, rfl⟩
    · cases h

/-- Under a root that is there a directory can be made exactly if its name fits. -/
theorem makeFresh_eq_ok_iff (hd : d.Connected) {root stem : String}
    (hwalk : d.walk [] (Text.Path.steps (Text.Path.join "/" root)) = .ok place)
    (hstem : Text.Path.IsName stem) (hnul : ¬ stem.toList.contains '\x00' = true) :
    d.makeFresh root stem = .ok (path, e) ↔
      Fits (Text.Path.join "/" root) (d.freshName place stem) ∧
        path = Text.Path.join (Text.Path.join "/" root) (d.freshName place stem) ∧
        e = d.put (place ++ [d.freshName place stem]) .directory := by
  have hname := isName_freshName d place hstem
  have hbase : Text.Path.join "/" root ≠ "" := Text.Path.join_root_ne_empty root
  constructor
  · intro h
    simp only [makeFresh] at h
    split at h
    · cases h
    · next spot hspot =>
      have hlegal := (locate_eq_ok.1 hspot).1
      obtain ⟨spot', hspot', rfl, -⟩ := (hd.walk_eq_ok_iff hlegal).1 hwalk
      cases hspot.symm.trans hspot'
      split at h
      · cases h
      · split at h
        · cases h
        · next hshort =>
          rw [not_or] at hshort
          cases h
          refine ⟨⟨(legal_join_iff hname hbase).2 ⟨hlegal.noNul, ?_, hshort.2⟩, hshort.1⟩, rfl, rfl⟩
          exact noNul_freshName d _ hnul
      · cases h
  · rintro ⟨hfits, rfl, rfl⟩
    obtain ⟨hclean, -, hshort⟩ := (legal_join_iff hname hbase).1 hfits.legal
    have hlegal : Legal (Text.Path.join "/" root) :=
      ⟨hbase, hclean, fun hlong => hshort (Nat.lt_of_lt_of_le hlong
        (Text.Path.size_le_size_join hname _))⟩
    obtain ⟨spot, hspot, rfl, hdirectory⟩ := (hd.walk_eq_ok_iff hlegal).1 hwalk
    simp only [makeFresh, hspot, hdirectory]
    rw [if_neg (not_or.2 ⟨hfits.short, hshort⟩)]

/-! ## Files in a directory -/

/-- The disk with these files in a directory, as `UploadSet.writeAll` leaves it. -/
def fill (d : Disk) (place : List String) (files : List (String × List UInt8)) : Disk :=
  files.foldl (fun d f => d.put (place ++ [f.1]) (.file f.2)) d

variable {files : List (String × List UInt8)}

theorem node?_fill_of_ne {other : List String} (h : ∀ f ∈ files, other ≠ place ++ [f.1]) :
    (d.fill place files).node? other = d.node? other := by
  induction files generalizing d with
  | nil => rfl
  | cons f rest ih =>
    rw [fill, List.foldl_cons, ← fill, ih fun g hg => h g (List.mem_cons_of_mem f hg),
      node?_put_of_ne (h f List.mem_cons_self)]

/-- Under each name is the file that was put there, if no name was used twice. -/
theorem node?_fill_of_mem (hnodup : (files.map Prod.fst).Nodup) {octets : List UInt8}
    (h : (name, octets) ∈ files) :
    (d.fill place files).node? (place ++ [name]) = some (.file octets) := by
  induction files generalizing d with
  | nil => exact absurd h List.not_mem_nil
  | cons f rest ih =>
    rw [List.map_cons, List.nodup_cons] at hnodup
    rw [fill, List.foldl_cons, ← fill]
    obtain rfl | hrest := List.mem_cons.1 h
    · rw [node?_fill_of_ne, node?_put_self (by simp)]
      intro g hg hname
      have hin := List.mem_map_of_mem (f := Prod.fst) hg
      rw [← List.singleton_inj.1 (List.append_cancel_left hname)] at hin
      exact hnodup.1 hin
    · exact ih hnodup.2 hrest

/-- A directory that was empty has what was put there by `fill`, and nothing else. -/
theorem node?_fill_below (hempty : ∀ rest ≠ [], d.node? (place ++ rest) = none)
    (hnodup : (files.map Prod.fst).Nodup) {rest : List String} (hrest : rest ≠ []) {n : Node} :
    (d.fill place files).node? (place ++ rest) = some n ↔
      ∃ f ∈ files, rest = [f.1] ∧ n = .file f.2 := by
  constructor
  · intro h
    by_cases hfile : ∃ f ∈ files, rest = [f.1]
    · obtain ⟨f, hf, rfl⟩ := hfile
      rw [node?_fill_of_mem hnodup hf] at h
      exact ⟨f, hf, rfl, (Option.some.inj h).symm⟩
    · rw [node?_fill_of_ne, hempty rest hrest] at h
      · cases h
      · exact fun f hf heq => hfile ⟨f, hf, List.append_cancel_left heq⟩
  · rintro ⟨f, hf, rfl, rfl⟩
    exact node?_fill_of_mem hnodup hf

theorem Connected.fill (h : d.Connected) (hplace : d.node? place = some .directory)
    (hfree : ∀ f ∈ files, d.node? (place ++ [f.1]) ≠ some .directory) :
    (d.fill place files).Connected := by
  induction files generalizing d with
  | nil => exact h
  | cons f rest ih =>
    refine ih (h.put hplace (hfree f List.mem_cons_self) _) ?_ fun g hg => ?_
    · rwa [node?_put_of_ne (by simp)]
    · by_cases hsame : place ++ [g.1] = place ++ [f.1]
      · simp [hsame, node?_put_self]
      · rw [node?_put_of_ne hsame]
        exact hfree g (List.mem_cons_of_mem f hg)

/-- A file in a directory is read by the path of the directory and its name. -/
theorem read_join (hname : Text.Path.IsName name) {base : String} (hfits : Fits base name)
    (hwalk : d.walk [] (Text.Path.steps base) = .ok place) {octets : List UInt8}
    (hnode : d.node? (place ++ [name]) = some (.file octets)) :
    d.read (Text.Path.join base name) = .ok octets :=
  read_eq_ok.2 ⟨place ++ [name], leaf?_eq_some.2 ⟨_, (locate_join_eq_ok_iff hname hwalk).2
    ⟨hfits, rfl⟩, rfl, rfl, hnode, Node.noConfusion⟩⟩

end Disk
end Coursework
