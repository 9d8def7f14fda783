import Coursework.Request.Schema

/-!
# What building a schema comes to

A schema is built clause by clause, in any order.  Two things are true of every schema that comes
about in this way.

* It is **nested**: an assignment is asked for only with its course, and a course only with a user.
* Its markers are those among the clauses, and apart from them it is the schema of the other
  clauses.

Of the markers, only the most privileged is ever looked at.  Since roles are ordered, a role meets
it exactly when it meets all of them.
-/

set_option autoImplicit false

namespace Coursework

/-! ## Roles -/

namespace CourseRole

theorem satisfies_iff (r required : CourseRole) :
    r.satisfies required = true ↔ required.level ≤ r.level := by
  simp [satisfies]

theorem satisfies_max_iff (r a b : CourseRole) :
    r.satisfies (max a b) = true ↔ r.satisfies a = true ∧ r.satisfies b = true := by
  simp only [satisfies_iff]
  rw [max]
  split
  · next h => exact ⟨fun hb => ⟨Nat.le_trans h hb, hb⟩, And.right⟩
  · next h => exact ⟨fun ha => ⟨ha, by omega⟩, And.left⟩

theorem satisfies_foldl_max_iff (r a : CourseRole) (rest : List CourseRole) :
    r.satisfies (rest.foldl max a) = true ↔
      r.satisfies a = true ∧ ∀ b ∈ rest, r.satisfies b = true := by
  induction rest generalizing a with
  | nil => simp
  | cons b rest ih =>
    rw [List.foldl_cons, ih, satisfies_max_iff, List.forall_mem_cons]
    exact and_assoc

theorem foldl_max_mem (a : CourseRole) (rest : List CourseRole) :
    rest.foldl max a ∈ a :: rest := by
  induction rest generalizing a with
  | nil => exact List.mem_cons_self
  | cons b rest ih =>
    rw [List.foldl_cons]
    have hmax : max a b = a ∨ max a b = b := by
      rw [max]
      split
      · exact .inr rfl
      · exact .inl rfl
    rcases List.mem_cons.1 (ih (max a b)) with hhead | hrest
    · rw [hhead]
      rcases hmax with hmax | hmax <;> simp [hmax]
    · exact List.mem_cons_of_mem _ (List.mem_cons_of_mem _ hrest)

end CourseRole

namespace Schema

/-- The most privileged of the roles, which is `required?`, stands for all of them. -/
theorem satisfies_required?_iff (s : Schema) (r : CourseRole) :
    (∀ required, s.required? = some required → r.satisfies required = true) ↔
      ∀ role ∈ s.markers, r.satisfies role = true := by
  rw [required?]
  cases s.markers with
  | nil => simp
  | cons a rest =>
    rw [List.forall_mem_cons, ← CourseRole.satisfies_foldl_max_iff]
    simp

theorem required?_eq_none_iff (s : Schema) : s.required? = Option.none ↔ s.markers = [] := by
  rw [required?]
  split <;> simp [*]

theorem mem_of_required? {s : Schema} {required : CourseRole}
    (h : s.required? = some required) : required ∈ s.markers := by
  rw [required?] at h
  cases hmarkers : s.markers with
  | nil =>
    rw [hmarkers] at h
    cases h
  | cons a rest =>
    rw [hmarkers] at h
    cases h
    exact CourseRole.foldl_max_mem a rest

/-! ## Nesting -/

/-- What a schema asks for comes with what it belongs to: an assignment with a course, and a course
with a user. -/
structure Nested (s : Schema) : Prop where
  course_of_assignment : s.needsAssignment = true → s.needsCourse = true
  user_of_course : s.needsCourse = true → s.needsUser = true

theorem Nested.add {s : Schema} (h : s.Nested) (c : Clause) : (s.add c).Nested := by
  cases c with
  | user => exact ⟨h.course_of_assignment, fun _ => rfl⟩
  | course => exact ⟨fun _ => rfl, fun _ => rfl⟩
  | assignment => exact ⟨fun _ => rfl, fun _ => rfl⟩
  | marker role => exact ⟨h.course_of_assignment, h.user_of_course⟩
  | field f => exact ⟨h.course_of_assignment, h.user_of_course⟩

/-- Whatever the clauses and their order, the schema is `Nested`. -/
theorem nested_build (clauses : List Clause) : (build clauses).Nested := by
  have hnone : none.Nested := ⟨fun h => h, fun h => by cases h⟩
  exact List.foldlRecOn clauses add hnone fun s hs c _ => hs.add c

/-! ## Markers -/

def Clause.marked? : Clause → Option CourseRole
  | .marker role => some role
  | _ => Option.none

theorem Clause.marked?_eq_some_iff (c : Clause) (role : CourseRole) :
    c.marked? = some role ↔ c = .marker role := by
  cases c <;> simp [marked?]

def plain (clauses : List Clause) : List Clause :=
  clauses.filter fun c => c.marked?.isNone

def unmarked (s : Schema) : Schema :=
  { s with markers := [] }

theorem unmarked_eq_iff (s u : Schema) :
    s.unmarked = u.unmarked ↔ s.needsUser = u.needsUser ∧ s.needsCourse = u.needsCourse ∧
      s.needsAssignment = u.needsAssignment ∧ s.fields = u.fields := by
  simp [unmarked]

theorem markers_add (s : Schema) (c : Clause) :
    (s.add c).markers = s.markers ++ c.marked?.toList := by
  cases c <;> simp [add, Clause.marked?]

theorem unmarked_add (s : Schema) (c : Clause) :
    (s.add c).unmarked = if c.marked?.isNone then s.unmarked.add c else s.unmarked := by
  cases c <;> rfl

theorem markers_foldl_add (s : Schema) (clauses : List Clause) :
    (clauses.foldl add s).markers = s.markers ++ clauses.filterMap Clause.marked? := by
  induction clauses generalizing s with
  | nil => simp
  | cons c rest ih =>
    rw [List.foldl_cons, ih, markers_add, List.append_assoc]
    cases h : c.marked? <;> simp [h]

theorem unmarked_foldl_add (s : Schema) (clauses : List Clause) :
    (clauses.foldl add s).unmarked = (plain clauses).foldl add s.unmarked := by
  induction clauses generalizing s with
  | nil => rfl
  | cons c rest ih =>
    rw [List.foldl_cons, ih, unmarked_add, plain, plain, List.filter_cons]
    split <;> rfl

theorem mem_markers_build_iff (clauses : List Clause) (role : CourseRole) :
    role ∈ (build clauses).markers ↔ .marker role ∈ clauses := by
  rw [build, markers_foldl_add]
  simp [none, Clause.marked?_eq_some_iff]

/-- Apart from its markers, a schema is that of the other clauses. -/
theorem unmarked_build (clauses : List Clause) :
    (build clauses).unmarked = build (plain clauses) := by
  rw [build, unmarked_foldl_add]
  rfl

theorem unmarked_build_congr {clauses others : List Clause} (h : plain clauses = plain others) :
    (build clauses).unmarked = (build others).unmarked := by
  rw [unmarked_build, unmarked_build, h]

/-! ## Whether it makes sense -/

theorem validate_eq_ok_iff (s : Schema) :
    s.validate = .ok () ↔
      (s.markers ≠ [] → s.needsCourse = true) ∧ checkFields s.needsCourse s.fields = .ok () := by
  rw [validate]
  cases s.markers <;> cases s.needsCourse <;> simp

theorem needsCourse_of_mem_markers {s : Schema} (h : s.validate = .ok ()) {role : CourseRole}
    (hrole : role ∈ s.markers) : s.needsCourse = true :=
  ((validate_eq_ok_iff s).1 h).1 (List.ne_nil_of_mem hrole)

theorem validate_of_subset {s u : Schema} (h : u.validate = .ok ())
    (hunmarked : s.unmarked = u.unmarked) (hsubset : ∀ role ∈ s.markers, role ∈ u.markers) :
    s.validate = .ok () := by
  obtain ⟨-, hcourse, -, hfields⟩ := (unmarked_eq_iff s u).1 hunmarked
  obtain ⟨hmarkers, hcheck⟩ := (validate_eq_ok_iff u).1 h
  rw [validate_eq_ok_iff, hcourse, hfields]
  refine ⟨fun hne => hmarkers ?_, hcheck⟩
  obtain ⟨role, hrole⟩ := List.exists_mem_of_ne_nil _ hne
  exact List.ne_nil_of_mem (hsubset role hrole)

/-- Whether a schema makes sense, and what is wrong if not, depends on which roles are required and
not on how often or where. -/
theorem validate_congr {s u : Schema} (hunmarked : s.unmarked = u.unmarked)
    (hmarkers : ∀ role, role ∈ s.markers ↔ role ∈ u.markers) : s.validate = u.validate := by
  obtain ⟨-, hcourse, -, hfields⟩ := (unmarked_eq_iff s u).1 hunmarked
  have hempty : s.markers.isEmpty = u.markers.isEmpty := by
    rw [Bool.eq_iff_iff, List.isEmpty_iff, List.isEmpty_iff, List.eq_nil_iff_forall_not_mem,
      List.eq_nil_iff_forall_not_mem]
    exact forall_congr' fun role => not_congr (hmarkers role)
  rw [validate, validate, hempty, hcourse, hfields]

end Schema
end Coursework
