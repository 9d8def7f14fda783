import Coursework.Proofs.Account.Passwords
import Coursework.Proofs.Store.Seeded

/-!
# What filling a store comes to

Each item of a seed asks the store for one write, or is refused before it comes to that
(`Item.asks`).  Filling a store makes these writes in the order of the items up to the first that is
refused (`Seed.stopsAt_writeItems`), and the items are in the order of two loops, one over the
courses with one over the assignments inside it, and then one over the users
(`Seed.apply_eq_inLoops`).

If none is refused, then everything that the seed mentions is in the store with its last value, and
all else is as it was (`Seed.holds_apply`).
-/

set_option autoImplicit false

namespace Coursework

namespace Store

/-- A sequence of calls (`Store.perform`) none of which is refused. -/
def Accepts (s : Store) : List Write → Prop
  | [] => True
  | w :: rest => (s.perform w).answer = .ok () ∧ (s.perform w).store.Accepts rest

end Store

namespace Seed

/-! ## In the order of the items -/

theorem perform_of_asks {i : Item} {salt : String} {w : Write} (h : i.asks salt = .ok w)
    (s : Store) : s.perform w = s.settled (w.apply s) := by
  cases w with
  | submission r =>
    rcases i with c | ⟨owner, a⟩ | u
    · cases h
    · rw [Item.asks] at h
      split at h <;> cases h
    · rw [Item.asks] at h
      split at h
      · cases h
      · cases haccount : u.account salt <;> rw [haccount] at h <;> cases h
  | course _ | assignment _ | account _ => rfl

/-- What items ask for (`Item.asks`), each under the next salt. -/
def asked (e : Entropy) : List Item → List (Except StoreError Write)
  | [] => []
  | i :: rest =>
    i.asks (e.drawHex Account.saltSize).1 :: asked (e.drawHex Account.saltSize).2 rest

/-- An item is refused by the seed itself (`Item.asks`), or else by the store. -/
def Item.RefusedBy (i : Item) (salt : String) (s : Store) (err : StoreError) : Prop :=
  i.asks salt = .error err ∨ ∃ w, i.asks salt = .ok w ∧ (s.perform w).answer = .error err

/-- A store is filled with the items in front, by the `writes` that they ask for and no others, as
if there were no more (`alone`), and the first of those behind, if there is one, is refused. -/
structure StopsAt (s : Store) (e : Entropy) (front back : List Item) (filled : Filled) : Prop where
  writes : ∃ ws, asked e front = ws.map .ok ∧ s.Accepts ws ∧ filled.store = s.performAll ws
  alone : (writeItems s e front).result = .ok () ∧ (writeItems s e front).store = filled.store
  ends : back = [] ∧ filled.result = .ok () ∨
    ∃ i rest err, back = i :: rest ∧ filled.result = .error err ∧
      i.RefusedBy ((writeItems s e front).entropy.drawHex Account.saltSize).1 filled.store err

theorem stopsAt_writeItems (s : Store) (e : Entropy) (items : List Item) :
    ∃ front back, items = front ++ back ∧ StopsAt s e front back (writeItems s e items) := by
  induction items generalizing s e with
  | nil => exact ⟨[], [], rfl, ⟨[], rfl, trivial, rfl⟩, ⟨rfl, rfl⟩, .inl ⟨rfl, rfl⟩⟩
  | cons i rest ih =>
    have hasks := write_eq i (e.drawHex Account.saltSize).1 s
    rcases hwrite : i.write (e.drawHex Account.saltSize).1 s with err | t
    · refine ⟨[], i :: rest, rfl, ?_⟩
      rw [writeItems]
      simp only [hwrite]
      refine ⟨⟨[], rfl, trivial, rfl⟩, ⟨rfl, rfl⟩, .inr ⟨i, rest, err, rfl, rfl, ?_⟩⟩
      rw [hwrite] at hasks
      split at hasks
      · next hrefused =>
        cases hasks
        exact .inl hrefused
      · next w hw =>
        refine .inr ⟨w, hw, ?_⟩
        rw [perform_of_asks hw, ← hasks]
        rfl
    · rw [hwrite] at hasks
      split at hasks
      · cases hasks
      · next w hw =>
        obtain ⟨front, back, rfl, ⟨ws, hws, haccepts, hstore⟩, halone, hends⟩ :=
          ih t (e.drawHex Account.saltSize).2
        have hperform : s.perform w = ⟨.ok (), t⟩ := by
          rw [perform_of_asks hw, ← hasks]
          rfl
        have hfirst : ∀ more, writeItems s e (i :: more) =
            writeItems t (e.drawHex Account.saltSize).2 more := fun more => by
          rw [writeItems]
          simp only [hwrite]
        refine ⟨i :: front, back, rfl, ⟨w :: ws, ?_, ?_, ?_⟩, ?_, ?_⟩
        · rw [asked, hw, hws, List.map_cons]
        · rw [Store.Accepts, hperform]
          exact ⟨rfl, haccepts⟩
        · rw [hfirst, hstore, Store.performAll_cons, hperform]
        · rw [hfirst, hfirst]
          exact halone
        · rw [hfirst, hfirst]
          exact hends

/-! ## In two loops -/

/-- One turn of a loop: write the next item, unless one was refused before. -/
def Filled.next (f : Filled) (i : Item) : Filled :=
  match f.result with
  | .error _ => f
  | .ok () =>
    let (salt, e) := f.entropy.drawHex Account.saltSize
    match i.write salt f.store with
    | .error err => ⟨.error err, f.store, e⟩
    | .ok s => ⟨.ok (), s, e⟩

/-- Fill a store by a loop over the courses, in it one over the assignments of each, and a loop over
the users behind it.  This is what `Seed.apply` does with the list of all items
(`apply_eq_inLoops`). -/
def inLoops (seed : Seed) (s : Store) (e : Entropy) : Filled :=
  let courses := seed.courses.foldl
    (fun f c =>
      c.assignments.foldl (fun f a => f.next (.assignment c.id a))
        (f.next (.course ⟨c.id, c.name⟩)))
    ⟨.ok (), s, e⟩
  seed.users.foldl (fun f u => f.next (.user u)) courses

theorem foldl_next_of_error {f : Filled} {err : StoreError} (h : f.result = .error err)
    (items : List Item) : items.foldl Filled.next f = f := by
  induction items with
  | nil => rfl
  | cons i rest ih =>
    have hnext : f.next i = f := by rw [Filled.next, h]
    rw [List.foldl_cons, hnext, ih]

theorem foldl_next (s : Store) (e : Entropy) (items : List Item) :
    items.foldl Filled.next ⟨.ok (), s, e⟩ = writeItems s e items := by
  induction items generalizing s e with
  | nil => rfl
  | cons i rest ih =>
    rw [List.foldl_cons, Filled.next, writeItems]
    rcases hwrite : i.write (e.drawHex Account.saltSize).1 s with err | t
    · simp only [hwrite]
      rw [foldl_next_of_error rfl]
    · simp only [hwrite]
      exact ih _ _

theorem apply_eq_inLoops (seed : Seed) (s : Store) (e : Entropy) :
    seed.apply s e = seed.inLoops s e := by
  rw [apply, ← foldl_next, items, List.foldl_append, List.foldl_flatMap, List.foldl_map, inLoops]
  simp only [courseItems, List.foldl_cons, List.foldl_map]

/-! ## What is mentioned last -/

/-- The course that a seed lists under an identifier, the last one if there are several. -/
def course? (seed : Seed) (id : String) : Option Course :=
  (seed.courses.filter fun c => c.id = id).getLast?.map fun c => ⟨c.id, c.name⟩

/-- The last assignment that a seed lists under an identifier in a course. -/
def assignment? (seed : Seed) (course id : String) : Option Assignment :=
  (((seed.courses.filter fun c => c.id = course).flatMap SeedCourse.assignments).filter
    fun a => a.id = id).getLast?.map fun a => { a with courseId := course }

/-- The last user that a seed lists under an email. -/
def user? (seed : Seed) (email : String) : Option SeedUser :=
  (seed.users.filter fun u => u.email = email).getLast?

end Seed

/-- An account accepts a password in every letter case, and nothing else but what collides with it
under the salt (`Digest.Collide`). -/
def Account.Has (a : Account) (pass : String) : Prop :=
  ∀ q, a.checkPassword q = true ↔
    Text.lower q = Text.lower pass ∨ Digest.Collide (message a.salt q) (message a.salt pass)

/-- An account is the one that a seed describes: the same in what is `shown`, `closed` without a
password, and else it `Account.Has` the password. -/
structure SeedUser.Describes (u : SeedUser) (a : Account) : Prop where
  shown : a.withoutPassword = ⟨u.email, u.name, u.role, "", "", u.courses⟩
  closed : u.pass = none → a.salt = "" ∧ a.passwordHash = ""
  has : ∀ pass, u.pass = some pass → a.Has pass

theorem SeedUser.describes_account {u : SeedUser} {salt : String} {a : Account}
    (h : u.account salt = .ok a) : u.Describes a := by
  refine ⟨Seed.withoutPassword_account h, fun hnone => ?_, fun pass hpass q => ?_⟩
  · rw [account, hnone] at h
    cases h
    exact ⟨rfl, rfl⟩
  · rw [account, hpass] at h
    dsimp only at h
    split at h
    · next hset =>
      cases h
      obtain ⟨-, rfl, -⟩ := Account.setPassword_eq_ok hset
      rw [Account.checkPassword_iff, ← Account.saltedHash_eq_iff]
      exact eq_comm
    · cases h

namespace Seed

/-- A store holds what a seed mentions, each with its last value, and else what was in it before. -/
structure Holds (seed : Seed) (before after : Store) : Prop where
  course : ∀ id, after.course? id = (seed.course? id).or (before.course? id)
  assignment : ∀ course id,
    after.assignment? course id = (seed.assignment? course id).or (before.assignment? course id)
  account : ∀ email u, seed.user? email = some u →
    ∃ a, after.account? email = some a ∧ u.Describes a
  others : ∀ email, seed.user? email = none → after.account? email = before.account? email
  submissions : after.submissions = before.submissions

/-! ### Views of a store -/

def Item.course? (id : String) : Item → Option Course
  | .course c => if c.id = id then some c else none
  | .assignment _ _ | .user _ => none

def Item.assignment? (course id : String) : Item → Option Assignment
  | .assignment owner a =>
    if owner = course ∧ a.id = id then some { a with courseId := owner } else none
  | .course _ | .user _ => none

theorem filterMap_items_course (seed : Seed) (id : String) :
    seed.items.filterMap (Item.course? id) =
      (seed.courses.filter fun c => c.id = id).map fun c => ⟨c.id, c.name⟩ := by
  have husers : (seed.users.map Item.user).filterMap (Item.course? id) = [] :=
    List.filterMap_eq_nil_iff.2 (List.forall_mem_map.2 fun _ _ => rfl)
  have hassignments : ∀ c : SeedCourse,
      (c.assignments.map (Item.assignment c.id)).filterMap (Item.course? id) = [] := fun c =>
    List.filterMap_eq_nil_iff.2 (List.forall_mem_map.2 fun _ _ => rfl)
  rw [items, List.filterMap_append, husers, List.append_nil]
  induction seed.courses with
  | nil => rfl
  | cons c rest ih =>
    rw [List.flatMap_cons, List.filterMap_append, ih, courseItems, List.filterMap_cons,
      hassignments, Item.course?]
    by_cases hid : c.id = id
    · simp [hid]
    · simp [hid]

theorem filterMap_items_assignment (seed : Seed) (course id : String) :
    seed.items.filterMap (Item.assignment? course id) =
      (((seed.courses.filter fun c => c.id = course).flatMap SeedCourse.assignments).filter
        fun a => a.id = id).map fun a => { a with courseId := course } := by
  have husers : (seed.users.map Item.user).filterMap (Item.assignment? course id) = [] :=
    List.filterMap_eq_nil_iff.2 (List.forall_mem_map.2 fun _ _ => rfl)
  have hlisted : ∀ c : SeedCourse, (courseItems c).filterMap (Item.assignment? course id) =
      if c.id = course then
        (c.assignments.filter fun a => a.id = id).map fun a => { a with courseId := course }
      else [] := by
    intro c
    rw [courseItems, List.filterMap_cons]
    simp only [Item.assignment?, List.filterMap_map]
    induction c.assignments with
    | nil => split <;> rfl
    | cons a rest ih =>
      rw [List.filterMap_cons, Function.comp_apply, ih]
      by_cases howner : c.id = course <;> by_cases hid : a.id = id <;>
        simp [Item.assignment?, howner, hid]
  rw [items, List.filterMap_append, husers, List.append_nil]
  induction seed.courses with
  | nil => rfl
  | cons c rest ih =>
    rw [List.flatMap_cons, List.filterMap_append, ih, hlisted]
    by_cases hid : c.id = course
    · simp [hid]
    · simp [hid]

/-- Of what the items write under a key the last counts, whatever part of the store the `view`
shows. -/
theorem view_writeItems {β : Type} (view : Store → Option β) (value : Item → Option β)
    (hwrite : ∀ i salt s t, i.write salt s = .ok t → view t = (value i).or (view s)) {s : Store}
    {e : Entropy} {items : List Item} (h : (writeItems s e items).result = .ok ()) :
    view (writeItems s e items).store = (items.filterMap value).getLast?.or (view s) := by
  induction items generalizing s e with
  | nil => rfl
  | cons i rest ih =>
    rw [writeItems] at h ⊢
    dsimp only at h ⊢
    split at h
    · cases h
    · next t ht =>
      rw [ih h, hwrite i _ s t ht, List.filterMap_cons]
      rcases value i with _ | b
      · rfl
      · dsimp only
        rw [List.getLast?_cons, Option.some_or]
        cases (rest.filterMap value).getLast? <;> rfl

theorem course?_write {i : Item} {salt : String} {s t : Store} (h : i.write salt s = .ok t)
    (id : String) : t.course? id = (i.course? id).or (s.course? id) := by
  rcases write_cases h with ⟨c, rfl, hput⟩ | ⟨owner, a, rfl, -, hput⟩ | ⟨u, a, rfl, -, -, hput⟩
  · obtain ⟨-, rfl⟩ := Store.putCourse_eq_ok hput
    rw [Store.course?, Table.find?_insert, Item.course?]
    by_cases hid : c.id = id
    · rw [if_pos hid.symm, if_pos hid, Option.some_or]
    · rw [if_neg (Ne.symm hid), if_neg hid, Option.none_or, Store.course?]
  · obtain ⟨-, -, rfl⟩ := Store.putAssignment_eq_ok hput
    rfl
  · obtain ⟨-, rfl⟩ := Store.putAccount_eq_ok hput
    rfl

theorem assignment?_write {i : Item} {salt : String} {s t : Store} (h : i.write salt s = .ok t)
    (course id : String) :
    t.assignment? course id = (i.assignment? course id).or (s.assignment? course id) := by
  rcases write_cases h with ⟨c, rfl, hput⟩ | ⟨owner, a, rfl, -, hput⟩ | ⟨u, a, rfl, -, -, hput⟩
  · obtain ⟨-, rfl⟩ := Store.putCourse_eq_ok hput
    rfl
  · obtain ⟨-, -, rfl⟩ := Store.putAssignment_eq_ok hput
    rw [Store.assignment?, Table.find?_insert, Item.assignment?]
    by_cases hkey : owner = course ∧ a.id = id
    · rw [if_pos hkey, if_pos (by rw [← hkey.1, ← hkey.2]), Option.some_or]
    · rw [if_neg hkey, if_neg, Option.none_or, Store.assignment?]
      rintro ⟨⟩
      exact hkey ⟨rfl, rfl⟩
  · obtain ⟨-, rfl⟩ := Store.putAccount_eq_ok hput
    rfl

theorem submissions_write {i : Item} {salt : String} {s t : Store} (h : i.write salt s = .ok t) :
    t.submissions = s.submissions := by
  rcases write_cases h with ⟨c, rfl, hput⟩ | ⟨owner, a, rfl, -, hput⟩ | ⟨u, a, rfl, -, -, hput⟩
  · obtain ⟨-, rfl⟩ := Store.putCourse_eq_ok hput
    rfl
  · obtain ⟨-, -, rfl⟩ := Store.putAssignment_eq_ok hput
    rfl
  · obtain ⟨-, rfl⟩ := Store.putAccount_eq_ok hput
    rfl

/-! ### Users -/

theorem user_mem_items_iff {seed : Seed} {u : SeedUser} :
    .user u ∈ seed.items ↔ u ∈ seed.users := by
  simp [items, courseItems]

theorem exists_of_user? {seed : Seed} {email : String} {u : SeedUser}
    (h : seed.user? email = some u) :
    u.email = email ∧ ∃ front back, seed.users = front ++ u :: back ∧
      ∀ v ∈ back, v.email ≠ u.email := by
  rw [user?, List.getLast?_eq_head?_reverse, ← List.filter_reverse, List.head?_filter,
    List.find?_eq_some_iff_append] at h
  obtain ⟨hemail, back, front, hreverse, hback⟩ := h
  have hemail : u.email = email := of_decide_eq_true hemail
  refine ⟨hemail, front.reverse, back.reverse, ?_, fun v hv => ?_⟩
  · rw [← List.reverse_reverse seed.users, hreverse]
    simp
  · have hother := hback v (List.mem_reverse.1 hv)
    rw [hemail]
    simpa using hother

theorem email_ne_of_user? {seed : Seed} {email : String} (h : seed.user? email = none) :
    ∀ v ∈ seed.users, v.email ≠ email := by
  rw [user?, List.getLast?_eq_none_iff, List.filter_eq_nil_iff] at h
  exact fun v hv he => h v hv (decide_eq_true he)

/-- **A seed that goes through leaves what it mentions**, each with its last value. -/
theorem holds_apply {seed : Seed} {s : Store} {e : Entropy}
    (h : (seed.apply s e).result = .ok ()) : seed.Holds s (seed.apply s e).store := by
  refine ⟨fun id => ?_, fun course id => ?_, fun email u hu => ?_, fun email hnone => ?_, ?_⟩
  · have hview := view_writeItems (fun t => t.course? id) (Item.course? id)
      (fun _ _ _ _ hwrite => course?_write hwrite id) h
    rwa [filterMap_items_course, List.getLast?_map] at hview
  · have hview := view_writeItems (fun t => t.assignment? course id) (Item.assignment? course id)
      (fun _ _ _ _ hwrite => assignment?_write hwrite course id) h
    rwa [filterMap_items_assignment, List.getLast?_map] at hview
  · obtain ⟨rfl, front, back, husers, hlast⟩ := exists_of_user? hu
    obtain ⟨salt, a, haccount, hstored⟩ := exists_account_of_apply h husers hlast
    exact ⟨a, hstored, SeedUser.describes_account haccount⟩
  · exact account?_writeItems_of_ne fun v hv =>
      email_ne_of_user? hnone v (user_mem_items_iff.1 hv)
  · exact writeItems_induction (P := fun t => t.submissions = s.submissions)
      (fun _ _ _ _ _ hwrite hsame => (submissions_write hwrite).trans hsame) rfl e

end Seed
end Coursework
