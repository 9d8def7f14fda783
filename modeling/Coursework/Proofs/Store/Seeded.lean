import Coursework.Proofs.Account
import Coursework.Proofs.Store.Writes
import Coursework.Store.Seed

/-!
# What a seed leaves in a store

A seed writes to an empty store through the same operations as everybody, and stops at the first
that is refused.  What it takes for an item to be written is said once (`write_cases`), and what
every written item keeps is kept to the end (`writeItems_induction`).

However far a seed comes, the store is proper, nobody in it is root, and nothing was submitted
(`seeded_apply`).  If nothing is refused, then the last user with an email is who the store has
under that email (`exists_account_of_apply`).
-/

set_option autoImplicit false

namespace Coursework

/-- A proper store as a seed leaves it: `Proper`, and nobody in it is root, and nothing was
submitted. -/
structure Store.Seeded (s : Store) : Prop extends Store.Proper s where
  rootless : ∀ email a, s.account? email = some a → a.role ≠ .root
  unsubmitted : ∀ key, s.submissionsOf key = []

namespace Store

theorem seeded_empty : empty.Seeded where
  toProper := proper_empty
  rootless := by simp [account?, empty]
  unsubmitted _ := rfl

namespace Seeded

variable {s u : Store} (h : s.Seeded)
include h

theorem putCourse {c : Course} (hput : s.putCourse c = .ok u) : u.Seeded := by
  have hproper := h.toProper.putCourse hput
  obtain ⟨-, rfl⟩ := putCourse_eq_ok hput
  exact ⟨hproper, h.rootless, h.unsubmitted⟩

theorem putAssignment {a : Assignment} (hput : s.putAssignment a = .ok u) : u.Seeded := by
  have hproper := h.toProper.putAssignment hput
  obtain ⟨-, -, rfl⟩ := putAssignment_eq_ok hput
  exact ⟨hproper, h.rootless, h.unsubmitted⟩

theorem putAccount {a : Account} (hput : s.putAccount a = .ok u) (hrole : a.role ≠ .root) :
    u.Seeded := by
  have haccount := account?_putAccount hput
  have hproper := h.toProper.putAccount hput
  obtain ⟨-, rfl⟩ := putAccount_eq_ok hput
  refine ⟨hproper, fun email b hb => ?_, h.unsubmitted⟩
  rw [haccount] at hb
  split at hb
  · exact Option.some.inj hb ▸ hrole
  · exact h.rootless email b hb

end Seeded
end Store

namespace Seed

theorem withoutPassword_account {u : SeedUser} {salt : String} {a : Account}
    (h : u.account salt = .ok a) :
    a.withoutPassword = ⟨u.email, u.name, u.role, "", "", u.courses⟩ := by
  rw [SeedUser.account] at h
  split at h
  · cases h
    rfl
  · split at h
    · next hset =>
      cases h
      obtain ⟨-, rfl, -⟩ := Account.setPassword_eq_ok hset
      rfl
    · cases h

theorem role_account {u : SeedUser} {salt : String} {a : Account} (h : u.account salt = .ok a) :
    a.role = u.role :=
  congrArg Account.role (withoutPassword_account h)

/-! ## One item -/

/-- What an item asks of the store under a salt, or why it is refused before that. -/
def Item.asks (salt : String) : Item → Except StoreError Write
  | .course c => .ok (.course c)
  | .assignment owner a =>
    if a.courseId = "" ∨ a.courseId = owner then .ok (.assignment { a with courseId := owner })
    else
      .error (.seed ("assignment " ++ a.id ++ " declares course " ++ a.courseId
        ++ " but is listed under " ++ owner))
  | .user u =>
    if u.role = .root then .error (.seed ("user " ++ u.email ++ " cannot have the root role"))
    else (u.account salt).map .account

theorem write_eq (i : Item) (salt : String) (s : Store) :
    i.write salt s =
      match i.asks salt with
      | .error e => .error e
      | .ok w => w.apply s := by
  rcases i with c | ⟨owner, a⟩ | u
  · rfl
  · simp only [Item.write, Item.asks]
    by_cases hnone : a.courseId = ""
    · rw [if_pos hnone, if_pos (.inl hnone)]
      rfl
    · by_cases howner : a.courseId = owner
      · subst howner
        rw [if_neg hnone, if_pos rfl, if_pos (.inr rfl)]
        rfl
      · rw [if_neg hnone, if_neg howner, if_neg (not_or.2 ⟨hnone, howner⟩)]
  · simp only [Item.write, Item.asks]
    by_cases hroot : u.role = .root
    · rw [if_pos hroot, if_pos hroot]
    · rw [if_neg hroot, if_neg hroot]
      cases u.account salt <;> rfl

theorem write_cases {i : Item} {salt : String} {s t : Store} (h : i.write salt s = .ok t) :
    (∃ c, i = .course c ∧ s.putCourse c = .ok t) ∨
      (∃ owner a, i = .assignment owner a ∧ (a.courseId = "" ∨ a.courseId = owner) ∧
        s.putAssignment { a with courseId := owner } = .ok t) ∨
      ∃ u a, i = .user u ∧ u.role ≠ .root ∧ u.account salt = .ok a ∧ s.putAccount a = .ok t := by
  rcases i with c | ⟨owner, a⟩ | u
  · exact .inl ⟨c, rfl, h⟩
  · rw [write_eq, Item.asks] at h
    by_cases howner : a.courseId = "" ∨ a.courseId = owner
    · rw [if_pos howner] at h
      exact .inr (.inl ⟨owner, a, rfl, howner, h⟩)
    · rw [if_neg howner] at h
      cases h
  · rw [write_eq, Item.asks] at h
    by_cases hroot : u.role = .root
    · rw [if_pos hroot] at h
      cases h
    · rw [if_neg hroot] at h
      rcases haccount : u.account salt with e | a
      · rw [haccount] at h
        cases h
      · rw [haccount] at h
        exact .inr (.inr ⟨u, a, rfl, hroot, haccount, h⟩)

/-- Induction on the items of a seed: what every written item keeps is kept, wherever the seed
stops. -/
theorem writeItems_induction {P : Store → Prop} {items : List Item}
    (hwrite : ∀ i ∈ items, ∀ salt s t, i.write salt s = .ok t → P s → P t) {s : Store} (h : P s)
    (e : Entropy) : P (writeItems s e items).store := by
  induction items generalizing s e with
  | nil => exact h
  | cons i rest ih =>
    rw [writeItems]
    dsimp only
    split
    · exact h
    · next t ht =>
      exact ih (fun j hj => hwrite j (List.mem_cons_of_mem _ hj))
        (hwrite i List.mem_cons_self _ s t ht h) _

theorem seeded_write {i : Item} {salt : String} {s u : Store} (h : s.Seeded)
    (hwrite : i.write salt s = .ok u) : u.Seeded := by
  rcases write_cases hwrite with ⟨c, -, hput⟩ | ⟨owner, a, -, -, hput⟩ |
      ⟨v, a, -, hrole, haccount, hput⟩
  · exact h.putCourse hput
  · exact h.putAssignment hput
  · exact h.putAccount hput (role_account haccount ▸ hrole)

/-- However far a seed comes on an empty store, what it leaves is `Seeded`. -/
theorem seeded_apply (seed : Seed) (e : Entropy) : (seed.apply Store.empty e).store.Seeded :=
  writeItems_induction (P := Store.Seeded) (fun _ _ _ _ _ hwrite hs => seeded_write hs hwrite)
    Store.seeded_empty e

/-! ## The last entry counts -/

/-- An item that is written is written by an operation of the store. -/
theorem exists_apply_of_write {i : Item} {salt : String} {s u : Store}
    (h : i.write salt s = .ok u) : ∃ w : Write, w.apply s = .ok u := by
  rcases write_cases h with ⟨c, -, hput⟩ | ⟨owner, a, -, -, hput⟩ | ⟨v, a, -, -, -, hput⟩
  · exact ⟨.course c, hput⟩
  · exact ⟨.assignment _, hput⟩
  · exact ⟨.account a, hput⟩

theorem proper_writeItems {s : Store} (h : s.Proper) (e : Entropy) (items : List Item) :
    (writeItems s e items).store.Proper := by
  refine writeItems_induction (P := Store.Proper) (fun _ _ _ _ _ hwrite hs => ?_) h e
  obtain ⟨w, hw⟩ := exists_apply_of_write hwrite
  exact hs.apply hw

theorem account_of_write {v : SeedUser} {salt : String} {s u : Store}
    (h : (Item.user v).write salt s = .ok u) :
    ∃ a, v.account salt = .ok a ∧ s.putAccount a = .ok u := by
  rcases write_cases h with ⟨c, ⟨⟩, -⟩ | ⟨owner, a, ⟨⟩, -⟩ | ⟨v, a, ⟨⟩, -, haccount, hput⟩
  exact ⟨a, haccount, hput⟩

theorem email_account {u : SeedUser} {salt : String} {a : Account} (h : u.account salt = .ok a) :
    a.email = u.email :=
  congrArg Account.email (withoutPassword_account h)

/-- An item that is no user with an email leaves the account with that email alone. -/
theorem account?_write_of_ne {i : Item} {salt email : String} {s u : Store}
    (h : i.write salt s = .ok u) (hne : ∀ v, i = .user v → v.email ≠ email) :
    u.account? email = s.account? email := by
  rcases write_cases h with ⟨c, -, hput⟩ | ⟨owner, a, -, -, hput⟩ | ⟨v, a, rfl, -, haccount, hput⟩
  · obtain ⟨-, rfl⟩ := Store.putCourse_eq_ok hput
    rfl
  · obtain ⟨-, -, rfl⟩ := Store.putAssignment_eq_ok hput
    rfl
  · rw [Store.account?_putAccount hput, if_neg]
    rw [email_account haccount]
    exact fun he => hne v rfl he.symm

theorem account?_writeItems_of_ne {s : Store} {e : Entropy} {items : List Item} {email : String}
    (hne : ∀ v, .user v ∈ items → v.email ≠ email) :
    (writeItems s e items).store.account? email = s.account? email :=
  writeItems_induction (P := fun t => t.account? email = s.account? email)
    (fun _ hi _ _ _ hwrite hsame =>
      (account?_write_of_ne hwrite fun v hv => hne v (hv ▸ hi)).trans hsame) rfl e

/-- Items that go through in a row go through one part after the other. -/
theorem exists_writeItems_append {s : Store} {e : Entropy} {front back : List Item}
    (h : (writeItems s e (front ++ back)).result = .ok ()) :
    ∃ t e', writeItems s e (front ++ back) = writeItems t e' back := by
  induction front generalizing s e with
  | nil => exact ⟨s, e, rfl⟩
  | cons i rest ih =>
    rw [List.cons_append, writeItems] at h ⊢
    dsimp only at h ⊢
    split at h
    · cases h
    · exact ih h

/-- Under an email the store has the account of the last user with that email. -/
theorem exists_account_of_apply {seed : Seed} {s : Store} {e : Entropy}
    (h : (seed.apply s e).result = .ok ()) {front back : List SeedUser} {u : SeedUser}
    (husers : seed.users = front ++ u :: back) (hlast : ∀ v ∈ back, v.email ≠ u.email) :
    ∃ salt a, u.account salt = .ok a ∧ (seed.apply s e).store.account? u.email = some a := by
  have hitems : seed.items = (seed.courses.flatMap courseItems ++ front.map .user) ++
      .user u :: back.map .user := by
    rw [items, husers, List.map_append, List.map_cons, List.append_assoc]
  rw [apply, hitems] at h ⊢
  obtain ⟨t, e', happend⟩ := exists_writeItems_append h
  rw [happend, writeItems] at h ⊢
  dsimp only at h ⊢
  split at h
  · cases h
  · next w hwrite =>
    obtain ⟨a, haccount, hput⟩ := account_of_write hwrite
    refine ⟨_, a, haccount, ?_⟩
    rw [account?_writeItems_of_ne, Store.account?_putAccount hput,
      if_pos (email_account haccount).symm]
    intro v hv
    obtain ⟨v', hv', hveq⟩ := List.mem_map.1 hv
    cases hveq
    exact hlast v hv'

/-! ## To try things out with -/

def small : Seed :=
  ⟨[⟨"cs1", "", [⟨"hw1", "", "", none, 10, none, none⟩]⟩],
    [⟨"kim@school.edu", none, .user, none, Table.empty.insert "cs1" .student⟩]⟩

end Seed
end Coursework
