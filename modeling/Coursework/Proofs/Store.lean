import Coursework.Proofs.Table
import Coursework.Store.Backend

/-!
# What operations on the store do

One statement for each operation that requests use: what it answers when it answers at all, and what
every look-up finds afterwards.
-/

set_option autoImplicit false

namespace Coursework

def Account.withoutPassword (a : Account) : Account :=
  { a with salt := "", passwordHash := "" }

namespace Store

/-- What is kept under a key has the parts of the key in its own fields.  Every store that `Write`s
lead to is of this kind, and what is found in it is what was asked for. -/
structure Keyed (s : Store) : Prop where
  course : ∀ id c, s.course? id = some c → c.id = id
  assignment : ∀ course id a, s.assignment? course id = some a → a.courseId = course ∧ a.id = id
  account : ∀ email a, s.account? email = some a → a.email = email
  submission : ∀ key, ∀ r ∈ s.submissionsOf key, keyOf r = key

theorem validate_of_putAssignment {s u : Store} {a : Assignment} (h : s.putAssignment a = .ok u) :
    a.validate = .ok () := by
  rw [putAssignment] at h
  split at h
  · cases h
  · assumption

def withSubmissions (s : Store) (key : SubmissionKey) (rs : List Submission) : Store :=
  { s with submissions := s.submissions.insert key rs }

/-! ## What an accepted write has checked -/

section Accepted

variable {s u : Store}

theorem putCourse_eq_ok {c : Course} (h : s.putCourse c = .ok u) :
    c.validate = .ok () ∧ u = { s with courses := s.courses.insert c.id c } := by
  rw [putCourse] at h
  split at h
  · cases h
  · next hvalid => exact ⟨hvalid, (Except.ok.inj h).symm⟩

theorem putAssignment_eq_ok {a : Assignment} (h : s.putAssignment a = .ok u) :
    a.validate = .ok () ∧ (∃ c, s.course? a.courseId = some c) ∧
      u = { s with assignments := s.assignments.insert (a.courseId, a.id) a } := by
  rw [putAssignment] at h
  split at h
  · cases h
  · next hvalid =>
    split at h
    · next hcourse =>
      exact ⟨hvalid, (Table.contains_iff _ _).1 hcourse, (Except.ok.inj h).symm⟩
    · cases h

theorem putAccount_eq_ok {a : Account} (h : s.putAccount a = .ok u) :
    Text.trim a.email ≠ "" ∧ u = { s with accounts := s.accounts.insert a.email a } := by
  rw [putAccount] at h
  split at h
  · cases h
  · next hblank => exact ⟨hblank, (Except.ok.inj h).symm⟩

theorem save_eq_ok {r : Submission} (h : s.save r = .ok u) :
    (∀ q ∈ s.submissionsOf (keyOf r), q.grade.shortId ≠ r.grade.shortId) ∧
      u = s.withSubmissions (keyOf r) (insertByStart r (s.submissionsOf (keyOf r))) := by
  rw [save] at h
  split at h
  · cases h
  · next hnew =>
    refine ⟨fun q hq htaken => hnew ?_, (Except.ok.inj h).symm⟩
    exact List.any_eq_true.2 ⟨q, hq, by simpa using htaken⟩

end Accepted

/-! ## Saving -/

theorem insertByStart_perm (r : Submission) (rs : List Submission) :
    (insertByStart r rs).Perm (r :: rs) := by
  induction rs with
  | nil => exact List.Perm.refl _
  | cons q rest ih =>
    rw [insertByStart]
    split
    · exact List.Perm.refl _
    · exact (ih.cons q).trans (List.Perm.swap r q rest)

theorem insertByStart_eq_append (r : Submission) (rs : List Submission) :
    ∃ front back, rs = front ++ back ∧ insertByStart r rs = front ++ r :: back := by
  induction rs with
  | nil => exact ⟨[], [], rfl, rfl⟩
  | cons q rest ih =>
    rw [insertByStart]
    split
    · exact ⟨[], q :: rest, rfl, rfl⟩
    · obtain ⟨front, back, hrest, hinsert⟩ := ih
      exact ⟨q :: front, back, by rw [hrest]; rfl, by rw [hinsert]; rfl⟩

theorem sublist_insertByStart (r : Submission) (rs : List Submission) :
    rs.Sublist (insertByStart r rs) := by
  obtain ⟨front, back, rfl, hinsert⟩ := insertByStart_eq_append r rs
  rw [hinsert]
  exact (List.Sublist.refl front).append (List.sublist_cons_self r back)

/-- A submission that is saved shows under its own key and nowhere else. -/
theorem submissionsOf_save {s u : Store} {r : Submission} (h : s.save r = .ok u)
    (key : SubmissionKey) :
    u.submissionsOf key =
      if key = keyOf r then insertByStart r (s.submissionsOf key) else s.submissionsOf key := by
  rw [save] at h
  split at h
  · cases h
  · cases h
    rw [submissionsOf, Table.find?_insert]
    split
    · next hkey =>
      rw [hkey]
      rfl
    · rfl

theorem exists_save {s : Store} {r : Submission}
    (h : ∀ q ∈ s.submissionsOf (keyOf r), q.grade.shortId ≠ r.grade.shortId) :
    ∃ u, s.save r = .ok u := by
  have hnew :
      ¬ ((s.submissionsOf (keyOf r)).any fun q => q.grade.shortId == r.grade.shortId) = true := by
    intro htaken
    obtain ⟨q, hq, hid⟩ := List.any_eq_true.1 htaken
    exact h q hq (by simpa using hid)
  exact ⟨_, if_neg hnew⟩

/-- One store is another with a submission more among those of its key (`keyOf`), and is the same in
every other respect. -/
structure Gained (before after : Store) (r : Submission) : Prop where
  courses : after.courses = before.courses
  assignments : after.assignments = before.assignments
  accounts : after.accounts = before.accounts
  own : (after.submissionsOf (keyOf r)).Perm (r :: before.submissionsOf (keyOf r))
  others : ∀ key, key ≠ keyOf r → after.submissionsOf key = before.submissionsOf key

theorem gained_save {s u : Store} {r : Submission} (h : s.save r = .ok u) : s.Gained u r := by
  have hof := submissionsOf_save h
  rw [save] at h
  split at h
  · cases h
  · cases h
    refine ⟨rfl, rfl, rfl, ?_, fun key hkey => ?_⟩
    · rw [hof, if_pos rfl]
      exact insertByStart_perm r _
    · rw [hof, if_neg hkey]

/-! ## Accounts -/

theorem account?_putAccount {s u : Store} {a : Account} (h : s.putAccount a = .ok u)
    (email : String) :
    u.account? email = if email = a.email then some a else s.account? email := by
  rw [putAccount] at h
  split at h
  · cases h
  · cases h
    exact Table.find?_insert s.accounts a.email email a

end Store

namespace Backend

theorem guarded_eq_ok {α : Type} {b : Backend} {op : Operation} {answer : Except StoreError α}
    {a : α} (h : b.guarded op answer = .ok a) : answer = .ok a := by
  rw [guarded] at h
  split at h
  · cases h
  · exact h

theorem history_eq_ok {b : Backend} {key : SubmissionKey} {gs : List Grade}
    (h : b.history key = .ok gs) : b.store.history key = gs :=
  Except.ok.inj (guarded_eq_ok h)

/-- A write that goes through behind `guarded` goes through in the store, and changes nothing
else. -/
theorem guarded_map_eq_ok {b c : Backend} {op : Operation} {write : Except StoreError Store}
    (h : b.guarded op (write.map fun s => { b with store := s }) = .ok c) :
    write = .ok c.store ∧ c.down = b.down := by
  have hmap := guarded_eq_ok h
  rcases write with e | s
  · cases hmap
  · cases hmap
    exact ⟨rfl, rfl⟩

theorem save_eq_ok {b c : Backend} {r : Submission} (h : b.save r = .ok c) :
    b.store.save r = .ok c.store :=
  (guarded_map_eq_ok h).1

theorem putAccount_eq_ok {b c : Backend} {a : Account} (h : b.putAccount a = .ok c) :
    b.store.putAccount a = .ok c.store :=
  (guarded_map_eq_ok h).1

theorem guarded_of_up {α : Type} {b : Backend} (h : b.down = []) (op : Operation)
    (answer : Except StoreError α) : b.guarded op answer = answer := by
  rw [guarded, h]
  exact if_neg List.not_mem_nil

end Backend
end Coursework
