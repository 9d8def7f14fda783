import Coursework.Proofs.Store

/-!
# Two stores that are alike to one user

What a user who is no staff may come to know of a store are its courses and assignments, the user's
own account, and the user's own submissions.  Two stores **agree for** a user when they agree on
these; then each operation on the store that concerns the user alone has the same answer in both,
and leaves them agreeing.

An operation that concerns the user alone also changes nothing else, and of the account at most the
password (`Store.ChangedOnlyFor`).
-/

set_option autoImplicit false

namespace Coursework

namespace Store

/-- Two stores show the same to a user: their own account and submissions, and all courses and
assignments. -/
structure AgreeFor (email : String) (s u : Store) : Prop where
  course : ∀ id, u.course? id = s.course? id
  assignment : ∀ course id, u.assignment? course id = s.assignment? course id
  account : u.account? email = s.account? email
  submissions : ∀ key : SubmissionKey, key.email = email → u.submissionsOf key = s.submissionsOf key

/-- Only the password and the submissions of a user differ from one store to the next; nothing of
anybody else does. -/
structure ChangedOnlyFor (email : String) (s after : Store) : Prop where
  course : ∀ id, after.course? id = s.course? id
  assignment : ∀ course id, after.assignment? course id = s.assignment? course id
  account : ∀ other, other ≠ email → after.account? other = s.account? other
  own : (after.account? email).map Account.withoutPassword =
    (s.account? email).map Account.withoutPassword
  submissions : ∀ key : SubmissionKey, key.email ≠ email →
    after.submissionsOf key = s.submissionsOf key

theorem ChangedOnlyFor.refl (email : String) (s : Store) : s.ChangedOnlyFor email s :=
  ⟨fun _ => rfl, fun _ _ => rfl, fun _ _ => rfl, rfl, fun _ _ => rfl⟩

/-- A write to two stores: it is refused in both for the same reason, or it is done in both, leaves
them agreeing for the user (`AgreeFor`), and changes nothing else in either. -/
def WriteAlike (email : String) (s u : Store) (p q : Except StoreError Store) : Prop :=
  (∃ e, p = .error e ∧ q = .error e) ∨
    ∃ c d, p = .ok c ∧ q = .ok d ∧ c.AgreeFor email d ∧ s.ChangedOnlyFor email c ∧
      u.ChangedOnlyFor email d

/-! ## Saving -/

theorem changedOnlyFor_save {email : String} {s u : Store} {r : Submission}
    (h : s.save r = .ok u) (hr : (keyOf r).email = email) : s.ChangedOnlyFor email u := by
  have hkeys := submissionsOf_save h
  rw [Store.save] at h
  split at h
  · cases h
  · cases h
    refine ⟨fun _ => rfl, fun _ _ => rfl, fun _ _ => rfl, rfl, fun key hkey => ?_⟩
    rw [hkeys, if_neg]
    rintro rfl
    exact hkey hr

/-- The submissions of the user under the key are the same, so that a short id is new in both stores
or in neither. -/
theorem AgreeFor.save {email : String} {s u : Store} (h : s.AgreeFor email u) {r : Submission}
    (hr : (keyOf r).email = email) : WriteAlike email s u (s.save r) (u.save r) := by
  by_cases htaken :
      ((s.submissionsOf (keyOf r)).any fun q => q.grade.shortId == r.grade.shortId) = true
  · refine .inl ⟨.alreadyExists ("submission " ++ r.grade.id), if_pos htaken, ?_⟩
    rw [Store.save, h.submissions _ hr]
    exact if_pos htaken
  · have hs : s.save r = .ok { s with
        submissions := s.submissions.insert (keyOf r)
          (insertByStart r (s.submissionsOf (keyOf r))) } := if_neg htaken
    have hu : u.save r = .ok { u with
        submissions := u.submissions.insert (keyOf r)
          (insertByStart r (s.submissionsOf (keyOf r))) } := by
      rw [Store.save, h.submissions _ hr]
      exact if_neg htaken
    refine .inr ⟨_, _, hs, hu, ⟨h.course, h.assignment, h.account, fun key hkey => ?_⟩,
      changedOnlyFor_save hs hr, changedOnlyFor_save hu hr⟩
    rw [submissionsOf_save hs, submissionsOf_save hu, h.submissions key hkey]

/-! ## Changing the password -/

theorem changedOnlyFor_putAccount {s u : Store} {a old : Account} (h : s.putAccount a = .ok u)
    (hold : s.account? a.email = some old) (hsame : a.withoutPassword = old.withoutPassword) :
    s.ChangedOnlyFor a.email u := by
  have haccount := account?_putAccount h
  rw [putAccount] at h
  split at h
  · cases h
  · cases h
    refine ⟨fun _ => rfl, fun _ _ => rfl, fun other hother => ?_, ?_, fun _ _ => rfl⟩
    · rw [haccount, if_neg hother]
    · rw [haccount, if_pos rfl, hold, Option.map_some, Option.map_some, hsame]

/-- The account of the user is replaced by one that has at most another password. -/
theorem AgreeFor.putAccount {s u : Store} {a old : Account} (h : s.AgreeFor a.email u)
    (hold : s.account? a.email = some old) (hsame : a.withoutPassword = old.withoutPassword) :
    WriteAlike a.email s u (s.putAccount a) (u.putAccount a) := by
  by_cases hblank : Text.trim a.email = ""
  · exact .inl ⟨_, if_pos hblank, if_pos hblank⟩
  · have hs : s.putAccount a = .ok { s with accounts := s.accounts.insert a.email a } :=
      if_neg hblank
    have hu : u.putAccount a = .ok { u with accounts := u.accounts.insert a.email a } :=
      if_neg hblank
    refine .inr ⟨_, _, hs, hu, ⟨h.course, h.assignment, ?_, h.submissions⟩,
      changedOnlyFor_putAccount hs hold hsame,
      changedOnlyFor_putAccount hu (h.account.trans hold) hsame⟩
    rw [account?_putAccount hs, account?_putAccount hu, if_pos rfl, if_pos rfl]

end Store

/-! ## The store behind its guard -/

namespace Backend

def withStore (b : Backend) (u : Store) : Backend :=
  { b with store := u }

theorem guarded_withStore {α : Type} (b : Backend) (u : Store) (op : Operation)
    (answer : Except StoreError α) : (b.withStore u).guarded op answer = b.guarded op answer := rfl

section Reading

variable {email : String} {b : Backend} {u : Store} (h : b.store.AgreeFor email u)
include h

theorem course?_withStore (id : String) : (b.withStore u).course? id = b.course? id := by
  rw [course?, course?, guarded_withStore, withStore, h.course]

theorem assignment?_withStore (course id : String) :
    (b.withStore u).assignment? course id = b.assignment? course id := by
  rw [assignment?, assignment?, guarded_withStore, withStore, h.assignment]

theorem account?_withStore : (b.withStore u).account? email = b.account? email := by
  rw [account?, account?, guarded_withStore, withStore, h.account]

theorem history_withStore {key : SubmissionKey} (hkey : key.email = email) :
    (b.withStore u).history key = b.history key := by
  rw [history, history, guarded_withStore, withStore, Store.history, Store.history,
    h.submissions key hkey]

theorem submission?_withStore {key : SubmissionKey} (hkey : key.email = email)
    (short : Option String) :
    (b.withStore u).submission? key short = b.submission? key short := by
  cases short with
  | none =>
    have hlatest : u.latest? key = b.store.latest? key := by
      rw [Store.latest?, Store.latest?, h.submissions key hkey]
    exact congrArg (fun found => b.guarded .submission (.ok found)) hlatest
  | some id =>
    have hnamed : u.submission? key id = b.store.submission? key id := by
      rw [Store.submission?, Store.submission?, h.submissions key hkey]
    exact congrArg (fun found => b.guarded .submission (.ok found)) hnamed

end Reading

/-- A write behind `Backend.guarded`, over two stores. -/
def WriteAlike (email : String) (b : Backend) (u : Store) (p q : Except StoreError Backend) :
    Prop :=
  (∃ e, p = .error e ∧ q = .error e) ∨
    ∃ c d, p = .ok (b.withStore c) ∧ q = .ok (b.withStore d) ∧ c.AgreeFor email d ∧
      b.store.ChangedOnlyFor email c ∧ u.ChangedOnlyFor email d

theorem guarded_writeAlike {email : String} (b : Backend) {u : Store} (op : Operation)
    {p q : Except StoreError Store} (h : Store.WriteAlike email b.store u p q) :
    b.WriteAlike email u (b.guarded op (p.map b.withStore)) (b.guarded op (q.map b.withStore)) := by
  by_cases hdown : op ∈ b.down
  · exact .inl ⟨_, if_pos hdown, if_pos hdown⟩
  · rw [guarded, guarded, if_neg hdown, if_neg hdown]
    rcases h with ⟨e, rfl, rfl⟩ | ⟨c, d, rfl, rfl, hboth⟩
    · exact .inl ⟨e, rfl, rfl⟩
    · exact .inr ⟨c, d, rfl, rfl, hboth⟩

theorem save_withStore {email : String} {b : Backend} {u : Store} (h : b.store.AgreeFor email u)
    {r : Submission} (hr : (Store.keyOf r).email = email) :
    b.WriteAlike email u (b.save r) ((b.withStore u).save r) :=
  guarded_writeAlike b .save (h.save hr)

theorem putAccount_withStore {b : Backend} {u : Store} {a old : Account}
    (h : b.store.AgreeFor a.email u) (hold : b.store.account? a.email = some old)
    (hsame : a.withoutPassword = old.withoutPassword) :
    b.WriteAlike a.email u (b.putAccount a) ((b.withStore u).putAccount a) :=
  guarded_writeAlike b .putAccount (h.putAccount hold hsame)

end Backend
end Coursework
