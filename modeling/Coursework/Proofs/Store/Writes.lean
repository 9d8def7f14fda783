import Coursework.Proofs.Store.Order

/-!
# A store is well formed, whatever is written to it

A `Write` is a call that writes to the store: of a course, an assignment, an account or a
submission.  A store is **proper** (`Store.Proper`) when everything in it is kept under its own
identifiers, courses and assignments are valid and assignments belong to courses that are there,
nobody has a blank email, and the submissions under a key are by start time and differ in their
short ids.

A call that saves opens the list of its key before it looks for the short id, and sorts the whole
list again (`Store.saveInPlace`).  On a proper store this is `Store.save`, and a call that is
refused leaves the store as it was, the opened list included.

* `perform_eq_settled`: each call does what the operation of the store does, or nothing;
* `Proper.perform`: one call keeps a store proper;
* `performAll_proper`: all of it, for all sequences of calls on an empty store.
-/

set_option autoImplicit false

namespace Coursework

/-- A call that writes to the store, with what it is to write. -/
inductive Write where
  | course (c : Course)
  | assignment (a : Assignment)
  | account (a : Account)
  | submission (r : Submission)

structure Written where
  answer : Except StoreError Unit
  store : Store

/-- The store after a write, by `putCourse`, `putAssignment`, `putAccount` or `save`, unless it is
refused. -/
def Write.apply (s : Store) : Write → Except StoreError Store
  | .course c => s.putCourse c
  | .assignment a => s.putAssignment a
  | .account a => s.putAccount a
  | .submission r => s.save r

def Write.submissions : Write → List Submission
  | .submission r => [r]
  | .course _ | .assignment _ | .account _ => []

namespace Store

/-! ## Calls -/

/-- What a write comes to when its refusal leaves the store alone. -/
def settled (s : Store) : Except StoreError Store → Written
  | .ok u => ⟨.ok (), u⟩
  | .error e => ⟨.error e, s⟩

/-- The store with a list of submissions under a key, which is empty if none was there.  A call that
saves opens the list before it finds out whether it is refused. -/
def opened (s : Store) (key : SubmissionKey) : Store :=
  { s with submissions := s.submissions.insert key (s.submissionsOf key) }

/-- Save a submission in the opened list of its key: behind all others, and then sorted. -/
def saveInPlace (s : Store) (r : Submission) : Written :=
  let s := s.opened (keyOf r)
  let records := s.submissionsOf (keyOf r)
  if records.any fun q => q.grade.shortId == r.grade.shortId then
    ⟨.error (.alreadyExists ("submission " ++ r.grade.id)), s⟩
  else
    ⟨.ok (), s.withSubmissions (keyOf r)
      ((records ++ [r]).mergeSort fun a b => decide (startOf a ≤ startOf b))⟩

/-- Carry out a call: submissions are saved by `saveInPlace`, and everything else as by the
operation of the store. -/
def perform (s : Store) : Write → Written
  | .submission r => s.saveInPlace r
  | w => s.settled (w.apply s)

/-- The store after a sequence of calls. -/
def performAll (s : Store) (ws : List Write) : Store :=
  ws.foldl (fun s w => (s.perform w).store) s

def savedBy (s : Store) (w : Write) : List Submission :=
  match (s.perform w).answer with
  | .ok () => w.submissions
  | .error _ => []

/-- What a sequence of calls has saved, in order.  Refused calls have saved nothing. -/
def saved (s : Store) : List Write → List Submission
  | [] => []
  | w :: rest => s.savedBy w ++ (s.perform w).store.saved rest

/-! ## Proper stores -/

/-- Everything in the store is in its place (`Keyed`) and as the rules want it: what is in it is
valid, assignments have a course, nobody has a blank email, and each list of submissions is by start
time and has no short id twice. -/
structure Proper (s : Store) : Prop extends Keyed s where
  validCourse : ∀ id c, s.course? id = some c → c.validate = .ok ()
  validAssignment : ∀ course id a, s.assignment? course id = some a → a.validate = .ok ()
  courseOfAssignment : ∀ course id a, s.assignment? course id = some a →
    ∃ c, s.course? a.courseId = some c
  notBlank : ∀ email a, s.account? email = some a → Text.trim a.email ≠ ""
  sorted : ∀ key, (s.submissionsOf key).Pairwise fun q r => startOf q ≤ startOf r
  distinct : ∀ key, ((s.submissionsOf key).map fun r => r.grade.shortId).Nodup

theorem proper_empty : empty.Proper := by
  constructor
  · constructor <;> simp [course?, assignment?, account?, submissionsOf, empty]
  all_goals simp [course?, assignment?, account?, submissionsOf, empty]

namespace Proper

variable {s u : Store} (h : s.Proper)
include h

theorem putCourse {c : Course} (hput : s.putCourse c = .ok u) : u.Proper := by
  obtain ⟨hvalid, rfl⟩ := putCourse_eq_ok hput
  have hcourse : ∀ id d, (s.courses.insert c.id c).find? id = some d →
      (id = c.id ∧ d = c) ∨ s.course? id = some d := by
    intro id d hd
    rw [Table.find?_insert] at hd
    split at hd
    · next hid => exact .inl ⟨hid, (Option.some.inj hd).symm⟩
    · exact .inr hd
  refine { h with course := fun id d hd => ?_, validCourse := fun id d hd => ?_,
                  courseOfAssignment := fun course id a ha => ?_ }
  · rcases hcourse id d hd with ⟨rfl, rfl⟩ | hold
    · rfl
    · exact h.course id d hold
  · rcases hcourse id d hd with ⟨-, rfl⟩ | hold
    · exact hvalid
    · exact h.validCourse id d hold
  · obtain ⟨d, hd⟩ := h.courseOfAssignment course id a ha
    by_cases hid : a.courseId = c.id
    · exact ⟨c, by rw [hid]; exact Table.find?_insert_self _ _ _⟩
    · exact ⟨d, (Table.find?_insert_of_ne _ _ hid).trans hd⟩

theorem putAssignment {a : Assignment} (hput : s.putAssignment a = .ok u) : u.Proper := by
  obtain ⟨hvalid, hcourse, rfl⟩ := putAssignment_eq_ok hput
  have hassignment : ∀ course id b,
      (s.assignments.insert (a.courseId, a.id) a).find? (course, id) = some b →
      ((course, id) = (a.courseId, a.id) ∧ b = a) ∨ s.assignment? course id = some b := by
    intro course id b hb
    rw [Table.find?_insert] at hb
    split at hb
    · next hkey => exact .inl ⟨hkey, (Option.some.inj hb).symm⟩
    · exact .inr hb
  refine { h with assignment := fun course id b hb => ?_,
                  validAssignment := fun course id b hb => ?_,
                  courseOfAssignment := fun course id b hb => ?_ }
  · rcases hassignment course id b hb with ⟨hkey, rfl⟩ | hold
    · exact ⟨(Prod.mk.inj hkey).1.symm, (Prod.mk.inj hkey).2.symm⟩
    · exact h.assignment course id b hold
  · rcases hassignment course id b hb with ⟨-, rfl⟩ | hold
    · exact hvalid
    · exact h.validAssignment course id b hold
  · rcases hassignment course id b hb with ⟨-, rfl⟩ | hold
    · exact hcourse
    · exact h.courseOfAssignment course id b hold

theorem putAccount {a : Account} (hput : s.putAccount a = .ok u) : u.Proper := by
  obtain ⟨hblank, rfl⟩ := putAccount_eq_ok hput
  have haccount : ∀ email b, (s.accounts.insert a.email a).find? email = some b →
      (email = a.email ∧ b = a) ∨ s.account? email = some b := by
    intro email b hb
    rw [Table.find?_insert] at hb
    split at hb
    · next hemail => exact .inl ⟨hemail, (Option.some.inj hb).symm⟩
    · exact .inr hb
  refine { h with account := fun email b hb => ?_, notBlank := fun email b hb => ?_ }
  · rcases haccount email b hb with ⟨rfl, rfl⟩ | hold
    · rfl
    · exact h.account email b hold
  · rcases haccount email b hb with ⟨-, rfl⟩ | hold
    · exact hblank
    · exact h.notBlank email b hold

theorem save {r : Submission} (hsave : s.save r = .ok u) : u.Proper := by
  have hof := submissionsOf_save hsave
  obtain ⟨hnew, rfl⟩ := save_eq_ok hsave
  refine { h with submission := fun key q hq => ?_, sorted := fun key => ?_,
                  distinct := fun key => ?_ }
  · rw [hof] at hq
    split at hq
    · next hkey =>
      rcases List.mem_cons.1 ((insertByStart_perm r _).mem_iff.1 hq) with rfl | hold
      · exact hkey.symm
      · exact h.submission key q hold
    · exact h.submission key q hq
  · rw [hof]
    split
    · exact (InSavingOrder.insertByStart ⟨h.sorted key, fun _ => rfl⟩ r).sorted
    · exact h.sorted key
  · rw [hof]
    split
    · next hkey =>
      subst hkey
      have hnodup : ((r :: s.submissionsOf (keyOf r)).map fun q => q.grade.shortId).Nodup := by
        refine List.nodup_cons.2 ⟨fun htaken => ?_, h.distinct (keyOf r)⟩
        obtain ⟨q, hq, hid⟩ := List.mem_map.1 htaken
        exact hnew q hq hid
      exact ((insertByStart_perm r _).map _).nodup_iff.2 hnodup
    · exact h.distinct key

/-- Whatever is written, a write that goes through leaves the store proper. -/
theorem apply {w : Write} (hw : w.apply s = .ok u) : u.Proper := by
  cases w with
  | course c => exact h.putCourse hw
  | assignment a => exact h.putAssignment hw
  | account a => exact h.putAccount hw
  | submission r => exact h.save hw

end Proper

/-! ## A call is the operation -/

theorem submissionsOf_opened (s : Store) (key : SubmissionKey) :
    (s.opened key).submissionsOf key = s.submissionsOf key := by
  rw [submissionsOf, opened, Table.find?_insert_self, Option.getD_some]

theorem opened_of_ne_nil {s : Store} {key : SubmissionKey} (h : s.submissionsOf key ≠ []) :
    s.opened key = s := by
  have hfind : s.submissions.find? key = some (s.submissionsOf key) := by
    rw [submissionsOf] at h ⊢
    cases hlist : s.submissions.find? key with
    | none =>
      rw [hlist] at h
      exact absurd rfl h
    | some rs => rfl
  rw [opened, Table.insert_of_find? hfind]

/-- Saving in place is `save`: the opened list is the one that was there, and the sorted list has
the submission in its place. -/
theorem saveInPlace_eq_settled {s : Store} (h : s.Proper) (r : Submission) :
    s.saveInPlace r = s.settled (s.save r) := by
  rw [saveInPlace, save, submissionsOf_opened]
  by_cases htaken :
      ((s.submissionsOf (keyOf r)).any fun q => q.grade.shortId == r.grade.shortId) = true
  · have hlist : s.submissionsOf (keyOf r) ≠ [] := by
      intro hnil
      rw [hnil] at htaken
      cases htaken
    simp only [if_pos htaken, settled, opened_of_ne_nil hlist]
  · simp only [if_neg htaken, settled, mergeSort_concat (h.sorted (keyOf r)) r, withSubmissions,
      opened, Table.insert_insert]

theorem perform_eq_settled {s : Store} (h : s.Proper) (w : Write) :
    s.perform w = s.settled (w.apply s) := by
  cases w with
  | course c => rfl
  | assignment a => rfl
  | account a => rfl
  | submission r => exact saveInPlace_eq_settled h r

section Settled

variable {s : Store} {p : Except StoreError Store}

theorem settled_of_error {e : StoreError} (h : (s.settled p).answer = .error e) :
    (s.settled p).store = s := by
  cases p with
  | error _ => rfl
  | ok u => cases h

theorem settled_of_ok (h : (s.settled p).answer = .ok ()) : p = .ok (s.settled p).store := by
  cases p with
  | error _ => cases h
  | ok u => rfl

end Settled

/-! ## One call -/

theorem Proper.perform {s : Store} (h : s.Proper) (w : Write) : (s.perform w).store.Proper := by
  rw [perform_eq_settled h]
  cases hw : w.apply s with
  | error e => exact h
  | ok u => exact h.apply hw

/-- The store has recorded a submission: it is found by its short id, it is one more in its history,
and nothing else is found otherwise than before. -/
structure Recorded (before : Store) (r : Submission) (after : Store) : Prop
    extends Gained before after r where
  isNew : before.submission? (keyOf r) r.grade.shortId = none
  found : after.submission? (keyOf r) r.grade.shortId = some r
  history : ∃ front back, before.history (keyOf r) = front ++ back ∧
    after.history (keyOf r) = front ++ r.grade :: back
  elsewhere : ∀ key short, (key, short) ≠ (keyOf r, r.grade.shortId) →
    after.submission? key short = before.submission? key short

theorem recorded_save {s u : Store} {r : Submission} (h : s.save r = .ok u) : s.Recorded r u := by
  have hof := submissionsOf_save h
  obtain ⟨hnew, -⟩ := save_eq_ok h
  obtain ⟨front, back, hbefore, hafter⟩ := insertByStart_eq_append r (s.submissionsOf (keyOf r))
  have hown : u.submissionsOf (keyOf r) = front ++ r :: back := by rw [hof, if_pos rfl, hafter]
  have hfront : ∀ q ∈ front, ¬ (q.grade.shortId == r.grade.shortId) = true := by
    intro q hq htaken
    refine hnew q ?_ (by simpa using htaken)
    rw [hbefore]
    exact List.mem_append_left back hq
  refine { gained_save h with isNew := ?_, found := ?_, history := ?_, elsewhere := ?_ }
  · rw [submission?, List.find?_eq_none]
    intro q hq htaken
    exact hnew q hq (by simpa using htaken)
  · rw [submission?, hown, List.find?_append, List.find?_eq_none.2 hfront, Option.none_or,
      List.find?_cons_of_pos (by simp)]
  · refine ⟨front.map Submission.grade, back.map Submission.grade, ?_, ?_⟩
    · rw [Store.history, hbefore, List.map_append]
    · rw [Store.history, hown, List.map_append, List.map_cons]
  · intro key short hne
    rw [submission?, submission?]
    by_cases hkey : key = keyOf r
    · subst hkey
      have hshort : ¬ (r.grade.shortId == short) = true := by
        intro heq
        exact hne (by rw [eq_of_beq heq])
      rw [hown, hbefore, List.find?_append, List.find?_append,
        List.find?_cons_of_neg (by exact hshort)]
    · rw [hof, if_neg hkey]

/-- What a write does to the list under a key: a submission of that key is put in its place. -/
theorem submissionsOf_apply {s u : Store} {w : Write} (h : w.apply s = .ok u)
    (key : SubmissionKey) :
    u.submissionsOf key =
      (w.submissions.filter fun r => keyOf r = key).foldr insertByStart (s.submissionsOf key) := by
  cases w with
  | course c =>
    obtain ⟨-, rfl⟩ := putCourse_eq_ok h
    rfl
  | assignment a =>
    obtain ⟨-, -, rfl⟩ := putAssignment_eq_ok h
    rfl
  | account a =>
    obtain ⟨-, rfl⟩ := putAccount_eq_ok h
    rfl
  | submission r =>
    rw [submissionsOf_save h, Write.submissions]
    split
    · next hkey => simp [hkey]
    · next hkey => simp [Ne.symm hkey]

/-- A call adds what it saved to what was saved before, and keeps the order. -/
theorem InSavingOrder.perform {s : Store} (h : s.Proper) (w : Write) {key : SubmissionKey}
    {saved : List Submission} (hkept : InSavingOrder saved (s.submissionsOf key)) :
    InSavingOrder (saved ++ (s.savedBy w).filter fun r => keyOf r = key)
      ((s.perform w).store.submissionsOf key) := by
  rw [savedBy, perform_eq_settled h]
  cases happly : w.apply s with
  | error e => simpa only [settled, List.filter_nil, List.append_nil] using hkept
  | ok u =>
    simp only [settled, submissionsOf_apply happly]
    cases w with
    | submission r =>
      rw [Write.submissions]
      by_cases hkey : keyOf r = key
      · simpa [hkey] using hkept.insertByStart r
      · simpa [hkey] using hkept
    | course _ | assignment _ | account _ => simpa [Write.submissions] using hkept

/-! ## All calls -/

theorem performAll_cons (s : Store) (w : Write) (ws : List Write) :
    s.performAll (w :: ws) = (s.perform w).store.performAll ws := rfl

theorem Proper.performed {s : Store} (h : s.Proper) (ws : List Write) :
    (s.performAll ws).Proper := by
  induction ws generalizing s with
  | nil => exact h
  | cons w rest ih => exact ih (h.perform w)

/-- Calls keep a store proper, and its lists in the order in which they saved. -/
theorem Proper.performAll {s : Store} (h : s.Proper) (ws : List Write) {earlier : List Submission}
    (hkept : ∀ key, InSavingOrder (earlier.filter fun r => keyOf r = key) (s.submissionsOf key)) :
    (s.performAll ws).Proper ∧
      ∀ key, InSavingOrder ((earlier ++ s.saved ws).filter fun r => keyOf r = key)
        ((s.performAll ws).submissionsOf key) := by
  induction ws generalizing s earlier with
  | nil =>
    rw [saved, List.append_nil]
    exact ⟨h, hkept⟩
  | cons w rest ih =>
    rw [performAll_cons, saved, ← List.append_assoc]
    refine ih (h.perform w) fun key => ?_
    rw [List.filter_append]
    exact InSavingOrder.perform h w (hkept key)

/-- **Whatever is written to an empty store, the store is proper** (`Proper`), its lists of
submissions are what was saved under their keys, by start time and then by the order of saving
(`InSavingOrder`), and each further call does what the operation of the store does: one that is
refused leaves the store as it was, and one that saves makes the submission one more in its history
and changes no other look-up (`Recorded`). -/
theorem performAll_proper (ws : List Write) :
    (empty.performAll ws).Proper ∧
      (∀ key, InSavingOrder ((empty.saved ws).filter fun r => keyOf r = key)
        ((empty.performAll ws).submissionsOf key)) ∧
      (∀ w, (empty.performAll ws).perform w =
        (empty.performAll ws).settled (w.apply (empty.performAll ws))) ∧
      (∀ w e, ((empty.performAll ws).perform w).answer = .error e →
        ((empty.performAll ws).perform w).store = empty.performAll ws) ∧
      ∀ r, ((empty.performAll ws).perform (.submission r)).answer = .ok () →
        (empty.performAll ws).Recorded r ((empty.performAll ws).perform (.submission r)).store := by
  have hnone : ∀ key, InSavingOrder (([] : List Submission).filter fun r => keyOf r = key)
      (empty.submissionsOf key) := fun _ => InSavingOrder.nil
  have hrun := proper_empty.performAll ws hnone
  refine ⟨hrun.1, hrun.2, fun w => perform_eq_settled hrun.1 w, fun w e herror => ?_,
    fun r hsaved => ?_⟩
  · rw [perform_eq_settled hrun.1] at herror ⊢
    exact settled_of_error herror
  · rw [perform_eq_settled hrun.1] at hsaved ⊢
    exact recorded_save (settled_of_ok hsaved)

end Store
end Coursework
