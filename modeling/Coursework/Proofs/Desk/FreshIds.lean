import Coursework.Proofs.Desk.SlidingWindow
import Coursework.Proofs.Submission
import Coursework.Proofs.Text.Decimal

/-!
# Every submission has an id of its own

The short id of a submission is the second in which it started, unless the history already has a
number as great; then it is one more than the greatest.  A clock may stand still or go back, and a
history may have short ids that are no numbers: the new short id is a number above every number
there (`nextShortId_spec`), and therefore the text of none.  While somebody has the lock the history
stays as it was read, so that what was new when it was read is new when it is saved (`Sound.fresh`).

Whatever is saved in a run (`Desk.records`) differs from what was saved before under the same key in
its short id, and from what is saved under other keys in the rest of its full id.
-/

set_option autoImplicit false

namespace Coursework

open Time

/-- What a clock shows: a moment that is `Representable`, at an offset that there is. -/
def Time.Moment.Readable (t : Moment) : Prop :=
  t.Representable ∧ t.offset.natAbs ≤ Moment.offsetMax

instance (t : Moment) : Decidable t.Readable :=
  inferInstanceAs (Decidable (_ ∧ _))

/-- The seconds of a moment fit a signed 64-bit integer, and are not the last. -/
def Time.Moment.Countable (t : Moment) : Prop :=
  Text.int64Min ≤ t.unixSeconds ∧ t.unixSeconds < Text.int64Max

theorem Time.Moment.Readable.countable {t : Moment} (h : t.Readable) : t.Countable := by
  obtain ⟨⟨hmin, hmax⟩, hoffset⟩ := h
  simp only [Moment.localMin, Moment.localMax, Moment.localNanos, Moment.offsetMax,
    nanosPerSecond] at hmin hmax hoffset
  simp only [Moment.Countable, Moment.unixSeconds, Text.int64Min, Text.int64Max, nanosPerSecond]
  omega

namespace Endpoint

/-! ## The short id -/

def shortNumbers (history : List Grade) : List Int :=
  history.filterMap fun g => Text.int64? g.shortId

theorem mem_shortNumbers {history : List Grade} {n : Int} :
    n ∈ shortNumbers history ↔ ∃ g ∈ history, Text.int64? g.shortId = some n :=
  List.mem_filterMap

/-- A short id is a number that no earlier number reaches, and no greater than it has to be. -/
theorem nextShortId_spec (start : Moment) (history : List Grade) :
    ∃ n, nextShortId start history = Text.decimal n ∧ start.unixSeconds ≤ n ∧
      (∀ m ∈ shortNumbers history, m < n) ∧
      (n = start.unixSeconds ∨ n - 1 ∈ shortNumbers history) := by
  have hnumbers : greatestShortId history = (shortNumbers history).max? := rfl
  rw [nextShortId, hnumbers]
  cases hmax : (shortNumbers history).max? with
  | none =>
    refine ⟨start.unixSeconds, rfl, Int.le_refl _, fun m hm => ?_, .inl rfl⟩
    rw [List.max?_eq_none_iff.1 hmax] at hm
    cases hm
  | some greatest =>
    obtain ⟨hmem, hle⟩ := List.max?_eq_some_iff.1 hmax
    dsimp only
    split
    · next hreached =>
      exact ⟨greatest + 1, rfl, by omega, fun m hm => Int.lt_add_one_of_le (hle m hm),
        .inr (by simpa using hmem)⟩
    · next hlater =>
      exact ⟨start.unixSeconds, rfl, Int.le_refl _,
        fun m hm => Int.lt_of_le_of_lt (hle m hm) (Int.not_le.1 hlater), .inl rfl⟩

/-- A short id is new to a list of submissions: it is a number above every number among the short
ids there, and equal to none of them as a text.  A number is what `Text.int64?` reads. -/
structure FreshAmong (rs : List Submission) (short : String) : Prop where
  number : ∃ n, short = Text.decimal n ∧ Text.int64? short = some n ∧
    ∀ q ∈ rs, ∀ m, Text.int64? q.grade.shortId = some m → m < n
  text : ∀ q ∈ rs, q.grade.shortId ≠ short

/-- The `nextShortId` is new, as long as no number in the history is the last there is. -/
theorem freshAmong_nextShortId {start : Moment} (hstart : start.Countable) {rs : List Submission}
    (hbelow : ∀ q ∈ rs, ∀ m, Text.int64? q.grade.shortId = some m → m < Text.int64Max) :
    FreshAmong rs (nextShortId start (rs.map Submission.grade)) := by
  obtain ⟨n, hshort, hleast, habove, horigin⟩ := nextShortId_spec start (rs.map Submission.grade)
  obtain ⟨hmin, hmax⟩ := hstart
  have hnumbers : ∀ q ∈ rs, ∀ m, Text.int64? q.grade.shortId = some m → m < n :=
    fun q hq m hm => habove m (mem_shortNumbers.2 ⟨q.grade, List.mem_map_of_mem hq, hm⟩)
  have hfits : n ≤ Text.int64Max := by
    rcases horigin with rfl | hpred
    · exact Int.le_of_lt hmax
    · obtain ⟨g, hg, hparsed⟩ := mem_shortNumbers.1 hpred
      obtain ⟨q, hq, rfl⟩ := List.mem_map.1 hg
      have hlast := hbelow q hq _ hparsed
      omega
  have hread : Text.int64? (Text.decimal n) = some n :=
    Text.int64?_decimal (Int.le_trans hmin hleast) hfits
  rw [hshort]
  refine ⟨⟨n, rfl, hread, hnumbers⟩, fun q hq hsame => ?_⟩
  rw [← hsame] at hread
  exact Int.lt_irrefl n (hnumbers q hq n hread)

/-! ## In a run -/

namespace Desk

/-- Whoever is admitted at a desk, and not answered yet, was so at a moment with the property
`P`. -/
def AdmittedAt (P : Moment → Prop) (d : Desk) : Prop :=
  ∀ r v start history, d.visits.find? r = some v →
    v.stage.admission? = some (start, history) → P start

theorem reading?_eq_some {d : Desk} {key : SubmissionKey} {e : Event} {start : Moment}
    (h : d.reading? key e = some start) : start = d.server.clock := by
  unfold reading? at h
  split at h
  · split at h
    · split at h
      · exact (Option.some.inj h).symm
      · cases h
    · cases h
  · cases h

theorem AdmittedAt.step {P : Moment → Prop} {d : Desk} (h : d.AdmittedAt P)
    (hclock : P d.server.clock) (e : Event) : (d.step e).AdmittedAt P := by
  intro r v start history hv hadmitted
  obtain ⟨stage, hstage, hold | ⟨-, hnew⟩⟩ := admission?_step hv hadmitted
  · exact h r _ start history hstage hold
  · rw [reading?_eq_some hnew]
    exact hclock

/-- What the clock shows in the course of a run, before each event and at the end. -/
def clocks : Desk → List Event → List Moment
  | d, [] => [d.server.clock]
  | d, e :: events => d.server.clock :: clocks (d.step e) events

theorem AdmittedAt.run {P : Moment → Prop} {d : Desk} {events : List Event} (h : d.AdmittedAt P)
    (hclocks : ∀ t ∈ d.clocks events, P t) : (d.run events).AdmittedAt P := by
  induction events generalizing d with
  | nil => exact h
  | cons e events ih =>
    rw [clocks, List.forall_mem_cons] at hclocks
    exact ih (h.step hclocks.1 e) hclocks.2

/-- What is about to be saved has a short id that is new, and is not refused. -/
theorem Sound.fresh {d : Desk} (h : d.Sound) (hclock : d.AdmittedAt Moment.Countable) {r : Nat}
    {t : Ticket} {start finish : Moment} {history : List Grade} {points : Points}
    (hv : d.visits.find? r = some ⟨t, .marked start finish history points⟩)
    (hbelow : ∀ q ∈ d.submissionsOf t.key, ∀ m, Text.int64? q.grade.shortId = some m →
      m < Text.int64Max) :
    FreshAmong (d.submissionsOf t.key) (graded t start finish history points).grade.shortId ∧
      ∃ u, d.server.backend.store.save (graded t start finish history points) = .ok u := by
  obtain ⟨-, hhistory, -⟩ := h.fits r _ hv
  have hread : (d.submissionsOf t.key).map Submission.grade = history := hhistory
  have hfresh := freshAmong_nextShortId (hclock r _ start history hv rfl) hbelow
  rw [hread] at hfresh
  exact ⟨hfresh, Store.exists_save hfresh.text⟩

/-! ## What a run records -/

/-- The submission that an event saves, if it saves one: the event is a move of a request that is
`marked`, and the store takes what is graded. -/
def saved? (d : Desk) : Event → Option Submission
  | .move r .proceed =>
    match d.visits.find? r with
    | some ⟨t, .marked start finish history points⟩ =>
      match saveGraded t start finish history points d.server.backend with
      | .ok _ => some (graded t start finish history points)
      | .error _ => none
    | _ => none
  | _ => none

def records : Desk → List Event → List Submission
  | _, [] => []
  | d, e :: events => (d.saved? e).toList ++ records (d.step e) events

theorem marked_of_saved? {d : Desk} {e : Event} {r : Submission} (h : d.saved? e = some r) :
    ∃ q t start finish history points b, e = .move q .proceed ∧
      d.visits.find? q = some ⟨t, .marked start finish history points⟩ ∧
      r = graded t start finish history points ∧
      saveGraded t start finish history points d.server.backend = .ok b := by
  cases e with
  | arrive t => cases h
  | meanwhile s => cases h
  | move q m =>
    cases m with
    | receive answer nanos => cases h
    | abandon => cases h
    | proceed =>
      rw [saved?] at h
      split at h
      · next t start finish history points hv =>
        cases hsave : saveGraded t start finish history points d.server.backend with
        | error f =>
          rw [hsave] at h
          cases h
        | ok b =>
          rw [hsave] at h
          cases h
          exact ⟨q, t, start, finish, history, points, b, rfl, hv, rfl, hsave⟩
      · cases h

/-- What is saved is what some request had graded, and the store takes it. -/
theorem saved?_eq_some {d : Desk} {e : Event} {r : Submission} (h : d.saved? e = some r) :
    ∃ q t start finish history points,
      d.visits.find? q = some ⟨t, .marked start finish history points⟩ ∧
      r = graded t start finish history points ∧
      d.server.backend.store.save r = .ok (d.step e).server.backend.store := by
  obtain ⟨q, t, start, finish, history, points, b, rfl, hv, rfl, hsave⟩ := marked_of_saved? h
  refine ⟨q, t, start, finish, history, points, hv, rfl, ?_⟩
  rw [Backend.save_eq_ok (saveGraded_eq_ok hsave), step, move_of_find? hv]
  simp only [Stage.move, Stage.proceed, hsave]

theorem submissionsOf_step_of_saved?_eq_none {d : Desk} {e : Event} (h : d.saved? e = none)
    (key : SubmissionKey) : (d.step e).submissionsOf key = d.submissionsOf key := by
  rcases e with t | ⟨q, m⟩ | s
  · rfl
  · rcases hq : d.visits.find? q with _ | ⟨t, stage⟩
    · simp only [step, Desk.move, hq]
    · rw [step, move_of_find? hq]
      have hgoes := stage.goes_move q t d.server m
      generalize stage.move q t d.server m = after at hgoes
      cases hgoes with
      | saved hsaved =>
        simp only [saved?, hq, hsaved] at h
        cases h
      | _ => rfl
  · rfl

/-- An event puts what it saves (`saved?`) among the submissions under its key, and changes nothing
else there. -/
theorem submissionsOf_step_eq (d : Desk) (e : Event) (key : SubmissionKey) :
    (d.step e).submissionsOf key = ((d.saved? e).toList.filter fun r => Store.keyOf r = key).foldr
      Store.insertByStart (d.submissionsOf key) := by
  rcases hsaved : d.saved? e with _ | r
  · exact submissionsOf_step_of_saved?_eq_none hsaved key
  · obtain ⟨_, _, _, _, _, _, -, -, hsave⟩ := saved?_eq_some hsaved
    rw [submissionsOf, Store.submissionsOf_save hsave]
    by_cases hkey : Store.keyOf r = key
    · simp [hkey, submissionsOf]
    · simp [hkey, Ne.symm hkey, submissionsOf]

theorem submissionsOf_step_sublist (d : Desk) (e : Event) (key : SubmissionKey) :
    (d.submissionsOf key).Sublist ((d.step e).submissionsOf key) := by
  rw [submissionsOf_step_eq]
  induction (d.saved? e).toList.filter fun r => Store.keyOf r = key with
  | nil => exact .refl _
  | cons r rs ih => exact ih.trans (Store.sublist_insertByStart r _)

/-- What a run saves has a short id that its key did not have before. -/
theorem ne_of_mem_records {d : Desk} {events : List Event} {r : Submission}
    (hr : r ∈ d.records events) :
    ∀ q ∈ d.submissionsOf (Store.keyOf r), q.grade.shortId ≠ r.grade.shortId := by
  induction events generalizing d with
  | nil => cases hr
  | cons e events ih =>
    rcases List.mem_append.1 hr with hnow | hlater
    · obtain ⟨_, _, _, _, _, _, -, -, hsave⟩ := saved?_eq_some (Option.mem_toList.1 hnow)
      exact (Store.save_eq_ok hsave).1
    · exact fun q hq => ih hlater q ((submissionsOf_step_sublist d e _).subset hq)

structure WellNamed (r : Submission) : Prop where
  course : SubmissionId.Colonless r.grade.courseId
  assignment : SubmissionId.Colonless r.grade.assignmentId
  short : SubmissionId.Colonless r.grade.shortId
  id : r.grade.id =
    SubmissionId.full r.grade.courseId r.grade.assignmentId r.grade.user r.grade.shortId

theorem WellNamed.key_eq {q r : Submission} (hq : WellNamed q) (hr : WellNamed r)
    (hid : q.grade.id = r.grade.id) :
    Store.keyOf q = Store.keyOf r ∧ q.grade.shortId = r.grade.shortId := by
  rw [hq.id, hr.id] at hid
  obtain ⟨hcourse, hassignment, hemail, hshort⟩ := SubmissionId.full_injective hq.course hr.course
    hq.assignment hr.assignment hq.short hr.short hid
  refine ⟨?_, hshort⟩
  rw [Store.keyOf, Store.keyOf, hcourse, hassignment, hemail]

def ProperlyNamed (t : Ticket) : Prop :=
  validateId "course" t.course.id = .ok () ∧ validateId "assignment" t.assignment.id = .ok ()

theorem wellNamed_graded {t : Ticket} (h : ProperlyNamed t) (start finish : Moment)
    (history : List Grade) (points : Points) :
    WellNamed (graded t start finish history points) where
  course := SubmissionId.colonless_of_validateId h.1
  assignment := SubmissionId.colonless_of_validateId h.2
  short := by
    obtain ⟨n, hshort, -⟩ := nextShortId_spec start history
    rw [graded, hshort]
    exact Text.colon_notMem_decimal n
  id := rfl

theorem wellNamed_of_mem_records {d : Desk} {events : List Event}
    (h : d.TicketsAre ProperlyNamed) (htickets : ∀ t, .arrive t ∈ events → ProperlyNamed t)
    {r : Submission} (hr : r ∈ d.records events) : WellNamed r := by
  induction events generalizing d with
  | nil => cases hr
  | cons e events ih =>
    rcases List.mem_append.1 hr with hnow | hlater
    · obtain ⟨q, t, start, finish, history, points, hv, rfl, -⟩ :=
        saved?_eq_some (Option.mem_toList.1 hnow)
      exact wellNamed_graded (h q _ hv) start finish history points
    · exact ih (h.step fun t ht => htickets t (ht ▸ List.mem_cons_self))
        (fun t ht => htickets t (List.mem_cons_of_mem e ht)) hlater

/-- Of two submissions that a run saves, the later has a short id that the earlier one's key did not
have any more for it, or another key: either way another full id. -/
theorem nodup_records {d : Desk} {events : List Event}
    (hnamed : ∀ r ∈ d.records events, WellNamed r) :
    ((d.records events).map fun r => r.grade.id).Nodup := by
  induction events generalizing d with
  | nil => exact List.nodup_nil
  | cons e events ih =>
    have hlater := ih fun r hr => hnamed r (List.mem_append_right _ hr)
    rw [records, List.map_append]
    cases hsaved : d.saved? e with
    | none => exact hlater
    | some r =>
      refine List.nodup_cons.2 ⟨fun htwice => ?_, hlater⟩
      obtain ⟨q, hq, hid⟩ := List.mem_map.1 htwice
      have hr : r ∈ d.records (e :: events) := by
        rw [records, hsaved]
        exact List.mem_append_left _ List.mem_cons_self
      obtain ⟨hkey, hshort⟩ :=
        (hnamed r hr).key_eq (hnamed q (List.mem_append_right _ hq)) hid.symm
      obtain ⟨_, _, _, _, _, _, -, -, hsave⟩ := saved?_eq_some hsaved
      have hthere : r ∈ (d.step e).submissionsOf (Store.keyOf q) := by
        rw [← hkey]
        exact (Store.gained_save hsave).own.mem_iff.2 List.mem_cons_self
      exact ne_of_mem_records hq r hthere hshort

/-- **Every submission has an id of its own, whatever the clock does.**  In a run that starts with
no lock taken, and over whatever history there is, what is about to be saved has a short id that is
a number above all numbers among the short ids of its key and equal to none of them (`FreshAmong`),
and the store takes it, as long as none of these numbers is the greatest there is.  The full ids of
all submissions that a run saves, whoever submits to what, are pairwise distinct, if courses and
assignments have proper identifiers (`ProperlyNamed`).  (Emails may be any text, and clocks only
have to show moments that there are.) -/
theorem ids_are_fresh {s : Server} (hlocks : s.locks = .empty) {events : List Event}
    (hclock : ∀ t ∈ (opened s).clocks events, t.Readable) :
    (∀ r t start finish history points,
      ((opened s).run events).visits.find? r = some ⟨t, .marked start finish history points⟩ →
      (∀ q ∈ ((opened s).run events).submissionsOf t.key, ∀ m,
        Text.int64? q.grade.shortId = some m → m < Text.int64Max) →
      FreshAmong (((opened s).run events).submissionsOf t.key)
          (graded t start finish history points).grade.shortId ∧
        ∃ u, ((opened s).run events).server.backend.store.save
          (graded t start finish history points) = .ok u) ∧
      ((∀ t, .arrive t ∈ events → ProperlyNamed t) →
        (((opened s).records events).map fun r => r.grade.id).Nodup) := by
  have hadmitted : (opened s).AdmittedAt Moment.Countable :=
    fun r v _ _ hv => by simp [opened] at hv
  have hcountable : ∀ t ∈ (opened s).clocks events, t.Countable :=
    fun t ht => (hclock t ht).countable
  have htickets : (opened s).TicketsAre ProperlyNamed := fun r v hv => by simp [opened] at hv
  refine ⟨fun r t start finish history points hv hbelow => ?_, fun hnames => ?_⟩
  · exact (sound_run hlocks events).fresh (hadmitted.run hcountable) hv hbelow
  · exact nodup_records fun r hr => wellNamed_of_mem_records htickets hnames hr

def unlimited : Assignment :=
  ⟨"hw1", "cs1", "", none, 10, none, none⟩

def markedAt (nanos : Int) (r : Nat) : List Event :=
  .meanwhile (serverAt nanos) :: .arrive (studentTicket unlimited) ::
    [Move.proceed, .proceed, .proceed, .proceed, .receive (.ok ⟨10, 10⟩) 0].map (.move r)

/-- Two requests: the second comes when the clock has gone back by four seconds. -/
def backwards : List Event :=
  markedAt 5000000000 0 ++ [.move 0 .proceed, .move 0 .proceed, .move 0 .proceed] ++
    markedAt 1000000000 1

/-- The first is saved as number 5, and the second one's number is 6. -/
theorem ids_are_fresh_backwards :
    let s := serverAt 0
    let d := (opened s).run backwards
    let saved := (opened s).records (backwards ++ [.move 1 .proceed])
    ((d.submissionsOf ⟨"cs1", "hw1", "kim@school.edu"⟩).map fun q => q.grade.shortId) = ["5"] ∧
      FreshAmong (d.submissionsOf ⟨"cs1", "hw1", "kim@school.edu"⟩) "6" ∧
      (saved.map fun r => r.grade.id) =
        ["cs1::hw1::kim@school.edu::5", "cs1::hw1::kim@school.edu::6"] ∧
      (saved.map fun r => r.grade.id).Nodup := by
  have hmarked : ((opened (serverAt 0)).run backwards).visits.find? 1 =
      some ⟨studentTicket unlimited, .marked ⟨1000000000, 0⟩ ⟨1000000000, 0⟩
        (((opened (serverAt 0)).run backwards).submissionsOf
          ⟨"cs1", "hw1", "kim@school.edu"⟩ |>.map Submission.grade) ⟨10, 10⟩⟩ := rfl
  have hclocks : ∀ t ∈ (opened (serverAt 0)).clocks backwards, t.Readable := by decide
  have hlater : ∀ t ∈ (opened (serverAt 0)).clocks (backwards ++ [.move 1 .proceed]),
      t.Readable := by decide
  obtain ⟨hnew, -⟩ := (ids_are_fresh rfl hclocks).1 1 _ _ _ _ _ hmarked (by decide)
  refine ⟨by decide, hnew, by decide, (ids_are_fresh rfl hlater).2 fun t ht => ?_⟩
  simp only [backwards, markedAt, List.map_cons, List.map_nil, List.cons_append, List.nil_append,
    List.mem_cons, Event.arrive.injEq, reduceCtorEq, or_false, false_or,
    List.not_mem_nil, or_self] at ht
  rw [ht]
  exact ⟨rfl, rfl⟩

end Desk
end Endpoint
end Coursework
