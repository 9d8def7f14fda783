import Coursework.Proofs.Desk.Recorded
import Coursework.Proofs.Endpoint.Lookup
import Coursework.Proofs.Store.Order

/-!
# What is saved last is the latest

Submissions under a key have three orders: the one in which they were saved, the one of their start
times, which the store keeps them in, and the one of the numbers that are their short ids.  As long
as the readings of the clock for the key do not go back, the three are one.

Each start time is such a reading, and no submission that starts earlier is still to be saved
(`Desk.Onward`); a submission that starts at the same time as others is put behind them.  A number
is the second of the start time unless it had to move up, and then it is next to a number that is
there.  So the next number is at least as great as any before (`Ordered.concat`), and as the store
takes no short id twice, it is greater.
-/

set_option autoImplicit false

namespace Coursework

open Time

namespace Endpoint

/-! ## Submissions in order -/

/-- Submissions in the order of their start times and of the numbers that are their short ids, each
of which is the second of the start time or next to another number (`grounded`). -/
structure Ordered (rs : List Submission) : Prop where
  starts : rs.Pairwise fun q r => Store.startOf q ≤ Store.startOf r
  numbers : ∃ ns : List Int, (rs.map fun r => r.grade.shortId) = ns.map Text.decimal ∧
    ns.Pairwise fun m n => m < n
  grounded : ∀ r ∈ rs, ∀ n, r.grade.shortId = Text.decimal n →
    n = r.grade.startTime.unixSeconds ∨ n - 1 ∈ shortNumbers (rs.map Submission.grade)

theorem Ordered.nil : Ordered [] where
  starts := .nil
  numbers := ⟨[], rfl, .nil⟩
  grounded _ hr := absurd hr List.not_mem_nil

theorem shortNumbers_append (gs hs : List Grade) :
    shortNumbers (gs ++ hs) = shortNumbers gs ++ shortNumbers hs :=
  List.filterMap_append

theorem unixSeconds_mono {t u : Moment} (h : t.instant ≤ u.instant) :
    t.unixSeconds ≤ u.unixSeconds :=
  Int.ediv_le_ediv (by decide) h

theorem Ordered.le_of_next {rs : List Submission} (h : Ordered rs) {start : Moment}
    (hlast : ∀ q ∈ rs, Store.startOf q ≤ start.instant) {n : Int} (hleast : start.unixSeconds ≤ n)
    (habove : ∀ m ∈ shortNumbers (rs.map Submission.grade), m < n) {q : Submission} (hq : q ∈ rs)
    {m : Int} (hm : q.grade.shortId = Text.decimal m) : m ≤ n := by
  rcases h.grounded q hq m hm with rfl | hpred
  · exact Int.le_trans (unixSeconds_mono (hlast q hq)) hleast
  · exact Int.sub_one_lt_iff.1 (habove _ hpred)

/-- What is graded in view of submissions in order, starts no earlier than they and has a short id
of its own comes behind them in every order. -/
theorem Ordered.concat {rs : List Submission} (h : Ordered rs) {t : Ticket} {start : Moment}
    (finish : Moment) (points : Points) (hlast : ∀ q ∈ rs, Store.startOf q ≤ start.instant)
    (hnew : ∀ q ∈ rs, q.grade.shortId ≠
      (graded t start finish (rs.map Submission.grade) points).grade.shortId) :
    Ordered (rs ++ [graded t start finish (rs.map Submission.grade) points]) := by
  obtain ⟨n, hshort, hleast, habove, horigin⟩ := nextShortId_spec start (rs.map Submission.grade)
  obtain ⟨ns, hns, hascending⟩ := h.numbers
  -- by time and by the numbers that are there it is no smaller, and being new it is not equal
  have hgreater : ∀ m ∈ ns, m < n := by
    intro m hm
    obtain ⟨q, hq, hqm⟩ := List.mem_map.1 (hns ▸ List.mem_map_of_mem hm)
    refine Int.lt_iff_le_and_ne.2 ⟨h.le_of_next hlast hleast habove hq hqm, ?_⟩
    rintro rfl
    exact hnew q hq (hqm.trans hshort.symm)
  refine
    { starts := List.pairwise_append.2 ⟨h.starts, List.pairwise_singleton _ _, fun q hq r hr => ?_⟩
      numbers := ⟨ns ++ [n], ?_, List.pairwise_append.2
        ⟨hascending, List.pairwise_singleton _ _, fun m hm k hk => ?_⟩⟩
      grounded := fun r hr m hm => ?_ }
  · rw [List.mem_singleton.1 hr]
    exact hlast q hq
  · rw [List.map_append, List.map_append, hns]
    exact congrArg (_ ++ [·]) hshort
  · rw [List.mem_singleton.1 hk]
    exact hgreater m hm
  · rw [List.map_append, shortNumbers_append]
    rcases List.mem_append.1 hr with hold | hlatest
    · exact (h.grounded r hold m hm).imp_right (List.mem_append_left _)
    · rw [List.mem_singleton.1 hlatest] at hm ⊢
      obtain rfl := Text.decimal_injective (hshort.symm.trans hm)
      exact horigin.imp_right (List.mem_append_left _)

theorem Ordered.integers {rs : List Submission} (h : Ordered rs) :
    ∃ ns : List Int, (rs.map fun r => Text.integer? r.grade.shortId.toList) = ns.map some ∧
      ns.Pairwise fun m n => m < n := by
  obtain ⟨ns, hns, hascending⟩ := h.numbers
  refine ⟨ns, ?_, hascending⟩
  have hread := congrArg (List.map fun short => Text.integer? short.toList) hns
  simpa [Function.comp_def, Text.integer?_decimal] using hread

namespace Desk

/-! ## In a run -/

/-- While the readings of the clock do not go back (`Onward`), whatever an event saves under the key
comes last. -/
theorem Onward.submissionsOf_step {key : SubmissionKey} {later : List Moment} {d : Desk}
    (h : d.Onward key later) (e : Event) :
    (d.step e).submissionsOf key =
      d.submissionsOf key ++ (d.saved? e).toList.filter fun r => Store.keyOf r = key := by
  rw [submissionsOf_step_eq]
  rcases hsaved : d.saved? e with _ | r
  · simp
  by_cases hkey : Store.keyOf r = key
  · obtain ⟨q, t, start, finish, history, points, hv, rfl, -⟩ := saved?_eq_some hsaved
    have hlast := h.last q _ start history hv hkey rfl
    simpa [hkey] using Store.insertByStart_of_last (r := graded t start finish history points) hlast
  · simp [hkey]

/-- Submissions in order (`Ordered`), and nothing ahead of the readings that are to come. -/
structure InOrder (key : SubmissionKey) (later : List Moment) (d : Desk) : Prop where
  onward : d.Onward key later
  ordered : Ordered (d.submissionsOf key)

theorem InOrder.step {key : SubmissionKey} {later : List Moment} {d : Desk} {e : Event}
    (h : d.InOrder key ((d.reading? key e).toList ++ later))
    (hreading : ∀ start, d.reading? key e = some start → ∀ u ∈ later, start.instant ≤ u.instant) :
    (d.step e).InOrder key later where
  onward := h.onward.step hreading
  ordered := by
    rw [h.onward.submissionsOf_step e]
    rcases hsaved : d.saved? e with _ | r
    · simpa using h.ordered
    by_cases hkey : Store.keyOf r = key
    · obtain ⟨q, t, start, finish, history, points, hv, hr, hsave⟩ := saved?_eq_some hsaved
      obtain rfl : t.key = key := by rw [← hkey, hr]; rfl
      obtain rfl : (d.submissionsOf t.key).map Submission.grade = history :=
        (h.onward.sound.fits q _ hv).history_eq rfl
      have hnew := (Store.save_eq_ok hsave).1
      rw [hkey, hr] at hnew
      have hconcat := h.ordered.concat finish points (h.onward.last q _ start _ hv rfl rfl) hnew
      rw [← hr] at hconcat
      simpa [hkey] using hconcat
    · simpa [hkey] using h.ordered

/-- In a run in which the clock does not go back, submissions under a key are kept in the order in
which they are recorded. -/
theorem InOrder.run {key : SubmissionKey} {d : Desk} (front back : List Event)
    (h : d.InOrder key (d.readings key (front ++ back)))
    (hclock : (d.readings key (front ++ back)).Pairwise fun t u => t.instant ≤ u.instant) :
    (d.run front).InOrder key ((d.run front).readings key back) ∧
      (d.run front).submissionsOf key =
        d.submissionsOf key ++ (d.records front).filter fun r => Store.keyOf r = key := by
  -- each event takes its reading, if any, off the front of those that are to come
  induction front generalizing d with
  | nil => exact ⟨h, by simp [records]⟩
  | cons e front ih =>
    rw [List.cons_append, readings] at h hclock
    obtain ⟨-, hlater, hfirst⟩ := List.pairwise_append.1 hclock
    have hstep := h.step fun start hstart => hfirst start (by simp [hstart])
    obtain ⟨hrun, hkept⟩ := ih hstep hlater
    refine ⟨hrun, ?_⟩
    rw [run_cons, hkept, h.onward.submissionsOf_step e, records, List.filter_append,
      List.append_assoc]

theorem inOrder_opened {s : Server} {key : SubmissionKey} (hlocks : s.locks = .empty)
    (hnone : s.backend.store.submissionsOf key = []) (later : List Moment) :
    (opened s).InOrder key later where
  onward := onward_opened hlocks hnone later
  ordered := by
    rw [submissionsOf, opened, hnone]
    exact .nil

/-! ## What shows -/

/-- A request that asks for the last submission under a key: it has its course and its assignment,
is about its user, who is found, and names no submission. -/
structure AsksLast (b : Backend) (key : SubmissionKey) (m : Materialized PeekRequest) : Prop where
  course : ∃ c, m.course = some c ∧ c.id = key.course
  assignment : ∃ a, m.assignment = some a ∧ a.id = key.assignment
  user : resolveTarget b m m.request.targetEmail = .ok ⟨key.email, true⟩
  blank : Text.trim m.request.targetSubmission = ""

/-- A submission shows as the last one under a key, to the server (`Store.latest?`) and to whoever
asks it by `peek`. -/
structure ShowsLast (b : Backend) (key : SubmissionKey) (r : Submission) : Prop where
  fetched : b.submission? key none = .ok (some r)
  peeked : ∀ m, AsksLast b key m → peek b m = .ok ⟨true, some r.grade⟩

theorem showsLast_of_latest? {b : Backend} {key : SubmissionKey} {r : Submission}
    (h : b.store.latest? key = some r) (hup : .submission ∉ b.down) : ShowsLast b key r where
  fetched := by
    rw [Backend.submission?, Backend.guarded, if_neg hup, h]
  peeked := by
    rintro m ⟨⟨c, hc, hcourse⟩, ⟨a, ha, hassignment⟩, huser, hblank⟩
    have hlast : (b.store.history key).getLast? = some r.grade := by
      rw [← Store.latest?_map_grade, h, Option.map_some]
    rw [peek_eq hc ha hup, huser, hcourse, hassignment]
    simp only [Except.bind, if_true, askedId_of_blank hblank, Except.map, pick, hlast]

/-- **What is recorded last is the latest.**  In a run that starts with no lock taken and nothing
saved under a key, and in which the clock, as it is read under the lock, does not go back, the
submissions under the key are kept in the order in which they are recorded, whatever is refused,
fails or is abandoned in between.  Their start times do not decrease, and their short ids read as
integers that increase.  Whenever a request for the key is answered as graded (`AnswersGraded`), the
submission that was recorded in this event is what the server finds without an id, and what a
request shows that names no submission (`ShowsLast`), as long as submissions can be looked up at
all.  (Readings may be equal, and times are compared to the nanosecond.) -/
theorem recorded_in_order {s : Server} {key : SubmissionKey} (hlocks : s.locks = .empty)
    (hnone : s.backend.store.submissionsOf key = []) {events : List Event}
    (hclock : ((opened s).readings key events).Pairwise fun t u => t.instant ≤ u.instant) :
    ((opened s).run events).submissionsOf key =
        ((opened s).records events).filter (fun r => Store.keyOf r = key) ∧
      (((opened s).run events).submissionsOf key).Pairwise (fun q r =>
        q.grade.startTime.instant ≤ r.grade.startTime.instant) ∧
      (∃ ns : List Int, (((opened s).run events).submissionsOf key).map
          (fun r => Text.integer? r.grade.shortId.toList) = ns.map some ∧
        ns.Pairwise fun m n => m < n) ∧
      ∀ front e back t g, events = front ++ e :: back → t.key = key →
        ((opened s).run front).AnswersGraded e t g →
          ∃ r, ((opened s).run front).saved? e = some r ∧ r.grade = g ∧
            (.submission ∉ ((opened s).run (front ++ [e])).server.backend.down →
              ShowsLast ((opened s).run (front ++ [e])).server.backend key r) := by
  have hempty : (opened s).submissionsOf key = [] := hnone
  obtain ⟨hrun, hkept⟩ := (inOrder_opened hlocks hnone _).run events []
    (by rwa [List.append_nil])
  rw [hempty, List.nil_append] at hkept
  refine ⟨hkept, hrun.ordered.starts, hrun.ordered.integers, ?_⟩
  rintro front e back t g rfl rfl hanswers
  obtain ⟨r, hsaved, hkey, hgrade⟩ := hanswers.saved
  refine ⟨r, hsaved, hgrade, showsLast_of_latest? ?_⟩
  have hbefore := ((inOrder_opened hlocks hnone _).run front (e :: back) hclock).1
  have hlatest := hbefore.onward.submissionsOf_step e
  simp only [hsaved, Option.toList_some, hkey, decide_true, List.filter_cons_of_pos,
    List.filter_nil] at hlatest
  have hafter : (opened s).run (front ++ [e]) = ((opened s).run front).step e := by
    simp [run, List.foldl_append]
  rw [hafter]
  exact (congrArg List.getLast? hlatest).trans List.getLast?_concat

/-- Three requests at one moment; the grader fails for the second one, and the third one is about to
be saved. -/
def sameMoment : List Event :=
  markedAt 5000000000 0 ++ [.move 0 .proceed, .move 0 .proceed, .move 0 .proceed] ++
    (.arrive (studentTicket unlimited) ::
      [Move.proceed, .proceed, .proceed, .proceed, .receive (.error .unconfigured) 0, .proceed,
        .proceed].map (.move 1)) ++
    markedAt 5000000000 2

def ownLast : Materialized PeekRequest :=
  ⟨⟨"", ""⟩, some ⟨"cs1", ""⟩, some unlimited,
    some ⟨{ Account.root with email := "kim@school.edu" }, some .student, false⟩, []⟩

/-- Both submissions started at the same time, and the one that is saved last shows. -/
theorem recorded_in_order_same_moment :
    let key : SubmissionKey := ⟨"cs1", "hw1", "kim@school.edu"⟩
    let d := (opened (serverAt 0)).run (sameMoment ++ [.move 2 .proceed])
    ((d.submissionsOf key).map fun r => (r.grade.startTime.instant, r.grade.shortId)) =
        [(5000000000, "5"), (5000000000, "6")] ∧
      d.submissionsOf key =
        ((opened (serverAt 0)).records (sameMoment ++ [.move 2 .proceed])).filter
        (fun r => Store.keyOf r = key) ∧
      ∃ r, d.server.backend.submission? key none = .ok (some r) ∧ r.grade.shortId = "6" ∧
        peek d.server.backend ownLast = .ok ⟨true, some r.grade⟩ := by
  have hreadings : (opened (serverAt 0)).readings ⟨"cs1", "hw1", "kim@school.edu"⟩
      (sameMoment ++ [.move 2 .proceed]) =
        [⟨5000000000, 0⟩, ⟨5000000000, 0⟩, ⟨5000000000, 0⟩] := rfl
  have hclock : ((opened (serverAt 0)).readings ⟨"cs1", "hw1", "kim@school.edu"⟩
      (sameMoment ++ [.move 2 .proceed])).Pairwise fun t u => t.instant ≤ u.instant := by
    rw [hreadings]
    decide
  have hanswers : ∃ g, ((opened (serverAt 0)).run sameMoment).AnswersGraded (.move 2 .proceed)
      (studentTicket unlimited) g ∧ g.shortId = "6" := by
    have hbefore : ∃ start finish history points,
        ((opened (serverAt 0)).run sameMoment).visits.find? 2 =
          some ⟨studentTicket unlimited, .marked start finish history points⟩ := ⟨_, _, _, _, rfl⟩
    obtain ⟨_, _, _, _, hmarked⟩ := hbefore
    refine ⟨_, ⟨2, _, rfl, rfl, fun v hv hknown => ?_⟩, rfl⟩
    rw [hmarked] at hv
    cases hv
    cases hknown
  obtain ⟨hkept, -, -, hlatest⟩ := recorded_in_order rfl rfl hclock
  obtain ⟨g, hgraded, hshort⟩ := hanswers
  obtain ⟨r, -, rfl, hshows⟩ := hlatest sameMoment _ [] _ g rfl rfl hgraded
  have hshown := hshows List.not_mem_nil
  exact ⟨rfl, hkept, r, hshown.fetched, hshort, hshown.peeked ownLast
    ⟨⟨_, rfl, rfl⟩, ⟨_, rfl, rfl⟩, rfl, rfl⟩⟩

end Desk
end Endpoint
end Coursework
