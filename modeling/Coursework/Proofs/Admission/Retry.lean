import Coursework.Proofs.Admission.Window
import Coursework.Proofs.Time.Rfc3339

/-!
# When a full window lets in again

A refusal by the window names the first attempt in it, and the message says that one may come back
after the length of the window has passed since then.  Until that moment the same earlier attempts
stay in the window, so that the refusal stands (`refused_until`).  After it the first of them has
left.  That makes room only if there were not more of them than allowed: if no window, wherever it
is laid, holds more (`Sparse`), then the window does not refuse any more (`free_after`).

The message says that there is no coming back when that moment cannot be represented
(`says_never_iff`); then every moment that can be is too early.
-/

set_option autoImplicit false

namespace Coursework

open Time

/-! ## The words -/

namespace Rejection

/-- The message ends in what it says about coming back, which `retry?` decides. -/
theorem exists_message_eq (allowed : Int) (duration : Span) (earliest : Moment) :
    ∃ front, (windowMax allowed duration earliest).message.toList =
      front ++ (match retry? duration earliest with
        | some next => "You may submit again after " ++ next.describe ++ "."
        | none => "You may not submit again.").toList :=
  ⟨_, String.toList_append⟩

/-- The message ends in "You may not submit again." only when `retry?` has no moment to name. -/
theorem says_never_iff (allowed : Int) (duration : Span) (earliest : Moment) :
    "You may not submit again.".toList <:+ (windowMax allowed duration earliest).message.toList ↔
      retry? duration earliest = none := by
  obtain ⟨front, hmessage⟩ := exists_message_eq allowed duration earliest
  rw [hmessage]
  refine ⟨?_, fun hnone => ?_⟩
  · rintro ⟨before, hbefore⟩
    rcases hretry : retry? duration earliest with _ | next
    · rfl
    · -- before the full stop there is an "n" on one side, and the end of a moment on the other
      obtain ⟨c, hc, hend⟩ := next.getLast?_describe
      rw [hretry] at hbefore
      have hstop : (before ++ "You may not submit agai".toList ++ ['n']) ++ ['.'] =
          (front ++ "You may submit again after ".toList ++ next.describe.toList) ++ ['.'] := by
        simpa using hbefore
      have hlast := congrArg List.getLast? (List.append_cancel_right hstop)
      rw [List.getLast?_concat, List.getLast?_append, hc, Option.some_or] at hlast
      cases hlast
      exact absurd hend (by decide)
  · rw [hnone]
    exact List.suffix_append _ _

theorem instant_of_named {duration : Span} (hduration : duration.validate = .ok ())
    {earliest next : Moment} (hearliest : earliest.IsUtc)
    (h : retry? duration earliest = some next) :
    next.instant = earliest.instant + duration.exactTotal * nanosPerSecond := by
  unfold retry? Moment.plus? Moment.checked? at h
  split at h
  · next hrepr =>
    cases h
    have hhigh := hrepr.2
    have hlow := hearliest.bounds.1
    have htotal := Span.total_eq_min hduration
    simp only [Moment.localNanos, Moment.localMax, Moment.localMin, hearliest.offset,
      nanosPerSecond, Text.int64Max] at hhigh hlow htotal ⊢
    omega
  · cases h

theorem le_of_unnamed {duration : Span} (hduration : duration.validate = .ok ())
    {earliest later : Moment} (hearliest : earliest.IsUtc) (hlater : later.IsUtc)
    (h : retry? duration earliest = none) :
    later.instant ≤ earliest.instant + duration.exactTotal * nanosPerSecond := by
  unfold retry? Moment.plus? Moment.checked? at h
  split at h
  · cases h
  · next hrepr =>
    have hpos := ((Span.validate_eq_ok_iff duration).1 hduration).2.2.2.2
    have htotal := Span.total_eq_min hduration
    have hlow := hearliest.bounds.1
    have hhigh := hlater.bounds.2
    simp only [Moment.Representable, Moment.localNanos, hearliest.offset, nanosPerSecond,
      Text.int64Max] at hrepr htotal hlow hhigh ⊢
    omega

end Rejection

namespace Admission

/-! ## What a refusal by the window says -/

theorem exists_of_windowMax {a : Attempt} {allowed : Int} {duration : Span} {earliest : Moment}
    (h : evaluate a = .error (.windowMax allowed duration earliest)) :
    ∃ l, a.assignment.limit = some l ∧ a.role.isStaff = false ∧
      l.window = some ⟨allowed, duration⟩ ∧
      allowed ≤ ((a.earlier.filter (inWindow a.now duration.total)).length : Int) ∧
      earliest? (a.earlier.filter (inWindow a.now duration.total)) = some earliest := by
  obtain hlate | ⟨-, l, hl, hmax | ⟨-, hrole, w, hw, hwindow⟩⟩ := (evaluate_eq_error_iff a _).1 h
  · cases checkLate_eq_error hlate
  · obtain ⟨_, -, -, hr⟩ := (checkMax_eq_error_iff _ _ _).1 hmax
    cases hr
  · obtain ⟨hfull, t, hfirst, hr⟩ := (checkWindow_eq_error_iff _ _ _ _).1 hwindow
    cases hr
    exact ⟨l, hl, hrole, hw, hfull, hfirst⟩

/-- An attempt that finds the window full is refused, for one reason or another. -/
theorem exists_error_of_full {a : Attempt} {l : AttemptLimit} {w : WindowLimit}
    (hl : a.assignment.limit = some l) (hw : l.window = some w) (hrole : a.role.isStaff = false)
    (hallowed : 0 < w.allowed)
    (hfull : w.allowed ≤ ((a.earlier.filter (inWindow a.now w.duration.total)).length : Int)) :
    ∃ r, evaluate a = .error r := by
  rcases hok : evaluate a with r | ⟨⟩
  · exact ⟨r, rfl⟩
  · have hwindow := (((evaluate_eq_ok_iff a).1 hok).2 l hl).2 hrole w hw
    rw [checkWindow_eq_ok_iff hallowed] at hwindow
    omega

theorem full_of_windowMax {a : Attempt} (ha : a.assignment.validate = .ok ()) (hnow : a.now.IsUtc)
    (hearlier : ∀ t ∈ a.earlier, t.IsUtc) {allowed : Int} {duration : Span} {earliest : Moment}
    (h : evaluate a = .error (.windowMax allowed duration earliest)) :
    duration.validate = .ok () ∧ earliest ∈ recent duration a.now a.earlier ∧
      (∀ t ∈ recent duration a.now a.earlier, earliest.instant ≤ t.instant) ∧
      allowed ≤ ((recent duration a.now a.earlier).length : Int) := by
  obtain ⟨l, hl, -, hw, hfull, hfirst⟩ := exists_of_windowMax h
  obtain ⟨-, hduration⟩ := window_proper ha hl hw
  rw [filter_inWindow hduration hnow hearlier] at hfull hfirst
  obtain ⟨hmem, hleast⟩ := earliest?_eq_some hfirst
  exact ⟨hduration, hmem, hleast, hfull⟩

/-! ## Later -/

/-- Until the first attempt leaves the window, all that were in it still are, so that the window
stays full. -/
theorem refused_until {a : Attempt} (ha : a.assignment.validate = .ok ()) (hnow : a.now.IsUtc)
    (hearlier : ∀ t ∈ a.earlier, t.IsUtc) {allowed : Int} {duration : Span} {earliest : Moment}
    (h : evaluate a = .error (.windowMax allowed duration earliest)) {later : Moment}
    (hlater : later.IsUtc) (hfrom : a.now.instant ≤ later.instant)
    (hto : later.instant ≤ earliest.instant + duration.exactTotal * nanosPerSecond) :
    ∃ r, evaluate { a with now := later } = .error r := by
  obtain ⟨l, hl, hrole, hw, -⟩ := exists_of_windowMax h
  obtain ⟨hduration, -, hleast, hfull⟩ := full_of_windowMax ha hnow hearlier h
  obtain ⟨hallowed, -⟩ := window_proper ha hl hw
  refine exists_error_of_full (a := { a with now := later }) hl hw hrole hallowed ?_
  have hstays : (recent duration a.now a.earlier).length ≤
      (recent duration later a.earlier).length := by
    simp only [recent, ← List.countP_eq_length_filter]
    refine List.countP_mono_left fun t ht hrecent => ?_
    rw [decide_eq_true_eq] at hrecent ⊢
    have hafter := hleast t (mem_recent.2 ⟨ht, hrecent⟩)
    exact ⟨by omega, Int.le_trans hrecent.2 hfrom⟩
  dsimp only
  rw [filter_inWindow hduration hlater hearlier]
  omega

/-- No closed interval of the length `nanos`, wherever it is laid, holds more than `most` of some
times. -/
def Sparse (nanos most : Int) (ts : List Moment) : Prop :=
  ∀ x, ((ts.countP fun t => decide (x ≤ t.instant ∧ t.instant ≤ x + nanos) : Nat) : Int) ≤ most

/-- Once the first attempt has left the window, it is not full any more.  With that attempt, as many
would be in one window as were allowed and one more, which earlier attempts that are `Sparse` rule
out. -/
theorem free_after {a : Attempt} (ha : a.assignment.validate = .ok ()) (hnow : a.now.IsUtc)
    (hearlier : ∀ t ∈ a.earlier, t.IsUtc) (hlast : ∀ t ∈ a.earlier, t.instant ≤ a.now.instant)
    {allowed : Int} {duration : Span} {earliest : Moment}
    (h : evaluate a = .error (.windowMax allowed duration earliest))
    (hsparse : Sparse (duration.exactTotal * nanosPerSecond) allowed a.earlier) {later : Moment}
    (hlater : later.IsUtc)
    (hafter : earliest.instant + duration.exactTotal * nanosPerSecond < later.instant)
    (other : Int) (length : Span) (first : Moment) :
    evaluate { a with now := later } ≠ .error (.windowMax other length first) := by
  intro hstill
  obtain ⟨l, hl, -, hw, -⟩ := exists_of_windowMax h
  obtain ⟨l', hl', -, hw', -⟩ := exists_of_windowMax hstill
  obtain ⟨-, hmem, -, -⟩ := full_of_windowMax ha hnow hearlier h
  obtain ⟨-, -, -, hagain⟩ :=
    full_of_windowMax (a := { a with now := later }) ha hlater hearlier hstill
  -- both refusals are for the one window that the assignment has
  cases hl.symm.trans hl'
  cases hw.symm.trans hw'
  obtain ⟨hearliest, hin⟩ := mem_recent.1 hmem
  have hstart := hin.1
  have hend := hin.2
  have hgone : ¬ Recent duration later earliest := fun hrecent => by
    have hreach := hrecent.1
    omega
  have hwithout := List.perm_cons_erase hearliest
  have hnear := hsparse earliest.instant
  rw [hwithout.countP_eq, List.countP_cons_of_pos (by rw [decide_eq_true_eq]; omega)] at hnear
  have hfull : allowed ≤ ((recent duration later a.earlier).length : Int) := hagain
  rw [recent, ← List.countP_eq_length_filter, hwithout.countP_eq,
    List.countP_cons_of_neg (by simpa using hgone)] at hfull
  have hcovered : (a.earlier.erase earliest).countP (fun t => decide (Recent duration later t)) ≤
      (a.earlier.erase earliest).countP fun t => decide (earliest.instant ≤ t.instant ∧
        t.instant ≤ earliest.instant + duration.exactTotal * nanosPerSecond) := by
    refine List.countP_mono_left fun t ht hrecent => ?_
    rw [decide_eq_true_eq] at hrecent ⊢
    have hbefore := hlast t (List.mem_of_mem_erase ht)
    have hreach := hrecent.1
    omega
  omega

/-! ## What the refusal says -/

/-- What the refusal of an attempt by the window says about coming back is so.  Until the length of
the window has passed since the first attempt, one is refused (`early`), and after that not by the
window (`late`).  The moment that `Rejection.retry?` names is the one at which this changes
(`named`); where it names none, one is refused for as long as there is time (`never`). -/
structure Honest (a : Attempt) (allowed : Int) (duration : Span) (earliest : Moment) : Prop where
  early : ∀ later : Moment, later.IsUtc → a.now.instant ≤ later.instant →
    later.instant ≤ earliest.instant + duration.exactTotal * nanosPerSecond →
      ∃ r, evaluate { a with now := later } = .error r
  late : ∀ later : Moment, later.IsUtc →
    earliest.instant + duration.exactTotal * nanosPerSecond < later.instant →
      ∀ other length first, evaluate { a with now := later } ≠
        .error (.windowMax other length first)
  named : ∀ next, Rejection.retry? duration earliest = some next →
    next.instant = earliest.instant + duration.exactTotal * nanosPerSecond ∧
      ("You may submit again after " ++ next.describe ++ ".").toList <:+
        (Rejection.windowMax allowed duration earliest).message.toList
  never : "You may not submit again.".toList <:+
      (Rejection.windowMax allowed duration earliest).message.toList →
    ∀ later : Moment, later.IsUtc → a.now.instant ≤ later.instant →
      ∃ r, evaluate { a with now := later } = .error r

/-- A refusal is `Honest` where no window of its length holds more than allowed (`Sparse`), and
nothing is to come before now. -/
theorem honest_of_sparse {a : Attempt} (ha : a.assignment.validate = .ok ()) (hnow : a.now.IsUtc)
    (hearlier : ∀ t ∈ a.earlier, t.IsUtc) (hlast : ∀ t ∈ a.earlier, t.instant ≤ a.now.instant)
    {allowed : Int} {duration : Span} {earliest : Moment}
    (h : evaluate a = .error (.windowMax allowed duration earliest))
    (hsparse : Sparse (duration.exactTotal * nanosPerSecond) allowed a.earlier) :
    Honest a allowed duration earliest := by
  obtain ⟨hduration, hmem, -, -⟩ := full_of_windowMax ha hnow hearlier h
  have hearliest : earliest.IsUtc := hearlier earliest (mem_recent.1 hmem).1
  have hearly := fun later => @refused_until _ ha hnow hearlier _ _ _ h later
  refine ⟨hearly, fun later hlater hafter =>
    free_after ha hnow hearlier hlast h hsparse hlater hafter,
    fun next hnext => ⟨Rejection.instant_of_named hduration hearliest hnext, ?_⟩,
    fun hnever later hlater hfrom => hearly later hlater hfrom ?_⟩
  · obtain ⟨front, hmessage⟩ := Rejection.exists_message_eq allowed duration earliest
    rw [hmessage, hnext]
    exact List.suffix_append _ _
  · rw [Rejection.says_never_iff] at hnever
    exact Rejection.le_of_unnamed hduration hearliest hlater hnever

end Admission
end Coursework
