import Coursework.Proofs.Store

/-!
# The order within a list of submissions

A list of submissions is kept by start time, and equal times stand in the order in which they were
saved.  `InSavingOrder` says so of the list and of what was saved.  There is only one such list
(`InSavingOrder.unique`), so that whoever puts a submission at the end and sorts the list again has
what whoever puts it in its place has (`mergeSort_concat`).
-/

set_option autoImplicit false

namespace Coursework
namespace Store

/-- The instant at which grading a submission began, which lists of submissions are ordered by. -/
def startOf (r : Submission) : Int :=
  r.grade.startTime.instant

/-- A list `kept` holds what was `saved`, by start time (`sorted`), and equal times in the order of
saving (`ties`). -/
structure InSavingOrder (saved kept : List Submission) : Prop where
  sorted : kept.Pairwise fun q r => startOf q ≤ startOf r
  ties : ∀ t, (kept.filter fun r => startOf r = t) = saved.filter fun r => startOf r = t

namespace InSavingOrder

variable {saved kept : List Submission}

theorem nil : InSavingOrder [] [] :=
  ⟨List.Pairwise.nil, fun _ => rfl⟩

theorem mem_iff (h : InSavingOrder saved kept) (r : Submission) : r ∈ kept ↔ r ∈ saved := by
  have hties := h.ties (startOf r)
  have hkept : r ∈ kept ↔ r ∈ kept.filter fun q => startOf q = startOf r := by simp
  have hsaved : r ∈ saved ↔ r ∈ saved.filter fun q => startOf q = startOf r := by simp
  rw [hkept, hsaved, hties]

/-- What stands at the head of a list starts no later than anything that was saved. -/
theorem head_le {q : Submission} {rest : List Submission} (h : InSavingOrder saved (q :: rest))
    {r : Submission} (hr : r ∈ saved) : startOf q ≤ startOf r := by
  rcases List.mem_cons.1 ((h.mem_iff r).2 hr) with rfl | hrest
  · exact Int.le_refl _
  · exact (List.pairwise_cons.1 h.sorted).1 r hrest

/-- The order determines the list, so that there is no need to say how it was made. -/
theorem unique : ∀ {saved kept other : List Submission}, InSavingOrder saved kept →
    InSavingOrder saved other → kept = other
  | saved, [], [], _, _ => rfl
  | saved, [], r :: rest, h, ho =>
    absurd ((h.mem_iff r).2 ((ho.mem_iff r).1 List.mem_cons_self)) List.not_mem_nil
  | saved, q :: rest, [], h, ho =>
    absurd ((ho.mem_iff q).2 ((h.mem_iff q).1 List.mem_cons_self)) List.not_mem_nil
  | saved, q :: qs, r :: rs, h, ho => by
    have hqr : startOf q = startOf r :=
      Int.le_antisymm (h.head_le ((ho.mem_iff r).1 List.mem_cons_self))
        (ho.head_le ((h.mem_iff q).1 List.mem_cons_self))
    have hsame : ∀ t, ((q :: qs).filter fun x => startOf x = t)
        = (r :: rs).filter fun x => startOf x = t :=
      fun t => (h.ties t).trans (ho.ties t).symm
    -- at the instant of the heads, both filtered lists begin with them
    have hheads := hsame (startOf q)
    rw [List.filter_cons_of_pos (by simp), List.filter_cons_of_pos (by simp [hqr])] at hheads
    obtain ⟨rfl, -⟩ := List.cons.inj hheads
    have hrest : ∀ t, (qs.filter fun x => startOf x = t) = rs.filter fun x => startOf x = t := by
      intro t
      have ht := hsame t
      rw [List.filter_cons, List.filter_cons] at ht
      split at ht
      · exact (List.cons.inj ht).2
      · exact ht
    have hqs : InSavingOrder rs qs := ⟨h.sorted.of_cons, hrest⟩
    rw [hqs.unique ⟨ho.sorted.of_cons, fun _ => rfl⟩]

/-- Sorting by start time is stable, and keeps equal times in the order of saving. -/
theorem mergeSort (saved : List Submission) :
    InSavingOrder saved (saved.mergeSort fun q r => decide (startOf q ≤ startOf r)) := by
  have htrans : ∀ a b c : Submission, decide (startOf a ≤ startOf b) = true →
      decide (startOf b ≤ startOf c) = true → decide (startOf a ≤ startOf c) = true := by
    intro a b c hab hbc
    exact decide_eq_true (Int.le_trans (of_decide_eq_true hab) (of_decide_eq_true hbc))
  have htotal : ∀ a b : Submission,
      (decide (startOf a ≤ startOf b) || decide (startOf b ≤ startOf a)) = true := by
    intro a b
    simpa using Int.le_total (startOf a) (startOf b)
  refine ⟨(List.pairwise_mergeSort htrans htotal saved).imp of_decide_eq_true, fun t => ?_⟩
  -- those of one instant are sorted as they stand, so they come out as a sublist
  have hequal : (saved.filter fun r => startOf r = t).Pairwise
      fun a b => decide (startOf a ≤ startOf b) = true := by
    refine List.pairwise_filter.2 (List.pairwise_of_forall fun a b ha hb => decide_eq_true ?_)
    exact Int.le_of_eq ((of_decide_eq_true ha).trans (of_decide_eq_true hb).symm)
  have hsub := (List.sublist_mergeSort htrans htotal hequal List.filter_sublist).filter
    fun r => decide (startOf r = t)
  simp only [List.filter_filter, Bool.and_self] at hsub
  have hlength := ((List.mergeSort_perm saved fun q r => decide (startOf q ≤ startOf r)).filter
    fun r => decide (startOf r = t)).length_eq
  exact (hsub.eq_of_length hlength.symm).symm

/-- A submission that `insertByStart` puts in its place counts as saved last. -/
theorem insertByStart (h : InSavingOrder saved kept) (r : Submission) :
    InSavingOrder (saved ++ [r]) (insertByStart r kept) := by
  have hsorted : ∀ rs : List Submission, rs.Pairwise (fun a b => startOf a ≤ startOf b) →
      InSavingOrder (rs ++ [r]) (Store.insertByStart r rs) := by
    intro rs hrs
    induction rs with
    | nil => exact ⟨List.pairwise_singleton _ r, fun _ => rfl⟩
    | cons q rest ih =>
      obtain ⟨hq, hrest⟩ := List.pairwise_cons.1 hrs
      have hbehind := ih hrest
      rw [Store.insertByStart]
      split
      · next hlt =>
        -- everything there starts later, so nothing ties with the new one
        have hlater : ∀ x ∈ q :: rest, startOf r < startOf x := by
          intro x hx
          rcases List.mem_cons.1 hx with rfl | hx
          · exact hlt
          · exact Int.lt_of_lt_of_le hlt (hq x hx)
        refine ⟨List.pairwise_cons.2 ⟨fun x hx => Int.le_of_lt (hlater x hx), hrs⟩, fun t => ?_⟩
        by_cases ht : startOf r = t
        · have hnone : ((q :: rest).filter fun x => startOf x = t) = [] := by
            refine List.filter_eq_nil_iff.2 fun x hx => ?_
            have hx := hlater x hx
            simp only [decide_eq_true_eq]
            omega
          rw [List.filter_append, hnone, List.filter_cons_of_pos (by simpa using ht), hnone]
          simp [ht]
        · rw [List.filter_cons_of_neg (by simpa using ht), List.filter_append,
            List.filter_cons_of_neg (l := []) (by simpa using ht), List.filter_nil,
            List.append_nil]
      · next hnot =>
        refine ⟨List.pairwise_cons.2 ⟨fun x hx => ?_, hbehind.sorted⟩, fun t => ?_⟩
        · rcases List.mem_append.1 ((hbehind.mem_iff x).1 hx) with hx | hx
          · exact hq x hx
          · rw [List.mem_singleton.1 hx]
            exact Int.not_lt.1 hnot
        · rw [List.cons_append, List.filter_cons, List.filter_cons, hbehind.ties t]
  have hkept := hsorted kept h.sorted
  refine ⟨hkept.sorted, fun t => ?_⟩
  rw [hkept.ties t, List.filter_append, List.filter_append, h.ties t]

end InSavingOrder

/-- What starts no earlier than all that is there comes last, behind what starts at the same
time. -/
theorem insertByStart_of_last {rs : List Submission} {r : Submission}
    (h : ∀ q ∈ rs, startOf q ≤ startOf r) : insertByStart r rs = rs ++ [r] := by
  induction rs with
  | nil => rfl
  | cons q rest ih =>
    obtain ⟨hq, hrest⟩ := List.forall_mem_cons.1 h
    exact (if_neg (Int.not_lt.2 hq)).trans (congrArg (q :: ·) (ih hrest))

/-- To put a submission at the end of an ordered list and sort is to put it in its place. -/
theorem mergeSort_concat {rs : List Submission}
    (h : rs.Pairwise fun q r => startOf q ≤ startOf r) (r : Submission) :
    ((rs ++ [r]).mergeSort fun a b => decide (startOf a ≤ startOf b)) = insertByStart r rs :=
  (InSavingOrder.mergeSort (rs ++ [r])).unique
    (InSavingOrder.insertByStart ⟨h, fun _ => rfl⟩ r)

end Store
end Coursework
