import Coursework.Proofs.Desk.FreshIds

/-!
# What is answered was saved

The answer to a submission is known from the moment when it is saved (`Desk.answered_step`), and is
given some time later.  As nothing that is saved is taken away, whatever is answered is there then
and ever after (`Desk.AnswersSaved`).
-/

set_option autoImplicit false

namespace Coursework
namespace Endpoint

open Time

namespace Stage

/-- The answer to a submission, once it is known, unless the submission was abandoned. -/
def answer? : Stage → Option Answer
  | .answered a => some a
  | .leaving a | .finished a => a
  | .arrived | .queued | .holding | .informed _ | .admitted _ _ | .marked _ _ _ _ => none

/-- That a submission was graded is known after a move if it was known before, or if the move saves
it. -/
theorem Goes.answer? {r : Nat} {t : Ticket} {s : Server} {stage : Stage} {m : Move}
    {after : Stage × Server} (hgoes : Goes r t s stage m after) {g : Grade}
    (h : after.1.answer? = some (.ok (.graded g))) :
    stage.answer? = some (.ok (.graded g)) ∨
      ∃ start finish history points b, m = .proceed ∧ stage = .marked start finish history points ∧
        saveGraded t start finish history points s.backend = .ok b ∧
        g = (graded t start finish history points).grade := by
  cases hgoes with
  | saved hsaved =>
    cases h
    exact .inr ⟨_, _, _, _, _, rfl, rfl, hsaved, rfl⟩
  | left | tidied | stayed => exact .inl h
  | _ => cases h

end Stage

namespace Desk

/-- An event gives a request with a ticket its answer: what it submitted was graded. -/
def AnswersGraded (d : Desk) (e : Event) (t : Ticket) (g : Grade) : Prop :=
  ∃ q stage, (d.step e).visits.find? q = some ⟨t, stage⟩ ∧
    stage.answer? = some (.ok (.graded g)) ∧
    ∀ v, d.visits.find? q = some v → v.stage.answer? ≠ some (.ok (.graded g))

/-- What is answered as graded was so before, or the event gives this answer and saves what it shows
(`AnswersGraded.saved`). -/
theorem answered_step {d : Desk} {e : Event} {q : Nat} {w : Visit} {g : Grade}
    (hw : (d.step e).visits.find? q = some w) (hanswer : w.stage.answer? = some (.ok (.graded g))) :
    (∃ v, d.visits.find? q = some v ∧ v.ticket = w.ticket ∧
        v.stage.answer? = some (.ok (.graded g))) ∨
      ∃ start finish history points,
        d.saved? e = some (graded w.ticket start finish history points) ∧
        g = (graded w.ticket start finish history points).grade := by
  obtain hold | ⟨-, harrived⟩ | ⟨⟨t, stage⟩, m, rfl, hv, rfl, hgoes⟩ := find?_step hw
  · exact .inl ⟨w, hold, rfl, hanswer⟩
  · rw [harrived] at hanswer
    cases hanswer
  · obtain hknown | ⟨start, finish, history, points, b, rfl, hstage, hsave, hg⟩ :=
      hgoes.answer? hanswer
    · exact .inl ⟨_, hv, rfl, hknown⟩
    · obtain rfl : stage = .marked start finish history points := hstage
      exact .inr ⟨start, finish, history, points, by simp only [saved?, hv, hsave], hg⟩

theorem AnswersGraded.saved {d : Desk} {e : Event} {t : Ticket} {g : Grade}
    (h : d.AnswersGraded e t g) :
    ∃ r, d.saved? e = some r ∧ Store.keyOf r = t.key ∧ r.grade = g := by
  obtain ⟨q, stage, hafter, hanswer, hbefore⟩ := h
  rcases answered_step hafter hanswer with
    ⟨v, hv, -, hknown⟩ | ⟨start, finish, history, points, hsaved, hg⟩
  · exact absurd hknown (hbefore v hv)
  · exact ⟨_, hsaved, rfl, hg.symm⟩

def HasSaved (d : Desk) (t : Ticket) (g : Grade) : Prop :=
  ∃ start finish history points, g = (graded t start finish history points).grade ∧
    graded t start finish history points ∈ d.submissionsOf t.key

theorem HasSaved.step {d : Desk} {t : Ticket} {g : Grade} (h : d.HasSaved t g) (e : Event) :
    (d.step e).HasSaved t g := by
  obtain ⟨start, finish, history, points, hg, hmem⟩ := h
  exact ⟨start, finish, history, points, hg, (submissionsOf_step_sublist d e t.key).subset hmem⟩

/-- Whatever is answered as graded was saved.  This holds at every `Desk` that was opened and
run. -/
def AnswersSaved (d : Desk) : Prop :=
  ∀ r v g, d.visits.find? r = some v → v.stage.answer? = some (.ok (.graded g)) →
    d.HasSaved v.ticket g

theorem answersSaved_opened (s : Server) : (opened s).AnswersSaved :=
  fun r v g hv => by simp [opened] at hv

theorem AnswersSaved.step {d : Desk} (h : d.AnswersSaved) (e : Event) :
    (d.step e).AnswersSaved := by
  intro q w g hw hanswer
  rcases answered_step hw hanswer with
    ⟨v, hv, hticket, hknown⟩ | ⟨start, finish, history, points, hsaved, hg⟩
  · exact hticket ▸ (h q v g hv hknown).step e
  · obtain ⟨_, _, _, _, _, _, -, -, hsave⟩ := saved?_eq_some hsaved
    exact ⟨start, finish, history, points, hg,
      (Store.gained_save hsave).own.mem_iff.2 List.mem_cons_self⟩

end Desk
end Endpoint
end Coursework
