import Coursework.Proofs.Hall.Basic

/-!
# Where an answer comes from

A request of a hall that was answered stays so (`Hall.answered_run`).  Content comes from the
handler of the endpoint, or, if the request submits, from the desk (`Hall.exists_answer`); a fault
can come from any stage.
-/

set_option autoImplicit false

namespace Coursework
namespace Endpoint

open Json

/-! ## One step -/

/-- What is answered with content was so before, or by its handler, or at the desk. -/
theorem Phase.Goes.content {e : Shipped} {phase : Phase e.Body} {d after : Desk} {v : Value}
    (h : phase.Goes e.kind e.handle d (.answered (.content v), after)) :
    phase = .answered (.content v) ∨
      (∃ m, phase = .ready m ∧ (e.handle m d.server).1 = .answer (.content v)) ∨
      ∃ r uploads a, phase = .visiting r uploads ∧ d.answer? r = some a ∧
        Reply.ofAnswer a = .content v := by
  generalize hreply : Reply.content v = reply at h ⊢
  cases h with
  | misplaced | turnedAway | incomplete => cases hreply
  | handled hwork => exact .inr (.inl ⟨_, rfl, by rw [hwork]⟩)
  | served hanswer => exact .inr (.inr ⟨_, _, _, rfl, hanswer, rfl⟩)
  | ended => exact .inl rfl

theorem Phase.Goes.visiting {e : Shipped} {phase : Phase e.Body} {d after : Desk} {r : Nat}
    {uploads : List UploadSet} (h : phase.Goes e.kind e.handle d (.visiting r uploads, after)) :
    phase = .visiting r uploads ∨ e = .submit := by
  cases h with
  | queued hwork =>
    right
    cases e with
    | submit => rfl
    | auth | password | roster | peek | history => simp [Shipped.handle] at hwork
  | waiting => exact .inl rfl

namespace Hall

/-! ## Answers stay -/

def Numbered (h : Hall) : Prop :=
  ∀ n c, h.calls.find? n = some c → n < h.next

theorem numbered_opened (s : Server) : (opened s).Numbered :=
  fun n c hc => by simp [opened] at hc

theorem Numbered.step {h : Hall} (hnumbered : h.Numbered) (event : Event) :
    (h.step event).Numbered := by
  intro n c hc
  rcases event with ⟨e, raw⟩ | k | ⟨r, m⟩ | s
  · rw [Hall.step, arrive, Table.find?_insert] at hc
    split at hc
    · next hn => exact hn ▸ Nat.lt_succ_self _
    · exact Nat.lt_succ_of_lt (hnumbered n c hc)
  · rw [Hall.step, proceed] at hc ⊢
    split at hc
    · exact hnumbered n c hc
    · next before hbefore =>
      rw [Table.find?_insert] at hc
      split at hc
      · next hn => exact hn ▸ hnumbered k before hbefore
      · exact hnumbered n c hc
  · exact hnumbered n c hc
  · exact hnumbered n c hc

theorem numbered_run (s : Server) (events : List Event) : ((opened s).run events).Numbered :=
  run_induction (fun _ e hh => hh.step e) (numbered_opened s) events

theorem answered_step {h : Hall} (hnumbered : h.Numbered) {n : Nat} {e : Shipped} {reply : Reply}
    (hanswered : h.calls.find? n = some ⟨e, .answered reply⟩) (event : Event) :
    (h.step event).calls.find? n = some ⟨e, .answered reply⟩ := by
  rcases event with ⟨endpoint, raw⟩ | k | ⟨r, m⟩ | s
  · have hne : n ≠ h.next := Nat.ne_of_lt (hnumbered n _ hanswered)
    rw [step, arrive, Table.find?_insert_of_ne _ _ hne]
    exact hanswered
  · rcases hk : h.calls.find? k with _ | c
    · rw [step, proceed, hk]
      exact hanswered
    · rw [step, proceed_of_find? hk, Table.find?_insert]
      split
      · next hn =>
        rw [← hn, hanswered] at hk
        obtain rfl := Option.some.inj hk
        rfl
      · exact hanswered
  · exact hanswered
  · exact hanswered

theorem answered_run {h : Hall} (hnumbered : h.Numbered) {n : Nat} {e : Shipped} {reply : Reply}
    (hanswered : h.calls.find? n = some ⟨e, .answered reply⟩) (events : List Event) :
    (h.run events).calls.find? n = some ⟨e, .answered reply⟩ := by
  induction events generalizing h with
  | nil => exact hanswered
  | cons event events ih =>
    exact ih (hnumbered.step event) (answered_step hnumbered hanswered event)

/-! ## Answers of handlers and of the desk -/

/-- Only submissions are at the desk. -/
def OnlySubmits (h : Hall) : Prop :=
  ∀ n e r uploads, h.calls.find? n = some ⟨e, .visiting r uploads⟩ → e = .submit

theorem onlySubmits_opened (s : Server) : (opened s).OnlySubmits :=
  fun n e r uploads hc => by simp [opened] at hc

theorem OnlySubmits.step {h : Hall} (honly : h.OnlySubmits) (event : Event) :
    (h.step event).OnlySubmits := by
  intro n e r uploads hcall
  rcases find?_step hcall with hthere | ⟨raw, hraw⟩ | ⟨before, d, -, hbefore, hgoes⟩
  · exact honly n e r uploads hthere
  · cases hraw
  · rcases hgoes.visiting with rfl | hsubmit
    · exact honly n e r uploads hbefore
    · exact hsubmit

/-- A request is answered with content when it goes on: by its handler (`Shipped.handle`), or at the
desk, where its submission is over. -/
inductive Answers (h : Hall) (n : Nat) : Shipped → Value → Prop
  | handler {e : Shipped} {m : Materialized e.Body} {v : Value}
      (ready : h.calls.find? n = some ⟨e, .ready m⟩)
      (answer : (e.handle m h.server).1 = .answer (.content v)) : Answers h n e v
  | desk {r : Nat} {uploads : List UploadSet} {a : Answer} {v : Value}
      (visiting : h.calls.find? n = some ⟨.submit, .visiting r uploads⟩)
      (answer : h.desk.answer? r = some a) (content : Reply.ofAnswer a = .content v) :
      Answers h n .submit v

/-- Whatever was answered with content was so at the beginning of a run, or there is a moment of it
when it was (`Answers`). -/
theorem exists_answer {h : Hall} (honly : h.OnlySubmits) {events : List Event} {n : Nat}
    {e : Shipped} {v : Value}
    (hcall : (h.run events).calls.find? n = some ⟨e, .answered (.content v)⟩) :
    h.calls.find? n = some ⟨e, .answered (.content v)⟩ ∨
      ∃ front back, events = front ++ .proceed n :: back ∧ (h.run front).Answers n e v := by
  induction events generalizing h with
  | nil => exact .inl hcall
  | cons event events ih =>
    rcases ih (honly.step event) hcall with hthere | ⟨front, back, rfl, hanswers⟩
    · rcases find?_step hthere with hold | ⟨raw, hraw⟩ | ⟨before, d, rfl, hbefore, hgoes⟩
      · exact .inl hold
      · cases hraw
      · rcases hgoes.content with
          rfl | ⟨m, rfl, hhandle⟩ | ⟨r, uploads, a, rfl, hanswer, hcontent⟩
        · exact .inl hbefore
        · exact .inr ⟨[], events, rfl, .handler hbefore hhandle⟩
        · obtain rfl := honly n e r uploads hbefore
          exact .inr ⟨[], events, rfl, .desk hbefore hanswer hcontent⟩
    · exact .inr ⟨event :: front, back, rfl, hanswers⟩

end Hall
end Endpoint
end Coursework
