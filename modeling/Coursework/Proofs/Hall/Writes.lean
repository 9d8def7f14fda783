import Coursework.Proofs.Hall.Privileges
import Coursework.Proofs.Store.Writes

/-!
# What the requests of a hall write

Two events write to the store of a hall: a submission that was graded is saved, and a request for a
new password puts back an account (`Hall.Writes`).  Each is one write of the store, and all other
events leave the store as it is (`Hall.store_step`).  So the store of a hall stays proper, and what
it has under an email is what it started with or what the last request wrote that changed it
(`Hall.account?_run`).
-/

set_option autoImplicit false

namespace Coursework
namespace Endpoint

/-! ## New passwords -/

def newPass (m : Materialized PasswordChange) : String :=
  Text.trim m.request.newPass

/-- Who gets a new password is the sender, and not a trusted local caller. -/
theorem setPassword_of_withNewPassword {m : Materialized PasswordChange} {salt : String}
    {a : Account} {duplicate : Bool} (h : withNewPassword m salt = .ok (a, duplicate)) :
    ∃ i, m.identity = some i ∧ i.account.isRoot = false ∧
      i.account.setPassword (newPass m) salt = .ok (a, duplicate) := by
  obtain ⟨i, hi, -⟩ := withNewPassword_eq_ok h
  refine ⟨i, hi, not_isRoot_of_withNewPassword h hi, ?_⟩
  rw [withNewPassword, Materialized.needIdentity, hi] at h
  dsimp only at h
  split at h
  · cases h
  · split at h
    · cases h
    · split at h
      · cases h
      · next hset =>
        cases h
        exact hset

/-- A request for a new password puts back an account, which is that of its sender with the new
password. -/
def Rewrites (m : Materialized PasswordChange) (s : Server) (written : Account) : Prop :=
  ∃ duplicate, withNewPassword m (s.entropy.drawHex Account.saltSize).1 = .ok (written, duplicate) ∧
    s.backend.putAccount written = .ok (changePassword m s).2.backend

/-- A request for a new password fails and leaves the store as it is, or it `Rewrites` an
account. -/
theorem changePassword_cases (m : Materialized PasswordChange) (s : Server) :
    (∃ f, (changePassword m s).1 = .error f ∧ (changePassword m s).2.backend = s.backend) ∨
      ∃ written, Rewrites m s written := by
  rcases hnew : withNewPassword m (s.entropy.drawHex Account.saltSize).1 with f | ⟨a, duplicate⟩
  · exact .inl ⟨f, by simp only [changePassword, hnew], by simp only [changePassword, hnew]⟩
  · rcases hput : s.backend.putAccount a with e | backend
    · exact .inl ⟨.store e, by simp only [changePassword, hnew, hput],
        by simp only [changePassword, hnew, hput]⟩
    · exact .inr ⟨a, duplicate, hnew, by simp only [changePassword, hnew, hput]⟩

theorem Shipped.store_handle {e : Shipped} (he : e ≠ .password) (m : Materialized e.Body)
    (s : Server) :
    (e.handle m s).2.backend.store = s.backend.store := by
  cases e with
  | auth | roster | peek | history => rfl
  | password => exact absurd rfl he
  | submit =>
    simp only [handle]
    split <;> rfl

/-- A request that goes on writes to the store in its handler, if at all. -/
theorem Phase.store_proceed {R : Type} {kind : RequestKind R}
    {handle : Materialized R → Server → Work × Server} {d : Desk} (phase : Phase R)
    (h : ∀ m, phase = .ready m → (handle m d.server).2.backend.store = d.server.backend.store) :
    (phase.proceed kind handle d).2.server.backend.store = d.server.backend.store := by
  have hgoes := phase.goes_proceed kind handle d
  generalize phase.proceed kind handle d = after at hgoes
  cases hgoes with
  | incomplete hcomplete | completed hcomplete =>
    have hsame := congrArg (fun outcome => outcome.2.backend.store) hcomplete
    rw [Request.backend_complete] at hsame
    exact hsame.symm
  | handled hwork | queued hwork =>
    have hsame := h _ rfl
    rw [hwork] at hsame
    exact hsame
  | _ => rfl

namespace Hall

structure Changes (h : Hall) (n : Nat) (m : Materialized PasswordChange) (written : Account) :
    Prop where
  ready : h.calls.find? n = some ⟨.password, .ready m⟩
  rewrites : Rewrites m h.server written

/-- What an event writes to the store: a submission that was graded, or an account with a new
password. -/
inductive Writes (h : Hall) : Event → Write → Prop
  | submission {r : Nat} {move : Move} {t : Ticket} {start finish : Time.Moment}
      {history : List Grade} {points : Points}
      (visit : h.desk.visits.find? r = some ⟨t, .marked start finish history points⟩) :
      Writes h (.move r move) (.submission (graded t start finish history points))
  | account {n : Nat} {m : Materialized PasswordChange} {written : Account}
      (changes : h.Changes n m written) : Writes h (.proceed n) (.account written)

theorem store_proceed_of_ready {h : Hall} {n : Nat} {m : Materialized PasswordChange}
    (hready : h.calls.find? n = some ⟨.password, .ready m⟩) :
    (h.step (.proceed n)).store = (changePassword m h.server).2.backend.store := by
  rw [step, proceed_of_find? hready]
  rfl

/-- **What an event does to the store**: it writes once (`Writes`), or not at all. -/
theorem store_step (h : Hall) (event : Event) :
    (h.step event).store = h.store ∨
      ∃ w, h.Writes event w ∧ w.apply h.store = .ok (h.step event).store := by
  rcases event with ⟨e, raw⟩ | n | ⟨r, m⟩ | s
  · exact .inl rfl
  · rcases hn : h.calls.find? n with _ | ⟨e, phase⟩
    · left
      rw [step, proceed, hn]
    · by_cases he : e = .password
      · subst he
        by_cases hready : ∃ m, phase = .ready m
        · obtain ⟨m, rfl⟩ := hready
          rw [store_proceed_of_ready hn]
          rcases changePassword_cases m h.server with ⟨f, -, hsame⟩ | ⟨written, hwrites⟩
          · left
            rw [hsame]
            rfl
          · refine .inr ⟨.account written, .account ⟨hn, hwrites⟩, ?_⟩
            obtain ⟨duplicate, -, hput⟩ := hwrites
            exact Backend.putAccount_eq_ok hput
        · left
          rw [step, proceed_of_find? hn]
          exact phase.store_proceed fun m hm => absurd ⟨m, hm⟩ hready
      · left
        rw [step, proceed_of_find? hn]
        exact phase.store_proceed fun m _ => Shipped.store_handle he m _
  · rcases hr : h.desk.visits.find? r with _ | v
    · left
      rw [step, store, store, Desk.move, hr]
    · have hdesk : (h.step (.move r m)).store =
          (v.stage.move r v.ticket h.server m).2.backend.store := by
        rw [step, store, Desk.move_of_find? hr]
        rfl
      rw [hdesk]
      rcases (v.stage.goes_move r v.ticket h.server m).store with
        hsame | ⟨start, finish, history, points, hstage, hsave⟩
      · exact .inl hsame
      · refine .inr ⟨_, .submission (by rw [hr, ← hstage]), hsave⟩
  · exact .inl rfl

/-! ## What stays -/

theorem proper_step {h : Hall} (hproper : h.store.Proper) (event : Event) :
    (h.step event).store.Proper := by
  rcases h.store_step event with hsame | ⟨w, -, hw⟩
  · rw [hsame]
    exact hproper
  · exact hproper.apply hw

theorem proper_run {h : Hall} (hproper : h.store.Proper) (events : List Event) :
    (h.run events).store.Proper := by
  have hstep : ∀ (u : Hall) (e : Event), u.store.Proper → (u.step e).store.Proper :=
    fun u e hu => proper_step hu e
  exact run_induction hstep hproper events

theorem account?_step (h : Hall) (event : Event) (email : String) :
    (h.step event).store.account? email = h.store.account? email ∨
      ∃ n m written, event = .proceed n ∧ h.Changes n m written ∧ written.email = email ∧
        (h.step event).store.account? email = some written := by
  rcases h.store_step event with hsame | ⟨w, hwrites, hw⟩
  · exact .inl (by rw [hsame])
  · rcases hwrites with _ | hchanges
    · obtain ⟨-, hafter⟩ := Store.save_eq_ok hw
      exact .inl (by rw [hafter]; rfl)
    · next n m written =>
      have haccount := Store.account?_putAccount hw email
      split at haccount
      · next hemail => exact .inr ⟨n, m, written, rfl, hchanges, hemail.symm, haccount⟩
      · exact .inl haccount

/-- An account is as it was at the beginning of a run, or as the last request has put it back that
changed it. -/
theorem account?_run (h : Hall) (events : List Event) (email : String) :
    (h.run events).store.account? email = h.store.account? email ∨
      ∃ front n back m written, events = front ++ .proceed n :: back ∧
        (h.run front).Changes n m written ∧ written.email = email ∧
        (h.run events).store.account? email = some written := by
  induction events generalizing h with
  | nil => exact .inl rfl
  | cons event events ih =>
    rcases ih (h.step event) with hsame | ⟨front, n, back, m, written, rfl, hchanges⟩
    · rcases h.account?_step event email with hkept | ⟨n, m, written, rfl, hchanges, hemail, hnow⟩
      · exact .inl (hsame.trans hkept)
      · exact .inr ⟨[], n, events, m, written, rfl, hchanges, hemail, hsame.trans hnow⟩
    · exact .inr ⟨event :: front, n, back, m, written, rfl, hchanges⟩

end Hall
end Endpoint
end Coursework
