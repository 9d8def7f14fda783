import Coursework.Endpoint.Shipped
import Coursework.Proofs.Confinement.Stages

/-!
# What a user who is no staff can reach

The same request is sent to two servers that differ in their stores only, and the stores agree for
the user who sends it.  Whichever of the six endpoints it goes to, the answers are the same, so that
nothing the stores disagree on can be found out from them; and nothing that is not the user's own is
changed.

What is left after `Request.materialize_withStore` are the handlers.  Where another user is named,
the request is refused before that user is looked up; and admission and the short id of a submission
depend on the user's own history only.
-/

set_option autoImplicit false

namespace Coursework

open Json

/-! ## Handlers -/

namespace Endpoint

open Request

variable {email : String} {s : Server} {u : Store}

/-- For a user who is no staff, `findTarget` looks up nobody else. -/
theorem findTarget_of_runsAs {b : Backend} {i : Identity} (h : RunsAs email b.store i)
    (course : Course) (named : String) :
    findTarget b i course named =
      if Text.trim named = "" ∨ Text.trim named = email then .ok ⟨email, true⟩
      else .error (.targetUserDenied (Text.trim named)) := by
  simp only [findTarget, h.email, h.role, Bool.false_eq_true, if_false]

section Target

variable {R : Type} {b : Backend} {m : Materialized R}
  (h : ∀ i, m.identity = some i → RunsAs email b.store i) (agree : b.store.AgreeFor email u)
include h

theorem email_of_resolveTarget {named : String} {t : Target}
    (ht : resolveTarget b m named = .ok t) : t.email = email := by
  rw [resolveTarget] at ht
  split at ht
  · cases ht
  · next i hi =>
    split at ht
    · cases ht
    · rw [findTarget_of_runsAs (h i (Materialized.identity_of_needIdentity hi))] at ht
      split at ht
      · cases ht
        rfl
      · cases ht

include agree in
theorem resolveTarget_withStore (named : String) :
    resolveTarget (b.withStore u) m named = resolveTarget b m named := by
  rw [resolveTarget, resolveTarget]
  cases hi : m.needIdentity with
  | error f => rfl
  | ok i =>
    have hruns := h i (Materialized.identity_of_needIdentity hi)
    have hother : RunsAs email (b.withStore u).store i :=
      ⟨agree.account.trans hruns.account, hruns.email, hruns.role⟩
    simp only [findTarget_of_runsAs hruns, findTarget_of_runsAs hother]

end Target

theorem peek_withStore {b : Backend} {m : Materialized PeekRequest}
    (h : ∀ i, m.identity = some i → RunsAs email b.store i) (agree : b.store.AgreeFor email u) :
    peek (b.withStore u) m = peek b m := by
  rw [peek, peek, resolveTarget_withStore h agree]
  cases m.needCourse with
  | error f => simp only [bind, Except.bind]
  | ok course =>
    cases m.needAssignment with
    | error f => simp only [bind, Except.bind]
    | ok assignment =>
      cases ht : resolveTarget b m m.request.targetEmail with
      | error f => simp only [bind, Except.bind]
      | ok target =>
        have hfound : ∀ short,
            (b.withStore u).submission? ⟨course.id, assignment.id, target.email⟩ short =
              b.submission? ⟨course.id, assignment.id, target.email⟩ short :=
          Backend.submission?_withStore agree (email_of_resolveTarget h ht)
        simp only [bind, Except.bind, hfound]

theorem history_withStore {b : Backend} {m : Materialized HistoryRequest}
    (h : ∀ i, m.identity = some i → RunsAs email b.store i) (agree : b.store.AgreeFor email u) :
    history (b.withStore u) m = history b m := by
  rw [history, history, resolveTarget_withStore h agree]
  cases m.needCourse with
  | error f => simp only [bind, Except.bind]
  | ok course =>
    cases m.needAssignment with
    | error f => simp only [bind, Except.bind]
    | ok assignment =>
      cases ht : resolveTarget b m m.request.targetEmail with
      | error f => simp only [bind, Except.bind]
      | ok target =>
        have hfound : (b.withStore u).history ⟨course.id, assignment.id, target.email⟩ =
            b.history ⟨course.id, assignment.id, target.email⟩ :=
          Backend.history_withStore agree (email_of_resolveTarget h ht)
        simp only [bind, Except.bind, hfound]

/-! ### Writing -/

theorem withNewPassword_eq_ok {m : Materialized PasswordChange} {salt : String} {a : Account}
    {duplicate : Bool} (h : withNewPassword m salt = .ok (a, duplicate)) :
    ∃ i, m.identity = some i ∧ a.email = i.account.email ∧
      a.withoutPassword = i.account.withoutPassword := by
  rw [withNewPassword] at h
  split at h
  · cases h
  · next i hi =>
    split at h
    · cases h
    · dsimp only at h
      split at h
      · cases h
      · split at h
        · cases h
        · next changed hset =>
          rw [Account.setPassword] at hset
          split at hset
          · cases hset
            cases h
            exact ⟨i, Materialized.identity_of_needIdentity hi, rfl, rfl⟩
          · cases hset

theorem changePassword_confined {m : Materialized PasswordChange}
    (h : ∀ i, m.identity = some i → RunsAs email s.backend.store i)
    (agree : s.backend.store.AgreeFor email u) :
    Confined email s.backend.store u (changePassword m s)
      (changePassword m (s.withStore u)) := by
  cases hnew : withNewPassword m (s.entropy.drawHex Account.saltSize).1 with
  | error f =>
    have hs : changePassword m s = (.error f, s) := by
      simp only [changePassword, hnew]
    have hu : changePassword m (s.withStore u) = (.error f, s.withStore u) := by
      simp only [changePassword, Server.withStore, hnew]
    rw [hs, hu]
    exact .unwritten agree _ rfl
  | ok changed =>
    obtain ⟨a, duplicate⟩ := changed
    obtain ⟨i, hi, hemail, hsame⟩ := withNewPassword_eq_ok hnew
    have hruns := h i hi
    have hown : a.email = email := hemail.trans hruns.email
    subst hown
    let v : Server := { s with entropy := (s.entropy.drawHex Account.saltSize).2 }
    rcases Backend.putAccount_withStore agree hruns.account hsame with
      ⟨e, hp, hq⟩ | ⟨c, d, hp, hq, hafter, hfirst, hsecond⟩
    · have hs : changePassword m s = (.error (.store e), v) := by
        simp only [changePassword, hnew, hp, v]
      have hu : changePassword m (s.withStore u) = (.error (.store e), v.withStore u) := by
        simp only [changePassword, Server.withStore, hnew, hq, v]
      rw [hs, hu]
      exact .unwritten agree _ rfl
    · have hs : changePassword m s =
          (.ok (.object [("success", .bool true), ("duplicate", .bool duplicate)]),
            v.withStore c) := by
        simp only [changePassword, Server.withStore, hnew, hp, v]
      have hu : changePassword m (s.withStore u) =
          (.ok (.object [("success", .bool true), ("duplicate", .bool duplicate)]),
            v.withStore d) := by
        simp only [changePassword, Server.withStore, hnew, hq, v]
      rw [hs, hu]
      exact ⟨rfl, rfl, hafter, hfirst, hsecond⟩

/-- A `Ticket` is made out to the sender, for the course and the assignment of the request. -/
theorem ticket_eq_ok {m : Materialized SubmitRequest} {t : Ticket} (h : ticket m = .ok t) :
    ∃ i, m.identity = some i ∧ m.course = some t.course ∧ m.assignment = some t.assignment ∧
      t.email = i.account.email := by
  simp only [ticket, Materialized.needIdentity, Materialized.needCourse,
    Materialized.needAssignment] at h
  rcases hi : m.identity with _ | i
  · rw [hi] at h
    cases h
  · rcases hc : m.course with _ | c
    · rw [hi, hc] at h
      cases h
    · rcases ha : m.assignment with _ | a
      · rw [hi, hc, ha] at h
        cases h
      · rcases hfiles : m.request.files with _ | files
        · rw [hi, hc, ha, hfiles] at h
          cases h
        · rw [hi, hc, ha, hfiles] at h
          cases h
          exact ⟨i, rfl, rfl, rfl, rfl⟩

/-- What is graded is saved in both stores alike: whether a number is left for it (`hasNext`)
depends on the sender's own history. -/
theorem saveGraded_withStore {b : Backend} {t : Ticket} (agree : b.store.AgreeFor email u)
    (ht : t.email = email) (start finish : Time.Moment) (history : List Grade) (points : Points) :
    (∃ f, saveGraded t start finish history points b = .error f ∧
      saveGraded t start finish history points (b.withStore u) = .error f) ∨
    ∃ c d, saveGraded t start finish history points b = .ok (b.withStore c) ∧
      saveGraded t start finish history points (b.withStore u) = .ok (b.withStore d) ∧
      c.AgreeFor email d ∧ b.store.ChangedOnlyFor email c ∧ u.ChangedOnlyFor email d := by
  rw [saveGraded, saveGraded]
  split
  · rcases Backend.save_withStore agree (r := graded t start finish history points) ht with
      ⟨e, hp, hq⟩ | ⟨c, d, hp, hq, hsame⟩
    · exact .inl ⟨.store e, by rw [hp], by rw [hq]⟩
    · exact .inr ⟨c, d, by rw [hp], by rw [hq], hsame⟩
  · exact .inl ⟨_, rfl, rfl⟩

theorem record_confined {t : Ticket} (ht : t.email = email)
    (agree : s.backend.store.AgreeFor email u) (start : Time.Moment) (history : List Grade) :
    Confined email s.backend.store u (record t start history s)
      (record t start history (s.withStore u)) := by
  let v : Server := (s.grade (job t s.disk)).2
  cases hgrade : s.grader.grade (job t s.disk) with
  | error e =>
    have hs : record t start history s = (.error (.gradingFailed e.message), v) := by
      simp only [record, Server.grade, hgrade, v]
    have hu : record t start history (s.withStore u) =
        (.error (.gradingFailed e.message), v.withStore u) := by
      simp only [record, Server.grade, Server.advance, Server.withStore, hgrade, v]
    rw [hs, hu]
    exact .unwritten agree _ rfl
  | ok points =>
    let r : Submission := graded t start v.clock history points
    rcases saveGraded_withStore agree ht start v.clock history points with
      ⟨f, hp, hq⟩ | ⟨c, d, hp, hq, hafter, hfirst, hsecond⟩
    · have hs : record t start history s = (.error f, v) := by
        simp only [v, Server.grade, Server.advance] at hp
        simp only [record, Server.grade, Server.advance, hgrade, hp, v]
      have hu : record t start history (s.withStore u) = (.error f, v.withStore u) := by
        simp only [v, Server.grade, Server.advance] at hq
        simp only [record, Server.grade, Server.advance, Server.withStore, hgrade, hq, v]
      rw [hs, hu]
      exact .unwritten agree _ rfl
    · have hs : record t start history s = (.ok (.graded r.grade), v.withStore c) := by
        simp only [v, Server.grade, Server.advance] at hp
        simp only [record, Server.grade, Server.advance, Server.withStore, hgrade, hp, v, r]
      have hu : record t start history (s.withStore u) =
          (.ok (.graded r.grade), v.withStore d) := by
        simp only [v, Server.grade, Server.advance] at hq
        simp only [record, Server.grade, Server.advance, Server.withStore, hgrade, hq, v, r]
      rw [hs, hu]
      exact ⟨rfl, rfl, hafter, hfirst, hsecond⟩

/-- Admission and the short id depend on the sender's own history alone, so that `submitLocked` is
`Confined`. -/
theorem submitLocked_confined {t : Ticket} (ht : t.email = email)
    (agree : s.backend.store.AgreeFor email u) :
    Confined email s.backend.store u (submitLocked t s) (submitLocked t (s.withStore u)) := by
  have hhistory : (s.withStore u).backend.history t.key = s.backend.history t.key :=
    Backend.history_withStore agree ht
  rw [submitLocked, submitLocked, hhistory]
  cases s.backend.history t.key with
  | error e => exact .unwritten agree _ rfl
  | ok history =>
    have hjudge : judge t (s.withStore u).clock history = judge t s.clock history := rfl
    simp only [hjudge]
    cases judge t s.clock history with
    | error e =>
      exact .unwritten (v := { s with metrics := s.metrics.countRejected e }) agree _ rfl
    | ok _ =>
      exact record_confined (s := { s with metrics := s.metrics.countAdmitted }) ht agree s.clock
        history

theorem submit_confined {m : Materialized SubmitRequest}
    (h : ∀ i, m.identity = some i → RunsAs email s.backend.store i)
    (agree : s.backend.store.AgreeFor email u) :
    Confined email s.backend.store u (submit m s) (submit m (s.withStore u)) := by
  cases ht : ticket m with
  | error f =>
    simp only [submit, ht]
    exact .unwritten agree _ rfl
  | ok t =>
    obtain ⟨i, hi, -, -, hemail⟩ := ticket_eq_ok ht
    have hlocked := submitLocked_confined (s := (takeLock t s).2)
      (hemail.trans (h i hi).email) agree
    simp only [submit, ht]
    exact hlocked.map id (g := fun v => { v with locks := v.locks.release s.nextRequest })
      (fun _ _ => rfl) fun _ => rfl

end Endpoint

/-! ## Routes -/

section Routes

open Request

variable {email : String} {s : Server} {u : Store} {raw : RawRequest} {context : Context}

/-- A route treats a request alike on both servers if its handler does so with whatever `RunsAs` the
user, and if only staff is given a roster. -/
theorem Route.call_confined {R : Type} {route : Route} {endpoint : String} {kind : RequestKind R}
    {handler : Materialized R → Server → Reply × Server}
    (hroute : route = .of endpoint kind handler)
    {own : List String} {read : Decode.Fields → Option R}
    (hdecode : kind.decode = RequestKind.decodeWith own read) (hkeyed : s.backend.store.Keyed)
    (agree : s.backend.store.AgreeFor email u) (hcontext : contextOf? raw = some context)
    (hnonce : context.nonce = "") (hemail : Text.trim context.userEmail = email)
    (hrole : NoStaff email s.backend.store route.schema context)
    (hfields : (∀ f ∈ kind.schema.fields, f.kind = .files) ∨
      kind.schema.needsUser = true ∧ .grader ∈ kind.schema.markers)
    (hhandler : ∀ m v, (∀ i, m.identity = some i → RunsAs email v.backend.store i) →
      v.backend.store.AgreeFor email u →
      Confined email v.backend.store u (handler m v) (handler m (v.withStore u))) :
    Confined email s.backend.store u (route.call raw s) (route.call raw (s.withStore u)) := by
  subst hroute
  have hread : ∀ r c, decodeText? kind.decode raw.content = some (r, c) → c = context := by
    intro r c h
    rw [hdecode] at h
    exact Option.some.inj ((contextOf?_of_decodeWith h).symm.trans hcontext)
  have hmaterialize := materialize_withStore agree hread hemail
    fun course assignment identity nonces hresolve hadmit => hfields.resolve_right fun hstaff =>
      admitSender_ne_ok hkeyed hnonce hemail hrole hresolve hstaff.1 hstaff.2 hadmit
  have hbackend := backend_materialize kind raw s
  cases hm : materialize kind raw s with
  | mk outcome v =>
    rw [hm] at hmaterialize hbackend
    have hstore : v.backend.store = s.backend.store := congrArg Backend.store hbackend
    dsimp only at hmaterialize
    cases outcome with
    | error f =>
      simp only [Route.of, Route.run, hm, hmaterialize]
      exact .unwritten agree _ hstore
    | ok m =>
      have hruns : ∀ i, m.identity = some i → RunsAs email v.backend.store i := fun i hi =>
        hstore ▸ runsAs_of_materialize hkeyed hread hnonce hemail hrole hm hi
      have hboth := hhandler m v hruns (hstore ▸ agree)
      rw [hstore] at hboth
      simp only [Route.of, Route.run, hm, hmaterialize]
      exact hboth.map id (g := fun w => { w with disk := UploadSet.discardAll m.uploads w.disk })
        (fun _ _ => rfl) fun _ => rfl

/-- **Users who are no staff are confined to what is theirs.**  Let a request without a nonce name a
user who has no staff role in the course that it is about, if its endpoint has one (`NoStaff`), and
send it to two servers that differ only in what their stores hold of other users (`AgreeFor`).  At
each of the six endpoints (`Endpoint.shipped`) the answers are the same; so are the servers
afterwards but for their stores, which again agree for the user; and in neither store has anything
changed but the user's password and submissions. -/
theorem shipped_confined {route : Route} (hroute : route ∈ Endpoint.shipped)
    (hkeyed : s.backend.store.Keyed) (agree : s.backend.store.AgreeFor email u)
    (hcontext : contextOf? raw = some context) (hnonce : context.nonce = "")
    (hemail : Text.trim context.userEmail = email)
    (hrole : NoStaff email s.backend.store route.schema context) :
    Confined email s.backend.store u (route.call raw s) (route.call raw (s.withStore u)) := by
  simp only [Endpoint.shipped, List.mem_cons, List.not_mem_nil, or_false] at hroute
  rcases hroute with rfl | rfl | rfl | rfl | rfl | rfl
  · -- confirming credentials
    refine Route.call_confined rfl rfl hkeyed agree hcontext hnonce hemail hrole (.inl ?_) ?_
    · exact fun f hf => by cases hf
    · exact fun m v _ hagree => .unwritten hagree _ rfl
  · -- changing the password
    refine Route.call_confined rfl rfl hkeyed agree hcontext hnonce hemail hrole (.inl ?_) ?_
    · exact fun f hf => by cases hf
    · exact fun m v hruns hagree => (Endpoint.changePassword_confined hruns hagree).map
        (fun answer => Reply.ofResult (answer.map .ok)) (g := id) (fun _ _ => rfl) fun _ => rfl
  · -- the roster, which is for staff
    refine Route.call_confined rfl rfl hkeyed agree hcontext hnonce hemail hrole (.inr ?_) ?_
    · exact ⟨rfl, List.mem_cons_self⟩
    · exact fun m v _ hagree => .unwritten hagree _ rfl
  · -- submitting
    refine Route.call_confined rfl rfl hkeyed agree hcontext hnonce hemail hrole (.inl ?_) ?_
    · intro f hf
      cases List.mem_singleton.1 hf
      rfl
    · exact fun m v hruns hagree => (Endpoint.submit_confined hruns hagree).map
        Reply.ofAnswer (g := id) (fun _ _ => rfl) fun _ => rfl
  · -- looking at one submission
    refine Route.call_confined rfl rfl hkeyed agree hcontext hnonce hemail hrole (.inl ?_) ?_
    · exact fun f hf => by cases hf
    · intro m v hruns hagree
      have hsame : Endpoint.peek (v.withStore u).backend m = Endpoint.peek v.backend m :=
        Endpoint.peek_withStore hruns hagree
      simp only [hsame]
      exact .unwritten hagree _ rfl
  · -- looking at all submissions
    refine Route.call_confined rfl rfl hkeyed agree hcontext hnonce hemail hrole (.inl ?_) ?_
    · exact fun f hf => by cases hf
    · intro m v hruns hagree
      have hsame : Endpoint.history (v.withStore u).backend m = Endpoint.history v.backend m :=
        Endpoint.history_withStore hruns hagree
      simp only [hsame]
      exact .unwritten hagree _ rfl

end Routes

/-! ## To try things out with -/

def studentStore : Store where
  courses := Table.empty.insert "cs1" ⟨"cs1", ""⟩
  assignments := Table.empty.insert ("cs1", "hw1") ⟨"hw1", "cs1", "", none, 10, none, none⟩
  accounts := Table.empty.insert "kim@school.edu"
    { (Account.fresh "kim@school.edu").enroll "cs1" .student with
      salt := "00", passwordHash := Account.saltedHash "00" "ab" }
  submissions := Table.empty

/-- `studentStore` with the owner of the course, whom the student may not ask about. -/
def ownedStore : Store :=
  { studentStore with
    accounts := studentStore.accounts.insert "lee@school.edu"
      { Account.fresh "lee@school.edu" with role := .owner } }

def curiousRequest : RawRequest :=
  ⟨"\x7b\"course-id\": \"cs1\", \"assignment-id\": \"hw1\", \"user-email\": \" kim@school.edu\", "
    ++ "\"user-pass\": \"ab\", \"target-email\": \"lee@school.edu\"\x7d", []⟩

theorem keyed_studentStore : studentStore.Keyed where
  course id c h := by
    rw [Store.course?, studentStore, Table.find?_insert] at h
    split at h
    · next hid =>
      cases h
      exact hid.symm
    · cases h
  assignment course id a h := by
    rw [Store.assignment?, studentStore, Table.find?_insert] at h
    split at h
    · next hid =>
      cases h
      cases hid
      exact ⟨rfl, rfl⟩
    · cases h
  account email a h := by
    rw [Store.account?, studentStore, Table.find?_insert] at h
    split at h
    · next hid =>
      cases h
      exact hid.symm
    · cases h
  submission key r h := by cases h

theorem agreeFor_ownedStore : studentStore.AgreeFor "kim@school.edu" ownedStore where
  course _ := rfl
  assignment _ _ := rfl
  account := Table.find?_insert_of_ne _ _ (by decide)
  submissions _ _ := rfl

/-- Asked for somebody else, neither server says whether there is such a user. -/
theorem shipped_confined_history :
    let s := Server.start studentStore ⟨0, 0⟩ .foreseeable (.generous 0) .empty "/uploads"
    (Endpoint.historyRoute.call curiousRequest s).1 =
        .refused (.targetUserDenied "lee@school.edu") ∧
      (Endpoint.historyRoute.call curiousRequest (s.withStore ownedStore)).1 =
        .refused (.targetUserDenied "lee@school.edu") := by
  intro s
  have hrefused : (Endpoint.historyRoute.call curiousRequest s).1 =
      .refused (.targetUserDenied "lee@school.edu") := by
    have hcomputed : (match (Endpoint.historyRoute.call curiousRequest s).1 with
        | .refused f => decide (f = .targetUserDenied "lee@school.edu")
        | _ => false) = true := by decide +kernel
    split at hcomputed
    · next f hf => rw [hf, of_decide_eq_true hcomputed]
    · cases hcomputed
  have hroute : Endpoint.historyRoute ∈ Endpoint.shipped := by simp [Endpoint.shipped]
  have hcontext : Request.contextOf? curiousRequest =
      some ⟨"cs1", "hw1", " kim@school.edu", "ab", ""⟩ := by decide +kernel
  have hconfined := shipped_confined (s := s) (u := ownedStore) hroute keyed_studentStore
    agreeFor_ownedStore hcontext rfl rfl ?_
  · exact ⟨hrefused, hconfined.answer.trans hrefused⟩
  · -- the student is listed as one
    intro _ a ha role hrole
    cases ha
    cases hrole
    rfl

end Coursework
