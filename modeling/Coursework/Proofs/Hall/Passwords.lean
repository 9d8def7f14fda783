import Coursework.Proofs.Endpoint.Login
import Coursework.Proofs.Hall.Answers
import Coursework.Proofs.Hall.Writes

/-!
# Changing a password

A request for a new password is identified by the old one, and some time later its handler puts back
the account that it was identified by, with the new password.  Nothing keeps others out in between.
So a request that goes through has shown a password that was the stored one when it was admitted,
and which still is when it writes, unless another request has changed the account in between
(`PasswordChanged`, `password_changes`).

Two requests that show one password can both go through, the second over the password of the first.
Then both were admitted before either wrote; or else the password they show was set once more.
-/

set_option autoImplicit false

namespace Coursework
namespace Endpoint

open Json

namespace Hall

/-! ## From admission to the write -/

/-- A request for a new password that went through in a run.  After `front` it is admitted as an
account that is stored under its email and accepts its password; after `write` it puts back that
account, with the new password. -/
structure PasswordChanged (s : Server) (events : List Event) (n : Nat) (front write : List Event)
    (context : Context) (copy written : Account) : Prop where
  writes : ∃ between, write = front ++ .proceed n :: between
  ends : ∃ after, events = write ++ .proceed n :: after
  admitted : ∃ course i, ((opened s).run front).AdmittedIn n .password context course i ∧
    i.account = copy
  email : copy.email = Text.trim context.userEmail
  read : ((opened s).run front).store.account? copy.email = some copy
  accepted : copy.checkPassword context.userPass = true
  changes : ∃ m, ((opened s).run write).Changes n m written ∧ ∃ salt, written =
    { copy with salt := salt, passwordHash := Account.saltedHash salt (newPass m) }

/-- What a request for a new password puts back (`Changes`) is its sender with the new password. -/
theorem Changes.exists_sender {h : Hall} {n : Nat} {m : Materialized PasswordChange}
    {written : Account} (hchanges : h.Changes n m written) :
    ∃ i, m.identity = some i ∧ i.account.isRoot = false ∧ ∃ salt, written =
      { i.account with salt := salt, passwordHash := Account.saltedHash salt (newPass m) } := by
  obtain ⟨duplicate, hnew, -⟩ := hchanges.rewrites
  obtain ⟨i, hi, hroot, hset⟩ := setPassword_of_withNewPassword hnew
  obtain ⟨-, hwritten, -⟩ := Account.setPassword_eq_ok hset
  exact ⟨i, hi, hroot, _, hwritten⟩

theorem Changes.answered {h : Hall} {n : Nat} {m : Materialized PasswordChange} {written : Account}
    (hchanges : h.Changes n m written) :
    ∃ reply, (h.step (.proceed n)).calls.find? n = some ⟨.password, .answered reply⟩ := by
  rw [Hall.step, proceed_of_find? hchanges.ready]
  exact ⟨_, Table.find?_insert_self _ _ _⟩

/-- A request for a new password that is answered with content has put back an account. -/
theorem exists_changes {s : Server} {events : List Event} {n : Nat} {v : Value}
    (h : ((opened s).run events).calls.find? n = some ⟨.password, .answered (.content v)⟩) :
    ∃ write after m written, events = write ++ .proceed n :: after ∧
      ((opened s).run write).Changes n m written := by
  rcases exists_answer (onlySubmits_opened s) h with hbefore | ⟨write, after, hevents, hanswers⟩
  · simp [opened] at hbefore
  · rcases hanswers with ⟨hready, hanswer⟩
    next m =>
    rcases changePassword_cases m ((opened s).run write).server with ⟨f, hrefused, -⟩ | hrewrites
    · have hreply : Reply.refused f = .content v := by
        have hwork := Work.answer.inj hanswer
        rwa [Shipped.respond, hrefused] at hwork
      cases hreply
    · obtain ⟨written, hwritten⟩ := hrewrites
      exact ⟨write, after, m, written, hevents, hready, hwritten⟩

theorem exists_passwordChanged {s : Server} (hkeyed : s.backend.store.Keyed)
    {write after : List Event}
    {n : Nat} {m : Materialized PasswordChange} {written : Account}
    (hchanges : ((opened s).run write).Changes n m written) :
    ∃ front context copy,
      PasswordChanged s (write ++ .proceed n :: after) n front write context copy written := by
  obtain ⟨i, hi, hroot, hwritten⟩ := hchanges.exists_sender
  have hsender : (Phase.ready m).sender? = some (m.course, i) := by rw [Phase.sender?, hi]; rfl
  rcases exists_admittedIn hchanges.ready hsender with
    ⟨_, hbefore, -⟩ | ⟨front, between, context, hwrite, hin⟩
  · simp [opened] at hbefore
  · have hauthenticate := hin.authenticated.1
    rcases Request.authenticate_cases hauthenticate with
      ⟨-, -, -, haccount⟩ | ⟨hnonce, -, haccount⟩
    · rw [haccount] at hroot
      cases hroot
    · have hcredentials := Request.checkCredentials_of_authenticate hauthenticate hnonce
      obtain ⟨-, -, -, haccepted⟩ := Request.checkCredentials_eq_ok_iff.1 hcredentials
      obtain ⟨a, ha, hsame⟩ := (kept_run hkeyed front).store.exists_account haccount
      have hemail : i.account.email = Text.trim context.userEmail :=
        (Account.email_eq hsame).trans (hkeyed.account _ a ha)
      exact ⟨front, context, i.account, ⟨between, hwrite⟩, ⟨after, rfl⟩, ⟨m.course, i, hin, rfl⟩,
        hemail, hemail ▸ haccount, haccepted, m, hchanges, hwritten⟩

/-! ## What is stored when a request writes -/

section Stored

variable {s : Server} {events front write : List Event} {n : Nat} {context : Context}
  {copy written : Account}

theorem PasswordChanged.account?_admitted
    (h : PasswordChanged s events n front write context copy written) :
    (((opened s).run front).step (.proceed n)).store.account? copy.email = some copy := by
  rcases ((opened s).run front).account?_step (.proceed n) copy.email with
    hsame | ⟨k, m, other, hevent, hchanges, -⟩
  · rw [hsame, h.read]
  · obtain rfl := Event.proceed.inj hevent
    obtain ⟨_, i, ⟨_, _, _, hplaced, -⟩, -⟩ := h.admitted
    have hready := hchanges.ready
    rw [hplaced] at hready
    cases hready

/-- When a request writes, the account is stored that it was admitted as, or one that another
request has put back since. -/
theorem PasswordChanged.exists_found
    (h : PasswordChanged s events n front write context copy written) :
    ∃ found, ((opened s).run write).store.account? copy.email = some found ∧
      (found = copy ∨ ∃ k m earlier later, k ≠ n ∧
        write = (front ++ .proceed n :: earlier) ++ .proceed k :: later ∧
        ((opened s).run (front ++ .proceed n :: earlier)).Changes k m found) := by
  obtain ⟨between, hwrite⟩ := h.writes
  have hrun : ∀ rest, (opened s).run (front ++ .proceed n :: rest) =
      (((opened s).run front).step (.proceed n)).run rest :=
    fun rest => by rw [run_append, run_cons]
  rcases (((opened s).run front).step (.proceed n)).account?_run between copy.email with
    hsame | ⟨earlier, k, later, m, found, hbetween, hchanges, -, hfound⟩
  · exact ⟨copy, by rw [hwrite, hrun, hsame, h.account?_admitted], .inl rfl⟩
  · have hsplit : write = (front ++ .proceed n :: earlier) ++ .proceed k :: later := by
      rw [hwrite, hbetween, List.append_assoc, List.cons_append]
    rw [← hrun] at hchanges hfound
    refine ⟨found, by rw [hwrite, hfound], .inr ⟨k, m, earlier, later, ?_, hsplit, hchanges⟩⟩
    -- a request that has written is answered, and writes no more
    rintro rfl
    obtain ⟨reply, hanswered⟩ := hchanges.answered
    have hstays := answered_run ((numbered_run s _).step _) hanswered later
    obtain ⟨_, hready, -⟩ := h.changes
    have hcall := hready.ready
    rw [hsplit, run_append, run_cons, hstays] at hcall
    cases hcall

/-- Where nobody sets a password that is accepted as `p`, nothing accepts `p` after a write. -/
theorem checkPassword_run {h : Hall} {events : List Event} {email p : String}
    (hbefore : ∀ a, h.store.account? email = some a → a.checkPassword p = false)
    (hwrites : ∀ front n back m written, events = front ++ .proceed n :: back →
      (h.run front).Changes n m written → written.email = email → written.checkPassword p = false) :
    ∀ a, (h.run events).store.account? email = some a → a.checkPassword p = false := by
  intro a ha
  rcases h.account?_run events email with
    hsame | ⟨front, n, back, m, written, hevents, hchanges, hemail, hwritten⟩
  · exact hbefore a (hsame ▸ ha)
  · obtain rfl : written = a := Option.some.inj (hwritten.symm.trans ha)
    exact hwrites front n back m written hevents hchanges hemail

theorem Changes.account?_step {h : Hall} {m : Materialized PasswordChange}
    (hchanges : h.Changes n m written) :
    (h.step (.proceed n)).store.account? written.email = some written := by
  rw [store_proceed_of_ready hchanges.ready]
  obtain ⟨duplicate, -, hput⟩ := hchanges.rewrites
  rw [Store.account?_putAccount (Backend.putAccount_eq_ok hput), if_pos rfl]

theorem PasswordChanged.email_written
    (h : PasswordChanged s events n front write context copy written) :
    written.email = copy.email := by
  obtain ⟨_, -, _, hwritten⟩ := h.changes
  rw [hwritten]

/-- Of two different events of a list the one that is not later is in front of the other. -/
theorem exists_of_append_eq {front back front' back' : List Event} {event event' : Event}
    (h : front' ++ event' :: back' = front ++ event :: back) (hne : event' ≠ event)
    (hle : front'.length ≤ front.length) : ∃ tail, front = front' ++ event' :: tail := by
  rcases List.append_eq_append_iff.1 h with ⟨tail, hfront, hrest⟩ | ⟨tail, hfront, hrest⟩
  · rcases tail with _ | ⟨first, tail⟩
    · exact absurd (List.cons.inj hrest).1 hne
    · obtain ⟨rfl, -⟩ := List.cons.inj hrest
      exact ⟨tail, hfront⟩
  · rcases tail with _ | ⟨first, tail⟩
    · exact absurd (List.cons.inj hrest).1.symm hne
    · rw [hfront, List.length_append, List.length_cons] at hle
      omega

/-- Of two requests that show one password, which nobody sets again, each is admitted before the
other writes. -/
theorem PasswordChanged.admitted_before
    (h : PasswordChanged s events n front write context copy written) {k : Nat}
    {front' write' : List Event} {context' : Context} {copy' written' : Account}
    (h' : PasswordChanged s events k front' write' context' copy' written') (hne : n ≠ k)
    (hemail : copy'.email = copy.email)
    (hwrites : ∀ front n back m written, events = front ++ .proceed n :: back →
      ((opened s).run front).Changes n m written → written.email = copy.email →
        written.checkPassword context.userPass = false) :
    front.length < write'.length := by
  obtain ⟨between, hwrite⟩ := h.writes
  obtain ⟨after, hevents⟩ := h.ends
  obtain ⟨after', hevents'⟩ := h'.ends
  obtain ⟨m, hchanges, -⟩ := h'.changes
  have hwritten : written'.email = copy.email := h'.email_written.trans hemail
  refine Nat.lt_of_not_le fun hle => ?_
  -- otherwise the other one has written by the time when this one is admitted
  have hsame : write' ++ .proceed k :: after' =
      front ++ .proceed n :: (between ++ .proceed n :: after) := by
    rw [← hevents', hevents, hwrite, List.append_assoc, List.cons_append]
  obtain ⟨tail, hfront⟩ :=
    exists_of_append_eq hsame (fun he => hne (Event.proceed.inj he).symm) hle
  have hread := h.read
  rw [hfront, run_append, run_cons] at hread
  have hrefused : copy.checkPassword context.userPass = false := by
    refine checkPassword_run (fun a ha => ?_) (fun earlier j later m' other hsplit hother => ?_)
      copy hread
    · have hshown := hchanges.account?_step
      rw [hwritten, ha] at hshown
      rw [Option.some.inj hshown]
      exact hwrites write' k after' m written' hevents' hchanges hwritten
    · refine hwrites (write' ++ .proceed k :: earlier) j
        (later ++ .proceed n :: (between ++ .proceed n :: after)) m' other ?_ ?_
      · rw [hevents, hwrite, hfront, hsplit]
        simp only [List.append_assoc, List.cons_append]
      · rwa [run_append, run_cons]
  rw [h.accepted] at hrefused
  cases hrefused

end Stored

/-- **A password is changed by whoever has shown it when they were admitted.**  Let requests come to
the six endpoints of a server, and let their steps come in between each other in whatever way.

* A request for a new password that succeeds (`PasswordChanged`) was admitted as an account that was
  stored then and accepted the password that the request shows, and it puts back that account with
  the new password.
* When it does so, the stored account is still that account, and accepts the password, or it is one
  that another request has put back since the first was admitted.
* So of two requests that succeed and show the same password for one account, where nobody sets that
  password again (`Changes`), each was admitted before the other wrote.  Of several such requests
  that do not overlap, at most one succeeds. -/
theorem password_changes {s : Server} (hkeyed : s.backend.store.Keyed) (events : List Event) :
    (∀ n v, ((opened s).run events).calls.find? n = some ⟨.password, .answered (.content v)⟩ →
      ∃ front write context copy written,
        PasswordChanged s events n front write context copy written) ∧
    (∀ n front write context copy written,
      PasswordChanged s events n front write context copy written →
      ∃ found, ((opened s).run write).store.account? copy.email = some found ∧
        (found.checkPassword context.userPass = true ∨ ∃ k m earlier later, k ≠ n ∧
          write = (front ++ .proceed n :: earlier) ++ .proceed k :: later ∧
          ((opened s).run (front ++ .proceed n :: earlier)).Changes k m found)) ∧
    ∀ email p,
      (∀ front n back m written, events = front ++ .proceed n :: back →
        ((opened s).run front).Changes n m written → written.email = email →
          written.checkPassword p = false) →
      ∀ n front write context copy written k front' write' context' copy' written',
        PasswordChanged s events n front write context copy written →
        PasswordChanged s events k front' write' context' copy' written' →
        copy.email = email → copy'.email = email → context.userPass = p → context'.userPass = p →
        n ≠ k → front.length < write'.length ∧ front'.length < write.length := by
  refine ⟨fun n v hanswered => ?_, fun n front write context copy written h => ?_, ?_⟩
  · obtain ⟨write, after, m, written, rfl, hchanges⟩ := exists_changes hanswered
    obtain ⟨front, context, copy, hchanged⟩ := exists_passwordChanged hkeyed hchanges
    exact ⟨front, write, context, copy, written, hchanged⟩
  · obtain ⟨found, hfound, rfl | hother⟩ := h.exists_found
    · exact ⟨found, hfound, .inl h.accepted⟩
    · exact ⟨found, hfound, .inr hother⟩
  · intro email p hwrites n front write context copy written k front' write' context' copy' written'
      h h' hemail hemail' hpass hpass' hne
    subst hemail hpass
    refine ⟨h.admitted_before h' hne hemail' hwrites, h'.admitted_before h hne.symm hemail'.symm ?_⟩
    rw [hemail', hpass']
    exact hwrites

/-! ## Two requests at once -/

def kimChange (old new : String) : RawRequest :=
  ⟨(Value.object [("new-pass", .string new), ("user-email", .string "kim@school.edu"),
    ("user-pass", .string old)]).text, []⟩

def kimPlaced (old new : String) : Call :=
  ⟨.password, .placed [] ⟨new⟩ ⟨"", "", "kim@school.edu", old, ""⟩ none none⟩

theorem step_kimChange {h : Hall} {n : Nat} {old new : String}
    (hcall : h.calls.find? n = some ⟨.password, .arrived (kimChange old new)⟩) :
    h.step (.proceed n) = { h with calls := h.calls.insert n (kimPlaced old new) } := by
  have hplace : Request.place Shipped.password.kind (kimChange old new) h.desk.server =
      .ok (⟨new⟩, ⟨"", "", "kim@school.edu", old, ""⟩, none, none) := by
    rw [Request.place, decodeText?, kimChange, Value.ofString?_text]
    rfl
  rw [step, proceed_of_find? hcall]
  simp only [advance, Phase.proceed, hplace]
  rfl

/-- Two requests of Kim come and are read, and then they go on in some order. -/
def twoOfKim (old new old' new' : String) (order : List Nat) : List Event :=
  [.arrive .password (kimChange old new), .arrive .password (kimChange old' new'), .proceed 0,
    .proceed 1] ++ order.map .proceed

def twoPlaced (s : Server) (old new old' new' : String) : Hall :=
  ⟨.opened s, (Table.empty.insert 0 (kimPlaced old new)).insert 1 (kimPlaced old' new'), 2⟩

theorem run_twoOfKim (s : Server) (old new old' new' : String) (order : List Nat) :
    (opened s).run (twoOfKim old new old' new' order) =
      (twoPlaced s old new old' new').run (order.map .proceed) := by
  have hfirst : (((opened s).step (.arrive .password (kimChange old new))).step
      (.arrive .password (kimChange old' new'))).calls.find? 0 =
        some ⟨.password, .arrived (kimChange old new)⟩ := rfl
  rw [twoOfKim, run_append]
  simp only [run_cons, run_nil]
  rw [step_kimChange hfirst, @step_kimChange _ 1 old' new' rfl]
  rfl

def succeeded (h : Hall) (n : Nat) : Bool :=
  match h.calls.find? n with
  | some ⟨.password, .answered (.content _)⟩ => true
  | _ => false

theorem exists_content {h : Hall} {n : Nat} (hsucceeded : h.succeeded n = true) :
    ∃ v, h.calls.find? n = some ⟨.password, .answered (.content v)⟩ := by
  rw [succeeded] at hsucceeded
  split at hsucceeded
  · next v hcall => exact ⟨v, hcall⟩
  · cases hsucceeded

def kimHas (h : Hall) (pass : String) : Bool :=
  match h.store.account? "kim@school.edu" with
  | some a => a.checkPassword pass
  | none => false

def studentServer : Server :=
  .start studentStore ⟨0, 0⟩ .foreseeable (.generous 0) .empty "/uploads"

def digits (c : Char) : String :=
  String.ofList (List.replicate 64 c)

/-- Two requests show `ab`, are both admitted, and the first of them writes. -/
def firstOfTwo : List Event :=
  twoOfKim "ab" (digits 'b') "ab" (digits 'c') [0, 1, 0, 1, 0]

/-- The first succeeds and `ab` is no longer the password, and then the second succeeds as well. -/
theorem succeeded_firstOfTwo :
    ((opened studentServer).run firstOfTwo).succeeded 0 = true ∧
      ((opened studentServer).run firstOfTwo).kimHas "ab" = false ∧
      (((opened studentServer).run firstOfTwo).step (.proceed 1)).succeeded 1 = true := by
  rw [firstOfTwo, run_twoOfKim]
  decide +kernel

/-- The first of the two has shown the stored password when it was admitted. -/
theorem password_changes_first : ∃ front write context copy written,
    PasswordChanged studentServer firstOfTwo 0 front write context copy written := by
  obtain ⟨v, hanswered⟩ := exists_content succeeded_firstOfTwo.1
  exact (password_changes (s := studentServer) keyed_studentStore firstOfTwo).1 0 v hanswered

/-- Two requests show the same password one after the other, and the first of them sets it again. -/
def oneByOne : List Event :=
  twoOfKim (digits 'a') (digits 'a') (digits 'a') (digits 'b') [0, 0, 0, 1, 1, 1]

/-- **A change can be lost.**  Two requests that show the same password and set two others both
succeed, the second of them when the password it shows is not the stored one any more.  And also one
after the other two such requests succeed, if the first sets the password that there was. -/
theorem password_changes_lost :
    (((opened studentServer).run firstOfTwo).succeeded 0 = true ∧
      ((opened studentServer).run firstOfTwo).kimHas "ab" = false ∧
      (((opened studentServer).run firstOfTwo).step (.proceed 1)).succeeded 1 = true) ∧
    ((opened (kimServer "kim@school.edu")).run oneByOne).succeeded 0 = true ∧
      ((opened (kimServer "kim@school.edu")).run oneByOne).succeeded 1 = true := by
  refine ⟨succeeded_firstOfTwo, ?_⟩
  rw [oneByOne, run_twoOfKim]
  decide +kernel

end Hall
end Endpoint
end Coursework
