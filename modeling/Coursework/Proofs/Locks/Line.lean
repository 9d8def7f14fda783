import Coursework.Proofs.Locks

/-!
# Whose turn it is

`LockTable.Sound` keeps two requests from holding the lock of one key.  It does not say that the
lock ever gets to anybody: a mutex could lose its turn on the way from one request to the next, when
a request goes away that was given the turn and has not looked yet, or when the table drops a mutex
and makes another one for the same key.

A `Lobby` is a lock table with the list of those who have asked and are still there, in the order in
which they asked.  An `Event` is one part of asking for a lock or of giving one up, by any request:
a poll that is the first one is `come`, `ask` and `look`, a later one is `look`, a future that is
dropped is `go`, and a guard that is dropped is `go` and `tidy`.  Others may come in between any two
of them.

What ties table and list together is `Lobby.Sound`: the mutex of a key has exactly the requests for
the key in it, first come, first served (`line`).  So the turn is always that of the first in line,
and it is never lost.
-/

set_option autoImplicit false

namespace Coursework

/-! ## One mutex -/

namespace Mutex

variable {ρ : Type}

/-- Those who have asked a mutex, the one whose turn it is first. -/
def line (m : Mutex ρ) : List ρ :=
  m.turn.toList ++ m.queue

/-- Nobody waits while it is nobody's turn. -/
def Fair (m : Mutex ρ) : Prop :=
  m.turn = none → m.queue = []

theorem fair_free : (free : Mutex ρ).Fair :=
  fun _ => rfl

theorem fair_enter (m : Mutex ρ) (r : ρ) : (m.enter r).Fair := by
  rw [Mutex.enter]
  split
  · exact fun hnone => by cases hnone
  · next q hturn => exact fun hnone => by rw [hturn] at hnone; cases hnone

theorem Fair.line_enter {m : Mutex ρ} (h : m.Fair) (r : ρ) : (m.enter r).line = m.line ++ [r] := by
  rw [Mutex.enter]
  split
  · next hturn => simp [line, hturn, h hturn]
  · next q hturn => simp [line, hturn]

theorem Fair.head?_line {m : Mutex ρ} (h : m.Fair) : m.line.head? = m.turn := by
  cases hturn : m.turn with
  | none => simp [line, hturn, h hturn]
  | some q => simp [line, hturn]

variable [DecidableEq ρ]

theorem Fair.leave {m : Mutex ρ} (h : m.Fair) (r : ρ) : (m.leave r).Fair := by
  rw [Mutex.leave]
  split
  · split
    · exact fun _ => rfl
    · exact fun hnone => by cases hnone
  · intro hnone
    rw [h hnone]
    rfl

/-- Who goes away is out of the line, and everybody else keeps their place. -/
theorem line_leave {m : Mutex ρ} (hnodup : m.line.Nodup) (r : ρ) :
    (m.leave r).line = m.line.filter fun q => decide (q ≠ r) := by
  rw [leave]
  split
  · next hturn =>
    rw [line, hturn, Option.toList_some, List.singleton_append, List.nodup_cons] at hnodup
    have hstay : ∀ q ∈ m.queue, decide (q ≠ r) = true := fun q hq =>
      decide_eq_true fun he => hnodup.1 (he ▸ hq)
    rw [line.eq_def m, hturn, Option.toList_some, List.singleton_append,
      List.filter_cons_of_neg (by simp), List.filter_eq_self.2 hstay]
    split
    · next hqueue => rw [hqueue]; rfl
    · next hqueue => rw [hqueue]; rfl
  · next hturn =>
    have hstay : ∀ q ∈ m.turn.toList, decide (q ≠ r) = true := fun q hq =>
      decide_eq_true fun he => hturn (he ▸ Option.mem_toList.1 hq)
    rw [line, line, List.filter_append, List.filter_eq_self.2 hstay]

end Mutex

namespace LockTable

variable {ρ : Type} [DecidableEq ρ]

theorem entries_poll (t : LockTable ρ) (r : ρ) : (t.poll r).entries = t.entries := by
  rw [poll]
  split
  · rfl
  · split <;> rfl

theorem mutexes_poll (t : LockTable ρ) (r : ρ) : (t.poll r).mutexes = t.mutexes := by
  rw [poll]
  split
  · rfl
  · split <;> rfl

end LockTable

/-! ## The lobby -/

/-- A lock table, and who has `asked` for a lock and not gone away, in the order in which they
asked. -/
structure Lobby (ρ : Type) where
  table : LockTable ρ
  asked : List ρ

namespace Lobby

variable {ρ : Type} [DecidableEq ρ]

/-- One part of asking for a lock (`LockTable.acquire`) or of giving one up (`LockTable.release`): a
request refers to the mutex of a key, asks it, looks whether it is its turn, or goes away; or the
mutex of a key is dropped if nobody refers to it. -/
inductive Event (ρ : Type) where
  | come (r : ρ) (key : SubmissionKey)
  | ask (r : ρ)
  | look (r : ρ)
  | go (r : ρ)
  | tidy (key : SubmissionKey)

def opened : Lobby ρ := ⟨.empty, []⟩

/-- One event.  Nobody asks twice. -/
def step (l : Lobby ρ) : Event ρ → Lobby ρ
  | .come r key => { l with table := l.table.refer r key }
  | .ask r =>
    if l.table.isKnown r ∧ r ∉ l.asked then ⟨l.table.enter r, l.asked ++ [r]⟩ else l
  | .look r => { l with table := l.table.poll r }
  | .go r => ⟨l.table.leave r, l.asked.filter fun q => decide (q ≠ r)⟩
  | .tidy key => { l with table := l.table.prune key }

def run (l : Lobby ρ) (events : List (Event ρ)) : Lobby ρ :=
  events.foldl step l

def keyOf? (l : Lobby ρ) (r : ρ) : Option SubmissionKey :=
  (l.table.claims.find? r).map LockClaim.key

/-- Those who have asked for the lock of a key, in the order in which they asked. -/
def line (l : Lobby ρ) (key : SubmissionKey) : List ρ :=
  l.asked.filter fun r => decide (l.keyOf? r = some key)

def Event.key? (l : Lobby ρ) : Event ρ → Option SubmissionKey
  | .come _ key | .tidy key => some key
  | .ask r | .look r | .go r => l.keyOf? r

/-- Two lobbies are alike as far as one key goes: the same claims, the same mutex and the same
line. -/
structure AlikeFor (key : SubmissionKey) (l u : Lobby ρ) : Prop where
  entry : u.table.entries.find? key = l.table.entries.find? key
  mutex : ∀ n, l.table.entries.find? key = some n → u.table.mutex n = l.table.mutex n
  claims : ∀ r c, c.key = key →
    (u.table.claims.find? r = some c ↔ l.table.claims.find? r = some c)
  line : u.line key = l.line key

/-! ## The invariant -/

/-- The mutex of each key has those in it who have asked for the key, first come, first served.
Whoever has asked refers to a mutex (`known`), no two keys have one mutex (`distinct`), and the
mutex of a key is there (`stored`). -/
structure Sound (l : Lobby ρ) : Prop where
  table : l.table.Sound
  known : ∀ r ∈ l.asked, l.table.isKnown r = true
  nodup : l.asked.Nodup
  distinct : ∀ k j n, l.table.entries.find? k = some n → l.table.entries.find? j = some n → k = j
  stored : ∀ key n, l.table.entries.find? key = some n → ∃ m, l.table.mutexes.find? n = some m
  fair : ∀ n, (l.table.mutex n).Fair
  line : ∀ key n, l.table.entries.find? key = some n → (l.table.mutex n).line = l.line key

theorem sound_opened : (opened : Lobby ρ).Sound where
  table := LockTable.sound_empty
  known r hr := by cases hr
  nodup := List.nodup_nil
  distinct k j n hk := by simp [opened, LockTable.empty] at hk
  stored key n hn := by simp [opened, LockTable.empty] at hn
  fair n := Mutex.fair_free
  line key n hn := by simp [opened, LockTable.empty] at hn

variable {l : Lobby ρ}

theorem mem_line {key : SubmissionKey} {r : ρ} :
    r ∈ l.line key ↔ r ∈ l.asked ∧ l.keyOf? r = some key := by
  rw [line, List.mem_filter, decide_eq_true_iff]

theorem keyOf?_eq_some {key : SubmissionKey} {r : ρ} :
    l.keyOf? r = some key ↔ l.table.Claims r key := by
  rw [keyOf?, Option.map_eq_some_iff]
  exact Iff.rfl

/-- The line of a key depends on who has asked and on what keys they have. -/
theorem line_congr {u : Lobby ρ} (hasked : u.asked = l.asked)
    (hkey : ∀ r ∈ l.asked, u.keyOf? r = l.keyOf? r) (key : SubmissionKey) :
    u.line key = l.line key := by
  rw [line, line, hasked]
  exact List.filter_congr fun r hr => by rw [hkey r hr]

theorem Sound.nodup_line (h : l.Sound) (key : SubmissionKey) : (l.line key).Nodup :=
  h.nodup.sublist List.filter_sublist

theorem Sound.line_of_none (h : l.Sound) {key : SubmissionKey}
    (hnone : l.table.entries.find? key = none) : l.line key = [] := by
  refine List.eq_nil_iff_forall_not_mem.2 fun r hr => ?_
  obtain ⟨c, hc, hkey⟩ := keyOf?_eq_some.1 (mem_line.1 hr).2
  have hentry := h.table.shared r c hc
  rw [hkey, hnone] at hentry
  cases hentry

/-- The mutex that a request refers to is its own key's and no other key's. -/
theorem Sound.mutex_iff (h : l.Sound) {r : ρ} {c : LockClaim}
    (hc : l.table.claims.find? r = some c) {key : SubmissionKey} {n : Nat}
    (hn : l.table.entries.find? key = some n) : n = c.mutex ↔ c.key = key := by
  have hshared := h.table.shared r c hc
  constructor
  · rintro rfl
    exact h.distinct c.key key c.mutex hshared hn
  · rintro rfl
    exact Option.some.inj (hn.symm.trans hshared)

/-- What happens to one mutex leaves the lobby `Sound`, if the lines keep up with it. -/
theorem Sound.withMutex (h : l.Sound) {u : Lobby ρ} {n : Nat} {m : Mutex ρ}
    (htable : u.table.Sound) (hknown : ∀ r ∈ u.asked, u.table.isKnown r = true)
    (hnodup : u.asked.Nodup) (hentries : u.table.entries = l.table.entries)
    (hmutexes : u.table.mutexes = l.table.mutexes.insert n m) (hfair : m.Fair)
    (hline : ∀ key, l.table.entries.find? key = some n → m.line = u.line key)
    (hothers : ∀ key k, l.table.entries.find? key = some k → k ≠ n → u.line key = l.line key) :
    u.Sound := by
  have hmutex : ∀ k, u.table.mutex k = if k = n then m else l.table.mutex k := fun k => by
    rw [LockTable.mutex, hmutexes, Table.find?_insert]
    split <;> rfl
  refine ⟨htable, hknown, hnodup, ?_, ?_, ?_, ?_⟩
  · rw [hentries]
    exact h.distinct
  · intro key k hk
    rw [hentries] at hk
    rw [hmutexes, Table.find?_insert]
    split
    · exact ⟨m, rfl⟩
    · exact h.stored key k hk
  · intro k
    rw [hmutex]
    split
    · exact hfair
    · exact h.fair k
  · intro key k hk
    rw [hentries] at hk
    rw [hmutex]
    split
    · next hkn => exact hline key (hkn ▸ hk)
    · next hkn => rw [hothers key k hk hkn, h.line key k hk]

/-! ### Coming -/

/-- A mutex that is made has nobody in it, and nobody has asked for its key. -/
theorem Sound.mutexFor (h : l.Sound) (key : SubmissionKey) :
    ({ l with table := (l.table.mutexFor key).2 } : Lobby ρ).Sound := by
  obtain ⟨t, asked⟩ := l
  cases hkey : t.entries.find? key with
  | some n =>
    simp only [LockTable.mutexFor_of_some hkey]
    exact h
  | none =>
    have htable := (h.table.mutexFor key).1
    rw [LockTable.mutexFor_of_none hkey] at htable
    simp only [LockTable.mutexFor_of_none hkey]
    have hfresh : ∀ k n, t.entries.find? k = some n → n ≠ t.next := fun k n hn =>
      Nat.ne_of_lt (h.table.numbered k n hn)
    refine ⟨htable, h.known, h.nodup, ?_, ?_, ?_, ?_⟩
    · intro k j n hk hj
      simp only [Table.find?_insert] at hk hj
      split at hk <;> split at hj
      · next hk' hj' => rw [hk', hj']
      · cases hk
        exact absurd rfl (hfresh j _ hj)
      · cases hj
        exact absurd rfl (hfresh k _ hk)
      · exact h.distinct k j n hk hj
    · intro k n hn
      simp only [Table.find?_insert] at hn ⊢
      split at hn
      · cases hn
        exact ⟨Mutex.free, if_pos rfl⟩
      · rw [if_neg (hfresh k n hn)]
        exact h.stored k n hn
    · intro n
      rw [LockTable.mutex, Table.find?_insert]
      split
      · exact Mutex.fair_free
      · exact h.fair n
    · intro k n hn
      rw [Table.find?_insert] at hn
      rw [LockTable.mutex, Table.find?_insert]
      split at hn
      · next hk =>
        cases hn
        rw [if_pos rfl, hk]
        exact (h.line_of_none hkey).symm
      · rw [if_neg (hfresh k n hn)]
        exact h.line k n hn

theorem keyOf?_come (h : l.Sound) {r q : ρ} (key : SubmissionKey) (hq : q ∈ l.asked) :
    (l.step (.come r key)).keyOf? q = l.keyOf? q := by
  cases hr : l.table.isKnown r with
  | true => rw [step, LockTable.refer, if_pos hr]
  | false =>
    have hne : q ≠ r := by
      rintro rfl
      rw [h.known q hq] at hr
      cases hr
    rw [keyOf?, keyOf?, step, LockTable.find?_claims_refer _ hr, if_neg hne]

theorem Sound.come (h : l.Sound) (r : ρ) (key : SubmissionKey) : (l.step (.come r key)).Sound := by
  have hline := line_congr (l := l) (u := l.step (.come r key)) rfl fun q hq => keyOf?_come h key hq
  have htable := h.table.refer r key
  cases hr : l.table.isKnown r with
  | true =>
    rw [step, LockTable.refer, if_pos hr]
    exact h
  | false =>
    have hm := h.mutexFor key
    have hrefer := LockTable.refer_of_unknown hr key
    have hmade : ∀ k, ({ l with table := (l.table.mutexFor key).2 } : Lobby ρ).line k = l.line k :=
      line_congr rfl fun q _ => by simp only [keyOf?, LockTable.claims_mutexFor]
    refine ⟨htable, ?_, h.nodup, ?_, ?_, ?_, ?_⟩
    · intro q hq
      rw [LockTable.isKnown, Table.contains, step, LockTable.find?_claims_refer _ hr]
      split
      · rfl
      · exact h.known q hq
    · rw [step, hrefer]
      exact hm.distinct
    · rw [step, hrefer]
      exact hm.stored
    · rw [step, hrefer]
      exact hm.fair
    · intro k n hn
      rw [hline, ← hmade]
      rw [step, hrefer] at hn ⊢
      exact hm.line k n hn

/-! ### Asking -/

theorem keyOf?_ask (l : Lobby ρ) (r q : ρ) : (l.step (.ask r)).keyOf? q = l.keyOf? q := by
  rw [step]
  split
  · rw [keyOf?, keyOf?, LockTable.claims_enter]
  · rfl

/-- Who asks comes last in the line of its key, and in no other line. -/
theorem line_ask {r : ρ} (hknown : l.table.isKnown r = true) (hr : r ∉ l.asked)
    (key : SubmissionKey) :
    (l.step (.ask r)).line key =
      if l.keyOf? r = some key then l.line key ++ [r] else l.line key := by
  have hasked : (l.step (.ask r)).asked = l.asked ++ [r] := by rw [step, if_pos ⟨hknown, hr⟩]
  rw [line, hasked, List.filter_append]
  simp only [keyOf?_ask]
  split
  · next hkey => rw [List.filter_cons_of_pos (by simp [hkey]), List.filter_nil, line]
  · next hkey => rw [List.filter_cons_of_neg (by simp [hkey]), List.filter_nil,
      List.append_nil, line]

theorem Sound.ask (h : l.Sound) (r : ρ) : (l.step (.ask r)).Sound := by
  by_cases hr : l.table.isKnown r = true ∧ r ∉ l.asked
  · obtain ⟨c, hc⟩ := (l.table.isKnown_iff r).1 hr.1
    have hkeyOf : l.keyOf? r = some c.key := keyOf?_eq_some.2 ⟨c, hc, rfl⟩
    have hstep : l.step (.ask r) = ⟨{ l.table with
        mutexes := l.table.mutexes.insert c.mutex ((l.table.mutex c.mutex).enter r) },
      l.asked ++ [r]⟩ := by
      rw [step, if_pos hr, LockTable.enter, hc]
    have htable := h.table.enter r
    rw [LockTable.enter, hc] at htable
    have hline := line_ask hr.1 hr.2
    rw [hstep] at hline ⊢
    refine h.withMutex htable ?_ ?_ rfl rfl (Mutex.fair_enter _ r) ?_ ?_
    · intro q hq
      rcases List.mem_append.1 hq with hq | hq
      · exact h.known q hq
      · rw [List.mem_singleton.1 hq]
        exact hr.1
    · refine List.nodup_append.2 ⟨h.nodup, by simp, ?_⟩
      rintro q hq s hs rfl
      exact hr.2 (List.mem_singleton.1 hs ▸ hq)
    · intro k hk
      have hck := (h.mutex_iff hc hk).1 rfl
      rw [hline, hkeyOf, if_pos (by rw [hck]), (h.fair c.mutex).line_enter, h.line k c.mutex hk]
    · intro k n hn hne
      rw [hline, hkeyOf, if_neg fun he => hne ((h.mutex_iff hc hn).2 (Option.some.inj he))]
  · rw [step, if_neg hr]
    exact h

/-! ### Looking -/

theorem find?_claims_look (l : Lobby ρ) (r q : ρ) (c : LockClaim)
    (hc : l.table.claims.find? q = some c) :
    ∃ d, (l.step (.look r)).table.claims.find? q = some d ∧ d.key = c.key := by
  by_cases hqr : q = r
  · subst hqr
    exact LockTable.Claims.poll ⟨c, hc, rfl⟩
  · exact ⟨c, (l.table.find?_claims_poll_of_ne hqr).trans hc, rfl⟩

theorem keyOf?_look (l : Lobby ρ) (r q : ρ) : (l.step (.look r)).keyOf? q = l.keyOf? q := by
  cases hc : l.table.claims.find? q with
  | some c =>
    obtain ⟨d, hd, hkey⟩ := find?_claims_look l r q c hc
    rw [keyOf?, keyOf?, hd, hc, Option.map_some, Option.map_some, hkey]
  | none =>
    have hnone : (l.step (.look r)).table.claims.find? q = none := by
      by_cases hqr : q = r
      · subst hqr
        rw [step, LockTable.poll, hc]
        exact hc
      · exact (l.table.find?_claims_poll_of_ne hqr).trans hc
    rw [keyOf?, keyOf?, hnone, hc]

theorem Sound.look (h : l.Sound) (r : ρ) : (l.step (.look r)).Sound := by
  have hline := line_congr (l := l) (u := l.step (.look r)) rfl fun q _ => keyOf?_look l r q
  have hentries : (l.step (.look r)).table.entries = l.table.entries := l.table.entries_poll r
  have hmutexes : (l.step (.look r)).table.mutexes = l.table.mutexes := l.table.mutexes_poll r
  have hmutex : ∀ n, (l.step (.look r)).table.mutex n = l.table.mutex n := fun n => by
    rw [LockTable.mutex, LockTable.mutex, hmutexes]
  refine ⟨h.table.poll r, ?_, h.nodup, ?_, ?_, ?_, ?_⟩
  · intro q hq
    obtain ⟨c, hc⟩ := (l.table.isKnown_iff q).1 (h.known q hq)
    obtain ⟨d, hd, -⟩ := find?_claims_look l r q c hc
    exact (LockTable.isKnown_iff _ q).2 ⟨d, hd⟩
  · rw [hentries]
    exact h.distinct
  · rw [hentries, hmutexes]
    exact h.stored
  · intro n
    rw [hmutex]
    exact h.fair n
  · intro k n hn
    rw [hentries] at hn
    rw [hmutex, hline]
    exact h.line k n hn

/-! ### Going away -/

/-- Who goes away is in no line any more, and everybody else keeps their place. -/
theorem line_go (l : Lobby ρ) (r : ρ) (key : SubmissionKey) :
    (l.step (.go r)).line key = (l.line key).filter fun q => decide (q ≠ r) := by
  rw [line, line, List.filter_filter]
  show (l.asked.filter _).filter _ = _
  rw [List.filter_filter]
  refine List.filter_congr fun q _ => ?_
  by_cases hqr : q = r
  · simp [hqr]
  · rw [keyOf?, keyOf?, step, LockTable.find?_claims_leave_of_ne _ hqr]
    simp [hqr]

theorem line_go_of_ne {r : ρ} {key : SubmissionKey} (hr : l.keyOf? r ≠ some key) :
    (l.step (.go r)).line key = l.line key := by
  rw [line_go]
  refine List.filter_eq_self.2 fun q hq => decide_eq_true ?_
  rintro rfl
  exact hr (mem_line.1 hq).2

theorem Sound.go (h : l.Sound) (r : ρ) : (l.step (.go r)).Sound := by
  have htable := h.table.leave r
  have hknown : ∀ q ∈ (l.step (.go r)).asked, (l.step (.go r)).table.isKnown q = true := by
    intro q hq
    obtain ⟨hasked, hqr⟩ := List.mem_filter.1 hq
    rw [LockTable.isKnown, Table.contains, step,
      LockTable.find?_claims_leave_of_ne _ (of_decide_eq_true hqr)]
    exact h.known q hasked
  have hnodup : (l.step (.go r)).asked.Nodup := h.nodup.sublist List.filter_sublist
  cases hc : l.table.claims.find? r with
  | none =>
    have hleave : (l.step (.go r)).table = l.table := by rw [step, LockTable.leave, hc]
    have hstay : ∀ k, (l.step (.go r)).line k = l.line k := fun k =>
      line_go_of_ne (by simp [keyOf?, hc])
    refine ⟨htable, hknown, hnodup, ?_, ?_, ?_, ?_⟩ <;> simp only [hleave, hstay]
    · exact h.distinct
    · exact h.stored
    · exact h.fair
    · exact h.line
  | some c =>
    have hkeyOf : l.keyOf? r = some c.key := keyOf?_eq_some.2 ⟨c, hc, rfl⟩
    have hleave : (l.step (.go r)).table = { l.table with
        mutexes := l.table.mutexes.insert c.mutex ((l.table.mutex c.mutex).leave r)
        claims := l.table.claims.erase r } := by rw [step, LockTable.leave, hc]
    refine h.withMutex htable hknown hnodup (by rw [hleave]) (by rw [hleave])
      ((h.fair c.mutex).leave r) ?_ ?_
    · intro k hk
      rw [line_go, ← h.line k c.mutex hk]
      exact Mutex.line_leave (h.line k c.mutex hk ▸ h.nodup_line k) r
    · intro k n hn hne
      refine line_go_of_ne fun hk => hne ((h.mutex_iff hc hn).2 ?_)
      exact Option.some.inj (hkeyOf.symm.trans hk)

/-! ### Tidying up -/

theorem keyOf?_tidy (l : Lobby ρ) (key : SubmissionKey) (q : ρ) :
    (l.step (.tidy key)).keyOf? q = l.keyOf? q := by
  rw [keyOf?, keyOf?, step, LockTable.claims_prune]

theorem Sound.tidy (h : l.Sound) (key : SubmissionKey) : (l.step (.tidy key)).Sound := by
  have hline := line_congr (l := l) (u := l.step (.tidy key)) rfl fun q _ => keyOf?_tidy l key q
  have htable := h.table.prune key
  have hclaims := LockTable.claims_prune l.table key
  have hknown : ∀ q ∈ l.asked, (l.step (.tidy key)).table.isKnown q = true := fun q hq => by
    rw [LockTable.isKnown, step, hclaims]
    exact h.known q hq
  cases hkey : l.table.entries.find? key with
  | none =>
    rw [step, LockTable.prune, hkey]
    exact h
  | some n =>
    by_cases href : l.table.referred n = true
    · rw [step, LockTable.prune, hkey]
      simp only [if_pos href]
      exact h
    · have hprune : (l.step (.tidy key)).table = { l.table with
          entries := l.table.entries.erase key, mutexes := l.table.mutexes.erase n } := by
        rw [step, LockTable.prune, hkey]
        simp only [if_neg href]
      have hentry : ∀ k m, (l.step (.tidy key)).table.entries.find? k = some m →
          l.table.entries.find? k = some m ∧ m ≠ n := by
        intro k m hm
        rw [hprune, Table.find?_erase] at hm
        split at hm
        · cases hm
        · next hk => exact ⟨hm, fun hmn => hk (h.distinct k key m hm (hmn ▸ hkey))⟩
      have hmutex : ∀ m, m ≠ n → (l.step (.tidy key)).table.mutex m = l.table.mutex m :=
        fun m hm => by
        rw [hprune, LockTable.mutex, Table.find?_erase, if_neg hm, LockTable.mutex]
      refine ⟨htable, hknown, h.nodup, ?_, ?_, ?_, ?_⟩
      · intro k j m hk hj
        exact h.distinct k j m (hentry k m hk).1 (hentry j m hj).1
      · intro k m hm
        obtain ⟨hold, hmn⟩ := hentry k m hm
        rw [hprune, Table.find?_erase, if_neg hmn]
        exact h.stored k m hold
      · intro m
        by_cases hm : m = n
        · rw [hprune, LockTable.mutex, Table.find?_erase, if_pos hm]
          exact Mutex.fair_free
        · rw [hmutex m hm]
          exact h.fair m
      · intro k m hm
        obtain ⟨hold, hmn⟩ := hentry k m hm
        rw [hmutex m hmn, hline]
        exact h.line k m hold

/-! ## Every run -/

theorem sound_step (h : l.Sound) (e : Event ρ) : (l.step e).Sound := by
  cases e with
  | come r key => exact h.come r key
  | ask r => exact h.ask r
  | look r => exact h.look r
  | go r => exact h.go r
  | tidy key => exact h.tidy key

theorem sound_run (h : l.Sound) (events : List (Event ρ)) : (l.run events).Sound := by
  induction events generalizing l with
  | nil => exact h
  | cons e rest ih => exact ih (sound_step h e)

/-! ### The parts in a row -/

/-- To ask for a lock is to come, to ask and to look, so that `acquire` is a run of events. -/
theorem Sound.table_acquire (h : l.Sound) {r : ρ} (hr : l.table.isKnown r = false)
    (key : SubmissionKey) :
    (l.run [.come r key, .ask r, .look r]).table = l.table.acquire r key := by
  have hasked : r ∉ l.asked := fun hmem => by
    rw [h.known r hmem] at hr
    cases hr
  obtain ⟨c, hc, -⟩ := LockTable.claims_refer hr key
  have hknown : (l.table.refer r key).isKnown r = true := (LockTable.isKnown_iff _ r).2 ⟨c, hc⟩
  rw [LockTable.acquire, if_neg (by simp [hr])]
  show ((l.step (.come r key)).step (.ask r)).table.poll r = _
  rw [step, step, if_pos ⟨hknown, hasked⟩]

/-- The parts of giving up a lock, or of waiting no longer: the events that `LockTable.release` is a
run of. -/
def departure (l : Lobby ρ) (r : ρ) : List (Event ρ) :=
  match l.table.claims.find? r with
  | none => []
  | some c =>
    match c.phase with
    | .held => [.go r, .tidy c.key]
    | .waiting => [.go r]

theorem table_release (l : Lobby ρ) (r : ρ) :
    (l.run (l.departure r)).table = l.table.release r := by
  cases hc : l.table.claims.find? r with
  | none =>
    simp only [departure, LockTable.release, hc]
    rfl
  | some c =>
    cases hphase : c.phase <;> simp only [departure, LockTable.release, hc, hphase] <;> rfl

/-! ## One key at a time -/

theorem AlikeFor.refl (key : SubmissionKey) (l : Lobby ρ) : AlikeFor key l l :=
  ⟨rfl, fun _ _ => rfl, fun _ _ _ => Iff.rfl, rfl⟩

theorem Sound.alikeFor_come (h : l.Sound) (r : ρ) {k key : SubmissionKey} (hk : k ≠ key) :
    AlikeFor key l (l.step (.come r k)) := by
  cases hr : l.table.isKnown r with
  | true =>
    rw [step, LockTable.refer, if_pos hr]
    exact .refl key l
  | false =>
    have hrefer := LockTable.refer_of_unknown hr k
    refine ⟨?_, ?_, ?_, line_congr (l := l) (u := l.step (.come r k)) rfl
      (fun q hq => keyOf?_come h k hq) key⟩
    · rw [step, hrefer, LockTable.mutexFor]
      split
      · rfl
      · exact Table.find?_insert_of_ne _ _ (Ne.symm hk)
    · intro n hn
      rw [step, hrefer, LockTable.mutexFor]
      split
      · rfl
      · show LockTable.mutex
          { l.table with mutexes := l.table.mutexes.insert l.table.next Mutex.free } n = _
        rw [LockTable.mutex_insert, if_neg (Nat.ne_of_lt (h.table.numbered key n hn))]
    · intro q c hc
      rw [step, LockTable.find?_claims_refer _ hr]
      split
      · next hqr =>
        rw [hqr, (l.table.isKnown_eq_false_iff r).1 hr]
        constructor
        · rintro ⟨⟩
          exact absurd hc hk
        · rintro ⟨⟩
      · exact Iff.rfl

/-- What happens in the mutex of one key does not show in that of another. -/
theorem Sound.mutex_insert_of_ne (h : l.Sound) {r : ρ} {c : LockClaim}
    (hc : l.table.claims.find? r = some c) {key : SubmissionKey} (hkey : c.key ≠ key) (m : Mutex ρ)
    {n : Nat} (hn : l.table.entries.find? key = some n) :
    LockTable.mutex { l.table with mutexes := l.table.mutexes.insert c.mutex m } n =
      l.table.mutex n := by
  rw [LockTable.mutex_insert, if_neg fun he => hkey ((h.mutex_iff hc hn).1 he)]

theorem Sound.alikeFor_ask (h : l.Sound) {r : ρ} {key : SubmissionKey}
    (hk : l.keyOf? r ≠ some key) :
    AlikeFor key l (l.step (.ask r)) := by
  by_cases hr : l.table.isKnown r = true ∧ r ∉ l.asked
  · obtain ⟨c, hc⟩ := (l.table.isKnown_iff r).1 hr.1
    have hkey : c.key ≠ key := fun he => hk (keyOf?_eq_some.2 ⟨c, hc, he⟩)
    have hline := line_ask hr.1 hr.2 key
    rw [if_neg hk] at hline
    refine ⟨?_, ?_, ?_, hline⟩
    · rw [step, if_pos hr, LockTable.enter, hc]
    · intro n hn
      rw [step, if_pos hr, LockTable.enter, hc]
      exact h.mutex_insert_of_ne hc hkey _ hn
    · intro q d _
      rw [step, if_pos hr, LockTable.claims_enter]
  · rw [step, if_neg hr]
    exact .refl key l

theorem alikeFor_look {r : ρ} {key : SubmissionKey} (hk : l.keyOf? r ≠ some key) :
    AlikeFor key l (l.step (.look r)) := by
  refine ⟨?_, ?_, ?_, line_congr (l := l) (u := l.step (.look r)) rfl
    (fun q _ => keyOf?_look l r q) key⟩
  · rw [step, LockTable.entries_poll]
  · intro n _
    rw [step, LockTable.mutex, LockTable.mutexes_poll, LockTable.mutex]
  · intro q c hc
    by_cases hqr : q = r
    · subst hqr
      constructor
      · intro hfind
        have hnow : (l.step (.look q)).keyOf? q = some key := keyOf?_eq_some.2 ⟨c, hfind, hc⟩
        rw [keyOf?_look] at hnow
        exact absurd hnow hk
      · intro hfind
        exact absurd (keyOf?_eq_some.2 ⟨c, hfind, hc⟩) hk
    · rw [step, LockTable.find?_claims_poll_of_ne _ hqr]

theorem Sound.alikeFor_go (h : l.Sound) {r : ρ} {key : SubmissionKey} (hk : l.keyOf? r ≠ some key) :
    AlikeFor key l (l.step (.go r)) := by
  have hline := line_go_of_ne hk
  cases hc : l.table.claims.find? r with
  | none =>
    have hleave : (l.step (.go r)).table = l.table := by rw [step, LockTable.leave, hc]
    exact ⟨by rw [hleave], fun _ _ => by rw [hleave], fun _ _ _ => by rw [hleave], hline⟩
  | some c =>
    have hkey : c.key ≠ key := fun he => hk (keyOf?_eq_some.2 ⟨c, hc, he⟩)
    refine ⟨?_, ?_, ?_, hline⟩
    · rw [step, LockTable.leave, hc]
    · intro n hn
      rw [step, LockTable.leave, hc]
      exact h.mutex_insert_of_ne hc hkey _ hn
    · intro q d hd
      by_cases hqr : q = r
      · subst hqr
        rw [step, LockTable.leave, hc, Table.find?_erase, if_pos rfl]
        constructor
        · rintro ⟨⟩
        · rintro ⟨⟩
          exact absurd hd hkey
      · rw [step, LockTable.find?_claims_leave_of_ne _ hqr]

theorem Sound.alikeFor_tidy (h : l.Sound) {k key : SubmissionKey} (hk : k ≠ key) :
    AlikeFor key l (l.step (.tidy k)) := by
  refine ⟨?_, ?_, ?_, line_congr (l := l) (u := l.step (.tidy k)) rfl
    (fun q _ => keyOf?_tidy l k q) key⟩
  · rw [step, LockTable.prune]
    split
    · rfl
    · split
      · rfl
      · exact Table.find?_erase_of_ne _ (Ne.symm hk)
  · intro n hn
    rw [step, LockTable.prune]
    split
    · rfl
    · next m hm =>
      split
      · rfl
      · have hne : n ≠ m := by
          rintro rfl
          exact hk (h.distinct k key n hm hn)
        rw [LockTable.mutex, Table.find?_erase_of_ne _ hne, LockTable.mutex]
  · intro q c _
    rw [step, LockTable.claims_prune]

theorem Sound.alikeFor_step (h : l.Sound) {e : Event ρ} {key : SubmissionKey}
    (hk : e.key? l ≠ some key) : AlikeFor key l (l.step e) := by
  cases e with
  | come r k => exact h.alikeFor_come r fun he => hk (congrArg some he)
  | ask r => exact h.alikeFor_ask hk
  | look r => exact alikeFor_look hk
  | go r => exact h.alikeFor_go hk
  | tidy k => exact h.alikeFor_tidy fun he => hk (congrArg some he)

/-! ## The turn is never lost -/

/-- Where there is a line it is the turn of the first in it, who has the lock or finds that it has
it when it looks. -/
theorem Sound.first_has_turn (h : l.Sound) {r : ρ} {key : SubmissionKey} (hr : r ∈ l.line key) :
    ∃ q, (l.line key).head? = some q ∧ (l.table.poll q).Holds q key := by
  obtain ⟨c, hc, hkey⟩ := keyOf?_eq_some.1 (mem_line.1 hr).2
  have hentry : l.table.entries.find? key = some c.mutex := hkey ▸ h.table.shared r c hc
  have hline := h.line key c.mutex hentry
  cases hhead : (l.line key).head? with
  | none =>
    rw [List.head?_eq_none_iff.1 hhead] at hr
    cases hr
  | some q =>
    obtain ⟨d, hd, hdkey⟩ := keyOf?_eq_some.1 (mem_line.1 (List.mem_of_head? hhead)).2
    have hmutex : c.mutex = d.mutex := (h.mutex_iff hd hentry).2 hdkey
    have hturn : (l.table.mutex d.mutex).turn = some q := by
      rw [← hmutex, ← (h.fair c.mutex).head?_line, hline, hhead]
    refine ⟨q, rfl, ?_⟩
    rw [LockTable.poll, hd]
    simp only [hturn, if_true]
    exact ⟨_, Table.find?_insert_self _ _ _, hdkey, rfl⟩

/-- **One lock for each key**: whatever requests ask for and give up in whatever order, at every
moment and for every key

* at most one request `Holds` the lock;
* all requests that have it or wait refer to the mutex that the table has for the key;
* if anybody waits, then whoever has waited longest has the lock, or it is given to them and they
  will find that they have it when they look;
* no event at another key changes anything (`AlikeFor`). -/
theorem exclusive_in_turn (events : List (Event ρ)) (key : SubmissionKey) :
    let l := (opened : Lobby ρ).run events
    (∀ q r, l.table.Holds q key → l.table.Holds r key → q = r) ∧
    (∀ r c, l.table.claims.find? r = some c → c.key = key →
      l.table.entries.find? key = some c.mutex ∧ ∃ m, l.table.mutexes.find? c.mutex = some m) ∧
    (∀ r ∈ l.asked, l.table.Claims r key → ∃ q, (l.line key).head? = some q ∧
      (l.table.Holds q key ∨ (l.table.poll q).Holds q key)) ∧
    (∀ e, Event.key? l e ≠ some key → AlikeFor key l (l.step e)) := by
  intro l
  have h : l.Sound := sound_run sound_opened events
  refine ⟨fun q r hq hr => h.table.holder_unique hq hr, ?_, ?_, fun e he => h.alikeFor_step he⟩
  · rintro r c hc rfl
    have hentry := h.table.shared r c hc
    exact ⟨hentry, h.stored c.key c.mutex hentry⟩
  · intro r hr hclaims
    obtain ⟨q, hq, hholds⟩ := h.first_has_turn (mem_line.2 ⟨hr, keyOf?_eq_some.2 hclaims⟩)
    exact ⟨q, hq, .inr hholds⟩

end Lobby
end Coursework
