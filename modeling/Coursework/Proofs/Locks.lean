import Coursework.Locks
import Coursework.Proofs.Table

/-!
# One holder for each key

A lock table makes a mutex when a key is first asked for and drops it when nobody refers to it, so
that in the course of time one key has many mutexes.  What keeps two requests from holding the lock
of one key through two of them is `LockTable.Sound`:

* all requests for a key refer to the same mutex, the one that the table has for the key (`shared`),
  since a mutex that is referred to is never dropped;
* a request that has the lock has the turn of its mutex (`held`).

Every part of asking for a lock and of giving one up keeps the table sound, whatever other requests
do in between, and `Sound.holder_unique` follows at once.  Each part also leaves the lock of
everybody else alone, which `Holds` speaks of.
-/

set_option autoImplicit false

namespace Coursework

namespace Mutex

variable {ρ : Type} [DecidableEq ρ]

omit [DecidableEq ρ] in
theorem turn_enter {m : Mutex ρ} {q : ρ} (h : m.turn = some q) (r : ρ) :
    (m.enter r).turn = some q := by
  rw [enter, h]

theorem turn_leave {m : Mutex ρ} {q r : ρ} (h : m.turn = some q) (hr : q ≠ r) :
    (m.leave r).turn = some q := by
  rw [leave, if_neg (by rw [h]; exact fun he => hr (Option.some.inj he))]
  exact h

end Mutex

namespace LockTable

variable {ρ : Type} [DecidableEq ρ]

/-- A request refers to a mutex of a key, and has its lock or not. -/
def Claims (t : LockTable ρ) (r : ρ) (key : SubmissionKey) : Prop :=
  ∃ c, t.claims.find? r = some c ∧ c.key = key

/-- A request has the lock of a key: it `Claims` the key, and has learnt that it is its turn. -/
def Holds (t : LockTable ρ) (r : ρ) (key : SubmissionKey) : Prop :=
  ∃ c, t.claims.find? r = some c ∧ c.key = key ∧ c.phase = .held

theorem Holds.claims {t : LockTable ρ} {r : ρ} {key : SubmissionKey} (h : t.Holds r key) :
    t.Claims r key := by
  obtain ⟨c, hc, hkey, -⟩ := h
  exact ⟨c, hc, hkey⟩

/-- No two mutexes of one key are in use, and whoever has a lock has the turn of its mutex.  A
request refers to the mutex that the table has for its key (`shared`), the numbers of mutexes run
below `next` (`numbered`), and a request that has the lock has the turn (`held`). -/
structure Sound (t : LockTable ρ) : Prop where
  shared : ∀ r c, t.claims.find? r = some c → t.entries.find? c.key = some c.mutex
  numbered : ∀ key n, t.entries.find? key = some n → n < t.next
  held : ∀ r c, t.claims.find? r = some c → c.phase = .held →
    (t.mutex c.mutex).turn = some r

/-- **Exclusion**: two requests that have the lock of one key are the same request. -/
theorem Sound.holder_unique {t : LockTable ρ} (h : t.Sound) {q r : ρ} {key : SubmissionKey}
    (hq : t.Holds q key) (hr : t.Holds r key) : q = r := by
  obtain ⟨c, hc, hckey, hcheld⟩ := hq
  obtain ⟨d, hd, hdkey, hdheld⟩ := hr
  have hcd : c.mutex = d.mutex := by
    have hcs := h.shared q c hc
    have hds := h.shared r d hd
    rw [hckey] at hcs
    rw [hdkey, hcs] at hds
    exact Option.some.inj hds
  have hturn := h.held q c hc hcheld
  rw [hcd, h.held r d hd hdheld] at hturn
  exact (Option.some.inj hturn).symm

theorem sound_empty : (empty : LockTable ρ).Sound where
  shared r c hc := by simp [empty] at hc
  numbered key n hn := by simp [empty] at hn
  held r c hc := by simp [empty] at hc

/-! ## Looking up a mutex -/

omit [DecidableEq ρ] in
theorem mutex_insert (t : LockTable ρ) (n : Nat) (m : Mutex ρ) (k : Nat) :
    (mutex { t with mutexes := t.mutexes.insert n m } k) = if k = n then m else t.mutex k := by
  rw [mutex, Table.find?_insert]
  split
  · rfl
  · rfl

theorem isKnown_iff (t : LockTable ρ) (r : ρ) :
    t.isKnown r = true ↔ ∃ c, t.claims.find? r = some c :=
  t.claims.contains_iff r

theorem isKnown_eq_false_iff (t : LockTable ρ) (r : ρ) :
    t.isKnown r = false ↔ t.claims.find? r = none := by
  rw [isKnown, Table.contains, Option.isSome_eq_false_iff, Option.isNone_iff_eq_none]

theorem isHeld_iff (t : LockTable ρ) (r : ρ) :
    t.isHeld r = true ↔ ∃ c, t.claims.find? r = some c ∧ c.phase = .held := by
  rw [isHeld]
  cases hr : t.claims.find? r with
  | none => simp
  | some c => simp

theorem Claims.holds {t : LockTable ρ} {r : ρ} {key : SubmissionKey} (h : t.Claims r key)
    (hheld : t.isHeld r = true) : t.Holds r key := by
  obtain ⟨c, hc, hkey⟩ := h
  obtain ⟨d, hd, hphase⟩ := (t.isHeld_iff r).1 hheld
  rw [hc] at hd
  exact ⟨c, hc, hkey, Option.some.inj hd ▸ hphase⟩

/-! ## Referring to a mutex -/

omit [DecidableEq ρ] in
theorem mutexFor_of_some {t : LockTable ρ} {key : SubmissionKey} {n : Nat}
    (h : t.entries.find? key = some n) : t.mutexFor key = (n, t) := by
  rw [mutexFor, h]

omit [DecidableEq ρ] in
theorem mutexFor_of_none {t : LockTable ρ} {key : SubmissionKey}
    (h : t.entries.find? key = none) :
    t.mutexFor key = (t.next, { t with
      entries := t.entries.insert key t.next
      mutexes := t.mutexes.insert t.next Mutex.free
      next := t.next + 1 }) := by
  rw [mutexFor, h]

omit [DecidableEq ρ] in
theorem claims_mutexFor (t : LockTable ρ) (key : SubmissionKey) :
    (t.mutexFor key).2.claims = t.claims := by
  rw [mutexFor]
  split <;> rfl

theorem refer_of_unknown {t : LockTable ρ} {r : ρ} (h : t.isKnown r = false)
    (key : SubmissionKey) : t.refer r key = { (t.mutexFor key).2 with
      claims := t.claims.insert r ⟨key, (t.mutexFor key).1, .waiting⟩ } := by
  rw [refer, if_neg (by simp [h]), ← claims_mutexFor t key]

theorem find?_claims_refer (t : LockTable ρ) {r : ρ} (h : t.isKnown r = false)
    (key : SubmissionKey) (q : ρ) :
    (t.refer r key).claims.find? q =
      if q = r then some ⟨key, (t.mutexFor key).1, .waiting⟩ else t.claims.find? q := by
  rw [refer_of_unknown h, Table.find?_insert]

/-- The table still has its mutex for every key once a mutex was made by `mutexFor`, and has the new
one too. -/
theorem Sound.mutexFor {t : LockTable ρ} (h : t.Sound) (key : SubmissionKey) :
    (t.mutexFor key).2.Sound ∧
      (t.mutexFor key).2.entries.find? key = some (t.mutexFor key).1 := by
  cases hkey : t.entries.find? key with
  | some n =>
    rw [mutexFor_of_some hkey]
    exact ⟨h, hkey⟩
  | none =>
    rw [mutexFor_of_none hkey]
    refine ⟨⟨?_, ?_, ?_⟩, t.entries.find?_insert_self key t.next⟩
    · intro r c hc
      have hne : c.key ≠ key := by
        intro he
        have hs := h.shared r c hc
        rw [he, hkey] at hs
        cases hs
      rw [t.entries.find?_insert_of_ne t.next hne]
      exact h.shared r c hc
    · intro k n hn
      rw [Table.find?_insert] at hn
      show n < t.next + 1
      split at hn
      · rw [Option.some.inj hn]
        exact Nat.lt_succ_self n
      · exact Nat.lt_succ_of_lt (h.numbered k n hn)
    · intro r c hc hheld
      -- the number of the new mutex is nobody's yet
      have hlt : c.mutex < t.next := h.numbered c.key c.mutex (h.shared r c hc)
      show (mutex { t with mutexes := t.mutexes.insert t.next Mutex.free } c.mutex).turn = some r
      rw [mutex_insert, if_neg (Nat.ne_of_lt hlt)]
      exact h.held r c hc hheld

theorem Sound.refer {t : LockTable ρ} (h : t.Sound) (r : ρ) (key : SubmissionKey) :
    (t.refer r key).Sound := by
  by_cases hr : t.isKnown r = true
  · rw [LockTable.refer, if_pos hr]
    exact h
  · obtain ⟨hs, hkey⟩ := h.mutexFor key
    rw [LockTable.refer, if_neg hr]
    refine ⟨?_, hs.numbered, ?_⟩
    · intro q c hc
      rw [Table.find?_insert] at hc
      split at hc
      · cases hc
        exact hkey
      · exact hs.shared q c hc
    · intro q c hc hheld
      rw [Table.find?_insert] at hc
      split at hc
      · cases hc
        cases hheld
      · exact hs.held q c hc hheld

theorem claims_refer {t : LockTable ρ} {r : ρ} (h : t.isKnown r = false) (key : SubmissionKey) :
    (t.refer r key).Claims r key :=
  ⟨_, by rw [find?_claims_refer t h, if_pos rfl], rfl⟩

/-! ## Asking and looking -/

theorem claims_enter (t : LockTable ρ) (r : ρ) : (t.enter r).claims = t.claims := by
  rw [enter]
  split <;> rfl

theorem Sound.enter {t : LockTable ρ} (h : t.Sound) (r : ρ) : (t.enter r).Sound := by
  cases hr : t.claims.find? r with
  | none =>
    rw [LockTable.enter, hr]
    exact h
  | some d =>
    rw [LockTable.enter, hr]
    refine ⟨h.shared, h.numbered, ?_⟩
    intro q c hc hheld
    rw [mutex_insert]
    split
    · next hcd =>
      have hturn := h.held q c hc hheld
      rw [hcd] at hturn
      exact Mutex.turn_enter hturn r
    · exact h.held q c hc hheld

theorem find?_claims_poll_of_ne (t : LockTable ρ) {q r : ρ} (h : q ≠ r) :
    (t.poll r).claims.find? q = t.claims.find? q := by
  rw [poll]
  split
  · rfl
  · split
    · exact t.claims.find?_insert_of_ne _ h
    · rfl

theorem Sound.poll {t : LockTable ρ} (h : t.Sound) (r : ρ) : (t.poll r).Sound := by
  cases hr : t.claims.find? r with
  | none =>
    rw [LockTable.poll, hr]
    exact h
  | some d =>
    rw [LockTable.poll, hr]
    by_cases hturn : (t.mutex d.mutex).turn = some r
    · simp only [if_pos hturn]
      refine ⟨?_, h.numbered, ?_⟩
      · intro q c hc
        rw [Table.find?_insert] at hc
        split at hc
        · cases hc
          exact h.shared r d hr
        · exact h.shared q c hc
      · intro q c hc hheld
        rw [Table.find?_insert] at hc
        split at hc
        · next hqr =>
          cases hc
          rw [hqr]
          exact hturn
        · exact h.held q c hc hheld
    · simp only [if_neg hturn]
      exact h

theorem Claims.poll {t : LockTable ρ} {r : ρ} {key : SubmissionKey} (h : t.Claims r key) :
    (t.poll r).Claims r key := by
  obtain ⟨c, hc, hkey⟩ := h
  rw [LockTable.poll, hc]
  by_cases hturn : (t.mutex c.mutex).turn = some r
  · simp only [if_pos hturn]
    exact ⟨_, t.claims.find?_insert_self r _, hkey⟩
  · simp only [if_neg hturn]
    exact ⟨c, hc, hkey⟩

/-! ## Leaving and cleaning up -/

theorem find?_claims_leave_of_ne (t : LockTable ρ) {q r : ρ} (h : q ≠ r) :
    (t.leave r).claims.find? q = t.claims.find? q := by
  rw [leave]
  split
  · rfl
  · exact t.claims.find?_erase_of_ne h

theorem Sound.leave {t : LockTable ρ} (h : t.Sound) (r : ρ) : (t.leave r).Sound := by
  cases hr : t.claims.find? r with
  | none =>
    rw [LockTable.leave, hr]
    exact h
  | some d =>
    rw [LockTable.leave, hr]
    refine ⟨?_, h.numbered, ?_⟩
    · intro q c hc
      rw [Table.find?_erase] at hc
      split at hc
      · cases hc
      · exact h.shared q c hc
    · intro q c hc hheld
      rw [Table.find?_erase] at hc
      split at hc
      · cases hc
      · next hqr =>
        show (mutex { t with mutexes := t.mutexes.insert d.mutex _ } c.mutex).turn = some q
        rw [mutex_insert]
        split
        · next hcd =>
          have hturn := h.held q c hc hheld
          rw [hcd] at hturn
          exact Mutex.turn_leave hturn hqr
        · exact h.held q c hc hheld

theorem referred_iff (t : LockTable ρ) (n : Nat) :
    t.referred n = true ↔ ∃ r c, t.claims.find? r = some c ∧ c.mutex = n := by
  rw [referred, Table.any_entries_iff]
  simp

omit [DecidableEq ρ] in
theorem claims_prune (t : LockTable ρ) (key : SubmissionKey) :
    (t.prune key).claims = t.claims := by
  rw [prune]
  split
  · rfl
  · split <;> rfl

/-- A mutex that is dropped is nobody's, so that no request loses the mutex of its key. -/
theorem Sound.prune {t : LockTable ρ} (h : t.Sound) (key : SubmissionKey) :
    (t.prune key).Sound := by
  cases hkey : t.entries.find? key with
  | none =>
    rw [LockTable.prune, hkey]
    exact h
  | some n =>
    rw [LockTable.prune, hkey]
    by_cases href : t.referred n = true
    · simp only [if_pos href]
      exact h
    · simp only [if_neg href]
      have hne : ∀ r c, t.claims.find? r = some c → c.mutex ≠ n := fun r c hc he =>
        href ((t.referred_iff n).2 ⟨r, c, hc, he⟩)
      refine ⟨?_, ?_, ?_⟩
      · intro r c hc
        have hck : c.key ≠ key := by
          intro he
          have hs := h.shared r c hc
          rw [he, hkey] at hs
          exact hne r c hc (Option.some.inj hs).symm
        rw [t.entries.find?_erase_of_ne hck]
        exact h.shared r c hc
      · intro k m hm
        rw [Table.find?_erase] at hm
        split at hm
        · cases hm
        · exact h.numbered k m hm
      · intro r c hc hheld
        show ((t.mutexes.erase n).find? c.mutex |>.getD Mutex.free).turn = some r
        rw [t.mutexes.find?_erase_of_ne (hne r c hc)]
        exact h.held r c hc hheld

/-! ## One part at a time -/

/-- The tables that one part of asking for a lock (`acquire`) or of giving one up (`release`) makes
of a table, besides a new request.  What each of them keeps is kept by both. -/
inductive Part (t : LockTable ρ) (r : ρ) : LockTable ρ → Prop
  | nothing : Part t r t
  | enter : Part t r (t.enter r)
  | poll : Part t r (t.poll r)
  | leave : Part t r (t.leave r)
  | prune (key : SubmissionKey) : Part t r (t.prune key)

theorem Part.sound {t u : LockTable ρ} {r : ρ} (h : Part t r u) (ht : t.Sound) : u.Sound := by
  cases h with
  | nothing => exact ht
  | enter => exact ht.enter r
  | poll => exact ht.poll r
  | leave => exact ht.leave r
  | prune key => exact ht.prune key

theorem Part.find?_claims_of_ne {t u : LockTable ρ} {q r : ρ} (h : Part t r u) (hq : q ≠ r) :
    u.claims.find? q = t.claims.find? q := by
  cases h with
  | nothing => rfl
  | enter => rw [claims_enter]
  | poll => exact t.find?_claims_poll_of_ne hq
  | leave => exact t.find?_claims_leave_of_ne hq
  | prune key => rw [claims_prune]

theorem Part.isKnown {t u : LockTable ρ} {r : ρ} (h : Part t r u) {q : ρ}
    (hq : u.isKnown q = true) : t.isKnown q = true := by
  by_cases hqr : q = r
  · subst hqr
    cases hr : t.claims.find? q with
    | some c => exact (t.isKnown_iff q).2 ⟨c, hr⟩
    | none =>
      cases h with
      | nothing => exact hq
      | enter => rwa [LockTable.isKnown, claims_enter] at hq
      | poll => rwa [LockTable.poll, hr] at hq
      | leave => rwa [LockTable.leave, hr] at hq
      | prune key => rwa [LockTable.isKnown, claims_prune] at hq
  · rwa [LockTable.isKnown, Table.contains, h.find?_claims_of_ne hqr] at hq

theorem Holds.of_find?_eq {t u : LockTable ρ} {q : ρ} {key : SubmissionKey} (h : t.Holds q key)
    (he : u.claims.find? q = t.claims.find? q) : u.Holds q key := by
  rwa [Holds, he]

theorem Claims.of_find?_eq {t u : LockTable ρ} {q : ρ} {key : SubmissionKey} (h : t.Claims q key)
    (he : u.claims.find? q = t.claims.find? q) : u.Claims q key := by
  rwa [Claims, he]

/-! ## Nobody else -/

/-- No request holds a lock or waits, as when a server starts. -/
structure Idle (t : LockTable ρ) : Prop where
  claims : t.claims = Table.empty
  turn : ∀ n, (t.mutex n).turn = none

theorem Idle.isKnown {t : LockTable ρ} (h : t.Idle) (r : ρ) : t.isKnown r = false := by
  rw [LockTable.isKnown, h.claims]
  rfl

omit [DecidableEq ρ] in
theorem Idle.turn_mutexFor {t : LockTable ρ} (h : t.Idle) (key : SubmissionKey) (n : Nat) :
    ((t.mutexFor key).2.mutex n).turn = none := by
  cases hkey : t.entries.find? key with
  | some k =>
    rw [mutexFor_of_some hkey]
    exact h.turn n
  | none =>
    rw [mutexFor_of_none hkey]
    show (mutex { t with mutexes := t.mutexes.insert t.next Mutex.free } n).turn = none
    rw [mutex_insert]
    split
    · rfl
    · exact h.turn n

/-- Whoever comes to an `Idle` table has the lock at once. -/
theorem Idle.holds_acquire {t : LockTable ρ} (h : t.Idle) (r : ρ) (key : SubmissionKey) :
    (t.acquire r key).Holds r key := by
  have hr := h.isKnown r
  rw [acquire, if_neg (by simp [hr])]
  have hclaim : ((t.refer r key).enter r).claims.find? r =
      some ⟨key, (t.mutexFor key).1, .waiting⟩ := by
    rw [claims_enter, find?_claims_refer t hr, if_pos rfl]
  have hturn : (((t.refer r key).enter r).mutex (t.mutexFor key).1).turn = some r := by
    have hrefer := find?_claims_refer t hr key r
    rw [if_pos rfl] at hrefer
    rw [LockTable.enter, hrefer]
    simp only [mutex_insert, if_true]
    have hfree : ((t.refer r key).mutex (t.mutexFor key).1).turn = none := by
      rw [refer_of_unknown hr]
      exact h.turn_mutexFor key _
    rw [Mutex.enter, hfree]
  refine ⟨⟨key, (t.mutexFor key).1, .held⟩, ?_, rfl, rfl⟩
  rw [LockTable.poll, hclaim]
  simp only [hturn, if_true]
  exact Table.find?_insert_self _ _ _

theorem Holds.isHeld {t : LockTable ρ} {r : ρ} {key : SubmissionKey} (h : t.Holds r key) :
    t.isHeld r = true := by
  obtain ⟨c, hc, -, hheld⟩ := h
  exact (t.isHeld_iff r).2 ⟨c, hc, hheld⟩

/-- To give up a lock is to leave its mutex and to clean up. -/
theorem Holds.release_eq {t : LockTable ρ} {r : ρ} {key : SubmissionKey} (h : t.Holds r key) :
    t.release r = (t.leave r).prune key := by
  obtain ⟨c, hc, hkey, hheld⟩ := h
  simp only [release, hc, hheld, hkey]

end LockTable
end Coursework
