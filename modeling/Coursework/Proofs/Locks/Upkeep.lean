import Coursework.Proofs.Locks.Line

/-!
# Which keys a lock table keeps

A table makes a mutex when a key is first asked for, and only who gives up a lock that it had drops
the mutex again, if nobody refers to it by then.  A request that stops waiting drops nothing, not
even when it is the last one there.  So a table can keep a key that nobody uses, until somebody
takes and gives up the lock of that key.

Which keys these are depends on who went away last: `Tended` says of one key that it is kept exactly
if it is in use or else the last one who went away from it was waiting.  Every part of asking for a
lock and of giving one up has a lemma on what becomes of that, an `Act` is some of those parts in a
row (`Tended.act`), and `Tended.run` follows the `partings` of a whole run.
-/

set_option autoImplicit false

namespace Coursework

namespace LockTable

variable {ρ : Type} [DecidableEq ρ]

def Tracks (t : LockTable ρ) (key : SubmissionKey) : Prop :=
  t.entries.contains key = true

def InUse (t : LockTable ρ) (key : SubmissionKey) : Prop :=
  ∃ r, t.Claims r key

/-- What a request does: it polls for the first time, it polls again, or it goes away, be it that it
gives up its lock or that it waits no longer. -/
inductive Act (ρ : Type) where
  | acquire (r : ρ) (key : SubmissionKey)
  | poll (r : ρ)
  | release (r : ρ)
deriving DecidableEq, Repr

def act (t : LockTable ρ) : Act ρ → LockTable ρ
  | .acquire r key => t.acquire r key
  | .poll r => t.poll r
  | .release r => t.release r

def run (t : LockTable ρ) (acts : List (Act ρ)) : LockTable ρ :=
  acts.foldl act t

/-- How the request stands that an act takes away from the lock of a key (`LockPhase`), if it takes
one away. -/
def parting? (t : LockTable ρ) (key : SubmissionKey) : Act ρ → Option LockPhase
  | .release r => ((t.claims.find? r).filter fun c => decide (c.key = key)).map LockClaim.phase
  | _ => none

/-- How those stand who go away from the lock of a key, each at the time when it goes. -/
def partings (key : SubmissionKey) : LockTable ρ → List (Act ρ) → List LockPhase
  | _, [] => []
  | t, a :: rest => (t.parting? key a).toList ++ partings key (t.act a) rest

omit [DecidableEq ρ] in
theorem tracks_iff (t : LockTable ρ) (key : SubmissionKey) :
    t.Tracks key ↔ ∃ n, t.entries.find? key = some n :=
  t.entries.contains_iff key

theorem Sound.tracks_of_inUse {t : LockTable ρ} (h : t.Sound) {key : SubmissionKey}
    (hkey : t.InUse key) : t.Tracks key := by
  obtain ⟨r, c, hc, rfl⟩ := hkey
  exact (t.tracks_iff c.key).2 ⟨c.mutex, h.shared r c hc⟩

omit [DecidableEq ρ] in
theorem tracked_eq_zero_iff (t : LockTable ρ) : t.tracked = 0 ↔ ∀ key, ¬ t.Tracks key := by
  rw [tracked, Table.size, List.length_eq_zero_iff]
  constructor
  · intro h key htracks
    obtain ⟨n, hn⟩ := (t.tracks_iff key).1 htracks
    have hmem := (t.entries.mem_entries_iff key n).2 hn
    rw [h] at hmem
    cases hmem
  · intro h
    refine List.eq_nil_iff_forall_not_mem.2 fun e he => h e.1 ?_
    exact (t.tracks_iff e.1).2 ⟨e.2, (t.entries.mem_entries_iff e.1 e.2).1 he⟩

theorem parting?_eq_none {t : LockTable ρ} {key : SubmissionKey} {r : ρ}
    (h : ¬ t.Claims r key) : t.parting? key (.release r) = none := by
  rw [parting?, Option.map_eq_none_iff, Option.filter_eq_none_iff]
  exact fun c hc => by simpa using fun hkey => h ⟨c, hc, hkey⟩

theorem parting?_eq_some {t : LockTable ρ} {r : ρ} {c : LockClaim}
    (hc : t.claims.find? r = some c) : t.parting? c.key (.release r) = some c.phase := by
  rw [parting?, hc, Option.filter_some_pos (by simp), Option.map_some]

end LockTable

namespace Lobby

variable {ρ : Type} [DecidableEq ρ] {l u : Lobby ρ} {key : SubmissionKey} {p : Prop}

/-- The table keeps a key exactly if somebody uses it (`InUse`), or else `p`. -/
structure Tended (l : Lobby ρ) (key : SubmissionKey) (p : Prop) : Prop where
  sound : l.Sound
  tracks_iff : l.table.Tracks key ↔ l.table.InUse key ∨ p

theorem inUse_iff_keyOf? : l.table.InUse key ↔ ∃ r, l.keyOf? r = some key :=
  exists_congr fun _ => keyOf?_eq_some.symm

theorem tended_opened (key : SubmissionKey) : (opened : Lobby ρ).Tended key False where
  sound := sound_opened
  tracks_iff := by
    rw [or_false, LockTable.tracks_iff, inUse_iff_keyOf?]
    simp [opened, LockTable.empty, keyOf?]

/-! ## One part at a time -/

theorem Tended.alikeFor (h : l.Tended key p) (hu : u.Sound) (halike : AlikeFor key l u) :
    u.Tended key p := by
  have hclaims : ∀ r, u.table.Claims r key ↔ l.table.Claims r key := fun r =>
    exists_congr fun c => and_congr_left fun hc => halike.claims r c hc
  refine ⟨hu, ?_⟩
  rw [LockTable.Tracks, Table.contains, halike.entry, LockTable.InUse]
  simp only [hclaims]
  exact h.tracks_iff

/-- A part that keeps all mutexes and leaves everybody where they are keeps what is kept. -/
theorem Tended.of_entries_eq (h : l.Tended key p) (hu : u.Sound)
    (hentries : u.table.entries = l.table.entries) (hkey : ∀ r, u.keyOf? r = l.keyOf? r) :
    u.Tended key p := by
  refine ⟨hu, ?_⟩
  rw [LockTable.Tracks, hentries, inUse_iff_keyOf?]
  simp only [hkey]
  rw [← inUse_iff_keyOf?]
  exact h.tracks_iff

theorem Tended.come (h : l.Tended key p) (r : ρ) (k : SubmissionKey) :
    (l.step (.come r k)).Tended key p := by
  have hsound := h.sound.come r k
  by_cases hk : k = key
  · subst hk
    cases hr : l.table.isKnown r with
    | true =>
      rw [step, LockTable.refer, if_pos hr]
      exact h
    | false =>
      have hin : (l.step (.come r k)).table.InUse k := ⟨r, LockTable.claims_refer hr k⟩
      exact ⟨hsound, iff_of_true (hsound.table.tracks_of_inUse hin) (.inl hin)⟩
  · exact h.alikeFor hsound (h.sound.alikeFor_come r hk)

theorem Tended.ask (h : l.Tended key p) (r : ρ) : (l.step (.ask r)).Tended key p := by
  refine h.of_entries_eq (h.sound.ask r) ?_ (keyOf?_ask l r)
  rw [step]
  split
  · rw [LockTable.enter]
    split <;> rfl
  · rfl

theorem Tended.look (h : l.Tended key p) (r : ρ) : (l.step (.look r)).Tended key p :=
  h.of_entries_eq (h.sound.look r) (l.table.entries_poll r) (keyOf?_look l r)

theorem Sound.tended_go (h : l.Sound) {r : ρ} (hr : l.table.Claims r key) :
    (l.step (.go r)).Tended key True := by
  obtain ⟨c, hc, hkey⟩ := hr
  refine ⟨h.go r, iff_of_true ?_ (.inr trivial)⟩
  rw [LockTable.tracks_iff]
  refine ⟨c.mutex, ?_⟩
  rw [step, LockTable.leave, hc, ← hkey]
  exact h.table.shared r c hc

theorem Tended.go_of_ne (h : l.Tended key p) {r : ρ} (hr : ¬ l.table.Claims r key) :
    (l.step (.go r)).Tended key p :=
  h.alikeFor (h.sound.go r) (h.sound.alikeFor_go fun he => hr (keyOf?_eq_some.1 he))

/-- Somebody refers to the mutex of a key exactly if the key is in use: no other key has the same
mutex. -/
theorem Sound.referred_iff_inUse (h : l.Sound) {n : Nat}
    (hn : l.table.entries.find? key = some n) :
    l.table.referred n = true ↔ l.table.InUse key := by
  rw [LockTable.referred_iff]
  refine exists_congr fun r => exists_congr fun c => and_congr_right fun hc => ?_
  rw [← h.mutex_iff hc hn]
  exact eq_comm

/-- After a key was cleaned up it is kept only if it is in use. -/
theorem Sound.tended_tidy (h : l.Sound) (key : SubmissionKey) :
    (l.step (.tidy key)).Tended key False := by
  have hsound := h.tidy key
  refine ⟨hsound, ?_⟩
  rw [or_false]
  refine ⟨fun htracks => ?_, hsound.table.tracks_of_inUse⟩
  have hin : (l.step (.tidy key)).table.InUse key ↔ l.table.InUse key := by
    rw [inUse_iff_keyOf?, inUse_iff_keyOf?]
    exact exists_congr fun r => by rw [keyOf?_tidy]
  rw [hin]
  obtain ⟨n, hn⟩ := (LockTable.tracks_iff _ key).1 htracks
  rw [step, LockTable.prune] at hn
  split at hn
  · next hnone =>
    rw [hnone] at hn
    cases hn
  · next m hm =>
    split at hn
    · next href => exact (h.referred_iff_inUse hm).1 href
    · rw [Table.find?_erase, if_pos rfl] at hn
      cases hn

/-! ## One act -/

/-- The events of a `Lobby` that an act is made of. -/
def parts (l : Lobby ρ) : LockTable.Act ρ → List (Event ρ)
  | .acquire r key => if l.table.isKnown r then [] else [.come r key, .ask r, .look r]
  | .poll r => [.look r]
  | .release r => l.departure r

theorem Sound.table_parts (h : l.Sound) (a : LockTable.Act ρ) :
    (l.run (l.parts a)).table = l.table.act a := by
  rcases a with ⟨r, k⟩ | r | r
  · show (l.run (if l.table.isKnown r then [] else _)).table = l.table.acquire r k
    split
    · next hr =>
      rw [LockTable.acquire, if_pos hr]
      rfl
    · next hr => exact h.table_acquire (Bool.eq_false_iff.2 hr) k
  · rfl
  · exact l.table_release r

/-- The last one who went away was waiting, and left the mutex behind. -/
def leftBehind (past : List LockPhase) : Prop :=
  past.getLast? = some .waiting

theorem leftBehind_append (past : List LockPhase) (phase : LockPhase) :
    leftBehind (past ++ [phase]) ↔ phase = .waiting := by
  rw [leftBehind, List.getLast?_concat, Option.some.injEq]

theorem departure_of_held {r : ρ} {c : LockClaim} (hc : l.table.claims.find? r = some c)
    (hphase : c.phase = .held) : l.departure r = [.go r, .tidy c.key] := by
  simp only [departure, hc, hphase]

theorem departure_of_waiting {r : ρ} {c : LockClaim} (hc : l.table.claims.find? r = some c)
    (hphase : c.phase = .waiting) : l.departure r = [.go r] := by
  simp only [departure, hc, hphase]

/-- Who gives up a lock that it had cleans up after itself, and who waited does not. -/
theorem Tended.release {past : List LockPhase} (h : l.Tended key (leftBehind past)) (r : ρ) :
    (l.run (l.departure r)).Tended key
      (leftBehind (past ++ (l.table.parting? key (.release r)).toList)) := by
  cases hc : l.table.claims.find? r with
  | none =>
    have hr : ¬ l.table.Claims r key := fun ⟨c, hc', _⟩ => by
      rw [hc] at hc'
      cases hc'
    rw [LockTable.parting?_eq_none hr, Option.toList_none, List.append_nil, departure, hc]
    exact h
  | some c =>
    by_cases hkey : c.key = key
    · subst hkey
      have hgo := h.sound.tended_go ⟨c, hc, rfl⟩
      rw [LockTable.parting?_eq_some hc, Option.toList_some, leftBehind_append]
      cases hphase : c.phase with
      | held =>
        rw [departure_of_held hc hphase, eq_false (by decide : LockPhase.held ≠ .waiting)]
        exact hgo.sound.tended_tidy c.key
      | waiting =>
        rw [departure_of_waiting hc hphase, eq_self]
        exact hgo
    · have hr : ¬ l.table.Claims r key := fun ⟨d, hd, hdkey⟩ => by
        rw [hc] at hd
        exact hkey (Option.some.inj hd ▸ hdkey)
      have hgo := h.go_of_ne hr
      rw [LockTable.parting?_eq_none hr, Option.toList_none, List.append_nil]
      cases hphase : c.phase with
      | held =>
        rw [departure_of_held hc hphase]
        exact hgo.alikeFor (hgo.sound.tidy c.key) (hgo.sound.alikeFor_tidy hkey)
      | waiting =>
        rw [departure_of_waiting hc hphase]
        exact hgo

theorem Tended.act {past : List LockPhase} (h : l.Tended key (leftBehind past))
    (a : LockTable.Act ρ) :
    (l.run (l.parts a)).Tended key (leftBehind (past ++ (l.table.parting? key a).toList)) := by
  rcases a with ⟨r, k⟩ | r | r
  · show (l.run (if l.table.isKnown r then [] else _)).Tended key (leftBehind (past ++ []))
    rw [List.append_nil]
    split
    · exact h
    · exact ((h.come r k).ask r).look r
  · show (l.step (.look r)).Tended key (leftBehind (past ++ []))
    rw [List.append_nil]
    exact h.look r
  · exact h.release r

/-! ## Every run -/

theorem Tended.run {past : List LockPhase} (h : l.Tended key (leftBehind past))
    (acts : List (LockTable.Act ρ)) :
    ∃ u : Lobby ρ, u.table = l.table.run acts ∧
      u.Tended key (leftBehind (past ++ LockTable.partings key l.table acts)) := by
  induction acts generalizing l past with
  | nil => exact ⟨l, rfl, by rwa [LockTable.partings, List.append_nil]⟩
  | cons a rest ih =>
    obtain ⟨u, htable, hu⟩ := ih (h.act a)
    rw [h.sound.table_parts a] at htable hu
    refine ⟨u, htable, ?_⟩
    rwa [LockTable.partings, ← List.append_assoc]

end Lobby

namespace LockTable

variable {ρ : Type} [DecidableEq ρ]

theorem isKnown_false_iff_not_inUse (t : LockTable ρ) :
    (∀ r, t.isKnown r = false) ↔ ∀ key, ¬ t.InUse key := by
  simp only [isKnown_eq_false_iff]
  constructor
  · rintro h key ⟨r, c, hc, -⟩
    rw [h r] at hc
    cases hc
  · intro h r
    refine Option.eq_none_iff_forall_ne_some.2 fun c hc => h c.key ⟨r, c, hc, rfl⟩

/-- **What a table keeps**: whatever requests do in whatever order, a key is kept (`Tracks`) exactly
if a request has its lock or waits for it, or else the last one who went away from the key was
waiting (`partings`).  So the table is empty exactly if everybody is gone and at no key the last to
go was waiting. -/
theorem tracks_iff_inUse_or_left_waiting (acts : List (Act ρ)) :
    let t := (empty : LockTable ρ).run acts
    (∀ key, t.Tracks key ↔
      t.InUse key ∨ (partings key empty acts).getLast? = some .waiting) ∧
    (t.tracked = 0 ↔ (∀ r, t.isKnown r = false) ∧
      ∀ key, (partings key empty acts).getLast? ≠ some .waiting) := by
  intro t
  have hkept : ∀ key, t.Tracks key ↔
      t.InUse key ∨ (partings key empty acts).getLast? = some .waiting := by
    intro key
    have hopened : (Lobby.opened : Lobby ρ).Tended key (Lobby.leftBehind []) := by
      simpa [Lobby.leftBehind] using Lobby.tended_opened key
    obtain ⟨l, htable, hl⟩ := hopened.run acts
    have htracks := hl.tracks_iff
    rw [htable] at htracks
    exact htracks
  refine ⟨hkept, ?_⟩
  rw [tracked_eq_zero_iff, isKnown_false_iff_not_inUse, ← forall_and]
  refine forall_congr' fun key => ?_
  rw [hkept key, not_or]

/-- A key of which nobody is left: one request has the lock, another waits, and the one that waits
goes last. -/
theorem tracked_unused :
    let key : SubmissionKey := ⟨"cs1", "hw1", "kim"⟩
    let t := (empty : LockTable Nat).run
      [.acquire 0 key, .acquire 1 key, .release 0, .release 1]
    (∀ r, t.isKnown r = false) ∧ ¬ t.InUse key ∧ t.Tracks key ∧ t.tracked = 1 := by
  intro key t
  have hclaims : t.claims = Table.empty := by decide
  have hgone : ∀ r, t.isKnown r = false := fun r => by
    rw [isKnown, hclaims]
    rfl
  exact ⟨hgone, (t.isKnown_false_iff_not_inUse).1 hgone key,
    show t.entries.contains key = true by decide, by decide⟩

end LockTable
end Coursework
