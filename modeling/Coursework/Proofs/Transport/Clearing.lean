import Coursework.Proofs.Transport.Status

/-!
# Clearing takes nothing else away

Whoever starts a server clears what a dead one left, and goes by a file that may say anything.  What
keeps clearing from going through is an `Obstacle`: a live process, something else in the place of
the socket, or a disk that fails.  With an obstacle the disk stays as it is.  Without one the status
file is gone afterwards, so that to clear once more changes nothing.

In either case nothing goes but the status file and a socket, which is the one that a stale file
names (`Status.clearing_confined`).

A file with the process number 0 is an obstacle although it names no process (`Status.NamesLive`),
since `Status.isAlive` goes by a signal that the caller's own group receives.  No server can be
started over such a file, and whoever reads the message is sent after a server that is not there
(`Status.numberless_obstructs`).
-/

set_option autoImplicit false

namespace Coursework

open Json

variable {d e : Disk} {path : String} {place : List String} {n : Node}

/-! ## What is not there -/

namespace Disk

theorem holds_of_read_notFound (h : d.read path = .error .notFound) : d.holds path = false := by
  rw [read] at h
  rw [holds]
  cases hlook : d.lookUp path with
  | error err => rfl
  | ok found =>
    cases found with
    | none => rfl
    | some m =>
      rw [hlook] at h
      cases m <;> cases h

theorem read_of_taken (h : d.leaf? path = some (place, n)) (hkeeps : d.Keeps e)
    (htaken : e.node? place = none) : e.read path = .error .notFound := by
  obtain ⟨spot, hspot, rfl, -, -, -⟩ := leaf?_eq_some.1 h
  rw [read, lookUp, hkeeps.locate hspot]
  dsimp only
  rw [htaken]

theorem lookUp_of_keeps_directory (hkeeps : e.Keeps d) (h : e.lookUp path = .ok (some .directory)) :
    d.lookUp path = .ok (some .directory) := by
  rw [lookUp] at h ⊢
  cases hspot : e.locate path with
  | error err =>
    rw [hspot] at h
    cases h
  | ok spot =>
    rw [hspot] at h
    rw [hkeeps.locate hspot]
    dsimp only at h ⊢
    have hdirectory : e.node? spot.place = some .directory := by
      split at h
      · cases h
      · assumption
      · next hn hnode =>
        split at h
        · cases h
        · cases h
          exact hnode
    rw [hkeeps _ hdirectory]

end Disk

namespace Status

variable {s : Status} {p : Processes}

/-! ## Why clearing stops -/

/-- A status names a live process: it has the number of one, which is a positive number. -/
structure NamesLive (s : Status) (p : Processes) : Prop where
  positive : 0 < s.pid
  le_pidMax : s.pid ≤ pidMax
  running : p.running s.pid = true

instance (s : Status) (p : Processes) : Decidable (s.NamesLive p) :=
  decidable_of_iff (0 < s.pid ∧ s.pid ≤ pidMax ∧ p.running s.pid = true)
    ⟨fun ⟨hpositive, hle, hrunning⟩ => ⟨hpositive, hle, hrunning⟩,
      fun h => ⟨h.positive, h.le_pidMax, h.running⟩⟩

/-- What `isAlive` takes for alive is a live process, or the number 0. -/
theorem isAlive_iff : s.isAlive p = true ↔ s.NamesLive p ∨ s.pid = 0 := by
  rw [isAlive, Bool.or_eq_true, Bool.and_eq_true, decide_eq_true_eq, decide_eq_true_eq]
  constructor
  · rintro (hzero | ⟨hle, hrunning⟩)
    · exact .inr hzero
    · obtain hzero | hpositive := Nat.eq_zero_or_pos s.pid
      · exact .inr hzero
      · exact .inl ⟨hpositive, hle, hrunning⟩
  · rintro (h | hzero)
    · exact .inr ⟨h.le_pidMax, h.running⟩
    · exact .inl hzero

/-- What keeps clearing from going through, and the error that it is answered with.  The status file
names a `live` process other than the one that looks; or it is `numberless`, with the number 0 that
no process has and that is taken for a live one; or it is stale, and at the path that it names there
is something that is no socket (`notASocket`), or the path cannot be followed (`unseen`); or the
status file cannot be read itself, though there may be one (`unread`). -/
inductive Obstacle (p : Processes) (d : Disk) (path : String) : TransportError → Prop where
  | live {s : Status} (hread : read d path = .ok (some s)) (hother : s.pid ≠ p.self)
      (hlive : s.NamesLive p) : Obstacle p d path (.alreadyRunning s.pid path)
  | numberless {s : Status} (hread : read d path = .ok (some s)) (hother : s.pid ≠ p.self)
      (hzero : s.pid = 0) : Obstacle p d path (.alreadyRunning 0 path)
  | notASocket {s : Status} {n : Node} (hread : read d path = .ok (some s)) (hstale : s.Stale p)
      (hlook : d.lookUp s.socketPath = .ok (some n)) (hn : ∀ k, n ≠ .socket k) :
      Obstacle p d path (.notASocket s.socketPath)
  | unread {err : DiskError} (hread : d.read path = .error err) (herr : err ≠ .notFound) :
      Obstacle p d path (.disk err)
  | unseen {s : Status} {err : DiskError} (hread : read d path = .ok (some s)) (hstale : s.Stale p)
      (hlook : d.lookUp s.socketPath = .error err) (herr : err ≠ .notFound) :
      Obstacle p d path (.disk err)

theorem clearStale_of_obstacle {err : TransportError} (h : Obstacle p d path err) :
    clearStale p d path = (.error err, d) := by
  cases h with
  | live hread hother hlive =>
    exact clearStale_of_live hread (not_stale_iff.2 ⟨hother, isAlive_iff.2 (.inl hlive)⟩)
  | numberless hread hother hzero =>
    rw [clearStale_of_live hread (not_stale_iff.2 ⟨hother, isAlive_iff.2 (.inr hzero)⟩), hzero]
  | @notASocket s n hread hstale hlook hn =>
    refine clearStale_of_error hread hstale ?_
    rw [removeStaleSocket, hlook]
    cases n with
    | directory | file _ => rfl
    | socket k => exact absurd rfl (hn k)
  | @unread err hread herr =>
    rw [clearStale, read, hread]
    cases err with
    | notFound => exact absurd rfl herr
    | _ => rfl
  | @unseen s err hread hstale hlook herr =>
    refine clearStale_of_error hread hstale ?_
    rw [removeStaleSocket, hlook]
    cases err with
    | notFound => exact absurd rfl herr
    | _ => rfl

/-! ## Going through -/

theorem clearStale_of_missing (h : d.read path = .error .notFound) (p : Processes) :
    clearStale p d path = (.ok (), d) := by
  rw [clearStale, read, h]

theorem removeStaleSocket_of_free
    (hfree : ∀ n, d.lookUp path = .ok (some n) → ∃ k, n = .socket k)
    (hseen : ∀ err, d.lookUp path = .error err → err = .notFound) :
    removeStaleSocket d path = .ok (d.without path) := by
  obtain ⟨hremoved, -⟩ | ⟨⟨err, herror⟩, hsocket⟩ := removeStaleSocket_cases d path
  · exact hremoved
  · rw [removeStaleSocket] at herror
    cases hlook : d.lookUp path with
    | error err' =>
      rw [hlook, hseen err' hlook] at herror
      cases herror
    | ok found =>
      cases found with
      | none =>
        rw [hlook] at herror
        cases herror
      | some n =>
        obtain ⟨k, rfl⟩ := hfree n hlook
        obtain ⟨place, hleaf⟩ := (Disk.lookUp_eq_leaf (by simp)).1 hlook
        exact absurd hleaf (hsocket place k)

theorem stale_of_not_obstacle (h : ∀ err, ¬ Obstacle p d path err)
    (hread : read d path = .ok (some s)) : s.Stale p := by
  by_cases hstale : s.Stale p
  · exact hstale
  · obtain ⟨hother, halive⟩ := not_stale_iff.1 hstale
    obtain hlive | hzero := isAlive_iff.1 halive
    · exact absurd (.live hread hother hlive) (h _)
    · exact absurd (.numberless hread hother hzero) (h _)

/-- Without an obstacle clearing goes through, and no status file is left. -/
theorem clearStale_of_not_obstacle (h : ∀ err, ¬ Obstacle p d path err) :
    ∃ after, clearStale p d path = (.ok (), after) ∧ after.read path = .error .notFound := by
  cases hread : d.read path with
  | error err =>
    by_cases hmissing : err = .notFound
    · subst hmissing
      exact ⟨d, clearStale_of_missing hread p, hread⟩
    · exact absurd (.unread hread hmissing) (h _)
  | ok octets =>
    obtain ⟨place, hleaf⟩ := Disk.read_eq_ok.1 hread
    have hroot := Disk.ne_root_of_leaf? hleaf
    have hkeeps := keeps_clearStale p d path
    cases hs : decodeOctets? decode octets with
    | none =>
      have hcleared := clearStale_of_blank hleaf hs p
      rw [hcleared] at hkeeps
      exact ⟨_, hcleared, Disk.read_of_taken hleaf hkeeps (Disk.node?_clear_self hroot)⟩
    | some s =>
      have hsays : read d path = .ok (some s) := read_eq_some.2 ⟨place, octets, hleaf, hs⟩
      have hstale := stale_of_not_obstacle h hsays
      have hfree : ∀ n, d.lookUp s.socketPath = .ok (some n) → ∃ k, n = .socket k := by
        intro n hlook
        cases n with
        | socket k => exact ⟨k, rfl⟩
        | directory | file _ => exact absurd (.notASocket hsays hstale hlook (by nofun)) (h _)
      have hseen : ∀ err, d.lookUp s.socketPath = .error err → err = .notFound := fun err hlook =>
        Decidable.byContradiction fun herr => h _ (.unseen hsays hstale hlook herr)
      have hfile : ∀ q o, d.leaf? s.socketPath ≠ some (q, .file o) := by
        intro q o hfile
        obtain ⟨k, hk⟩ := hfree _ ((Disk.lookUp_eq_leaf (by nofun)).2 ⟨q, hfile⟩)
        cases hk
      have hcleared := clearStale_of_stale hleaf hs hstale
        (removeStaleSocket_of_free hfree hseen) hfile
      rw [hcleared] at hkeeps
      exact ⟨_, hcleared, Disk.read_of_taken hleaf hkeeps (Disk.node?_clear_self hroot)⟩

/-- Without an obstacle nothing stands where the status file says that a socket is. -/
theorem holds_socketPath_clearStale (h : ∀ err, ¬ Obstacle p d path err)
    (hread : read d path = .ok (some s)) : (clearStale p d path).2.holds s.socketPath = false := by
  have hstale := stale_of_not_obstacle h hread
  cases hlook : (clearStale p d path).2.lookUp s.socketPath with
  | error err => rw [Disk.holds, hlook]
  | ok found =>
    cases found with
    | none => rw [Disk.holds, hlook]
    | some n =>
      cases n with
      | directory =>
        have hbefore := Disk.lookUp_of_keeps_directory (clearStale_keeps p d path) hlook
        exact absurd (.notASocket hread hstale hbefore (by nofun)) (h _)
      | file octets =>
        obtain ⟨place, hleaf⟩ := (Disk.lookUp_eq_leaf (by nofun)).1 hlook
        have hbefore := (Disk.lookUp_eq_leaf (by nofun)).2 ⟨place, leaf?_of_clearStale hleaf⟩
        exact absurd (.notASocket hread hstale hbefore (by nofun)) (h _)
      | socket k =>
        obtain ⟨place, hleaf⟩ := (Disk.lookUp_eq_leaf (by nofun)).1 hlook
        exact absurd (Disk.node?_of_leaf? hleaf)
          (node?_clearStale_stale hread hstale (leaf?_of_clearStale hleaf))

/-! ## What is left alone -/

/-- The place of the status file, and of no other kind of thing. -/
def IsOwn (d : Disk) (path : String) (place : List String) : Prop :=
  ∃ octets, d.leaf? path = some (place, .file octets)

/-- The place of the socket that a stale status file (`Stale`) names. -/
def IsStaleSocket (p : Processes) (d : Disk) (path : String) (place : List String) : Prop :=
  ∃ s k, read d path = .ok (some s) ∧ s.Stale p ∧ d.leaf? s.socketPath = some (place, .socket k)

/-- Every place is as before, or it is cleared and was the status file's or its socket's. -/
theorem node?_clearStale_cases (p : Processes) (d : Disk) (path : String) (place : List String) :
    (clearStale p d path).2.node? place = d.node? place ∨
      (clearStale p d path).2.node? place = none ∧
        (IsOwn d path place ∨ IsStaleSocket p d path place) := by
  obtain hsame | ⟨own, octets, hleaf, -, hcleared⟩ |
    ⟨own, octets, s, hleaf, hs, hstale, hfile, hcleared⟩ := clearStale_cases p d path
  · rw [hsame]
    exact .inl rfl
  · rw [hcleared]
    by_cases hplace : place = own
    · subst hplace
      exact .inr ⟨Disk.node?_clear_self (Disk.ne_root_of_leaf? hleaf), .inl ⟨octets, hleaf⟩⟩
    · exact .inl (Disk.node?_clear_of_ne hplace)
  · rw [hcleared]
    by_cases hplace : place = own
    · subst hplace
      exact .inr ⟨Disk.node?_clear_self (Disk.ne_root_of_leaf? hleaf), .inl ⟨octets, hleaf⟩⟩
    · rw [Disk.node?_clear_of_ne hplace]
      cases hsocket : d.leaf? s.socketPath with
      | none =>
        rw [Disk.without_of_none hsocket]
        exact .inl rfl
      | some leaf =>
        obtain ⟨other, n⟩ := leaf
        rw [Disk.without_of_leaf? hsocket]
        by_cases hother : place = other
        · subst hother
          refine .inr ⟨Disk.node?_clear_self (Disk.ne_root_of_leaf? hsocket), .inr ⟨s, ?_⟩⟩
          cases n with
          | directory => exact absurd rfl (Disk.ne_directory_of_leaf? hsocket)
          | file o => exact absurd hsocket (hfile place o)
          | socket k =>
            exact ⟨k, read_eq_some.2 ⟨own, octets, hleaf, hs⟩, hstale, hsocket⟩
        · exact .inl (Disk.node?_clear_of_ne hother)

/-- **Clearing takes nothing else away.**  An `Obstacle` is answered with its error and leaves the
disk as it is; a status file with the number 0 is one, though it names nobody
(`Obstacle.numberless`).  Without one clearing goes through, after which there is neither a status
file nor anything where it said that a socket is, and to clear again changes nothing, whatever
processes there are by then.  A file that says nothing goes alone, and in no case does anything go
but a status file (`IsOwn`) and the socket that a stale one names (`IsStaleSocket`). -/
theorem clearing_confined (p : Processes) (d : Disk) (path : String) :
    (∀ err, Obstacle p d path err → clearStale p d path = (.error err, d)) ∧
    ((∀ err, ¬ Obstacle p d path err) → ∃ after, clearStale p d path = (.ok (), after) ∧
      after.holds path = false ∧
      (∀ s, read d path = .ok (some s) → after.holds s.socketPath = false) ∧
      ∀ p', clearStale p' after path = (.ok (), after)) ∧
    (∀ place octets, d.leaf? path = some (place, .file octets) →
      decodeOctets? decode octets = none → clearStale p d path = (.ok (), d.clear place)) ∧
    ∀ place, (clearStale p d path).2.node? place = d.node? place ∨
      (clearStale p d path).2.node? place = none ∧
        (IsOwn d path place ∨ IsStaleSocket p d path place) := by
  refine ⟨fun _ => clearStale_of_obstacle, fun hclear => ?_,
    fun _ _ hleaf hblank => clearStale_of_blank hleaf hblank p, node?_clearStale_cases p d path⟩
  obtain ⟨after, hcleared, hmissing⟩ := clearStale_of_not_obstacle hclear
  refine ⟨after, hcleared, Disk.holds_of_read_notFound hmissing, fun s hread => ?_,
    clearStale_of_missing hmissing⟩
  have hsocket := holds_socketPath_clearStale hclear hread
  rwa [hcleared] at hsocket

def numberless : Status :=
  ⟨0, "/run/s", "graderd"⟩

def numberlessDisk : Disk :=
  let d := (numberless.write .empty "/run/status.json").2
  (d.bind "/run/s" 0).toOption.getD d

/-- **A status file can name nobody and be obstructive.**  One with the number 0 keeps a server from
starting where the process that looks is the only one, and stays there with its socket. -/
theorem numberless_obstructs :
    (read numberlessDisk "/run/status.json" = .ok (some numberless) ∧
      ¬ numberless.NamesLive ⟨7, fun pid => pid == 7⟩ ∧
      numberlessDisk.leaf? "/run/s" = some (["run", "s"], .socket 0)) ∧
    clearStale ⟨7, fun pid => pid == 7⟩ numberlessDisk "/run/status.json" =
      (.error (.alreadyRunning 0 "/run/status.json"), numberlessDisk) := by
  have hleaf : numberlessDisk.leaf? "/run/status.json" =
      some (["run", "status.json"], .file (Text.utf8 numberless.toJson.pretty)) := by decide +kernel
  have hread : read numberlessDisk "/run/status.json" = .ok (some numberless) :=
    read_eq_some.2 ⟨_, _, hleaf, decodeOctets?_pretty (by decide)⟩
  refine ⟨⟨hread, by decide, by decide +kernel⟩, clearStale_of_obstacle ?_⟩
  exact .numberless hread (by decide) rfl

end Status
end Coursework
