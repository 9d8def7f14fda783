import Coursework.Proofs.Disk
import Coursework.Proofs.Json.Pretty
import Coursework.Proofs.Json.Records
import Coursework.Settings
import Coursework.Transport.Status

/-!
# Status files and sockets on a disk

Starting and stopping a server clears, binds and writes.  Of each operation there are three things
to know: the directories stay, so that paths go on leading where they led; what is there afterwards
was there before, or is the operation's own; and what the paths of the operation do not lead to is
left alone.

Clearing goes by what a status file says.  A file is stale if it names the process that looks, or
one that is dead (`Status.Stale`); the socket that a stale file names goes with it.
-/

set_option autoImplicit false

namespace Coursework

open Json

variable {d e : Disk} {path : String} {place : List String} {n : Node}

/-! ## Sockets that were left -/

/-- Removing a socket that was left takes away no file, and fails only where there is no socket. -/
theorem removeStaleSocket_cases (d : Disk) (path : String) :
    removeStaleSocket d path = .ok (d.without path) ∧
        (∀ place octets, d.leaf? path ≠ some (place, .file octets)) ∨
      (∃ e, removeStaleSocket d path = .error e) ∧
        ∀ place listener, d.leaf? path ≠ some (place, .socket listener) := by
  cases hleaf : d.leaf? path with
  | some leaf =>
    obtain ⟨place, n⟩ := leaf
    have hlook := (Disk.lookUp_eq_leaf (Disk.ne_directory_of_leaf? hleaf)).2 ⟨place, hleaf⟩
    cases n with
    | directory => exact absurd rfl (Disk.ne_directory_of_leaf? hleaf)
    | file octets =>
      right
      rw [removeStaleSocket, hlook]
      exact ⟨⟨_, rfl⟩, by simp⟩
    | socket listener =>
      left
      obtain hremoved | ⟨hnone, -⟩ := d.removeIfThere_cases path
      · rw [removeStaleSocket, hlook]
        dsimp only
        rw [hremoved]
        exact ⟨rfl, by simp⟩
      · rw [hleaf] at hnone
        cases hnone
  | none =>
    rw [Disk.without_of_none hleaf, removeStaleSocket]
    cases hlook : d.lookUp path with
    | error e => cases e <;> simp
    | ok node =>
      cases node with
      | none => simp
      | some n =>
        cases n with
        | directory => simp
        | file octets =>
          obtain ⟨place, hsome⟩ := (Disk.lookUp_eq_leaf (by nofun)).1 hlook
          rw [hleaf] at hsome
          cases hsome
        | socket listener =>
          obtain ⟨place, hsome⟩ := (Disk.lookUp_eq_leaf (by nofun)).1 hlook
          rw [hleaf] at hsome
          cases hsome

theorem unlisten_eq (d : Disk) (path : String) : unlisten d path = d.without path := by
  obtain hremoved | ⟨hnone, e, herror⟩ := d.removeIfThere_cases path
  · rw [unlisten, hremoved]
  · rw [unlisten, herror, Disk.without_of_none hnone]

/-! ## Reading status files -/

namespace Status

variable {s : Status} {p : Processes}

theorem read_eq_some : read d path = .ok (some s) ↔ ∃ place octets,
    d.leaf? path = some (place, .file octets) ∧ decodeOctets? decode octets = some s := by
  rw [read]
  cases hread : d.read path with
  | error e =>
    have hnone : ∀ place octets, d.leaf? path ≠ some (place, .file octets) := by
      intro place octets hleaf
      rw [Disk.read_eq_ok.2 ⟨place, hleaf⟩] at hread
      cases hread
    cases e <;> simp [hnone]
  | ok octets =>
    obtain ⟨place, hleaf⟩ := Disk.read_eq_ok.1 hread
    constructor
    · intro h
      refine ⟨place, octets, hleaf, ?_⟩
      cases hs : decodeOctets? decode octets <;> simp_all
    · rintro ⟨place', octets', hleaf', hs⟩
      rw [hleaf] at hleaf'
      cases hleaf'
      dsimp only
      rw [hs]

/-- A status is read out of the text that it is written as. -/
theorem decodeOctets?_pretty (h : s.pid ≤ Text.uint32Max) :
    decodeOctets? decode (Text.utf8 s.toJson.pretty) = some s := by
  rw [decodeOctets?, Value.read_pretty, Option.bind_some, toJson, decode,
    Decode.record?_of_keys (by decide) (by rfl)]
  simp only [Option.bind_eq_bind, Option.bind_some]
  rw [Decode.required_fieldsOf (v := .nat s.pid) rfl,
    Decode.required_fieldsOf (v := .string s.socketPath) rfl,
    Decode.required_fieldsOf (v := .string s.creator) rfl, Decode.natUpTo_source h (by decide)]
  rfl

/-! ## Clearing -/

/-- A status is stale if it names the process that looks, or one that `isAlive` says is dead. -/
def Stale (s : Status) (p : Processes) : Prop :=
  s.pid = p.self ∨ s.isAlive p = false

theorem not_stale_iff : ¬ s.Stale p ↔ s.pid ≠ p.self ∧ s.isAlive p = true := by
  rw [Stale, not_or, Bool.not_eq_false]

theorem clearStale_of_live (hread : read d path = .ok (some s)) (hlive : ¬ s.Stale p) :
    clearStale p d path = (.error (.alreadyRunning s.pid path), d) := by
  rw [clearStale, hread]
  dsimp only
  rw [if_pos (not_stale_iff.1 hlive)]

theorem clearStale_of_error {err : TransportError} (hread : read d path = .ok (some s))
    (hstale : s.Stale p) (hsocket : removeStaleSocket d s.socketPath = .error err) :
    clearStale p d path = (.error err, d) := by
  rw [clearStale, hread]
  dsimp only
  rw [if_neg (fun hlive => not_stale_iff.2 hlive hstale), hsocket]

theorem clearStale_of_blank {octets : List UInt8}
    (hleaf : d.leaf? path = some (place, .file octets))
    (hblank : decodeOctets? decode octets = none) (p : Processes) :
    clearStale p d path = (.ok (), d.clear place) := by
  obtain hremoved | ⟨hnone, -⟩ := d.removeIfThere_cases path
  · rw [clearStale, read, Disk.read_eq_ok.2 ⟨place, hleaf⟩]
    dsimp only
    rw [hblank]
    dsimp only
    rw [hremoved, Disk.without_of_leaf? hleaf]
  · rw [hleaf] at hnone
    cases hnone

theorem clearStale_of_stale {octets : List UInt8}
    (hleaf : d.leaf? path = some (place, .file octets))
    (hs : decodeOctets? decode octets = some s) (hstale : s.Stale p)
    (hsocket : removeStaleSocket d s.socketPath = .ok (d.without s.socketPath))
    (hfile : ∀ q o, d.leaf? s.socketPath ≠ some (q, .file o)) :
    clearStale p d path = (.ok (), (d.without s.socketPath).clear place) := by
  have hread : read d path = .ok (some s) := read_eq_some.2 ⟨place, octets, hleaf, hs⟩
  have hnode : (d.without s.socketPath).node? place = some (.file octets) := by
    refine Disk.node?_without (Disk.node?_of_leaf? hleaf) fun m hm => ?_
    have hm' := Disk.node?_of_leaf? hm
    rw [Disk.node?_of_leaf? hleaf] at hm'
    exact hfile place octets (Option.some.inj hm' ▸ hm)
  have hleaf' := (Disk.keeps_without d s.socketPath).leaf? hleaf hnode (by nofun)
  obtain hremoved | ⟨hnone, -⟩ := (d.without s.socketPath).removeIfThere_cases path
  · rw [clearStale, hread]
    dsimp only
    rw [if_neg fun hlive => not_stale_iff.2 hlive hstale, hsocket]
    dsimp only
    rw [hremoved, Disk.without_of_leaf? hleaf']
  · rw [hleaf'] at hnone
    cases hnone

theorem node?_clearStale_stale {k : Nat} (hread : read d path = .ok (some s)) (hstale : s.Stale p)
    (hsocket : d.leaf? s.socketPath = some (place, .socket k)) :
    (clearStale p d path).2.node? place ≠ some (.socket k) := by
  obtain ⟨own, octets, hleaf, hs⟩ := read_eq_some.1 hread
  obtain ⟨hremoved, hfile⟩ | ⟨-, hnone⟩ := removeStaleSocket_cases d s.socketPath
  · rw [clearStale_of_stale hleaf hs hstale hremoved hfile]
    intro hnode
    have hbefore := Disk.node?_of_clear hnode (by nofun)
    rw [Disk.without_of_leaf? hsocket, Disk.node?_clear_self (Disk.ne_root_of_leaf? hsocket)]
      at hbefore
    cases hbefore
  · exact absurd hsocket (hnone place k)

/-- All that `clearStale` can do: nothing, remove a file that says nothing, or remove a stale one
with its socket. -/
theorem clearStale_cases (p : Processes) (d : Disk) (path : String) :
    (clearStale p d path).2 = d ∨
      (∃ place octets, d.leaf? path = some (place, .file octets) ∧
        decodeOctets? decode octets = none ∧ (clearStale p d path).2 = d.clear place) ∨
      ∃ place octets s, d.leaf? path = some (place, .file octets) ∧
        decodeOctets? decode octets = some s ∧ s.Stale p ∧
        (∀ q o, d.leaf? s.socketPath ≠ some (q, .file o)) ∧
        (clearStale p d path).2 = (d.without s.socketPath).clear place := by
  cases hleaf : d.leaf? path with
  | none =>
    left
    have hread : ∀ octets, d.read path ≠ .ok octets := by
      intro octets hread
      obtain ⟨place, hsome⟩ := Disk.read_eq_ok.1 hread
      rw [hleaf] at hsome
      cases hsome
    rw [clearStale, read]
    cases hdisk : d.read path with
    | error e => cases e <;> rfl
    | ok octets => exact absurd hdisk (hread octets)
  | some leaf =>
    obtain ⟨place, n⟩ := leaf
    cases n with
    | directory => exact absurd rfl (Disk.ne_directory_of_leaf? hleaf)
    | socket listener =>
      left
      have hlook := (Disk.lookUp_eq_leaf (by nofun)).2 ⟨place, hleaf⟩
      rw [clearStale, read, Disk.read, hlook]
    | file octets =>
      cases hs : decodeOctets? decode octets with
      | none =>
        right
        left
        refine ⟨place, octets, rfl, hs, ?_⟩
        rw [clearStale_of_blank hleaf hs]
      | some s =>
        have hread : read d path = .ok (some s) := read_eq_some.2 ⟨place, octets, hleaf, hs⟩
        by_cases hstale : s.Stale p
        · obtain ⟨hsocket, hfile⟩ | ⟨⟨e, herror⟩, -⟩ := removeStaleSocket_cases d s.socketPath
          · right
            right
            refine ⟨place, octets, s, rfl, hs, hstale, hfile, ?_⟩
            rw [clearStale_of_stale hleaf hs hstale hsocket hfile]
          · left
            rw [clearStale_of_error hread hstale herror]
        · left
          rw [clearStale_of_live hread hstale]

theorem keeps_clearStale (p : Processes) (d : Disk) (path : String) :
    d.Keeps (clearStale p d path).2 := by
  obtain hsame | ⟨place, octets, hleaf, -, hcleared⟩ |
    ⟨place, octets, s, hleaf, -, -, -, hcleared⟩ := clearStale_cases p d path
  · rw [hsame]
    exact .refl d
  · rw [hcleared]
    exact Disk.keeps_clear (Disk.node?_ne_directory hleaf)
  · rw [hcleared]
    refine (Disk.keeps_without d _).trans (Disk.keeps_clear fun h => ?_)
    exact Disk.node?_ne_directory hleaf (Disk.without_keeps d _ place h)

theorem node?_of_clearStale (h : (clearStale p d path).2.node? place = some n)
    (hn : n ≠ .directory) : d.node? place = some n := by
  obtain hsame | ⟨_, _, -, -, hcleared⟩ | ⟨_, _, s, -, -, -, -, hcleared⟩ :=
    clearStale_cases p d path
  · rwa [hsame] at h
  · rw [hcleared] at h
    exact Disk.node?_of_clear h hn
  · rw [hcleared] at h
    exact Disk.node?_of_without (Disk.node?_of_clear h hn) hn

/-- Clearing leaves alone what is neither a stale status file nor the socket that such a file
names. -/
theorem node?_clearStale (h : d.node? place = some n)
    (hown : ∀ octets, d.leaf? path = some (place, .file octets) →
      ∃ s, decodeOctets? decode octets = some s ∧ ¬ s.Stale p)
    (hsocket : ∀ s, read d path = .ok (some s) → s.Stale p →
      ∀ k, d.leaf? s.socketPath ≠ some (place, .socket k)) :
    (clearStale p d path).2.node? place = some n := by
  obtain hsame | ⟨other, octets, hleaf, hnothing, hcleared⟩ |
    ⟨other, octets, s, hleaf, hs, hstale, hfile, hcleared⟩ := clearStale_cases p d path
  · rwa [hsame]
  · have hne : place ≠ other := by
      rintro rfl
      obtain ⟨s, hs, -⟩ := hown octets hleaf
      rw [hnothing] at hs
      cases hs
    rwa [hcleared, Disk.node?_clear_of_ne hne]
  · have hne : place ≠ other := by
      rintro rfl
      obtain ⟨s', hs', hlive⟩ := hown octets hleaf
      rw [hs] at hs'
      cases hs'
      exact hlive hstale
    rw [hcleared, Disk.node?_clear_of_ne hne]
    refine Disk.node?_without_socket h (hfile place) ?_
    exact hsocket s (read_eq_some.2 ⟨other, octets, hleaf, hs⟩) hstale

theorem clearStale_keeps (p : Processes) (d : Disk) (path : String) :
    (clearStale p d path).2.Keeps d := by
  obtain hsame | ⟨_, _, -, -, hcleared⟩ | ⟨_, _, s, -, -, -, -, hcleared⟩ :=
    clearStale_cases p d path
  · rw [hsame]
    exact .refl d
  · rw [hcleared]
    exact Disk.clear_keeps d _
  · rw [hcleared]
    exact (Disk.clear_keeps _ _).trans (Disk.without_keeps d _)

theorem leaf?_of_clearStale {other : String}
    (h : (clearStale p d path).2.leaf? other = some (place, n)) : d.leaf? other = some (place, n) :=
  (clearStale_keeps p d path).leaf? h
    (node?_of_clearStale (Disk.node?_of_leaf? h) (Disk.ne_directory_of_leaf? h))
    (Disk.ne_directory_of_leaf? h)

end Status

/-! ## Binding -/

/-- All that `listen` can do: nothing, where there is no socket to be taken away first, or take it
away and, unless binding fails, put a new one there. -/
theorem listen_cases (d : Disk) (path : String) (listener : Nat) :
    (∃ err, listen d path listener = (.error err, d)) ∧
        (∀ place k, d.leaf? path ≠ some (place, .socket k)) ∨
      ∃ e, (d.without path).Grows e ∧ (∀ place octets, d.leaf? path ≠ some (place, .file octets)) ∧
        ((∃ err, listen d path listener = (.error err, e)) ∨
          ∃ spot, e.locate path = .ok spot ∧ e.node? spot.place = none ∧
            spot.wantsDirectory = false ∧
            listen d path listener = (.ok (), e.put spot.place (.socket listener))) := by
  obtain ⟨hremoved, hfile⟩ | ⟨⟨err, herror⟩, hsocket⟩ := removeStaleSocket_cases d path
  · right
    have hgrows := (d.without path).grows_makeDirectories (Disk.parent path)
    refine ⟨((d.without path).makeDirectories (Disk.parent path)).2, hgrows, hfile, ?_⟩
    rw [listen, hremoved]
    dsimp only
    cases (d.without path).makeDirectories (Disk.parent path) with
    | mk made e =>
      cases made with
      | error err => exact .inl ⟨_, rfl⟩
      | ok =>
        dsimp only
        cases hbind : e.bind path listener with
        | error err => exact .inl ⟨_, rfl⟩
        | ok bound =>
          obtain ⟨spot, hspot, hnode, hslash, rfl⟩ := Disk.bind_eq_ok hbind
          exact .inr ⟨spot, hspot, hnode, hslash, rfl⟩
  · left
    rw [listen, herror]
    exact ⟨⟨err, rfl⟩, hsocket⟩

section Binding

variable {listener : Nat}

theorem keeps_listen (d : Disk) (path : String) (listener : Nat) :
    d.Keeps (listen d path listener).2 := by
  obtain ⟨⟨err, herror⟩, -⟩ | ⟨e, hgrows, -, ⟨err, herror⟩ | ⟨spot, -, hnode, -, hbound⟩⟩ :=
    listen_cases d path listener
  · rw [herror]
    exact .refl d
  · rw [herror]
    exact (Disk.keeps_without d path).trans hgrows.keeps
  · rw [hbound]
    refine ((Disk.keeps_without d path).trans hgrows.keeps).trans (Disk.keeps_put ?_ _)
    rw [hnode]
    nofun

theorem node?_of_listen (h : (listen d path listener).2.node? place = some n)
    (hn : n ≠ .directory) : d.node? place = some n ∨ n = .socket listener ∧
      (listen d path listener).1 = .ok () ∧
      (listen d path listener).2.leaf? path = some (place, .socket listener) := by
  obtain ⟨⟨err, herror⟩, -⟩ | ⟨e, hgrows, -, ⟨err, herror⟩ |
    ⟨spot, hspot, hnode, hslash, hbound⟩⟩ := listen_cases d path listener
  · rw [herror] at h
    exact .inl h
  · rw [herror] at h
    exact .inl (Disk.node?_of_without (hgrows.node?_of h hn) hn)
  · rw [hbound] at h ⊢
    by_cases hplace : place = spot.place
    · have hroot := Disk.ne_root h hn
      rw [hplace, Disk.node?_put_self (hplace ▸ hroot)] at h
      have hkeeps : e.Keeps (e.put spot.place (.socket listener)) :=
        Disk.keeps_put (by rw [hnode]; nofun) _
      exact .inr ⟨(Option.some.inj h).symm, rfl, Disk.leaf?_eq_some.2 ⟨spot, hkeeps.locate hspot,
        hplace.symm, hslash, hplace ▸ Disk.node?_put_self (hplace ▸ hroot) _, by nofun⟩⟩
    · rw [Disk.node?_put_of_ne hplace] at h
      exact .inl (Disk.node?_of_without (hgrows.node?_of h hn) hn)

/-- Binding takes away no more than a socket at its own path. -/
theorem node?_listen (h : d.node? place = some n)
    (hother : ∀ k, d.leaf? path ≠ some (place, .socket k)) :
    (listen d path listener).2.node? place = some n := by
  obtain ⟨⟨err, herror⟩, -⟩ | ⟨e, hgrows, hfile, hend⟩ := listen_cases d path listener
  · rwa [herror]
  · have hkept : e.node? place = some n := by
      refine hgrows.node? (Disk.node?_without h fun m hm => ?_)
      cases m with
      | directory => exact Disk.ne_directory_of_leaf? hm rfl
      | file octets => exact hfile place octets hm
      | socket k => exact hother k hm
    obtain ⟨err, herror⟩ | ⟨spot, -, hnode, -, hbound⟩ := hend
    · rwa [herror]
    · have hne : place ≠ spot.place := by
        rintro rfl
        rw [hkept] at hnode
        cases hnode
      rwa [hbound, Disk.node?_put_of_ne hne]

theorem node?_listen_replaced {k : Nat} (h : d.leaf? path = some (place, .socket k))
    (hk : k ≠ listener) : (listen d path listener).2.node? place ≠ some (.socket k) := by
  have hgone : ∀ e, (d.without path).Grows e → e.node? place ≠ some (.socket k) := by
    intro e hgrows hnode
    have hbefore := hgrows.node?_of hnode (by nofun)
    rw [Disk.without_of_leaf? h, Disk.node?_clear_self (Disk.ne_root_of_leaf? h)] at hbefore
    cases hbefore
  obtain ⟨-, hsocket⟩ | ⟨e, hgrows, -, ⟨err, herror⟩ | ⟨spot, -, -, -, hbound⟩⟩ :=
    listen_cases d path listener
  · exact absurd h (hsocket place k)
  · rw [herror]
    exact hgone e hgrows
  · rw [hbound]
    by_cases hplace : place = spot.place
    · rw [← hplace, Disk.node?_put_self (Disk.ne_root_of_leaf? h)]
      exact fun hnode => hk (Node.socket.inj (Option.some.inj hnode)).symm
    · rw [Disk.node?_put_of_ne hplace]
      exact hgone e hgrows

theorem leaf?_of_listen (h : (listen d path listener).1 = .ok ()) :
    ∃ place, (listen d path listener).2.leaf? path = some (place, .socket listener) := by
  obtain ⟨⟨err, herror⟩, -⟩ | ⟨e, hgrows, -, ⟨err, herror⟩ |
    ⟨spot, hspot, hnode, hslash, hbound⟩⟩ := listen_cases d path listener
  · rw [herror] at h
    cases h
  · rw [herror] at h
    cases h
  · have hroot : spot.place ≠ [] := by
      intro hroot
      rw [hroot] at hnode
      cases hnode
    have hkeeps : e.Keeps (e.put spot.place (.socket listener)) :=
      Disk.keeps_put (by rw [hnode]; nofun) _
    rw [hbound]
    exact ⟨spot.place, Disk.leaf?_eq_some.2 ⟨spot, hkeeps.locate hspot, rfl, hslash,
      Disk.node?_put_self hroot _, by nofun⟩⟩

end Binding

/-! ## Writing status files -/

namespace Status

variable {s : Status} {p : Processes}

def fileOctets (s : Status) : List UInt8 :=
  Text.utf8 s.toJson.pretty

/-- All that `write` can do: the text goes to the draft (`draftPath`), and from there on. -/
theorem write_cases (s : Status) (d : Disk) (path : String) :
    ∃ e, d.Grows e ∧ ((∃ err, write s d path = (.error err, e)) ∨
      ∃ draft, e.locate (draftPath path) = .ok draft ∧ e.node? draft.place ≠ some .directory ∧
        (∀ k, e.node? draft.place ≠ some (.socket k)) ∧
        ((∃ err, write s d path = (.error err, e.put draft.place (.file s.fileOctets))) ∨
          ∃ place, ((e.put draft.place (.file s.fileOctets)).clear draft.place).node? place ≠
              some .directory ∧
            (write s d path).2.leaf? path = some (place, .file s.fileOctets) ∧
            write s d path = (.ok (), ((e.put draft.place (.file s.fileOctets)).clear
              draft.place).put place (.file s.fileOctets)))) := by
  refine ⟨(d.makeDirectories (Disk.parent path)).2, d.grows_makeDirectories _, ?_⟩
  rw [write]
  cases d.makeDirectories (Disk.parent path) with
  | mk made e =>
    cases made with
    | error err => exact .inl ⟨_, rfl⟩
    | ok =>
      dsimp only
      cases hwrite : e.write (draftPath path) (Text.utf8 s.toJson.pretty) with
      | error err => exact .inl ⟨_, rfl⟩
      | ok drafted =>
        right
        obtain ⟨draft, hdraft, hdirectory, hsocket, rfl⟩ := Disk.write_eq_ok hwrite
        refine ⟨draft, hdraft, hdirectory, hsocket, ?_⟩
        dsimp only
        cases hrename : (e.put draft.place (.file s.fileOctets)).rename (draftPath path) path with
        | error err =>
          left
          rw [fileOctets] at hrename
          rw [hrename]
          exact ⟨_, rfl⟩
        | ok renamed =>
          right
          obtain ⟨source, target, n, hsource, htarget, hnode, -, hplace, hslash, rfl⟩ :=
            Disk.rename_eq_ok hrename
          have hroot : draft.place ≠ [] := by
            intro hroot
            rw [hroot] at hdirectory
            exact hdirectory rfl
          have htop : target.place ≠ [] := by
            intro htop
            rw [htop] at hplace
            exact hplace rfl
          rw [Disk.locate_unique hsource hdraft] at hnode hrename
          rw [Disk.node?_put_self hroot] at hnode
          cases hnode
          have hcleared : (e.put draft.place (.file s.fileOctets)).Keeps
              ((e.put draft.place (.file s.fileOctets)).clear draft.place) :=
            Disk.keeps_clear (by rw [Disk.node?_put_self hroot]; nofun)
          have hother := fun h => hplace (Disk.clear_keeps _ draft.place target.place h)
          have hkeeps := hcleared.trans (Disk.keeps_put hother (.file s.fileOctets))
          refine ⟨target.place, hother, ?_, ?_⟩
          · rw [fileOctets] at hrename
            rw [hrename]
            exact Disk.leaf?_eq_some.2 ⟨target, hkeeps.locate htarget, rfl, hslash,
              Disk.node?_put_self htop _, by nofun⟩
          · rw [fileOctets] at hrename
            rw [hrename]
            rfl

theorem keeps_draft {draft : List String} (h : e.node? draft ≠ some .directory)
    (octets : List UInt8) : e.Keeps ((e.put draft (.file octets)).clear draft) := by
  have hroot : draft ≠ [] := by
    intro hroot
    rw [hroot] at h
    exact h rfl
  exact (Disk.keeps_put h _).trans
    (Disk.keeps_clear (by rw [Disk.node?_put_self hroot]; nofun))

theorem keeps_write (s : Status) (d : Disk) (path : String) : d.Keeps (write s d path).2 := by
  obtain ⟨e, hgrows, ⟨err, herror⟩ | ⟨draft, -, hdraft, -, hend⟩⟩ := write_cases s d path
  · rw [herror]
    exact hgrows.keeps
  · obtain ⟨err, herror⟩ | ⟨place, hplace, -, hwritten⟩ := hend
    · rw [herror]
      exact hgrows.keeps.trans (Disk.keeps_put hdraft _)
    · rw [hwritten]
      exact hgrows.keeps.trans ((keeps_draft hdraft s.fileOctets).trans (Disk.keeps_put hplace _))

/-- Writing puts nothing anywhere but its own text, and that no further than the draft unless it
gets through. -/
theorem node?_of_write (h : (write s d path).2.node? place = some n) (hn : n ≠ .directory) :
    d.node? place = some n ∨ n = .file s.fileOctets ∧ ((write s d path).1 = .ok () ∨
      ∃ draft, (write s d path).2.locate (draftPath path) = .ok draft ∧ draft.place = place) := by
  have hput : ∀ (e : Disk) (other : List String),
      (e.put other (.file s.fileOctets)).node? place = some n →
        e.node? place = some n ∨ n = .file s.fileOctets ∧ place = other := by
    intro e other hnode
    by_cases hplace : place = other
    · rw [← hplace, Disk.node?_put_self (Disk.ne_root hnode hn)] at hnode
      exact .inr ⟨(Option.some.inj hnode).symm, hplace⟩
    · rw [Disk.node?_put_of_ne hplace] at hnode
      exact .inl hnode
  obtain ⟨e, hgrows, ⟨err, herror⟩ | ⟨draft, hdraft, hdirectory, -,
    ⟨err, herror⟩ | ⟨target, -, -, hwritten⟩⟩⟩ := write_cases s d path
  · rw [herror] at h
    exact .inl (hgrows.node?_of h hn)
  · rw [herror] at h ⊢
    obtain hbefore | ⟨hown, hplace⟩ := hput _ _ h
    · exact .inl (hgrows.node?_of hbefore hn)
    · exact .inr ⟨hown, .inr ⟨draft, (Disk.keeps_put hdirectory _).locate hdraft, hplace.symm⟩⟩
  · rw [hwritten] at h ⊢
    obtain hcleared | ⟨hown, -⟩ := hput _ _ h
    · obtain hbefore | ⟨hown, -⟩ := hput _ _ (Disk.node?_of_clear hcleared hn)
      · exact .inl (hgrows.node?_of hbefore hn)
      · exact .inr ⟨hown, .inl rfl⟩
    · exact .inr ⟨hown, .inl rfl⟩

/-- Writing leaves alone what stands neither where the draft goes nor at the path. -/
theorem node?_write (h : d.node? place = some n)
    (hdraft : (∃ k, n = .socket k) ∨
      ∀ (e : Disk) spot, e.locate (draftPath path) = .ok spot → spot.place ≠ place)
    (htarget : (write s d path).1 = .ok () →
      ∀ m, (write s d path).2.leaf? path ≠ some (place, m)) :
    (write s d path).2.node? place = some n := by
  obtain ⟨e, hgrows, ⟨err, herror⟩ | ⟨draft, hspot, hdirectory, hsocket, hend⟩⟩ :=
    write_cases s d path
  · rw [herror]
    exact hgrows.node? h
  · have hkept : e.node? place = some n := hgrows.node? h
    have hne : place ≠ draft.place := by
      rintro rfl
      obtain ⟨k, rfl⟩ | helsewhere := hdraft
      · exact hsocket k hkept
      · exact helsewhere e draft hspot rfl
    obtain ⟨err, herror⟩ | ⟨target, -, hleaf, hwritten⟩ := hend
    · rw [herror, Disk.node?_put_of_ne hne]
      exact hkept
    · have hother : place ≠ target := by
        intro hplace
        rw [← hplace] at hleaf
        exact htarget (congrArg Prod.fst hwritten) _ hleaf
      rw [hwritten]
      dsimp only
      rw [Disk.node?_put_of_ne hother, Disk.node?_clear_of_ne hne, Disk.node?_put_of_ne hne]
      exact hkept

theorem leaf?_of_write (h : (write s d path).1 = .ok ()) :
    ∃ place, (write s d path).2.leaf? path = some (place, .file s.fileOctets) := by
  obtain ⟨e, -, ⟨err, herror⟩ | ⟨draft, -, -, -, ⟨err, herror⟩ | ⟨target, -, hleaf, -⟩⟩⟩ :=
    write_cases s d path
  · rw [herror] at h
    cases h
  · rw [herror] at h
    cases h
  · exact ⟨target, hleaf⟩

/-! ## Removing -/

/-- A status file goes if it names the process that stops, and `removeOwn` does nothing else. -/
theorem removeOwn_cases (p : Processes) (d : Disk) (path : String) :
    (∃ s, read d path = .ok (some s) ∧ s.pid = p.self ∧ removeOwn p d path = d.without path) ∨
      (∀ s, read d path = .ok (some s) → s.pid ≠ p.self) ∧ removeOwn p d path = d := by
  cases hread : read d path with
  | error e =>
    right
    rw [removeOwn, hread]
    exact ⟨nofun, rfl⟩
  | ok found =>
    cases found with
    | none =>
      right
      rw [removeOwn, hread]
      exact ⟨nofun, rfl⟩
    | some s =>
      by_cases hpid : s.pid = p.self
      · left
        refine ⟨s, rfl, hpid, ?_⟩
        rw [removeOwn, hread]
        dsimp only
        rw [if_pos hpid]
        exact unlisten_eq d path
      · right
        rw [removeOwn, hread]
        dsimp only
        rw [if_neg hpid]
        refine ⟨fun s' hs' => ?_, rfl⟩
        cases hs'
        exact hpid

theorem node?_of_removeOwn (h : (removeOwn p d path).node? place = some n) (hn : n ≠ .directory) :
    d.node? place = some n := by
  obtain ⟨s, -, -, hremoved⟩ | ⟨-, hsame⟩ := removeOwn_cases p d path
  · rw [hremoved] at h
    exact Disk.node?_of_without h hn
  · rwa [hsame] at h

/-! ## Where the draft goes -/

theorem isName_status : Text.Path.IsName "status.json" := by
  decide

theorem isName_draft : Text.Path.IsName "status.json.tmp" := by
  decide

theorem draftPath_statusPath (c : ServerSettings) : draftPath c.statusPath =
    Text.Path.join (Disk.parent c.statusPath) "status.json.tmp" := by
  have hlast : (Text.Path.components c.statusPath).getLast? = some "status.json" := by
    obtain ⟨front, hfront⟩ :=
      List.getLast?_eq_some_iff.1 (Text.Path.getLast?_steps_join isName_status c.workDir)
    have hsteps : Text.Path.steps c.statusPath = front ++ ["status.json"] := hfront
    rw [Text.Path.components, hsteps, List.filter_append]
    exact List.getLast?_concat
  have hname : Text.Path.fileName? c.statusPath = some "status.json" := by
    rw [Text.Path.fileName?, hlast]
    rfl
  have hending : withEnding "status.json" "json.tmp" = "status.json.tmp" := by decide
  rw [draftPath, hname, ← hending]

/-- The draft of a status file goes where no status file is, whatever settings the two belong to. -/
theorem draft_place_ne (c c' : ServerSettings) {draft spot : Disk.Spot}
    (hdraft : e.locate (draftPath c.statusPath) = .ok draft)
    (hspot : d.locate c'.statusPath = .ok spot) : draft.place ≠ spot.place := by
  intro hplace
  rw [draftPath_statusPath] at hdraft
  have hlast := (Disk.getLast?_place isName_draft hdraft).1
  rw [hplace, (Disk.getLast?_place isName_status hspot).1] at hlast
  exact absurd (Option.some.inj hlast) (by decide)

end Status
end Coursework
