import Coursework.Proofs.Transport.Status
import Coursework.Transport.Daemon

/-!
# What a running server has on a disk

A running server has a socket and a status file.  `Running.Holds` says at which places, and these
are kept by every operation that starts and stops go through, unless one of its paths leads there.

A stop leaves another server its artifacts exactly if it spares them
(`Running.hasArtifacts_stopped_iff`).
-/

set_option autoImplicit false

namespace Coursework

/-- A server that was started and not stopped: the process `pid` that it belongs to, and what it
listens on. -/
structure Running where
  pid : Nat
  listening : Listening

/-! ## The socket and the status file -/

namespace Running

variable {f : Running} {d e : Disk} {S T : List String} {octets : List UInt8}

/-- At its socket path is the socket that the server bound, and at its status path a status file
that names its process and its socket. -/
def HasArtifacts (f : Running) (d : Disk) : Prop :=
  d.lookUp f.listening.socketPath = .ok (some (.socket f.listening.listener)) ∧
    ∃ creator, Status.read d f.listening.statusPath =
      .ok (some ⟨f.pid, f.listening.socketPath, creator⟩)

/-- A file names a server. -/
def NamedBy (f : Running) (octets : List UInt8) : Prop :=
  ∃ creator, Json.decodeOctets? Status.decode octets =
    some ⟨f.pid, f.listening.socketPath, creator⟩

/-- The places of the two files of a server, and that the status file names it.  This is
`HasArtifacts` with the places made explicit, which is what operations on a disk keep. -/
structure Holds (f : Running) (d : Disk) (S T : List String) (octets : List UInt8) : Prop where
  socket : d.leaf? f.listening.socketPath = some (S, .socket f.listening.listener)
  file : d.leaf? f.listening.statusPath = some (T, .file octets)
  named : f.NamedBy octets

theorem hasArtifacts_iff_holds : f.HasArtifacts d ↔ ∃ S T octets, f.Holds d S T octets := by
  constructor
  · rintro ⟨hlook, creator, hread⟩
    obtain ⟨S, hsocket⟩ := (Disk.lookUp_eq_leaf (by nofun)).1 hlook
    obtain ⟨T, octets, hfile, hs⟩ := Status.read_eq_some.1 hread
    exact ⟨S, T, octets, hsocket, hfile, creator, hs⟩
  · rintro ⟨S, T, octets, hsocket, hfile, creator, hs⟩
    exact ⟨(Disk.lookUp_eq_leaf (by nofun)).2 ⟨S, hsocket⟩, creator,
      Status.read_eq_some.2 ⟨T, octets, hfile, hs⟩⟩

namespace Holds

theorem socket_node (h : f.Holds d S T octets) :
    d.node? S = some (.socket f.listening.listener) :=
  Disk.node?_of_leaf? h.socket

theorem file_node (h : f.Holds d S T octets) : d.node? T = some (.file octets) :=
  Disk.node?_of_leaf? h.file

/-- What a path leads to where the server's socket is, is that socket. -/
theorem leaf?_socket (h : f.Holds d S T octets) {path : String} {n : Node}
    (hleaf : d.leaf? path = some (S, n)) : d.leaf? path = d.leaf? f.listening.socketPath := by
  have hnode := Disk.node?_of_leaf? hleaf
  rw [h.socket_node] at hnode
  rw [hleaf, h.socket, ← Option.some.inj hnode]

/-- What a path leads to where the server's status file is, is that file. -/
theorem leaf?_file (h : f.Holds d S T octets) {path : String} {n : Node}
    (hleaf : d.leaf? path = some (T, n)) : d.leaf? path = d.leaf? f.listening.statusPath := by
  have hnode := Disk.node?_of_leaf? hleaf
  rw [h.file_node] at hnode
  rw [hleaf, h.file, ← Option.some.inj hnode]

/-- While the directories stay, the artifacts stay if what stands at their places does. -/
theorem kept (h : f.Holds d S T octets) (hkeeps : d.Keeps e)
    (hsocket : e.node? S = some (.socket f.listening.listener))
    (hfile : e.node? T = some (.file octets)) : f.Holds e S T octets :=
  ⟨hkeeps.leaf? h.socket hsocket (by nofun), hkeeps.leaf? h.file hfile (by nofun), h.named⟩

theorem of_hasArtifacts (h : f.Holds d S T octets) (hafter : f.HasArtifacts e) :
    ∃ later, f.Holds e S T later := by
  obtain ⟨S', T', later, hlater⟩ := hasArtifacts_iff_holds.1 hafter
  obtain rfl := Disk.leaf?_place_unique h.socket hlater.socket
  obtain rfl := Disk.leaf?_place_unique h.file hlater.file
  exact ⟨later, hlater⟩

/-! ### Operations that leave both alone -/

variable {path : String}

theorem after_without (h : f.Holds d S T octets)
    (hsocket : d.leaf? path ≠ d.leaf? f.listening.socketPath)
    (hfile : d.leaf? path ≠ d.leaf? f.listening.statusPath) :
    f.Holds (d.without path) S T octets :=
  h.kept (Disk.keeps_without d path)
    (Disk.node?_without h.socket_node fun _ hleaf => hsocket (h.leaf?_socket hleaf))
    (Disk.node?_without h.file_node fun _ hleaf => hfile (h.leaf?_file hleaf))

theorem after_removeOwn {p : Processes} (h : f.Holds d S T octets)
    (hown : f.pid = p.self → d.leaf? path ≠ d.leaf? f.listening.statusPath) :
    f.Holds (Status.removeOwn p d path) S T octets := by
  obtain ⟨s, hread, hpid, hremoved⟩ | ⟨-, hsame⟩ := Status.removeOwn_cases p d path
  · obtain ⟨place, other, hleaf, hs⟩ := Status.read_eq_some.1 hread
    have hfile : d.leaf? path ≠ d.leaf? f.listening.statusPath := by
      intro heq
      obtain ⟨creator, hnamed⟩ := h.named
      rw [hleaf, h.file] at heq
      cases heq
      rw [hs] at hnamed
      cases hnamed
      exact hown hpid (hleaf.trans h.file.symm)
    rw [hremoved]
    refine h.after_without (fun heq => ?_) hfile
    rw [hleaf, h.socket] at heq
    cases heq
  · rwa [hsame]

/-- What is cleared names another socket.  The server's own status file would name this one, so that
nothing more is asked of the path. -/
theorem after_clearStale {p : Processes} (h : f.Holds d S T octets)
    (hstale : ∀ s, Status.read d path = .ok (some s) → s.Stale p →
      d.leaf? s.socketPath ≠ d.leaf? f.listening.socketPath) :
    f.Holds (Status.clearStale p d path).2 S T octets := by
  refine h.kept (Status.keeps_clearStale p d path)
    (Status.node?_clearStale h.socket_node (fun _ hleaf => ?_) fun s hread hs k hleaf => ?_)
    (Status.node?_clearStale h.file_node (fun _ hleaf => ?_) fun s hread hs k hleaf => ?_)
  · have hsame := h.leaf?_socket hleaf
    rw [hleaf, h.socket] at hsame
    cases hsame
  · exact hstale s hread hs (h.leaf?_socket hleaf)
  · have hsame := h.leaf?_file hleaf
    rw [hleaf, h.file] at hsame
    cases hsame
    obtain ⟨creator, hnamed⟩ := h.named
    exact ⟨_, hnamed, fun hs =>
      hstale _ (Status.read_eq_some.2 ⟨T, octets, hleaf, hnamed⟩) hs rfl⟩
  · have hsame := h.leaf?_file hleaf
    rw [hleaf, h.file] at hsame
    cases hsame

theorem after_listen {k : Nat} (h : f.Holds d S T octets)
    (hother : d.leaf? path ≠ d.leaf? f.listening.socketPath) :
    f.Holds (listen d path k).2 S T octets := by
  refine h.kept (keeps_listen d path k)
    (node?_listen h.socket_node fun _ hleaf => hother (h.leaf?_socket hleaf))
    (node?_listen h.file_node fun _ hleaf => ?_)
  have hsame := h.leaf?_file hleaf
  rw [hleaf, h.file] at hsame
  cases hsame

/-- A status file is written to another place.  Its draft has a name that no status file has, and is
not written to sockets. -/
theorem after_write {c c' : ServerSettings} {s : Status} (h : f.Holds d S T octets)
    (hc : f.listening.statusPath = c.statusPath)
    (htarget : (Status.write s d c'.statusPath).1 = .ok () →
      (Status.write s d c'.statusPath).2.leaf? c'.statusPath ≠
          (Status.write s d c'.statusPath).2.leaf? f.listening.socketPath ∧
        (Status.write s d c'.statusPath).2.leaf? c'.statusPath ≠
          (Status.write s d c'.statusPath).2.leaf? f.listening.statusPath) :
    f.Holds (Status.write s d c'.statusPath).2 S T octets := by
  have hkeeps := Status.keeps_write s d c'.statusPath
  have hsame : ∀ path place n m, d.leaf? path = some (place, n) →
      (Status.write s d c'.statusPath).2.leaf? c'.statusPath = some (place, m) →
        (Status.write s d c'.statusPath).2.leaf? c'.statusPath =
          (Status.write s d c'.statusPath).2.leaf? path := by
    intro path place n m hbefore hleaf
    rw [hleaf, hkeeps.leaf? hbefore (Disk.node?_of_leaf? hleaf) (Disk.ne_directory_of_leaf? hleaf)]
  refine h.kept hkeeps
    (Status.node?_write h.socket_node (.inl ⟨_, rfl⟩) fun hok m hleaf => ?_)
    (Status.node?_write h.file_node (.inr fun e spot hspot => ?_) fun hok m hleaf => ?_)
  · exact (htarget hok).1 (hsame _ S _ m h.socket hleaf)
  · obtain ⟨own, hown, hplace, -⟩ := Disk.leaf?_eq_some.1 h.file
    rw [hc] at hown
    rw [← hplace]
    exact Status.draft_place_ne c' c hspot hown
  · exact (htarget hok).2 (hsame _ T _ m h.file hleaf)

end Holds

/-- What decides whether the artifacts stay at their places decides whether they stay at all. -/
theorem hasArtifacts_iff_of {P : Prop} (h : f.HasArtifacts d)
    (hkept : ∀ S T octets, f.Holds d S T octets → P → f.Holds e S T octets)
    (hfound : ∀ S T octets later, f.Holds d S T octets → f.Holds e S T later → P) :
    f.HasArtifacts e ↔ P := by
  obtain ⟨S, T, octets, hholds⟩ := hasArtifacts_iff_holds.1 h
  constructor
  · intro hafter
    obtain ⟨later, hlater⟩ := hholds.of_hasArtifacts hafter
    exact hfound S T octets later hholds hlater
  · intro hP
    exact hasArtifacts_iff_holds.2 ⟨S, T, octets, hkept S T octets hholds hP⟩

end Running

/-! ## What a stop spares -/

namespace Running

variable {f g : Running} {d : Disk} {p : Processes}

/-- When the first server stops, the second is spared: the first's `socket` path leads to neither of
the second's files, and if they belong to one process, they do not share a `status` file. -/
structure Spares (g f : Running) (d : Disk) : Prop where
  socket : d.leaf? g.listening.socketPath ≠ d.leaf? f.listening.socketPath
  file : d.leaf? g.listening.socketPath ≠ d.leaf? f.listening.statusPath
  status : g.pid = f.pid → d.leaf? g.listening.statusPath ≠ d.leaf? f.listening.statusPath

/-- What is on the disk after a server has removed its socket and its own status file. -/
def stopped (g : Running) (p : Processes) (d : Disk) : Disk :=
  Status.removeOwn p (unlisten d g.listening.socketPath) g.listening.statusPath

theorem Spares.holds (hspares : g.Spares f d) (hp : p.self = g.pid) {S T : List String}
    {octets : List UInt8} (h : f.Holds d S T octets) : f.Holds (g.stopped p d) S T octets := by
  have hwithout := h.after_without hspares.socket hspares.file
  rw [stopped, unlisten_eq]
  refine hwithout.after_removeOwn fun hpid heq => hspares.status (hp ▸ hpid.symm) ?_
  rw [hwithout.file] at heq
  have hbefore := (Disk.without_keeps d g.listening.socketPath).leaf? heq h.file_node (by nofun)
  rw [hbefore, h.file]

theorem spares_of_holds (hp : p.self = g.pid) {S T : List String} {octets later : List UInt8}
    (h : f.Holds d S T octets) (hafter : f.Holds (g.stopped p d) S T later) : g.Spares f d := by
  rw [stopped, unlisten_eq] at hafter
  have hsocket := Status.node?_of_removeOwn hafter.socket_node (by nofun)
  have hfile := Status.node?_of_removeOwn hafter.file_node (by nofun)
  have hgone : ∀ place n, d.leaf? g.listening.socketPath = some (place, n) →
      (d.without g.listening.socketPath).node? place = none := by
    intro place n hleaf
    rw [Disk.without_of_leaf? hleaf, Disk.node?_clear_self (Disk.ne_root_of_leaf? hleaf)]
  refine ⟨fun heq => ?_, fun heq => ?_, fun hpid heq => ?_⟩
  · rw [hgone S _ (heq.trans h.socket)] at hsocket
    cases hsocket
  · rw [hgone T _ (heq.trans h.file)] at hfile
    cases hfile
  · have hleaf := (Disk.keeps_without d g.listening.socketPath).leaf? (heq.trans h.file) hfile
      (by nofun)
    obtain ⟨creator, hnamed⟩ := hafter.named
    obtain ⟨s, -, -, hremoved⟩ | ⟨hother, -⟩ :=
      Status.removeOwn_cases p (d.without g.listening.socketPath) g.listening.statusPath
    · have hnode := hafter.file_node
      rw [hremoved, Disk.without_of_leaf? hleaf,
        Disk.node?_clear_self (Disk.ne_root_of_leaf? hleaf)] at hnode
      cases hnode
    · exact hother _ (Status.read_eq_some.2 ⟨T, later, hleaf, hnamed⟩) (hpid.symm.trans hp.symm)

/-- A stop leaves a server its artifacts exactly if it spares it (`Spares`). -/
theorem hasArtifacts_stopped_iff (hp : p.self = g.pid) (h : f.HasArtifacts d) :
    f.HasArtifacts (g.stopped p d) ↔ g.Spares f d :=
  hasArtifacts_iff_of h (fun _ _ _ hholds hspares => hspares.holds hp hholds)
    fun _ _ _ _ hholds hlater => spares_of_holds hp hholds hlater

end Running
end Coursework
