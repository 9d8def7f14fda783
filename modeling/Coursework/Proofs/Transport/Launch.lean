import Coursework.Proofs.Transport.Artifacts

/-!
# Starting a server on a disk that others share

A start clears what is stale, binds its socket and writes its status file; each stage has its disk,
and `Launch.ends` says with which of them the start ends.

A start leaves a running server its artifacts exactly if it spares it (`Launch.hasArtifacts_iff`).
It does not in three ways.

* A status file in its way is stale, and names the server's socket.
* Its own socket goes to the place of the server's, whether anybody listens there or not.
* Its status file ends up in place of the server's socket or of its status file.

A start that fails leaves no socket, and nothing where its status file would be
(`Launch.leavesNothing`).
-/

set_option autoImplicit false

namespace Coursework

/-- All servers that share a disk, and the number of the next listener. -/
structure Fleet where
  disk : Disk
  nextListener : Nat
  running : List Running

/-- Where a server runs: its process on its machine, its state, and the ports that are taken. -/
structure Site where
  machine : Machine
  server : Server
  ports : List Nat

/-- A server that is to be started at a `Site`, with these settings and endpoints. -/
structure Launch extends Site where
  settings : ServerSettings
  routes : Registry
  creator : String

/-- A server on the disk of a fleet, with the fleet's number for the next listener. -/
def Site.daemon (h : Site) (F : Fleet) (listening : Option Listening) : Daemon :=
  ⟨{ h.server with disk := F.disk }, listening, F.nextListener, h.ports⟩

/-- The outcome of a start (`Daemon.start`) on the disk that the fleet shares. -/
def Launch.attempt (a : Launch) (F : Fleet) : Except StartError Listening × Daemon :=
  Daemon.start a.machine a.settings a.routes a.creator (a.daemon F none)

/-! ## The stages of a start -/

namespace Launch

variable (a : Launch) (F : Fleet)

def socketPath : String :=
  (Daemon.socketPath a.settings a.server).1

def status : Status :=
  ⟨a.machine.processes.self, a.socketPath, a.creator⟩

/-- The first stage: what was left is cleared (`Status.clearStale`). -/
def cleared : Except TransportError Unit × Disk :=
  Status.clearStale a.machine.processes F.disk a.settings.statusPath

/-- The start gets as far as the socket: clearing went through, and the public address is bound. -/
def Binds : Prop :=
  (a.cleared F).1 = .ok () ∧
    ∃ address, Daemon.bindPublic a.machine a.settings.bind (a.daemon F none) = .ok address

/-- The second stage: the socket is bound (`listen`) on the disk that was cleared. -/
def bound : Except TransportError Unit × Disk :=
  listen (a.cleared F).2 a.socketPath F.nextListener

/-- The third stage: the status file is written on the disk with the socket. -/
def written : Except TransportError Unit × Disk :=
  Status.write a.status (a.bound F).2 a.settings.statusPath

def after : Disk :=
  (a.attempt F).2.server.disk

/-- A start got through all stages, and this is what the server listens on. -/
structure Listens (a : Launch) (F : Fleet) (l : Listening) : Prop where
  binds : a.Binds F
  bound : (a.bound F).1 = .ok ()
  written : (a.written F).1 = .ok ()
  after : a.after F = (a.written F).2
  socketPath : l.socketPath = a.socketPath
  statusPath : l.statusPath = a.settings.statusPath
  listener : l.listener = F.nextListener
  next : (a.attempt F).2.nextListener = F.nextListener + 1

/-- The ways in which a start can end.  It is `refused` before the socket, since another server is
in the way or the public address cannot be bound; it is `unbound`; it is `unwritten`, and the socket
goes again; or the server is `listening`. -/
inductive Ends (a : Launch) (F : Fleet) : Prop where
  | refused (e : StartError) (hresult : (a.attempt F).1 = .error e) (hrefused : ¬ a.Binds F)
    (hafter : a.after F = (a.cleared F).2)
    (hnext : (a.attempt F).2.nextListener = F.nextListener)
  | unbound (e : StartError) (hresult : (a.attempt F).1 = .error e) (hbinds : a.Binds F)
    (hfailed : (a.bound F).1 ≠ .ok ()) (hafter : a.after F = (a.bound F).2)
    (hnext : (a.attempt F).2.nextListener = F.nextListener)
  | unwritten (e : StartError) (hresult : (a.attempt F).1 = .error e) (hbinds : a.Binds F)
    (hbound : (a.bound F).1 = .ok ()) (hfailed : (a.written F).1 ≠ .ok ())
    (hafter : a.after F = (a.written F).2.without a.socketPath)
    (hnext : (a.attempt F).2.nextListener = F.nextListener)
  | listening (l : Listening) (hresult : (a.attempt F).1 = .ok l) (hlistens : a.Listens F l)

theorem socketPath_withDisk (c : ServerSettings) (s : Server) (disk : Disk) :
    Daemon.socketPath c { s with disk := disk } =
      ((Daemon.socketPath c s).1, { (Daemon.socketPath c s).2 with disk := disk }) := by
  rw [Daemon.socketPath, Daemon.socketPath]
  cases c.socketPath <;> rfl

theorem ends_of_bindLocal {a : Launch} {F : Fleet} (hbinds : a.Binds F) {address : Address}
    (hattempt : a.attempt F = Daemon.bindLocal a.machine a.settings a.routes a.creator address
      ((a.daemon F none).withDisk (a.cleared F).2)) : a.Ends F := by
  have hpath := socketPath_withDisk a.settings a.server (a.cleared F).2
  have hlisten : listen (a.cleared F).2 (Daemon.socketPath a.settings a.server).1 F.nextListener =
      a.bound F := rfl
  have hwrite : Status.write ⟨a.machine.processes.self, (Daemon.socketPath a.settings a.server).1,
      a.creator⟩ (a.bound F).2 a.settings.statusPath = a.written F := rfl
  rw [Daemon.bindLocal] at hattempt
  dsimp only [Daemon.withDisk, Site.daemon] at hattempt
  rw [hpath] at hattempt
  dsimp only at hattempt
  rw [hlisten] at hattempt
  cases hbound : a.bound F with
  | mk result disk =>
    rw [hbound] at hattempt hwrite
    have hdisk : disk = (a.bound F).2 := (congrArg Prod.snd hbound).symm
    cases result with
    | error e =>
      refine .unbound _ (congrArg Prod.fst hattempt) hbinds (by rw [hbound]; nofun) ?_ ?_
      · rw [after, hattempt, ← hdisk]
      · rw [hattempt]
    | ok =>
      have hok : (a.bound F).1 = .ok () := congrArg Prod.fst hbound
      dsimp only at hattempt hwrite
      rw [hwrite] at hattempt
      cases hwritten : a.written F with
      | mk result disk =>
        rw [hwritten] at hattempt
        have hdisk : disk = (a.written F).2 := (congrArg Prod.snd hwritten).symm
        cases result with
        | error e =>
          refine .unwritten _ (congrArg Prod.fst hattempt) hbinds hok
            (by rw [hwritten]; nofun) ?_ ?_
          · rw [after, hattempt, ← hdisk]
            exact unlisten_eq disk a.socketPath
          · rw [hattempt]
        | ok =>
          refine .listening _ (congrArg Prod.fst hattempt)
            ⟨hbinds, hok, congrArg Prod.fst hwritten, ?_, rfl, rfl, rfl, ?_⟩
          · rw [after, hattempt, ← hdisk]
          · rw [hattempt]

/-- Every start `Ends` in one of these ways, with what it leaves on the disk. -/
theorem ends (a : Launch) (F : Fleet) : a.Ends F := by
  have hclear : Status.clearStale a.machine.processes (a.daemon F none).server.disk
      a.settings.statusPath = a.cleared F := rfl
  have hattempt : a.attempt F =
      Daemon.start a.machine a.settings a.routes a.creator (a.daemon F none) := rfl
  rw [Daemon.start, hclear] at hattempt
  cases hcleared : a.cleared F with
  | mk result disk =>
    rw [hcleared] at hattempt
    obtain rfl : (a.cleared F).2 = disk := congrArg Prod.snd hcleared
    cases result with
    | error e =>
      refine .refused _ (congrArg Prod.fst hattempt) (fun hbinds => ?_) ?_ ?_
      · cases (congrArg Prod.fst hcleared).symm.trans hbinds.1
      · rw [after, hattempt]
        rfl
      · rw [hattempt]
        rfl
    | ok =>
      dsimp only at hattempt
      cases hpublic : Daemon.bindPublic a.machine a.settings.bind
          ((a.daemon F none).withDisk (a.cleared F).2) with
      | error e =>
        rw [hpublic] at hattempt
        refine .refused _ (congrArg Prod.fst hattempt) (fun ⟨_, address, haddress⟩ => ?_) ?_ ?_
        · cases hpublic.symm.trans haddress
        · rw [after, hattempt]
          rfl
        · rw [hattempt]
          rfl
      | ok address =>
        rw [hpublic] at hattempt
        exact ends_of_bindLocal ⟨congrArg Prod.fst hcleared, address, hpublic⟩ hattempt

theorem listens_of_ok {a : Launch} {F : Fleet} {l : Listening} (h : (a.attempt F).1 = .ok l) :
    a.Listens F l := by
  cases a.ends F with
  | refused e hresult => cases h.symm.trans hresult
  | unbound e hresult => cases h.symm.trans hresult
  | unwritten e hresult => cases h.symm.trans hresult
  | listening l' hresult hlistens =>
    cases h.symm.trans hresult
    exact hlistens

end Launch

/-! ## What a start spares -/

/-- A server that can be followed: its listener has a number of its own, and its status file was put
where settings say. -/
structure Running.Sound (f : Running) (F : Fleet) : Prop where
  listener : f.listening.listener < F.nextListener
  status : ∃ c : ServerSettings, f.listening.statusPath = c.statusPath

namespace Launch

variable {a : Launch} {F : Fleet} {f : Running} {place : List String}

/-- A start spares a server: no `stale` status file in the way names the server's socket, the start
binds no socket in its place (`replaced`), and writes no status file in the place of what the server
has (`overwritten`). -/
structure Spares (a : Launch) (F : Fleet) (f : Running) : Prop where
  stale : ∀ s, Status.read F.disk a.settings.statusPath = .ok (some s) →
    s.Stale a.machine.processes →
    F.disk.leaf? s.socketPath ≠ F.disk.leaf? f.listening.socketPath
  replaced : a.Binds F → F.disk.leaf? a.socketPath ≠ F.disk.leaf? f.listening.socketPath
  overwritten : ∀ l, (a.attempt F).1 = .ok l →
    (a.after F).leaf? l.statusPath ≠ (a.after F).leaf? f.listening.socketPath ∧
      (a.after F).leaf? l.statusPath ≠ (a.after F).leaf? f.listening.statusPath

theorem socket_of_bound {k : Nat} (h : (a.bound F).2.node? place = some (.socket k))
    (hk : k ≠ F.nextListener) : (a.cleared F).2.node? place = some (.socket k) := by
  obtain hbefore | ⟨hown, -⟩ := node?_of_listen h (by nofun)
  · exact hbefore
  · exact absurd (Node.socket.inj hown) hk

theorem socket_of_written {k : Nat} (h : (a.written F).2.node? place = some (.socket k)) :
    (a.bound F).2.node? place = some (.socket k) := by
  obtain hbefore | ⟨hfile, -⟩ := Status.node?_of_write h (by nofun)
  · exact hbefore
  · cases hfile

/-- An earlier socket that is still there afterwards was there at each stage. -/
theorem socket_of_after {k : Nat} (h : (a.after F).node? place = some (.socket k))
    (hk : k ≠ F.nextListener) : (a.cleared F).2.node? place = some (.socket k) ∧
      (a.Binds F → (a.bound F).2.node? place = some (.socket k)) := by
  have hbound : (a.bound F).2.node? place = some (.socket k) →
      (a.cleared F).2.node? place = some (.socket k) ∧
        (a.Binds F → (a.bound F).2.node? place = some (.socket k)) :=
    fun hnode => ⟨socket_of_bound hnode hk, fun _ => hnode⟩
  cases a.ends F with
  | refused e hresult hrefused hafter =>
    rw [hafter] at h
    exact ⟨h, fun hbinds => absurd hbinds hrefused⟩
  | unbound e hresult hbinds hfailed hafter =>
    rw [hafter] at h
    exact hbound h
  | unwritten e hresult hbinds hok hfailed hafter =>
    rw [hafter] at h
    exact hbound (socket_of_written (Disk.node?_of_without h (by nofun)))
  | listening l hresult hlistens =>
    rw [hlistens.after] at h
    exact hbound (socket_of_written h)

/-- The socket that was bound is at its path until the status file has been written. -/
theorem leaf?_written (hbound : (a.bound F).1 = .ok ()) :
    ∃ spot, (a.bound F).2.leaf? a.socketPath = some (spot, .socket F.nextListener) ∧
      ((∀ m, (a.written F).1 = .ok () →
          (a.written F).2.leaf? a.settings.statusPath ≠ some (spot, m)) →
        (a.written F).2.leaf? a.socketPath = some (spot, .socket F.nextListener)) := by
  obtain ⟨spot, hleaf⟩ := leaf?_of_listen hbound
  refine ⟨spot, hleaf, fun hother => ?_⟩
  exact (Status.keeps_write a.status (a.bound F).2 _).leaf? hleaf
    (Status.node?_write (Disk.node?_of_leaf? hleaf) (.inl ⟨_, rfl⟩) fun hok m => hother m hok)
    (by nofun)

theorem Spares.holds (hspares : a.Spares F f) (hsound : f.Sound F) {S T : List String}
    {octets : List UInt8} (h : f.Holds F.disk S T octets) : f.Holds (a.after F) S T octets := by
  obtain ⟨c, hc⟩ := hsound.status
  have hcleared : f.Holds (a.cleared F).2 S T octets := h.after_clearStale hspares.stale
  have hbound : a.Binds F → f.Holds (a.bound F).2 S T octets := by
    intro hbinds
    refine hcleared.after_listen fun heq => hspares.replaced hbinds ?_
    rw [hcleared.socket] at heq
    exact h.leaf?_socket (Status.leaf?_of_clearStale heq)
  cases a.ends F with
  | refused e hresult hrefused hafter => rwa [hafter]
  | unbound e hresult hbinds hfailed hafter =>
    rw [hafter]
    exact hbound hbinds
  | unwritten e hresult hbinds hok hfailed hafter =>
    have hwritten : f.Holds (a.written F).2 S T octets :=
      (hbound hbinds).after_write hc fun hok => absurd hok hfailed
    obtain ⟨spot, -, hown⟩ := leaf?_written hok
    have hown := hown fun m hok => absurd hok hfailed
    rw [hafter]
    refine hwritten.after_without (fun heq => ?_) (fun heq => ?_)
    · rw [hown, hwritten.socket] at heq
      have hsame := Node.socket.inj (congrArg Prod.snd (Option.some.inj heq))
      exact Nat.ne_of_lt hsound.listener hsame.symm
    · rw [hown, hwritten.file] at heq
      cases heq
  | listening l hresult hlistens =>
    have hother := hspares.overwritten l hresult
    rw [hlistens.after, hlistens.statusPath] at hother
    rw [hlistens.after]
    exact (hbound hlistens.binds).after_write hc fun _ => hother

theorem Listens.leaf?_statusPath {l : Listening} (h : a.Listens F l) :
    ∃ place, (a.after F).leaf? l.statusPath = some (place, .file a.status.fileOctets) := by
  rw [h.after, h.statusPath]
  exact Status.leaf?_of_write h.written

theorem decodeOctets?_fileOctets (hpid : a.machine.processes.self ≤ Text.uint32Max) :
    Json.decodeOctets? Status.decode a.status.fileOctets = some a.status :=
  Status.decodeOctets?_pretty hpid

theorem spares_of_holds (hpid : a.machine.processes.self ≤ Text.uint32Max) (hsound : f.Sound F)
    {S T : List String} {octets later : List UInt8} (h : f.Holds F.disk S T octets)
    (hafter : f.Holds (a.after F) S T later) : a.Spares F f := by
  obtain ⟨hcleared, hbound⟩ := socket_of_after hafter.socket_node (Nat.ne_of_lt hsound.listener)
  have hreplaced : a.Binds F →
      F.disk.leaf? a.socketPath ≠ F.disk.leaf? f.listening.socketPath := by
    intro hbinds heq
    rw [h.socket] at heq
    have hleaf := (Status.keeps_clearStale _ _ _).leaf? heq hcleared (by nofun)
    exact node?_listen_replaced hleaf (Nat.ne_of_lt hsound.listener) (hbound hbinds)
  refine ⟨fun s hread hstale heq => ?_, hreplaced, fun l hl => ?_⟩
  · rw [h.socket] at heq
    exact Status.node?_clearStale_stale hread hstale heq hcleared
  · have hlistens := listens_of_ok hl
    obtain ⟨place, hleaf⟩ := hlistens.leaf?_statusPath
    rw [hleaf, hafter.socket, hafter.file]
    refine ⟨nofun, fun heq => ?_⟩
    -- A status file that names another path is not the server's.
    obtain ⟨creator, hnamed⟩ := hafter.named
    have hfile := Node.file.inj (congrArg Prod.snd (Option.some.inj heq))
    rw [← hfile, decodeOctets?_fileOctets hpid] at hnamed
    have hpath := congrArg Status.socketPath (Option.some.inj hnamed)
    exact hreplaced hlistens.binds (congrArg F.disk.leaf? hpath)

/-- A start leaves a server its artifacts exactly if it spares it (`Spares`). -/
theorem hasArtifacts_iff (hpid : a.machine.processes.self ≤ Text.uint32Max) (hsound : f.Sound F)
    (h : f.HasArtifacts F.disk) : f.HasArtifacts (a.after F) ↔ a.Spares F f :=
  Running.hasArtifacts_iff_of h (fun _ _ _ hholds hspares => hspares.holds hsound hholds)
    fun _ _ _ _ hholds hlater => spares_of_holds hpid hsound hholds hlater

/-- A start that gets through leaves the server its artifacts, unless its status file has taken the
place of its socket. -/
theorem hasArtifacts_own {l : Listening} (hpid : a.machine.processes.self ≤ Text.uint32Max)
    (h : (a.attempt F).1 = .ok l) :
    (Running.mk a.machine.processes.self l).HasArtifacts (a.after F) ↔
      (a.after F).leaf? l.socketPath ≠ (a.after F).leaf? l.statusPath := by
  have hlistens := listens_of_ok h
  obtain ⟨place, hstatus⟩ := hlistens.leaf?_statusPath
  constructor
  · intro hafter heq
    obtain ⟨S, T, octets, hholds⟩ := Running.hasArtifacts_iff_holds.1 hafter
    rw [hstatus, hholds.socket] at heq
    cases heq
  · intro hne
    obtain ⟨spot, hbound, hkept⟩ := leaf?_written hlistens.bound
    have hsocket : (a.after F).leaf? l.socketPath = some (spot, .socket F.nextListener) := by
      rw [hlistens.after, hlistens.socketPath]
      refine hkept fun m _ hleaf => hne ?_
      rw [hlistens.after, hlistens.socketPath, hlistens.statusPath, hleaf]
      exact (Status.keeps_write a.status (a.bound F).2 _).leaf? hbound (Disk.node?_of_leaf? hleaf)
        (Disk.ne_directory_of_leaf? hleaf)
    refine Running.hasArtifacts_iff_holds.2
      ⟨spot, place, a.status.fileOctets, ?_, hstatus, a.creator, ?_⟩
    · rw [hsocket, hlistens.listener]
    · rw [decodeOctets?_fileOctets hpid, hlistens.socketPath]
      rfl

/-! ## What a start leaves that fails -/

/-- Nothing that a start made is left, but directories and perhaps the draft of a status file. -/
structure LeavesNothing (a : Launch) (F : Fleet) : Prop where
  socket : ∀ place k, (a.after F).node? place = some (.socket k) →
    F.disk.node? place = some (.socket k)
  status : ∀ place n, (a.after F).leaf? a.settings.statusPath = some (place, n) →
    F.disk.node? place = some n
  file : ∀ place octets, (a.after F).node? place = some (.file octets) →
    F.disk.node? place = some (.file octets) ∨
      ∃ spot, (a.after F).locate (Status.draftPath a.settings.statusPath) = .ok spot ∧
        spot.place = place

theorem before_or_draft {e : StartError} (h : (a.attempt F).1 = .error e) {n : Node}
    (hnode : (a.after F).node? place = some n) (hn : n ≠ .directory) :
    F.disk.node? place = some n ∨ ∃ octets, n = .file octets ∧
      ∃ spot, (a.after F).locate (Status.draftPath a.settings.statusPath) = .ok spot ∧
        spot.place = place := by
  have hcleared : (a.cleared F).2.node? place = some n → F.disk.node? place = some n :=
    fun hcleared => Status.node?_of_clearStale hcleared hn
  cases a.ends F with
  | refused e' hresult hrefused hafter =>
    rw [hafter] at hnode
    exact .inl (hcleared hnode)
  | unbound e' hresult hbinds hfailed hafter =>
    rw [hafter] at hnode
    obtain hbefore | ⟨-, hok, -⟩ := node?_of_listen hnode hn
    · exact .inl (hcleared hbefore)
    · exact absurd hok hfailed
  | unwritten e' hresult hbinds hok hfailed hafter =>
    rw [hafter] at hnode ⊢
    obtain hbound | ⟨hown, hwritten | ⟨spot, hspot, hplace⟩⟩ :=
      Status.node?_of_write (Disk.node?_of_without hnode hn) hn
    · obtain hbefore | ⟨hown, -, hleaf⟩ := node?_of_listen hbound hn
      · exact .inl (hcleared hbefore)
      · -- The socket is what was taken away again.
        obtain ⟨spot, hbound, hkept⟩ := leaf?_written hok
        have hkept := hkept fun m hok => absurd hok hfailed
        cases hbound.symm.trans hleaf
        rw [Disk.without_of_leaf? hkept, Disk.node?_clear_self (Disk.ne_root_of_leaf? hkept)]
          at hnode
        cases hnode
    · exact absurd hwritten hfailed
    · exact .inr ⟨_, hown, spot, (Disk.keeps_without _ _).locate hspot, hplace⟩
  | listening l hresult => cases h.symm.trans hresult

theorem leavesNothing {e : StartError} (h : (a.attempt F).1 = .error e) : a.LeavesNothing F where
  socket place k hnode := by
    obtain hbefore | ⟨octets, hfile, -⟩ := before_or_draft h hnode (by nofun)
    · exact hbefore
    · cases hfile
  status place n hleaf := by
    obtain hbefore | ⟨octets, -, draft, hdraft, hplace⟩ :=
      before_or_draft h (Disk.node?_of_leaf? hleaf) (Disk.ne_directory_of_leaf? hleaf)
    · exact hbefore
    · obtain ⟨spot, hspot, hsame, -⟩ := Disk.leaf?_eq_some.1 hleaf
      exact absurd (hplace.trans hsame.symm) (Status.draft_place_ne _ _ hdraft hspot)
  file place octets hnode := by
    obtain hbefore | ⟨-, -, hdraft⟩ := before_or_draft h hnode (by nofun)
    · exact .inl hbefore
    · exact .inr hdraft

end Launch
end Coursework
