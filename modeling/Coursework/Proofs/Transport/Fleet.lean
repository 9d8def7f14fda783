import Coursework.Proofs.Transport.Launch

/-!
# Servers on one disk

Several servers, of one process or of many, start and stop on one disk.  Each leaves a socket and a
status file, which stay exactly as long as every start and stop spares them
(`Fleet.artifacts_kept_iff_spared`).
-/

set_option autoImplicit false

namespace Coursework

/-- What can happen to the servers of a disk: one is to `start`, or the one with a listener is to
`stop`. -/
inductive Event where
  | start (a : Launch)
  | stop (h : Site) (listener : Nat)

namespace Fleet

def server? (F : Fleet) (listener : Nat) : Option Running :=
  F.running.find? fun g => g.listening.listener == listener

/-- The servers after an event: `Daemon.start` or `Daemon.shutdown` on the disk that they share. -/
def step (F : Fleet) : Event → Fleet
  | .start a =>
    let (result, d) := a.attempt F
    ⟨d.server.disk, d.nextListener,
      match result with
      | .ok l => ⟨a.machine.processes.self, l⟩ :: F.running
      | .error _ => F.running⟩
  | .stop h listener =>
    match F.server? listener with
    | none => F
    | some g =>
      let (_, d) := Daemon.shutdown h.machine (h.daemon F (some g.listening))
      ⟨d.server.disk, d.nextListener,
        F.running.filter fun g => g.listening.listener != listener⟩

/-- Something holds of every event of a run, and of the servers that it happens to. -/
def Along (P : Fleet → Event → Prop) : Fleet → List Event → Prop
  | _, [] => True
  | F, e :: events => P F e ∧ Along P (F.step e) events

end Fleet

/-! ## Runs -/

namespace Event

/-- An event that can happen: a process has the number of one, and stops its own servers only. -/
def Admits (F : Fleet) : Event → Prop
  | .start a => a.machine.processes.self ≤ Text.uint32Max
  | .stop h listener => ∀ g, F.server? listener = some g → h.machine.processes.self = g.pid

/-- An event spares a server (`Launch.Spares`, `Running.Spares`), so that its artifacts stay. -/
def Spares (f : Running) (F : Fleet) : Event → Prop
  | .start a => a.Spares F f
  | .stop _ listener => ∀ g, F.server? listener = some g → g.Spares f F.disk

end Event

namespace Fleet

variable {F : Fleet} {f : Running} {e : Event}

theorem step_start (F : Fleet) (a : Launch) :
    (F.step (.start a)).disk = a.after F ∧
      (F.step (.start a)).nextListener = (a.attempt F).2.nextListener :=
  ⟨rfl, rfl⟩

theorem nextListener_le (F : Fleet) (e : Event) : F.nextListener ≤ (F.step e).nextListener := by
  cases e with
  | start a =>
    rw [(F.step_start a).2]
    cases a.ends F with
    | refused e hresult hrefused hafter hnext => exact Nat.le_of_eq hnext.symm
    | unbound e hresult hbinds hfailed hafter hnext => exact Nat.le_of_eq hnext.symm
    | unwritten e hresult hbinds hok hfailed hafter hnext => exact Nat.le_of_eq hnext.symm
    | listening l hresult hlistens =>
      rw [hlistens.next]
      exact Nat.le_succ _
  | stop h listener =>
    rw [step]
    cases F.server? listener <;> exact Nat.le_refl _

theorem sound_step (h : f.Sound F) (e : Event) : f.Sound (F.step e) :=
  ⟨Nat.lt_of_lt_of_le h.listener (F.nextListener_le e), h.status⟩

/-- After one event a server has its artifacts exactly if the event spares it. -/
theorem hasArtifacts_step_iff (hsound : f.Sound F) (hadmits : e.Admits F)
    (h : f.HasArtifacts F.disk) : f.HasArtifacts (F.step e).disk ↔ e.Spares f F := by
  cases e with
  | start a => exact Launch.hasArtifacts_iff hadmits hsound h
  | stop host listener =>
    rw [Event.Spares, step]
    cases hserver : F.server? listener with
    | none => simpa using h
    | some g =>
      have hp := hadmits g hserver
      exact (Running.hasArtifacts_stopped_iff hp h).trans
        ⟨fun hspares _ hg => by cases hg; exact hspares, fun hspares => hspares g rfl⟩

/-- After each event of a run a server has its artifacts exactly as long as the events spare it. -/
theorem along_hasArtifacts_iff {events : List Event} (hsound : f.Sound F)
    (hadmits : Along (fun G e => e.Admits G) F events) (h : f.HasArtifacts F.disk) :
    Along (fun G e => f.HasArtifacts (G.step e).disk) F events ↔
      Along (fun G e => e.Spares f G) F events := by
  induction events generalizing F with
  | nil => exact Iff.rfl
  | cons e events ih =>
    obtain ⟨hfirst, hrest⟩ := hadmits
    have hstep := hasArtifacts_step_iff hsound hfirst h
    constructor
    · rintro ⟨hafter, hlater⟩
      exact ⟨hstep.1 hafter, (ih (sound_step hsound e) hrest hafter).1 hlater⟩
    · rintro ⟨hspares, hlater⟩
      have hafter := hstep.2 hspares
      exact ⟨hafter, (ih (sound_step hsound e) hrest hafter).2 hlater⟩

/-- **A running server keeps its artifacts exactly as long as every start and stop spares it**
(`Event.Spares`), if its own start has not put its status file in place of its socket.  A start that
fails leaves nothing but directories and perhaps the draft of a status file (`LeavesNothing`). -/
theorem artifacts_kept_iff_spared (F : Fleet) {a : Launch}
    (hpid : a.machine.processes.self ≤ Text.uint32Max) :
    (∀ e, (a.attempt F).1 = .error e → a.LeavesNothing F) ∧
    ∀ l, (a.attempt F).1 = .ok l →
      ∀ events, Along Event.Admits (F.step (.start a)) events →
        ((Running.mk a.machine.processes.self l).HasArtifacts (F.step (.start a)).disk ∧
          Along (fun G e => (Running.mk a.machine.processes.self l).HasArtifacts (G.step e).disk)
            (F.step (.start a)) events ↔
        (F.step (.start a)).disk.leaf? l.socketPath ≠ (F.step (.start a)).disk.leaf? l.statusPath ∧
          Along (Event.Spares (Running.mk a.machine.processes.self l))
            (F.step (.start a)) events) := by
  refine ⟨fun e h => Launch.leavesNothing h, fun l h events hadmits => ?_⟩
  have hown := Launch.hasArtifacts_own hpid h
  have hlistens := Launch.listens_of_ok h
  have hsound : (Running.mk a.machine.processes.self l).Sound (F.step (.start a)) := by
    refine ⟨?_, a.settings, hlistens.statusPath⟩
    rw [hlistens.listener, (F.step_start a).2, hlistens.next]
    exact Nat.lt_succ_self _
  rw [(F.step_start a).1, hown]
  exact and_congr_right fun hapart => along_hasArtifacts_iff hsound hadmits (hown.2 hapart)

/-! ## Two servers -/

def lone (pid : Nat) (workDir socket : String) : Launch where
  machine := ⟨⟨pid, fun _ => true⟩, 40000 + pid, .delivering⟩
  server := .start .empty ⟨0, 0⟩ .foreseeable (.generous 0) .empty "/uploads"
  ports := []
  settings := { ServerSettings.default with
    bind := "127.0.0.1:0", socketPath := some socket, workDir := workDir }
  routes := Table.empty
  creator := "grader"

def idle : Fleet :=
  ⟨.empty, 0, []⟩

def alone : Fleet :=
  idle.step (.start (lone 7 "/a" "/a/s"))

def visit : List Event :=
  [.start (lone 8 "/b" "/b/s"), .stop (lone 8 "/b" "/b/s").toSite 1]

theorem admits_visit : Along Event.Admits alone visit := by
  refine ⟨show 8 ≤ Text.uint32Max by decide, fun g hg => ?_, trivial⟩
  have hpid : ((alone.step (.start (lone 8 "/b" "/b/s"))).server? 1).map (·.pid) = some 8 := by
    decide +kernel
  rw [hg] at hpid
  exact (Option.some.inj hpid).symm

/-- A server is left alone by one with another directory and another socket. -/
theorem artifacts_kept_apart : ∃ l, ((lone 7 "/a" "/a/s").attempt idle).1 = .ok l ∧
    (Running.mk 7 l).HasArtifacts alone.disk ∧
      Along (fun G e => (Running.mk 7 l).HasArtifacts (G.step e).disk) alone visit := by
  obtain ⟨l, h⟩ : ∃ l, ((lone 7 "/a" "/a/s").attempt idle).1 = .ok l := by
    have hok : ((lone 7 "/a" "/a/s").attempt idle).1.isOk = true := by decide +kernel
    cases hattempt : ((lone 7 "/a" "/a/s").attempt idle).1 with
    | error e =>
      rw [hattempt] at hok
      cases hok
    | ok l => exact ⟨l, rfl⟩
  refine ⟨l, h, ?_⟩
  have hlistens := Launch.listens_of_ok h
  have hsocket : l.socketPath = "/a/s" := hlistens.socketPath
  have hstatus : l.statusPath = "/a/status.json" :=
    hlistens.statusPath.trans (by decide +kernel)
  refine ((artifacts_kept_iff_spared idle (by decide)).2 l h visit admits_visit).2
    ⟨?_, ⟨?_, ?_, ?_⟩, ?_, trivial⟩
  · rw [hsocket, hstatus]
    decide +kernel
  · have hnone : alone.disk.leaf? (lone 8 "/b" "/b/s").settings.statusPath = none := by
      decide +kernel
    intro s hread
    obtain ⟨place, octets, hleaf, -⟩ := Status.read_eq_some.1 hread
    cases hnone.symm.trans hleaf
  · intro _
    rw [hsocket]
    decide +kernel
  · intro l' h'
    have hstatus' : l'.statusPath = "/b/status.json" :=
      (Launch.listens_of_ok h').statusPath.trans (by decide +kernel)
    rw [hsocket, hstatus, hstatus']
    decide +kernel
  · intro g (hg : (alone.step (.start (lone 8 "/b" "/b/s"))).server? 1 = some g)
    have hpaths : ((alone.step (.start (lone 8 "/b" "/b/s"))).server? 1).map
        (fun g => (g.listening.socketPath, g.listening.statusPath)) =
        some ("/b/s", "/b/status.json") := by
      decide +kernel
    rw [hg] at hpaths
    obtain ⟨hsocket', hstatus'⟩ := Prod.mk.inj (Option.some.inj hpaths)
    refine ⟨?_, ?_, fun _ => ?_⟩
    · rw [hsocket', hsocket]
      decide +kernel
    · rw [hsocket', hstatus]
      decide +kernel
    · rw [hstatus', hstatus]
      decide +kernel

/-- Two servers with the same socket have started, and the first has stopped. -/
def survived : Fleet :=
  [.start (lone 7 "/a" "/run/s"), .start (lone 8 "/b" "/run/s"),
    .stop (lone 7 "/a" "/run/s").toSite 0].foldl step idle

/-- **A server can lose its socket to one that stops.**  The second has bound its socket in place of
the first's; the first then takes away what is there. -/
theorem shared_socket_lost : ∃ f ∈ survived.running, ¬ f.HasArtifacts survived.disk := by
  have hpaths : survived.running.map (fun f => f.listening.socketPath) = ["/run/s"] := by
    decide +kernel
  have hgone : survived.disk.leaf? "/run/s" = none := by decide +kernel
  obtain ⟨f, hf, hpath⟩ : ∃ f ∈ survived.running, f.listening.socketPath = "/run/s" :=
    List.mem_map.1 (by rw [hpaths]; exact List.mem_singleton_self _)
  refine ⟨f, hf, fun hartifacts => ?_⟩
  obtain ⟨place, hleaf⟩ := (Disk.lookUp_eq_leaf (by nofun)).1 hartifacts.1
  rw [hpath, hgone] at hleaf
  cases hleaf

end Fleet
end Coursework
