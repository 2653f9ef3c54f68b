import Snolc.EngineLoop
import Snolc.EngineFlowScope
import Snolc.GuardedRuns

set_option autoImplicit false

namespace Snolc.Engine
open PollIo MuxFrame Mux CoreIo GuardedRuns ScriptedIo

/-- A port of some adapter is refused: there is no handle for it, or the adapter does not take it. -/
inductive PortRefused (attach : ℕ → PacketPortAnswer) (limit : ℕ) : Registry → List ℕ → Prop where
  | noHandle {registry : Registry} {adapter : ℕ} {adapters : List ℕ} {error : CoreIoError}
      (h : (registry.register .datagrams limit).1 = .error error) :
      PortRefused attach limit registry (adapter :: adapters)
  | notTaken {registry : Registry} {adapter : ℕ} {adapters : List ℕ} {error : LoadError}
      (h : attach adapter = .failed error) : PortRefused attach limit registry (adapter :: adapters)
  | afterAttached {registry : Registry} {adapter : ℕ} {adapters : List ℕ} (h : attach adapter = .attached)
      (later : PortRefused attach limit (registry.register .datagrams limit).2 adapters) :
      PortRefused attach limit registry (adapter :: adapters)
  | afterUnsupported {registry : Registry} {adapter : ℕ} {adapters : List ℕ} {handle : Handle}
      (hr : (registry.register .datagrams limit).1 = .ok handle) (h : attach adapter = .unsupported)
      (later : PortRefused attach limit ((registry.register .datagrams limit).2.remove handle .datagrams) adapters) :
      PortRefused attach limit registry (adapter :: adapters)

/-- The modules are all created, and a later step of the startup fails. -/
def Startup.FailsLate (startup : Startup) (validated : ValidatedConfig) (registry : Registry) : Prop :=
  (∀ index < validated.modules.length, startup.create index = .ok ()) ∧
    ((∃ error, startup.stack = .error error) ∨
      packetIoLimit validated.tunnels startup.adapters = none ∨
      ∃ limit, packetIoLimit validated.tunnels startup.adapters = some limit ∧
        PortRefused startup.attach limit registry startup.adapters)

theorem attachPorts_error (attach : ℕ → PacketPortAnswer) (limit : ℕ) (registry : Registry) (adapters : List ℕ) :
    (∃ error, (attachPorts attach limit registry adapters).1 = .error error) ↔
      PortRefused attach limit registry adapters := by
  induction adapters generalizing registry with
  | nil =>
    refine ⟨fun h => ?_, fun h => by cases h⟩
    obtain ⟨error, herror⟩ := h
    cases herror
  | cons adapter adapters ih =>
    unfold attachPorts
    rcases hregister : registry.register .datagrams limit with ⟨error | handle, registry'⟩
    · refine ⟨fun _ => .noHandle (by rw [hregister]), fun _ => ⟨_, rfl⟩⟩
    · dsimp only
      cases hattach : attach adapter with
      | attached =>
        dsimp only
        rw [ih]
        constructor
        · exact fun h => .afterAttached hattach (by rw [hregister]; exact h)
        · intro h
          cases h with
          | noHandle h => rw [hregister] at h; cases h
          | notTaken h => rw [hattach] at h; cases h
          | afterAttached h later => rw [hregister] at later; exact later
          | afterUnsupported hr h later => rw [hattach] at h; cases h
      | unsupported =>
        dsimp only
        rw [ih]
        constructor
        · exact fun h => .afterUnsupported (by rw [hregister]) hattach (by rw [hregister]; exact h)
        · intro h
          cases h with
          | noHandle h => rw [hregister] at h; cases h
          | notTaken h => rw [hattach] at h; cases h
          | afterAttached h later => rw [hattach] at h; cases h
          | afterUnsupported hr h later =>
            rw [hregister] at hr later
            cases hr
            exact later
      | failed error => exact ⟨fun _ => .notTaken hattach, fun _ => ⟨_, rfl⟩⟩

theorem forM_eq_ok {ι ε : Type} (f : ι → Except ε Unit) (items : List ι) :
    items.forM f = .ok () ↔ ∀ item ∈ items, f item = .ok () := by
  induction items with
  | nil => exact ⟨fun _ item hm => absurd hm List.not_mem_nil, fun _ => rfl⟩
  | cons item items ih =>
    rw [List.forall_mem_cons, ← ih]
    change (f item >>= fun _ => items.forM f) = .ok () ↔ _
    cases f item with
    | error error =>
      constructor
      · intro h
        cases h
      · intro h
        cases h.1
    | ok answer => exact ⟨fun h => ⟨rfl, h⟩, fun h => h.2⟩

theorem createModules_ok (startup : Startup) (count : ℕ) :
    createModules startup count = .ok () ↔ ∀ index < count, startup.create index = .ok () := by
  rw [createModules, forM_eq_ok]
  simp only [List.mem_range]

def Phase.path : Phase → List Lifecycle
  | .configured => [.configured]
  | .running => [.configured, .starting, .running]
  | .stopping _ _ => [.configured, .starting, .running, .stopping]
  | .returned (.ok ()) => [.configured, .starting, .running, .stopping, .stopped]
  | .returned (.error _) => [.configured, .starting, .failed]

namespace RunLoop
variable {W T : Type}

structure LifecycleTruthful (e : RunLoop W T) : Prop where
  failed : ∀ error, e.phase = .returned (.error error) → e.snapshot.lifecycle = .failed
  stopped : e.phase = .returned (.ok ()) → e.snapshot.lifecycle = .stopped
  current : e.shown.getLast? = some e.snapshot.lifecycle
  path : e.shown <+: [.configured, .starting, .failed] ∨
    e.shown <+: [.configured, .starting, .running, .stopping, .stopped]

structure OnPath (e : RunLoop W T) : Prop where
  shown : e.shown = e.phase.path
  current : e.shown.getLast? = some e.snapshot.lifecycle

theorem OnPath.truthful {e : RunLoop W T} (h : OnPath e) : e.LifecycleTruthful := by
  have hcurrent := h.current
  rw [h.shown] at hcurrent
  refine ⟨fun error hp => ?_, fun hp => ?_, h.current, ?_⟩
  · rw [hp] at hcurrent
    exact (Option.some.inj hcurrent).symm
  · rw [hp] at hcurrent
    exact (Option.some.inj hcurrent).symm
  · rw [h.shown]
    rcases e.phase with _ | _ | ⟨stopped, errors⟩ | (error | answer)
    · exact .inl ⟨[.starting, .failed], rfl⟩
    · exact .inr ⟨[.stopping, .stopped], rfl⟩
    · exact .inr ⟨[.stopped], rfl⟩
    · exact .inl ⟨[], rfl⟩
    · exact .inr ⟨[], rfl⟩

structure SameStage (e e' : RunLoop W T) : Prop where
  phase : e'.phase = e.phase
  shown : e'.shown = e.shown
  lifecycle : e'.snapshot.lifecycle = e.snapshot.lifecycle

theorem SameStage.trans {e e' e'' : RunLoop W T} (h : SameStage e e') (h' : SameStage e' e'') : SameStage e e'' :=
  ⟨h'.phase.trans h.phase, h'.shown.trans h.shown, h'.lifecycle.trans h.lifecycle⟩

theorem OnPath.same {e e' : RunLoop W T} (h : OnPath e) (hs : SameStage e e') : OnPath e' :=
  ⟨by rw [hs.shown, hs.phase]; exact h.shown, by rw [hs.shown, hs.lifecycle]; exact h.current⟩

theorem foldl_emit_sameStage {ι : Type} (event : ι → Event) (hevent : ∀ item l, event item ≠ .lifecycle l)
    (e : RunLoop W T) (items : List ι) : SameStage e (items.foldl (fun e item => e.emit (event item)) e) := by
  refine run_always (SameStage e) (fun e' item h => h.trans ?_) ⟨rfl, rfl, rfl⟩ items
  unfold emit
  cases hitem : event item with
  | lifecycle l => exact absurd hitem (hevent item l)
  | _ => exact ⟨rfl, rfl, rfl⟩

theorem emitErrors_sameStage (e : RunLoop W T) (errors : List (String × String)) : SameStage e (e.emitErrors errors) :=
  foldl_emit_sameStage (fun error : String × String => .moduleError error.1 error.2) (by simp) e errors

theorem OnPath.stop {e : RunLoop W T} (h : OnPath e) (hp : e.phase = .running) : OnPath e.stop := by
  have hshown := h.shown
  rw [hp] at hshown
  refine ⟨?_, ?_⟩
  · change e.shown ++ [Lifecycle.stopping] = _
    rw [hshown]
    rfl
  · exact List.getLast?_concat

theorem OnPath.finish {e : RunLoop W T} (h : OnPath e) {stopped : List Bool} {before : List (String × String)}
    (hp : e.phase = .stopping stopped before) (errors : List (String × String)) : OnPath (e.finish errors) := by
  have hshown := h.shown
  rw [hp, ← (e.emitErrors_sameStage errors).shown] at hshown
  refine ⟨?_, ?_⟩
  · change (e.emitErrors errors).shown ++ [Lifecycle.stopped] = _
    rw [hshown]
    rfl
  · exact List.getLast?_concat

theorem OnPath.windDown {e : RunLoop W T} (h : OnPath e) {stopped : List Bool} {errors : List (String × String)}
    (hp : e.phase = .stopping stopped errors) (round : ShutdownRound) : OnPath (e.windDown stopped errors round) := by
  unfold RunLoop.windDown
  dsimp only
  split
  · exact h.finish hp _
  · split
    · exact h.finish hp _
    · exact ⟨h.shown.trans (by rw [hp]; rfl), h.current⟩

/-- A startup that returns an error without recording it. -/
theorem not_truthful_of_starting {e : RunLoop W T} {error : EngineError} (hp : e.phase = .returned (.error error))
    (hl : e.snapshot.lifecycle = .starting) : ¬ e.LifecycleTruthful := by
  intro h
  have hfailed := h.failed error hp
  rw [hl] at hfailed
  cases hfailed

variable [Modules W T]

theorem start_phase (e : RunLoop W T) (startup : Startup) : (e.start startup).phase ≠ .configured := by
  unfold start
  dsimp only
  split
  · simp
  · split
    · simp
    · split
      · simp
      · split <;> simp

theorem start_stage (validated : ValidatedConfig) (host : Host W T) (startup : Startup) :
    OnPath (start { validated, host } startup) ∧ ¬ startup.FailsLate validated host.registry ∨
      ¬ (start { validated, host } startup).LifecycleTruthful ∧ startup.FailsLate validated host.registry := by
  have hmodules := createModules_ok startup validated.modules.length
  have hports (limit : ℕ) := attachPorts_error startup.attach limit host.registry startup.adapters
  unfold start
  dsimp only
  split
  · rename_i error hcreate
    refine .inl ⟨⟨rfl, rfl⟩, fun hlate => ?_⟩
    cases hcreate.symm.trans (hmodules.mpr hlate.1)
  · rename_i hcreate
    have hcreated := hmodules.mp hcreate
    split
    · rename_i error hstack
      exact .inr ⟨not_truthful_of_starting rfl rfl, hcreated, .inl ⟨error, hstack⟩⟩
    · rename_i hstack
      split
      · rename_i hlimit
        exact .inr ⟨not_truthful_of_starting rfl rfl, hcreated, .inr (.inl hlimit)⟩
      · rename_i limit hlimit
        split
        · rename_i error registry hattach
          have hrefused := (hports limit).mp ⟨error, congrArg Prod.fst hattach⟩
          exact .inr ⟨not_truthful_of_starting rfl rfl, hcreated, .inr (.inr ⟨limit, hlimit, hrefused⟩)⟩
        · rename_i registry hattach
          refine .inl ⟨⟨rfl, rfl⟩, ?_⟩
          rintro ⟨-, ⟨error, herror⟩ | hnone | ⟨limit', hlimit', hrefused⟩⟩
          · cases hstack.symm.trans herror
          · cases hlimit.symm.trans hnone
          · cases hlimit.symm.trans hlimit'
            obtain ⟨error, herror⟩ := (hports limit).mpr hrefused
            have hok : (attachPorts startup.attach limit host.registry startup.adapters).1 = .ok () :=
              congrArg Prod.fst hattach
            cases hok.symm.trans herror

variable [AsyncIo T]

theorem turn_sameStage (e : RunLoop W T) (i : Iteration T) : SameStage e (e.turn i) := by
  have htouched : SameStage e ({ e with
      host := e.host.disturb i.effect
      tunnels := e.tunnels.mapIdx fun j r => r.touch (i.touched j) } : RunLoop W T) := ⟨rfl, rfl, rfl⟩
  have hmodules : SameStage e (e.pollModules i) := htouched.trans (emitErrors_sameStage _ i.moduleErrors)
  refine hmodules.trans ?_
  unfold turn pollTunnels
  dsimp only
  refine SameStage.trans ?_
    (foldl_emit_sameStage (fun failure : String × TunnelError => .tunnelError failure.1 failure.2) (by simp) _ _)
  refine SameStage.trans ?_
    (foldl_emit_sameStage (fun transition : String × String => .tunnel transition.1 transition.2) (by simp) _ _)
  exact ⟨rfl, rfl, rfl⟩

theorem step_phase (e : RunLoop W T) (label : LoopStep T) : e.step label = e ∨ (e.step label).phase ≠ .configured := by
  unfold step
  split
  · split
    · exact .inr (start_phase e _)
    · exact .inl rfl
  · split
    · rename_i i _ hp
      refine .inr ?_
      have hturn (e' : RunLoop W T) (hs : SameStage e e') : (e'.turn i).phase ≠ .configured := by
        rw [(hs.trans (e'.turn_sameStage i)).phase, hp]
        simp
      unfold iterate receive
      cases i.received with
      | control => exact hturn e ⟨rfl, rfl, rfl⟩
      | empty => exact hturn e ⟨rfl, rfl, rfl⟩
      | shutdown => simp [stop]
      | closed => simp [stop]
      | platform event =>
        cases event with
        | networkChanged => exact hturn _ ⟨rfl, rfl, rfl⟩
        | vpnPermissionRevoked => simp [stop]
    · exact .inl rfl
  · split
    · refine .inr ?_
      unfold windDown finish
      dsimp only
      split_ifs <;> simp
    · exact .inl rfl

theorem OnPath.iterate {e : RunLoop W T} (h : OnPath e) (hp : e.phase = .running) (i : Iteration T) :
    OnPath (e.iterate i) := by
  have hturn (e' : RunLoop W T) (hs : SameStage e e') : OnPath (e'.turn i) :=
    h.same (hs.trans (e'.turn_sameStage i))
  have hplatform (event : PlatformEvent) : SameStage e (e.emit (.platform event)) := ⟨rfl, rfl, rfl⟩
  unfold RunLoop.iterate RunLoop.receive
  cases i.received with
  | control => exact hturn e ⟨rfl, rfl, rfl⟩
  | empty => exact hturn e ⟨rfl, rfl, rfl⟩
  | shutdown => exact h.stop hp
  | closed => exact h.stop hp
  | platform event =>
    cases event with
    | networkChanged => exact hturn _ ((hplatform .networkChanged).trans ⟨rfl, rfl, rfl⟩)
    | vpnPermissionRevoked => exact (h.same (hplatform .vpnPermissionRevoked)).stop hp

theorem OnPath.step {e : RunLoop W T} (h : OnPath e) (hstarted : e.phase ≠ .configured) (label : LoopStep T) :
    OnPath (e.step label) := by
  unfold RunLoop.step
  split
  · split
    · rename_i hp
      exact absurd hp hstarted
    · exact h
  · split
    · rename_i hp
      exact h.iterate hp _
    · exact h
  · split
    · rename_i stopped errors hp
      exact h.windDown hp _
    · exact h

end RunLoop

/-- For every configuration, every outcome of the startup and every run that follows, the lifecycle
    is truthful in all states passed exactly when the startup does not fail after the creation of the
    modules. -/
theorem lifecycle_truthful_iff {W T : Type} [Modules W T] [AsyncIo T] (validated : ValidatedConfig) (host : Host W T)
    (startup : Startup) (labels : List (LoopStep T)) :
    (∀ front, front <+: labels →
      (run RunLoop.step ({ validated, host } : RunLoop W T) (.start startup :: front)).LifecycleTruthful) ↔
      ¬ startup.FailsLate validated host.registry := by
  have hended := RunLoop.start_phase ({ validated, host } : RunLoop W T) startup
  have hstage := RunLoop.start_stage validated host startup
  constructor
  · intro hall hlate
    rcases hstage with ⟨-, hearly⟩ | ⟨hnot, -⟩
    · exact hearly hlate
    · exact hnot (hall [] List.nil_prefix)
  · intro hearly front hfront
    rcases hstage with ⟨hpath, -⟩ | ⟨-, hlate⟩
    · have hstep (e : RunLoop W T) (label : LoopStep T) (h : e.OnPath ∧ e.phase ≠ .configured) :
          (e.step label).OnPath ∧ (e.step label).phase ≠ .configured := by
        refine ⟨h.1.step h.2 label, ?_⟩
        rcases e.step_phase label with hsame | hstarted
        · rw [hsame]
          exact h.2
        · exact hstarted
      exact (run_always _ hstep ⟨hpath, hended⟩ front).1.truthful
    · exact absurd hlate hearly

def sampleConfig : ValidatedConfig where
  modules := ["adapter", "carrier", "protection", "policy"]
  tunnels := [("tunnel", sampleBinding .client)]
  bounded := by decide

def sampleLoop : RunLoop FixedModules Script := ⟨sampleConfig, ⟨{}, {}, 1, []⟩, {}, [.configured], [], [], .configured⟩

def refusedPort : Startup where
  create _ := .ok ()
  stack := .ok ()
  adapters := [0]
  attach _ := .failed (.moduleStatus 4)

theorem refused_port_untruthful :
    (run RunLoop.step sampleLoop [.start refusedPort]).phase = .returned (.error (.module (.moduleStatus 4))) ∧
      (run RunLoop.step sampleLoop [.start refusedPort]).snapshot.lifecycle = .starting ∧
      ¬ (run RunLoop.step sampleLoop [.start refusedPort]).LifecycleTruthful := by
  have hphase : (run RunLoop.step sampleLoop [.start refusedPort]).phase =
      .returned (.error (.module (.moduleStatus 4))) := rfl
  have hlifecycle : (run RunLoop.step sampleLoop [.start refusedPort]).snapshot.lifecycle = .starting := rfl
  exact ⟨hphase, hlifecycle, RunLoop.not_truthful_of_starting hphase hlifecycle⟩

end Snolc.Engine
