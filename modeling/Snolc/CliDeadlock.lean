import Snolc.CliStartup
import Snolc.GuardedRuns

set_option autoImplicit false

namespace Snolc.Cli
open GuardedRuns

namespace Stage

def unreported : Stage → Bool
  | .building | .built | .failing _ | .reporting _ => true
  | _ => false

def halted : Stage → Bool
  | .stopping | .finished _ | .exited => true
  | _ => false

/-- In the shutdown of its own engine, ahead of `engine.run()`. -/
def stalled : Stage → Bool
  | .calling | .awaiting => true
  | _ => false

def Fits (build : Except String Unit) : Stage → Prop
  | .unspawned | .building | .exited => True
  | .failing error | .reporting error => build = .error error
  | _ => build = .ok ()

def rank : Stage → ℕ
  | .unspawned => 12
  | .building => 11
  | .built => 10
  | .checking => 9
  | .calling => 8
  | .awaiting => 7
  | .entering => 6
  | .running => 5
  | .stopping => 4
  | .finished _ => 3
  | .failing _ => 2
  | .reporting _ => 1
  | .exited => 0

end Stage

structure Worker.Sound (build : Except String Unit) (w : Worker) : Prop where
  fits : w.stage.Fits build
  acknowledged : w.acknowledged ≠ [] → w.stage.halted = true

def Plan.report (p : Plan) (i : ℕ) : Except String ℕ := (p.build i).map fun _ => i

/-- The request of the main thread is with the engine, answered, or gone with the engine. -/
def Worker.Asked (w : Worker) : Prop :=
  Caller.main ∈ w.queue ∨ Caller.main ∈ w.acknowledged ∨ w.stage.halted = true ∧ w.stage.hasEngine = false

structure Worker.Moved (p : Plan) (i : ℕ) (w w' : Worker) (sent : List (Except String ℕ)) : Prop where
  spawned : ∀ stage, w.stage = stage ∨ w'.stage = stage → stage ≠ .unspawned
  sound : w'.Sound (p.build i)
  report : sent = [] ∧ w'.stage.unreported = w.stage.unreported ∨
    sent = [p.report i] ∧ w.stage.unreported = true ∧ w'.stage.unreported = false
  halted : w.stage.halted = true → w'.stage.halted = true
  stalled : w.stage.stalled = true → w'.stage.stalled = true
  asked : w.Asked → w'.Asked
  lower : w'.stage.rank < w.stage.rank

theorem Worker.Asked.keep {w w' : Worker} (h : w.Asked) (hs : w.stage.halted = false)
    (hq : ∀ caller ∈ w.queue, caller ∈ w'.queue) (ha : w'.acknowledged = w.acknowledged) : w'.Asked := by
  rcases h with hqueue | hack | ⟨hhalted, -⟩
  · exact .inl (hq _ hqueue)
  · exact .inr (.inl (ha ▸ hack))
  · rw [hs] at hhalted
    cases hhalted

structure Stage.Advance (stage stage' : Stage) : Prop where
  spawned : stage ≠ .unspawned ∧ stage' ≠ .unspawned
  halted : stage.halted = false
  stalled : stage.stalled = true → stage'.stalled = true
  lower : stage'.rank < stage.rank

theorem Worker.Moved.advance {p : Plan} {i : ℕ} {stage stage' : Stage} {queue queue' acknowledged : List Caller}
    {sent : List (Except String ℕ)} (hs : Worker.Sound (p.build i) ⟨stage, queue, acknowledged⟩)
    (h : stage.Advance stage') (hfits : stage'.Fits (p.build i))
    (hreport : sent = [] ∧ stage'.unreported = stage.unreported ∨
      sent = [p.report i] ∧ stage.unreported = true ∧ stage'.unreported = false)
    (hq : ∀ caller ∈ queue, caller ∈ queue') :
    Worker.Moved p i ⟨stage, queue, acknowledged⟩ ⟨stage', queue', acknowledged⟩ sent where
  spawned := by
    rintro _ (rfl | rfl)
    · exact h.spawned.1
    · exact h.spawned.2
  sound := by
    refine ⟨hfits, fun hne => ?_⟩
    have hbefore := hs.acknowledged hne
    rw [h.halted] at hbefore
    cases hbefore
  report := hreport
  halted hbefore := by
    rw [h.halted] at hbefore
    cases hbefore
  stalled := h.stalled
  asked hasked := hasked.keep h.halted hq rfl
  lower := h.lower

theorem Worker.Moved.gone {p : Plan} {i : ℕ} {stage stage' : Stage} {queue queue' acknowledged : List Caller}
    (hspawned : stage ≠ .unspawned ∧ stage' ≠ .unspawned) (hhalted : stage'.halted = true)
    (hengine : stage'.hasEngine = false) (hfits : stage'.Fits (p.build i))
    (hreport : stage'.unreported = stage.unreported) (hstalled : stage.stalled = true → stage'.stalled = true)
    (hlower : stage'.rank < stage.rank) :
    Worker.Moved p i ⟨stage, queue, acknowledged⟩ ⟨stage', queue', acknowledged⟩ [] where
  spawned := by
    rintro _ (rfl | rfl)
    · exact hspawned.1
    · exact hspawned.2
  sound := ⟨hfits, fun _ => hhalted⟩
  report := .inl ⟨rfl, hreport⟩
  halted _ := hhalted
  stalled := hstalled
  asked _ := .inr (.inr ⟨hhalted, hengine⟩)
  lower := hlower

namespace Process

theorem answered_of_unhalted {build : Except String Unit} {w : Worker} (h : w.Sound build)
    (hs : w.stage.halted = false) (caller : Caller) : w.answered caller = !w.stage.hasEngine := by
  have hnone : w.acknowledged = [] := by
    by_contra hne
    have := h.acknowledged hne
    rw [hs] at this
    cases this
  simp [Worker.answered, hnone]

theorem workerStep_moved {p : Plan} {s s' : Process} {i : ℕ} (hs : (s.workers i).Sound (p.build i))
    (h : s.workerStep p i = some s') :
    ∃ w' sent done cancelled, (s.workers i).Moved p i w' sent ∧
      s' = { s with workers := Function.update s.workers i w', ready := s.ready ++ sent, done, cancelled } := by
  unfold workerStep setWorker at h
  dsimp only at h
  generalize s.workers i = w at hs h
  have hsilent {w' : Worker} (hs' : some { s with workers := Function.update s.workers i w' } = some s')
      (hw : w.Moved p i w' []) :
      ∃ w' sent done cancelled, w.Moved p i w' sent ∧
        s' = { s with workers := Function.update s.workers i w', ready := s.ready ++ sent, done, cancelled } := by
    obtain rfl := Option.some.inj hs'
    exact ⟨w', [], s.done, s.cancelled, hw, by rw [List.append_nil]⟩
  obtain ⟨stage, queue, acknowledged⟩ := w
  have hfits : stage.Fits (p.build i) := hs.fits
  have hsame : ∀ caller ∈ queue, caller ∈ queue := fun _ hm => hm
  cases stage with
  | unspawned => cases h
  | building =>
    dsimp only at h
    split at h <;> rename_i hbuild
    · exact hsilent h (.advance hs ⟨by simp, rfl, by simp [Stage.stalled], by decide⟩ hbuild (.inl ⟨rfl, rfl⟩) hsame)
    · exact hsilent h (.advance hs ⟨by simp, rfl, by simp [Stage.stalled], by simp [Stage.rank]⟩ hbuild
        (.inl ⟨rfl, rfl⟩) hsame)
  | built =>
    obtain rfl := Option.some.inj h
    refine ⟨⟨.checking, queue, acknowledged⟩, [.ok i], s.done, s.cancelled, .advance hs
      ⟨by simp, rfl, by simp [Stage.stalled], by decide⟩ hfits (.inr ⟨?_, rfl, rfl⟩) hsame, rfl⟩
    rw [Plan.report, show p.build i = .ok () from hfits]
    rfl
  | checking =>
    dsimp only at h
    split at h
    · exact hsilent h (.advance hs ⟨by simp, rfl, by simp [Stage.stalled], by decide⟩ hfits (.inl ⟨rfl, rfl⟩) hsame)
    · exact hsilent h (.advance hs ⟨by simp, rfl, by simp [Stage.stalled], by decide⟩ hfits (.inl ⟨rfl, rfl⟩) hsame)
  | calling =>
    refine hsilent h (.advance hs ⟨by simp, rfl, fun _ => rfl, by decide⟩ hfits (.inl ⟨rfl, rfl⟩) ?_)
    exact fun _ hm => List.mem_append_left _ hm
  | awaiting =>
    dsimp only at h
    rw [answered_of_unhalted hs rfl] at h
    cases h
  | entering =>
    dsimp only at h
    split at h
    · exact hsilent h (.advance hs ⟨by simp, rfl, by simp [Stage.stalled], by decide⟩ hfits (.inl ⟨rfl, rfl⟩) hsame)
    · exact hsilent h (.gone (by simp) rfl rfl hfits rfl (by simp [Stage.stalled]) (by simp [Stage.rank]))
  | running =>
    dsimp only at h
    cases queue with
    | nil => cases h
    | cons caller queue =>
      refine hsilent h ⟨by rintro _ (rfl | rfl) <;> simp, ⟨hfits, fun _ => rfl⟩, .inl ⟨rfl, rfl⟩, fun _ => rfl,
        by simp [Stage.stalled], ?_, by simp [Stage.rank]⟩
      rintro (hqueue | hack | ⟨hhalted, -⟩)
      · rcases List.mem_cons.mp hqueue with heq | hm
        · exact .inr (.inl (by simp [heq]))
        · exact .inl hm
      · exact .inr (.inl (List.mem_append_left _ hack))
      · cases hhalted
  | stopping =>
    exact hsilent h (.gone (by simp) rfl rfl hfits rfl (by simp [Stage.stalled]) (by simp [Stage.rank]))
  | finished result =>
    obtain rfl := Option.some.inj h
    refine ⟨⟨.exited, queue, acknowledged⟩, [], s.done ++ [result], s.cancelled, ?_, by rw [List.append_nil]⟩
    exact .gone (by simp) rfl rfl trivial rfl (by simp [Stage.stalled]) (by simp [Stage.rank])
  | failing error =>
    obtain rfl := Option.some.inj h
    refine ⟨⟨.reporting error, queue, acknowledged⟩, [], s.done, true, ?_, by rw [List.append_nil]⟩
    exact .advance hs ⟨by simp, rfl, by simp [Stage.stalled], by simp [Stage.rank]⟩ hfits (.inl ⟨rfl, rfl⟩) hsame
  | reporting error =>
    obtain rfl := Option.some.inj h
    refine ⟨⟨.exited, queue, acknowledged⟩, [.error error], s.done, s.cancelled, ?_, rfl⟩
    have hreport : [.error error] = [p.report i] := by
      rw [Plan.report, show p.build i = .error error from hfits]
      rfl
    exact .advance hs ⟨by simp, rfl, by simp [Stage.stalled], by simp [Stage.rank]⟩ trivial
      (.inr ⟨hreport, rfl, rfl⟩) hsame
  | exited => cases h

theorem mainStep_workers {p : Plan} {s s' : Process} (h : s.mainStep p = some s') :
    s'.workers = s.workers ∧ s'.threads = s.threads ∨
    s.main = .spawning ∧ s.threads < p.workers ∧
      s' = { s.setWorker s.threads { s.workers s.threads with stage := .building } with threads := s.threads + 1 } ∨
    ∃ i w, (s.workers i).shutdown .main = some w ∧ s'.workers = Function.update s.workers i w ∧
      s'.threads = s.threads := by
  unfold mainStep at h
  split at h
  · rename_i hmain
    split at h
    · rename_i hfew
      split at h <;> obtain rfl := Option.some.inj h
      · exact .inr (.inl ⟨hmain, hfew, rfl⟩)
      · exact .inl ⟨rfl, rfl⟩
    · obtain rfl := Option.some.inj h
      exact .inl ⟨rfl, rfl⟩
  · obtain rfl := Option.some.inj h
    exact .inl ⟨rfl, rfl⟩
  · obtain rfl := Option.some.inj h
    exact .inl ⟨rfl, rfl⟩
  · split at h <;> cases h <;> exact .inl ⟨rfl, rfl⟩
  · obtain rfl := Option.some.inj h
    exact .inl ⟨rfl, rfl⟩
  · obtain rfl := Option.some.inj h
    exact .inl ⟨rfl, rfl⟩
  · split at h
    · split at h
      · cases h
        exact .inl ⟨rfl, rfl⟩
      · cases h
    · obtain rfl := Option.some.inj h
      exact .inl ⟨rfl, rfl⟩
    · obtain rfl := Option.some.inj h
      exact .inl ⟨rfl, rfl⟩
  · split at h <;> cases h <;> exact .inl ⟨rfl, rfl⟩
  · split at h
    · split at h
      · cases h
        exact .inl ⟨rfl, rfl⟩
      · cases h
    · obtain rfl := Option.some.inj h
      exact .inl ⟨rfl, rfl⟩
  · obtain rfl := Option.some.inj h
    exact .inl ⟨rfl, rfl⟩
  · split at h <;> rename_i hcall <;> obtain rfl := Option.some.inj h
    · exact .inr (.inr ⟨_, _, hcall, rfl, rfl⟩)
    · exact .inl ⟨rfl, rfl⟩
  · split at h
    · cases h
      exact .inl ⟨rfl, rfl⟩
    · cases h
  · split at h
    · split at h
      · cases h
        exact .inl ⟨rfl, rfl⟩
      · cases h
    · obtain rfl := Option.some.inj h
      exact .inl ⟨rfl, rfl⟩
  · cases h

structure Sound (p : Plan) (s : Process) : Prop where
  workers : ∀ i, (s.workers i).Sound (p.build i)
  spawned : ∀ i, (s.workers i).stage = .unspawned ↔ s.threads ≤ i
  few : s.threads ≤ p.workers

theorem shutdown_eq {w w' : Worker} {caller : Caller} (h : w.shutdown caller = some w') :
    w' = { w with queue := w.queue ++ [caller] } := by
  unfold Worker.shutdown at h
  split at h
  · exact (Option.some.inj h).symm
  · cases h

theorem Sound.step? {p : Plan} {s s' : Process} {t : Thread} (hs : s.Sound p) (h : s.step? p t = some s') :
    s'.Sound p := by
  cases t with
  | main =>
    rcases mainStep_workers h with ⟨hworkers, hthreads⟩ | ⟨-, hfew, rfl⟩ | ⟨i, w, hcall, hworkers, hthreads⟩
    · exact ⟨by rw [hworkers]; exact hs.workers, by rw [hworkers, hthreads]; exact hs.spawned, hthreads ▸ hs.few⟩
    · have hstage := (hs.spawned s.threads).mpr (Nat.le_refl _)
      have hnone : (s.workers s.threads).acknowledged ≠ [] → (Stage.building).halted = true := by
        intro hne
        have hhalted := (hs.workers s.threads).acknowledged hne
        rw [hstage] at hhalted
        cases hhalted
      refine ⟨?_, ?_, hfew⟩
      · exact (Function.forall_update_iff s.workers fun j w => w.Sound (p.build j)).mpr
          ⟨⟨trivial, hnone⟩, fun j _ => hs.workers j⟩
      · refine (Function.forall_update_iff s.workers fun j w => w.stage = .unspawned ↔ s.threads + 1 ≤ j).mpr
          ⟨by simp, fun j hj => ?_⟩
        rw [hs.spawned j]
        omega
    · obtain rfl := shutdown_eq hcall
      refine ⟨?_, ?_, hthreads ▸ hs.few⟩
      · rw [hworkers]
        exact (Function.forall_update_iff s.workers fun j w => w.Sound (p.build j)).mpr
          ⟨⟨(hs.workers i).fits, (hs.workers i).acknowledged⟩, fun j _ => hs.workers j⟩
      · rw [hworkers, hthreads]
        exact (Function.forall_update_iff s.workers fun j w => w.stage = .unspawned ↔ s.threads ≤ j).mpr
          ⟨hs.spawned i, fun j _ => hs.spawned j⟩
  | worker i =>
    obtain ⟨w', sent, done, cancelled, hmoved, rfl⟩ := workerStep_moved (hs.workers i) h
    have hbefore := hmoved.spawned _ (.inl rfl)
    have hafter := hmoved.spawned _ (.inr rfl)
    rw [Ne, hs.spawned i] at hbefore
    refine ⟨?_, ?_, hs.few⟩
    · exact (Function.forall_update_iff s.workers fun j w => w.Sound (p.build j)).mpr
        ⟨hmoved.sound, fun j _ => hs.workers j⟩
    · exact (Function.forall_update_iff s.workers fun j w => w.stage = .unspawned ↔ s.threads ≤ j).mpr
        ⟨⟨fun heq => absurd heq hafter, fun hle => absurd hle hbefore⟩, fun j _ => hs.spawned j⟩

theorem step?_others {p : Plan} {s s' : Process} {t : Thread} {i : ℕ} (hs : s.Sound p) (h : s.step? p t = some s')
    (ht : t ≠ .worker i) : (s'.workers i).stage = (s.workers i).stage ∨
      (s.workers i).stage = .unspawned ∧ (s'.workers i).stage = .building := by
  cases t with
  | main =>
    rcases mainStep_workers h with ⟨hworkers, -⟩ | ⟨-, -, rfl⟩ | ⟨j, w, hcall, hworkers, -⟩
    · exact .inl (by rw [hworkers])
    · by_cases hi : i = s.threads
      · subst hi
        exact .inr ⟨(hs.spawned s.threads).mpr (Nat.le_refl _), by simp [setWorker]⟩
      · exact .inl (by simp only [setWorker, Function.update_of_ne hi])
    · obtain rfl := shutdown_eq hcall
      rw [hworkers]
      by_cases hi : i = j
      · subst hi
        exact .inl (by rw [Function.update_self])
      · exact .inl (by rw [Function.update_of_ne hi])
  | worker j =>
    obtain ⟨w', sent, done, cancelled, hmoved, rfl⟩ := workerStep_moved (hs.workers j) h
    have hi : i ≠ j := by
      rintro rfl
      exact ht rfl
    exact .inl (by simp only [Function.update_of_ne hi])

theorem stalled_step? {p : Plan} {s s' : Process} {t : Thread} {i : ℕ} (hs : s.Sound p) (h : s.step? p t = some s')
    (hstalled : (s.workers i).stage.stalled = true) : (s'.workers i).stage.stalled = true := by
  by_cases ht : t = .worker i
  · subst ht
    obtain ⟨w', sent, done, cancelled, hmoved, rfl⟩ := workerStep_moved (hs.workers i) h
    simp only [Function.update_self]
    exact hmoved.stalled hstalled
  · rcases step?_others hs h ht with hsame | ⟨hunspawned, -⟩
    · rw [hsame]
      exact hstalled
    · rw [hunspawned] at hstalled
      cases hstalled

/-- The flag is not set where a worker with its engine looks at it. -/
def Unflagged (s : Process) : Thread → Prop
  | .main => True
  | .worker i => (s.workers i).stage = .checking → s.cancelled = false

theorem workerStep_stalls {p : Plan} {s s' : Process} {i : ℕ} (h : s.workerStep p i = some s')
    (hstalled : (s'.workers i).stage.stalled = true) :
    (s.workers i).stage.stalled = true ∨ (s.workers i).stage = .checking ∧ s.cancelled = true := by
  cases hstage : (s.workers i).stage with
  | calling => exact .inl rfl
  | awaiting => exact .inl rfl
  | checking =>
    refine .inr ⟨rfl, ?_⟩
    by_contra hflag
    simp only [workerStep, hstage, hflag] at h
    cases h
    simp [setWorker, Stage.stalled] at hstalled
  | unspawned => simp [workerStep, hstage] at h
  | exited => simp [workerStep, hstage] at h
  | building =>
    simp only [workerStep, hstage] at h
    split at h <;> cases h <;> simp [setWorker, Stage.stalled] at hstalled
  | entering =>
    simp only [workerStep, hstage] at h
    split at h <;> cases h <;> simp [setWorker, Stage.stalled] at hstalled
  | running =>
    simp only [workerStep, hstage] at h
    split at h <;> cases h
    simp [setWorker, Stage.stalled] at hstalled
  | built | stopping | finished result | failing error | reporting error =>
    simp only [workerStep, hstage] at h
    cases h
    simp [setWorker, Stage.stalled] at hstalled

theorem unstalled_step? {p : Plan} {s s' : Process} {t : Thread} (hs : s.Sound p) (h : s.step? p t = some s')
    (hflag : s.Unflagged t) (hfree : ∀ i, (s.workers i).stage.stalled = false) (i : ℕ) :
    (s'.workers i).stage.stalled = false := by
  by_cases ht : t = .worker i
  · subst ht
    rw [← Bool.not_eq_true]
    intro hstalled
    rcases workerStep_stalls h hstalled with hbefore | ⟨hchecking, hset⟩
    · rw [hfree i] at hbefore
      cases hbefore
    · rw [hflag hchecking] at hset
      cases hset
  · rcases step?_others hs h ht with hsame | ⟨-, hbuilding⟩
    · rw [hsame]
      exact hfree i
    · rw [hbuilding]
      rfl

theorem step_always {p : Plan} {I : Process → Prop} (hI : ∀ s s' t, I s → s.step? p t = some s' → I s')
    {s : Process} (hs : I s) (t : Thread) : I (s.step p t) := by
  unfold step
  cases h : s.step? p t with
  | none => exact hs
  | some s' => exact hI s s' t hs h

theorem sound_init (p : Plan) : Sound p {} :=
  ⟨fun _ => ⟨trivial, fun h => absurd rfl h⟩, fun i => ⟨fun _ => Nat.zero_le i, fun _ => rfl⟩, Nat.zero_le _⟩

theorem Sound.step {p : Plan} {s : Process} (hs : s.Sound p) (t : Thread) : (s.step p t).Sound p :=
  step_always (fun _ _ _ h hstep => h.step? hstep) hs t

theorem sound_run (p : Plan) (threads : List Thread) : Sound p (run (step p) {} threads) :=
  run_always (Sound p) (fun _ t h => h.step t) (sound_init p) threads

theorem stalled_run {p : Plan} {s : Process} {i : ℕ} (hs : s.Sound p) (hstalled : (s.workers i).stage.stalled = true)
    (threads : List Thread) : ((run (step p) s threads).workers i).stage.stalled = true := by
  have hstep (s : Process) (t : Thread) (h : s.Sound p ∧ (s.workers i).stage.stalled = true) :
      (s.step p t).Sound p ∧ ((s.step p t).workers i).stage.stalled = true :=
    step_always (I := fun s => s.Sound p ∧ (s.workers i).stage.stalled = true)
      (fun _ _ _ h hstep => ⟨h.1.step? hstep, stalled_step? h.1 hstep h.2⟩) h t
  exact (run_always _ hstep ⟨hs, hstalled⟩ threads).2

theorem stalled_of_unguarded {p : Plan} {s : Process} (hs : s.Sound p) (threads : List Thread)
    (h : ¬ Guarded (step p) Unflagged s threads) : ∃ i, ((run (step p) s threads).workers i).stage.stalled = true := by
  induction threads generalizing s with
  | nil => exact absurd trivial h
  | cons t threads ih =>
    by_cases hflag : s.Unflagged t
    · exact ih (hs.step t) fun hrest => h ⟨hflag, hrest⟩
    · cases t with
      | main => exact absurd trivial hflag
      | worker i =>
        obtain ⟨hchecking, hset⟩ := Classical.not_imp.mp hflag
        rw [Bool.not_eq_false] at hset
        refine ⟨i, stalled_run (hs.step _) ?_ threads⟩
        simp [step, step?, workerStep, hchecking, hset, setWorker, Stage.stalled]

/-- A run in which no worker stalls is one in which none finds the flag set. -/
theorem guarded_iff_unstalled (p : Plan) (threads : List Thread) :
    Guarded (step p) Unflagged {} threads ↔ ∀ i, ((run (step p) {} threads).workers i).stage.stalled = false := by
  constructor
  · intro h
    have hstep (s : Process) (t : Thread) (hs : s.Sound p ∧ ∀ i, (s.workers i).stage.stalled = false)
        (hflag : s.Unflagged t) : (s.step p t).Sound p ∧ ∀ i, ((s.step p t).workers i).stage.stalled = false := by
      refine ⟨hs.1.step t, ?_⟩
      unfold step
      cases hnext : s.step? p t with
      | none => exact hs.2
      | some s' => exact unstalled_step? hs.1 hnext hflag hs.2
    exact (run_invariant _ hstep ⟨sound_init p, fun _ => rfl⟩ h).2
  · intro hfree
    by_contra h
    obtain ⟨i, hi⟩ := stalled_of_unguarded (sound_init p) threads h
    rw [hfree i] at hi
    cases hi

end Process
end Snolc.Cli
