import Snolc.CliDeadlock
import Mathlib.Algebra.Order.BigOperators.Group.Finset

set_option autoImplicit false

namespace Snolc.Cli
open GuardedRuns

def Plan.Origin (p : Plan) (error : String) : Prop :=
  ∃ i < p.workers, p.build i = .error error ∨ p.spawn i = .error error

theorem sum_update {N i : ℕ} (hi : i < N) (f : Worker → ℕ) (workers : ℕ → Worker) (w : Worker) :
    ∑ j ∈ Finset.range N, f (Function.update workers i w j) + f (workers i) =
      ∑ j ∈ Finset.range N, f (workers j) + f w := by
  have hm := Finset.mem_range.mpr hi
  have hrest : ∑ j ∈ (Finset.range N).erase i, f (Function.update workers i w j) =
      ∑ j ∈ (Finset.range N).erase i, f (workers j) := by
    refine Finset.sum_congr rfl fun j hj => ?_
    rw [Function.update_of_ne (Finset.ne_of_mem_erase hj)]
  rw [← Finset.add_sum_erase _ _ hm, ← Finset.add_sum_erase _ (fun j => f (workers j)) hm, Function.update_self, hrest]
  omega

namespace Process

def outstanding (p : Plan) (s : Process) : ℕ :=
  ∑ j ∈ Finset.range p.workers, (s.workers j).stage.unreported.toNat

theorem exists_unreported {p : Plan} {s : Process} (h : 0 < s.outstanding p) :
    ∃ i < p.workers, (s.workers i).stage.unreported = true := by
  by_contra hnone
  have hzero : s.outstanding p = 0 := by
    refine Finset.sum_eq_zero fun j hj => ?_
    have hreported : (s.workers j).stage.unreported = false := by
      rw [← Bool.not_eq_true]
      exact fun hj' => hnone ⟨j, Finset.mem_range.mp hj, hj'⟩
    rw [hreported]
    rfl
  omega

theorem all_reported {p : Plan} {s : Process} (h : s.outstanding p = 0) {i : ℕ} (hi : i < p.workers) :
    (s.workers i).stage.unreported = false := by
  have hzero : (s.workers i).stage.unreported.toNat = 0 := Finset.sum_eq_zero_iff.mp h i (Finset.mem_range.mpr hi)
  cases hu : (s.workers i).stage.unreported with
  | false => rfl
  | true =>
    rw [hu] at hzero
    cases hzero

def Due (p : Plan) (s : Process) (i : ℕ) : Prop :=
  (s.workers i).stage.unreported = true ∨ p.report i ∈ s.ready

/-- The main thread has `left` messages ahead, and the handles of those built workers whose
    message it has taken. -/
structure Collects (p : Plan) (s : Process) (left : ℕ) (handles : List ℕ) : Prop where
  count : s.ready.length + s.outstanding p = left
  origin : ∀ message ∈ s.ready, ∃ i < p.workers, message = p.report i
  known : ∀ i < s.threads, s.Due p i ∨ (p.build i = .ok () → i ∈ handles)

/-- All workers have reported, and those not in `handles` are on their way out. -/
def Told (s : Process) (handles : List ℕ) : Prop :=
  ∀ i < s.threads, (s.workers i).stage.unreported = false ∧ (i ∈ handles ∨ (s.workers i).stage.halted = true)

def Failure (p : Plan) (result : Except String Unit) : Prop := ∃ error, result = .error error ∧ p.Origin error

def Knows (p : Plan) (s : Process) : Main → Prop
  | .spawning => s.Collects p s.threads [] ∧ ∀ i < s.threads, s.Due p i
  | .refused error => s.Collects p s.threads [] ∧ p.Origin error
  | .gathering left handles error => s.Collects p left handles ∧ p.Origin error
  | .collecting left handles startupError =>
    s.Collects p left handles ∧ s.threads = p.workers ∧ (∀ error ∈ startupError, p.Origin error) ∧
      (startupError = none → ∀ i < p.workers, ∀ error, p.build i = .error error → s.Due p i)
  | .installing _ | .serving _ => False
  | .shutting handles result => s.Told handles ∧ Failure p result
  | .waiting i handles result => s.Told (i :: handles) ∧ Failure p result ∧ (s.workers i).Asked
  | .joining next result => s.Told [] ∧ Failure p result ∧ ∀ i < next, (s.workers i).stage = .exited
  | .returned result => Failure p result ∧ ∀ i < s.threads, (s.workers i).stage = .exited

section Worker
variable {p : Plan} {s : Process} {i : ℕ} {w : Worker} {sent : List (Except String ℕ)}
  {done : List (Except String Unit)} {cancelled : Bool}

def withWorker (s : Process) (i : ℕ) (w : Worker) (sent : List (Except String ℕ)) (done : List (Except String Unit))
    (cancelled : Bool) : Process :=
  { s with workers := Function.update s.workers i w, ready := s.ready ++ sent, done, cancelled }

theorem Due.moved {j : ℕ} (h : s.Due p j) (hm : (s.workers i).Moved p i w sent) :
    (s.withWorker i w sent done cancelled).Due p j := by
  rcases h with hun | hready
  · by_cases hj : j = i
    · subst hj
      rcases hm.report with ⟨-, hsame⟩ | ⟨rfl, -, -⟩
      · refine .inl ?_
        simp only [withWorker, Function.update_self]
        rw [hsame]
        exact hun
      · exact .inr (List.mem_append_right _ (List.mem_singleton.mpr rfl))
    · refine .inl ?_
      simp only [withWorker, Function.update_of_ne hj]
      exact hun
  · exact .inr (List.mem_append_left _ hready)

theorem Collects.moved {left : ℕ} {handles : List ℕ} (h : s.Collects p left handles) (hi : i < p.workers)
    (hm : (s.workers i).Moved p i w sent) : (s.withWorker i w sent done cancelled).Collects p left handles where
  count := by
    have hsum := sum_update hi (fun w => w.stage.unreported.toNat) s.workers w
    have hcount := h.count
    unfold outstanding at hcount ⊢
    simp only [withWorker, List.length_append]
    rcases hm.report with ⟨rfl, hsame⟩ | ⟨rfl, hbefore, hafter⟩
    · rw [hsame] at hsum
      simp only [List.length_nil]
      omega
    · rw [hbefore, hafter] at hsum
      simp only [List.length_singleton, Bool.toNat_true, Bool.toNat_false] at hsum ⊢
      omega
  origin := by
    intro message hmessage
    rcases List.mem_append.mp hmessage with hbefore | hsent
    · exact h.origin message hbefore
    · rcases hm.report with ⟨rfl, -⟩ | ⟨rfl, -, -⟩
      · exact absurd hsent List.not_mem_nil
      · exact ⟨i, hi, List.mem_singleton.mp hsent⟩
  known j hj := (h.known j hj).imp (fun hdue => hdue.moved hm) id

theorem Told.moved {handles : List ℕ} (h : s.Told handles) (hm : (s.workers i).Moved p i w sent) :
    (s.withWorker i w sent done cancelled).Told handles := by
  intro j hj
  obtain ⟨hreported, hout⟩ := h j hj
  by_cases hji : j = i
  · subst hji
    simp only [withWorker, Function.update_self]
    refine ⟨?_, hout.imp id hm.halted⟩
    rcases hm.report with ⟨-, hsame⟩ | ⟨-, hbefore, -⟩
    · rw [hsame]
      exact hreported
    · rw [hreported] at hbefore
      cases hbefore
  · simp only [withWorker, Function.update_of_ne hji]
    exact ⟨hreported, hout⟩

theorem exited_moved {j : ℕ} (h : (s.workers j).stage = .exited) (hm : (s.workers i).Moved p i w sent) :
    ((s.withWorker i w sent done cancelled).workers j).stage = .exited := by
  have hji : j ≠ i := by
    rintro rfl
    have hlower := hm.lower
    rw [h] at hlower
    cases hlower
  simp only [withWorker, Function.update_of_ne hji]
  exact h

theorem Knows.moved {m : Main} (h : s.Knows p m) (hi : i < p.workers) (hm : (s.workers i).Moved p i w sent) :
    (s.withWorker i w sent done cancelled).Knows p m := by
  cases m with
  | spawning => exact ⟨h.1.moved hi hm, fun j hj => (h.2 j hj).moved hm⟩
  | refused error => exact ⟨h.1.moved hi hm, h.2⟩
  | gathering left handles error => exact ⟨h.1.moved hi hm, h.2⟩
  | collecting left handles startupError =>
    obtain ⟨hcollects, hall, horigin, hnone⟩ := h
    exact ⟨hcollects.moved hi hm, hall, horigin, fun hn j hj error herror => (hnone hn j hj error herror).moved hm⟩
  | installing handles => exact h
  | serving handles => exact h
  | shutting handles result => exact ⟨h.1.moved hm, h.2⟩
  | waiting j handles result =>
    obtain ⟨htold, hfailure, hasked⟩ := h
    refine ⟨htold.moved hm, hfailure, ?_⟩
    by_cases hji : j = i
    · subst hji
      simp only [withWorker, Function.update_self]
      exact hm.asked hasked
    · simp only [withWorker, Function.update_of_ne hji]
      exact hasked
  | joining next result => exact ⟨h.1.moved hm, h.2.1, fun j hj => exited_moved (h.2.2 j hj) hm⟩
  | returned result => exact ⟨h.1, fun j hj => exited_moved (h.2 j hj) hm⟩

end Worker

theorem known_pop {p : Plan} {s : Process} {message : Except String ℕ} {ready : List (Except String ℕ)} {i : ℕ}
    (hready : s.ready = message :: ready) (h : s.Due p i) :
    p.report i = message ∨ ∀ main cancelled, Due p { s with ready, main, cancelled } i := by
  rcases h with hun | hmem
  · exact .inr fun _ _ => .inl hun
  · rw [hready] at hmem
    rcases List.mem_cons.mp hmem with heq | hrest
    · exact .inl heq
    · exact .inr fun _ _ => .inr hrest

theorem Collects.pop {p : Plan} {s : Process} {left : ℕ} {handles : List ℕ} {message : Except String ℕ}
    {ready : List (Except String ℕ)} (h : s.Collects p (left + 1) handles) (hready : s.ready = message :: ready)
    (main : Main) (cancelled : Bool) :
    Collects p { s with ready, main, cancelled } left (message.toOption.elim handles fun i => handles ++ [i]) where
  count := by
    have hcount := h.count
    rw [hready, List.length_cons] at hcount
    change ready.length + s.outstanding p = left
    omega
  origin m hm := h.origin m (hready ▸ List.mem_cons_of_mem _ hm)
  known := by
    intro i hi
    have hgrow : i ∈ handles → i ∈ message.toOption.elim handles fun i => handles ++ [i] := by
      intro hmem
      cases message with
      | error error => exact hmem
      | ok j => exact List.mem_append_left _ hmem
    rcases h.known i hi with hdue | hknown
    · rcases known_pop hready hdue with rfl | hstill
      · refine .inr fun hbuild => ?_
        simp [Plan.report, hbuild, Except.map, Except.toOption]
      · exact .inl (hstill main cancelled)
    · exact .inr fun hbuild => hgrow (hknown hbuild)

theorem Collects.told {p : Plan} {s : Process} {handles : List ℕ} (hs : s.Sound p) (h : s.Collects p 0 handles) :
    s.Told handles := by
  have hcount := h.count
  have hempty : s.ready = [] := List.eq_nil_of_length_eq_zero (by omega)
  intro i hi
  have hreported := all_reported (p := p) (s := s) (by omega) (Nat.lt_of_lt_of_le hi hs.few)
  refine ⟨hreported, ?_⟩
  rcases h.known i hi with (hun | hready) | hknown
  · rw [hreported] at hun
    cases hun
  · rw [hempty] at hready
    exact absurd hready List.not_mem_nil
  · have hfits := (hs.workers i).fits
    have hspawned : (s.workers i).stage ≠ .unspawned := by
      rw [Ne, hs.spawned i]
      omega
    -- a worker without an engine has ended
    cases hstage : (s.workers i).stage with
    | unspawned => exact absurd hstage hspawned
    | building | failing error | reporting error =>
      rw [hstage] at hreported
      cases hreported
    | exited => exact .inr rfl
    | _ =>
      rw [hstage] at hfits
      exact .inl (hknown hfits)

theorem halted_of_gone {p : Plan} {s : Process} {i : ℕ} (hs : s.Sound p) (hi : i < s.threads)
    (hreported : (s.workers i).stage.unreported = false) (hgone : (s.workers i).stage.hasEngine = false) :
    (s.workers i).stage.halted = true := by
  have hspawned : (s.workers i).stage ≠ .unspawned := by
    rw [Ne, hs.spawned i]
    omega
  cases hstage : (s.workers i).stage with
  | unspawned => exact absurd hstage hspawned
  | stopping | finished result | exited => rfl
  | building | failing error | reporting error =>
    rw [hstage] at hreported
    cases hreported
  | _ =>
    rw [hstage] at hgone
    cases hgone

theorem Told.tail {s : Process} {i : ℕ} {handles : List ℕ} (h : s.Told (i :: handles))
    (hi : i < s.threads → (s.workers i).stage.halted = true) : s.Told handles := by
  intro j hj
  obtain ⟨hreported, hmem | hhalted⟩ := h j hj
  · rcases List.mem_cons.mp hmem with rfl | hrest
    · exact ⟨hreported, .inr (hi hj)⟩
    · exact ⟨hreported, .inl hrest⟩
  · exact ⟨hreported, .inr hhalted⟩

theorem Collects.spawn {p : Plan} {s : Process} (hs : s.Sound p) (hfew : s.threads < p.workers)
    (h : s.Collects p s.threads [] ∧ ∀ i < s.threads, s.Due p i) :
    Knows p { s.setWorker s.threads { s.workers s.threads with stage := .building } with threads := s.threads + 1 }
      .spawning := by
  have hunspawned := (hs.spawned s.threads).mpr (Nat.le_refl _)
  have hdue (i : ℕ) (hi : i < s.threads + 1) : Due p { s.setWorker s.threads
      { s.workers s.threads with stage := .building } with threads := s.threads + 1 } i := by
    by_cases hlast : i = s.threads
    · subst hlast
      exact .inl (by simp [setWorker, Stage.unreported])
    · refine (h.2 i (by omega)).imp (fun hun => ?_) id
      simp only [setWorker, Function.update_of_ne hlast]
      exact hun
  refine ⟨⟨?_, h.1.origin, fun i hi => .inl (hdue i hi)⟩, hdue⟩
  have hsum := sum_update hfew (fun w => w.stage.unreported.toNat) s.workers
    { s.workers s.threads with stage := .building }
  have hcount := h.1.count
  have hone : Stage.building.unreported.toNat = 1 := rfl
  have hzero : Stage.unspawned.unreported.toNat = 0 := rfl
  rw [hunspawned] at hsum
  unfold outstanding at hcount ⊢
  simp only [setWorker]
  dsimp only at hsum
  omega

theorem report_of_error {p : Plan} {i : ℕ} {error : String} (h : p.build i = .error error) :
    p.report i = .error error := by
  rw [Plan.report, h]
  rfl

theorem report_error {p : Plan} {i : ℕ} {error : String} (h : .error error = p.report i) :
    p.build i = .error error := by
  unfold Plan.report at h
  cases hbuild : p.build i with
  | ok answer =>
    rw [hbuild] at h
    cases h
  | error other =>
    rw [hbuild] at h
    cases h
    rfl

theorem isExited_iff {stage : Stage} : stage.isExited = true ↔ stage = .exited := by
  cases stage <;> simp [Stage.isExited]

section Main
variable {p : Plan} {s s' : Process}

theorem Knows.spawning (hs : s.Sound p) (hmain : s.main = .spawning) (h : s.Knows p .spawning)
    (hstep : s.mainStep p = some s') : s'.Knows p s'.main := by
  simp only [Process.mainStep, hmain] at hstep
  split at hstep
  · rename_i hfew
    split at hstep <;> rename_i hspawn <;> cases hstep
    · change Knows p _ s.main
      rw [hmain]
      exact Collects.spawn hs hfew h
    · exact ⟨⟨h.1.count, h.1.origin, h.1.known⟩, s.threads, hfew, .inr hspawn⟩
  · cases hstep
    have hall : s.threads = p.workers := Nat.le_antisymm hs.few (by omega)
    refine ⟨⟨hall ▸ h.1.count, h.1.origin, h.1.known⟩, hall, fun error hmem => ?_, fun _ i hi _ _ => ?_⟩
    · cases hmem
    · exact h.2 i (hall ▸ hi)

theorem Knows.gathering {left : ℕ} {handles : List ℕ} {error : String} (hs : s.Sound p)
    (hmain : s.main = .gathering left handles error) (h : s.Knows p (.gathering left handles error))
    (hstep : s.mainStep p = some s') : s'.Knows p s'.main := by
  cases left with
  | zero =>
    simp only [Process.mainStep, hmain] at hstep
    cases hstep
    have htold := h.1.told hs
    exact ⟨htold, _, rfl, h.2⟩
  | succ left =>
    simp only [Process.mainStep, hmain] at hstep
    split at hstep <;> rename_i hready <;> cases hstep
    · exact ⟨h.1.pop hready _ _, h.2⟩
    · exact ⟨h.1.pop hready _ _, h.2⟩

theorem Collects.open {left : ℕ} {handles : List ℕ} (h : s.Collects p (left + 1) handles) (hall : s.threads = p.workers)
    (hready : s.ready = []) : s.allExited = false := by
  have hcount := h.count
  rw [hready, List.length_nil] at hcount
  obtain ⟨i, hi, hun⟩ := exists_unreported (p := p) (s := s) (by omega)
  rw [← Bool.not_eq_true]
  intro hexited
  have hi' := List.all_eq_true.mp hexited i (List.mem_range.mpr (hall ▸ hi))
  rw [isExited_iff.mp hi'] at hun
  cases hun

theorem Knows.collecting (hfail : ∃ i < p.workers, ∃ error, p.build i = .error error) {left : ℕ} {handles : List ℕ}
    {startupError : Option String} (hs : s.Sound p) (hmain : s.main = .collecting left handles startupError)
    (h : s.Knows p (.collecting left handles startupError)) (hstep : s.mainStep p = some s') : s'.Knows p s'.main := by
  obtain ⟨hcollects, hall, horigin, hnone⟩ := h
  cases left with
  | zero =>
    have htold := hcollects.told hs
    cases startupError with
    | some error =>
      simp only [Process.mainStep, hmain] at hstep
      cases hstep
      exact ⟨htold, error, rfl, horigin error rfl⟩
    | none =>
      -- the failed build has been heard of
      obtain ⟨i, hi, error, herror⟩ := hfail
      have hcount := hcollects.count
      have hempty : s.ready = [] := List.eq_nil_of_length_eq_zero (by omega)
      rcases hnone rfl i hi error herror with hun | hready
      · rw [all_reported (by omega) hi] at hun
        cases hun
      · rw [hempty] at hready
        exact absurd hready List.not_mem_nil
  | succ left =>
    simp only [Process.mainStep, hmain] at hstep
    split at hstep
    · rename_i hready
      rw [hcollects.open hall hready] at hstep
      cases hstep
    · rename_i i ready hready
      cases hstep
      refine ⟨hcollects.pop hready _ _, hall, horigin, fun hn j hj error herror => ?_⟩
      rcases known_pop hready (hnone hn j hj error herror) with heq | hstill
      · rw [report_of_error herror] at heq
        cases heq
      · exact hstill _ _
    · rename_i error ready hready
      cases hstep
      refine ⟨hcollects.pop hready _ _, hall, fun e he => ?_, fun hn => ?_⟩
      · obtain rfl := Option.mem_some_iff.mp he
        cases startupError with
        | some first => exact horigin first rfl
        | none =>
          obtain ⟨i, hi, hreport⟩ := hcollects.origin (.error error) (hready ▸ List.mem_cons_self)
          exact ⟨i, hi, .inl (report_error hreport)⟩
      · cases hn

theorem Knows.shutting {handles : List ℕ} {result : Except String Unit} (hs : s.Sound p)
    (hmain : s.main = .shutting handles result) (h : s.Knows p (.shutting handles result))
    (hstep : s.mainStep p = some s') : s'.Knows p s'.main := by
  obtain ⟨htold, hfailure⟩ := h
  cases handles with
  | nil =>
    simp only [Process.mainStep, hmain] at hstep
    cases hstep
    exact ⟨htold, hfailure, fun i hi => absurd hi (Nat.not_lt_zero i)⟩
  | cons i handles =>
    simp only [Process.mainStep, hmain] at hstep
    split at hstep <;> rename_i hcall <;> cases hstep
    · obtain rfl := shutdown_eq hcall
      refine ⟨fun j hj => ?_, hfailure, .inl (by simp [setWorker])⟩
      by_cases hji : j = i
      · subst hji
        simp only [setWorker, Function.update_self]
        exact htold j hj
      · simp only [setWorker, Function.update_of_ne hji]
        exact htold j hj
    · have hgone : (s.workers i).stage.hasEngine = false := by
        unfold Worker.shutdown at hcall
        split at hcall
        · cases hcall
        · rename_i hgone
          exact Bool.eq_false_iff.mpr hgone
      exact ⟨htold.tail fun hi => halted_of_gone hs hi (htold i hi).1 hgone, hfailure⟩

theorem Knows.waiting {i : ℕ} {handles : List ℕ} {result : Except String Unit} (hs : s.Sound p)
    (hmain : s.main = .waiting i handles result) (h : s.Knows p (.waiting i handles result))
    (hstep : s.mainStep p = some s') : s'.Knows p s'.main := by
  obtain ⟨htold, hfailure, -⟩ := h
  simp only [Process.mainStep, hmain] at hstep
  split at hstep
  · rename_i hanswered
    cases hstep
    refine ⟨htold.tail fun hi => ?_, hfailure⟩
    rcases (Bool.or_eq_true _ _).mp hanswered with hack | hgone
    · exact (hs.workers i).acknowledged (List.ne_nil_of_mem (of_decide_eq_true hack))
    · exact halted_of_gone hs hi (htold i hi).1 (by simpa using hgone)
  · cases hstep

theorem Knows.joining {next : ℕ} {result : Except String Unit} (hmain : s.main = .joining next result)
    (h : s.Knows p (.joining next result)) (hstep : s.mainStep p = some s') : s'.Knows p s'.main := by
  obtain ⟨htold, hfailure, hexited⟩ := h
  simp only [Process.mainStep, hmain] at hstep
  split at hstep
  · split at hstep
    · rename_i hlast
      cases hstep
      refine ⟨htold, hfailure, fun i hi => ?_⟩
      rcases Nat.lt_succ_iff_lt_or_eq.mp hi with hlt | rfl
      · exact hexited i hlt
      · exact isExited_iff.mp hlast
    · cases hstep
  · rename_i hend
    cases hstep
    exact ⟨hfailure, fun i hi => hexited i (Nat.lt_of_lt_of_le hi (Nat.not_lt.mp hend))⟩

theorem Knows.mainStep (hfail : ∃ i < p.workers, ∃ error, p.build i = .error error) (hs : s.Sound p)
    (h : s.Knows p s.main) (hstep : s.mainStep p = some s') : s'.Knows p s'.main := by
  cases hmain : s.main with
  | spawning => exact (hmain ▸ h).spawning hs hmain hstep
  | refused error =>
    rw [hmain] at h
    simp only [Process.mainStep, hmain] at hstep
    cases hstep
    exact ⟨⟨h.1.count, h.1.origin, h.1.known⟩, h.2⟩
  | gathering left handles error => exact (hmain ▸ h).gathering hs hmain hstep
  | collecting left handles startupError => exact (hmain ▸ h).collecting hfail hs hmain hstep
  | installing handles => exact (hmain ▸ h).elim
  | serving handles => exact (hmain ▸ h).elim
  | shutting handles result => exact (hmain ▸ h).shutting hs hmain hstep
  | waiting i handles result => exact (hmain ▸ h).waiting hs hmain hstep
  | joining next result => exact (hmain ▸ h).joining hmain hstep
  | returned result =>
    simp only [Process.mainStep, hmain] at hstep
    cases hstep

end Main

theorem knows_run {p : Plan} (hfail : ∃ i < p.workers, ∃ error, p.build i = .error error) (threads : List Thread) :
    Knows p (run (step p) {} threads) (run (step p) {} threads).main := by
  have hinit : Knows p {} .spawning := by
    refine ⟨⟨?_, fun _ hm => absurd hm List.not_mem_nil, fun i hi => absurd hi (Nat.not_lt_zero i)⟩,
      fun i hi => absurd hi (Nat.not_lt_zero i)⟩
    exact (Nat.zero_add _).trans (Finset.sum_eq_zero fun _ _ => rfl)
  have hstep (s s' : Process) (t : Thread) (h : s.Sound p ∧ s.Knows p s.main) (hnext : s.step? p t = some s') :
      s'.Sound p ∧ s'.Knows p s'.main := by
    refine ⟨h.1.step? hnext, ?_⟩
    cases t with
    | main => exact h.2.mainStep hfail h.1 hnext
    | worker i =>
      obtain ⟨w, sent, done, cancelled, hmoved, rfl⟩ := workerStep_moved (h.1.workers i) hnext
      have hspawned := hmoved.spawned _ (.inl rfl)
      rw [Ne, h.1.spawned i] at hspawned
      exact h.2.moved (Nat.lt_of_lt_of_le (Nat.not_le.mp hspawned) h.1.few) hmoved
  exact (run_always (fun s : Process => s.Sound p ∧ s.Knows p s.main) (fun _ t h => step_always hstep h t)
    ⟨sound_init p, hinit⟩ threads).2

/-- A worker that cannot go on has ended, waits for itself, or serves. -/
theorem blocked_stage {p : Plan} {s : Process} {i : ℕ} (h : s.workerStep p i = none) :
    (s.workers i).stage = .unspawned ∨ (s.workers i).stage = .exited ∨ (s.workers i).stage.stalled = true ∨
      (s.workers i).stage = .running ∧ (s.workers i).queue = [] := by
  cases hstage : (s.workers i).stage with
  | unspawned => exact .inl rfl
  | exited => exact .inr (.inl rfl)
  | calling | awaiting => exact .inr (.inr (.inl rfl))
  | running =>
    simp only [workerStep, hstage] at h
    split at h
    · rename_i hempty
      exact .inr (.inr (.inr ⟨rfl, hempty⟩))
    · cases h
  | building | checking | entering =>
    simp only [workerStep, hstage] at h
    split at h <;> cases h
  | built | stopping | finished result | failing error | reporting error =>
    simp only [workerStep, hstage] at h
    cases h

theorem blocked_main {p : Plan} {s : Process} (h : s.mainStep p = none) :
    (∃ left handles error, s.main = .gathering (left + 1) handles error ∧ s.ready = []) ∨
    (∃ left handles startupError, s.main = .collecting (left + 1) handles startupError ∧ s.ready = []) ∨
    (∃ handles, s.main = .serving handles) ∨
    (∃ i handles result, s.main = .waiting i handles result ∧ (s.workers i).answered .main = false) ∨
    (∃ next result, s.main = .joining next result ∧ next < s.threads ∧ (s.workers next).stage.isExited = false) ∨
    ∃ result, s.main = .returned result := by
  unfold mainStep at h
  split at h <;> rename_i hmain
  · split at h
    · split at h <;> cases h
    · cases h
  · cases h
  · cases h
  · split at h
    · rename_i hready
      exact .inl ⟨_, _, _, hmain, hready⟩
    · cases h
    · cases h
  · cases h
  · cases h
  · split at h
    · rename_i hready
      exact .inr (.inl ⟨_, _, _, hmain, hready⟩)
    · cases h
    · cases h
  · split at h <;> cases h
  · exact .inr (.inr (.inl ⟨_, hmain⟩))
  · cases h
  · split at h <;> cases h
  · split at h
    · cases h
    · rename_i hanswered
      exact .inr (.inr (.inr (.inl ⟨_, _, _, hmain, Bool.eq_false_iff.mpr hanswered⟩)))
  · split at h
    · rename_i hnext
      split at h
      · cases h
      · rename_i hexited
        exact .inr (.inr (.inr (.inr (.inl ⟨_, _, hmain, hnext, Bool.eq_false_iff.mpr hexited⟩))))
    · cases h
  · exact .inr (.inr (.inr (.inr (.inr ⟨_, hmain⟩))))

theorem returned_of_stuck {p : Plan} {s : Process} (h : s.Knows p s.main) (hstuck : s.Stuck p)
    (hfree : ∀ i, (s.workers i).stage.stalled = false) : ∃ result, s.main = .returned result := by
  have hblocked (i : ℕ) : (s.workers i).stage = .unspawned ∨ (s.workers i).stage = .exited ∨
      (s.workers i).stage = .running ∧ (s.workers i).queue = [] := by
    rcases blocked_stage (hstuck (.worker i)) with hun | hexited | hstalled | hserves
    · exact .inl hun
    · exact .inr (.inl hexited)
    · rw [hfree i] at hstalled
      cases hstalled
    · exact .inr (.inr hserves)
  have hreported : s.outstanding p = 0 := by
    refine Finset.sum_eq_zero fun j _ => ?_
    rcases hblocked j with hstage | hstage | ⟨hstage, -⟩ <;> rw [hstage] <;> rfl
  -- whoever is awaited can answer
  have hanswers {left : ℕ} {handles : List ℕ} (hc : s.Collects p (left + 1) handles)
      (hready : s.ready = []) : False := by
    have hcount := hc.count
    rw [hready, List.length_nil] at hcount
    omega
  rcases blocked_main (hstuck .main) with ⟨left, handles, error, hmain, hready⟩ |
    ⟨left, handles, startupError, hmain, hready⟩ | ⟨handles, hmain⟩ | ⟨i, handles, result, hmain, hwaits⟩ |
    ⟨next, result, hmain, hnext, hrunning⟩ | hreturned
  · rw [hmain] at h
    exact (hanswers h.1 hready).elim
  · rw [hmain] at h
    exact (hanswers h.1 hready).elim
  · rw [hmain] at h
    exact h.elim
  · rw [hmain] at h
    obtain ⟨hnot, halive⟩ := (Bool.or_eq_false_iff).mp hwaits
    rcases h.2.2 with hqueue | hack | ⟨-, hgone⟩
    · rcases hblocked i with hstage | hstage | ⟨-, hempty⟩
      · rw [hstage] at halive
        cases halive
      · rw [hstage] at halive
        cases halive
      · rw [hempty] at hqueue
        exact absurd hqueue List.not_mem_nil
    · exact absurd hack (of_decide_eq_false hnot)
    · rw [hgone] at halive
      cases halive
  · rw [hmain] at h
    obtain ⟨-, hmem | hhalted⟩ := h.1 next hnext
    · exact absurd hmem List.not_mem_nil
    · rcases hblocked next with hstage | hstage | ⟨hstage, -⟩
      · rw [hstage] at hhalted
        cases hhalted
      · rw [hstage] at hrunning
        cases hrunning
      · rw [hstage] at hhalted
        cases hhalted
  · exact hreturned

def mainRank (N threads : ℕ) : Main → ℕ
  | .spawning => 4 * N + 7 + (N - threads)
  | .refused _ => N + 6 + 3 * threads
  | .gathering left handles _ => N + 5 + 3 * left + 2 * handles.length
  | .collecting left handles _ => N + 5 + 3 * left + 2 * handles.length
  | .installing handles => N + 4 + 2 * handles.length
  | .serving handles => N + 3 + 2 * handles.length
  | .shutting handles _ => N + 2 + 2 * handles.length
  | .waiting _ handles _ => N + 3 + 2 * handles.length
  | .joining next _ => 1 + (N - next)
  | .returned _ => 0

def measure (p : Plan) (s : Process) : ℕ :=
  mainRank p.workers s.threads s.main + ∑ j ∈ Finset.range p.workers, (s.workers j).stage.rank

theorem mainStep_measure {p : Plan} {s s' : Process} (hs : s.Sound p) (h : s.mainStep p = some s') :
    s'.measure p < s.measure p := by
  have hfew := hs.few
  unfold mainStep at h
  split at h <;> rename_i hmain
  · split at h
    · rename_i hnext
      split at h <;> cases h
      · have hsum := sum_update hnext (fun w => w.stage.rank) s.workers { s.workers s.threads with stage := .building }
        have hbefore : Stage.unspawned.rank = 12 := rfl
        have hafter : Stage.building.rank = 11 := rfl
        rw [(hs.spawned s.threads).mpr (Nat.le_refl _)] at hsum
        simp only [measure, setWorker, hmain, mainRank]
        dsimp only at hsum
        omega
      · simp only [measure, hmain, mainRank]
        omega
    · cases h
      simp only [measure, hmain, mainRank, List.length_nil]
      omega
  · cases h
    simp only [measure, hmain, mainRank, List.length_nil]
    omega
  · cases h
    simp only [measure, hmain, mainRank]
    omega
  · split at h <;> cases h <;> simp only [measure, hmain, mainRank, List.length_append, List.length_singleton] <;> omega
  · cases h
    simp only [measure, hmain, mainRank]
    omega
  · cases h
    simp only [measure, hmain, mainRank]
    omega
  · split at h
    · split at h <;> cases h
      simp only [measure, hmain, mainRank]
      omega
    · cases h
      simp only [measure, hmain, mainRank, List.length_append, List.length_singleton]
      omega
    · cases h
      simp only [measure, hmain, mainRank]
      omega
  · split at h <;> cases h <;> simp only [measure, hmain, mainRank] <;> omega
  · split at h
    · split at h <;> cases h
      simp only [measure, hmain, mainRank]
      omega
    · cases h
      simp only [measure, hmain, mainRank]
      omega
  · cases h
    simp only [measure, hmain, mainRank, List.length_nil]
    omega
  · split at h <;> rename_i hcall <;> cases h
    · rename_i i handles result _ _
      obtain rfl := shutdown_eq hcall
      have hsame := (Function.forall_update_iff s.workers (a := i)
        (b := { s.workers i with queue := (s.workers i).queue ++ [.main] })
        fun j w => w.stage.rank = (s.workers j).stage.rank).mpr ⟨rfl, fun _ _ => rfl⟩
      simp only [measure, setWorker, hmain, mainRank, hsame, List.length_cons]
      omega
    · simp only [measure, hmain, mainRank, List.length_cons]
      omega
  · split at h <;> cases h
    simp only [measure, hmain, mainRank]
    omega
  · split at h
    · split at h <;> cases h
      simp only [measure, hmain, mainRank]
      omega
    · cases h
      simp only [measure, hmain, mainRank]
      omega
  · cases h

theorem step?_measure {p : Plan} {s s' : Process} {t : Thread} (hs : s.Sound p) (h : s.step? p t = some s') :
    s'.measure p < s.measure p := by
  cases t with
  | main => exact mainStep_measure hs h
  | worker i =>
    obtain ⟨w, sent, done, cancelled, hmoved, rfl⟩ := workerStep_moved (hs.workers i) h
    have hspawned := hmoved.spawned _ (.inl rfl)
    rw [Ne, hs.spawned i] at hspawned
    have hsum := sum_update (Nat.lt_of_lt_of_le (Nat.not_le.mp hspawned) hs.few) (fun w => w.stage.rank) s.workers w
    have hlower := hmoved.lower
    unfold measure
    dsimp only at hsum ⊢
    omega

def Waits (s : Process) : Thread → ℕ → Prop
  | .main, i => ∃ handles result, s.main = .waiting i handles result
  | .worker j, i => j = i ∧ (s.workers j).stage = .awaiting

def Unentered (s : Process) (i : ℕ) : Prop :=
  (s.workers i).stage ∈ [Stage.built, .checking, .calling, .awaiting, .entering]

/-- A thread waits for an engine that has not been entered and that no other thread enters. -/
def SelfWait (s : Process) : Prop := ∃ i, s.Waits (.worker i) i ∧ s.Unentered i

/-- The process has come to its end: `run_engine` returned an error that a build or a spawn
    ended with, and every engine that was built is gone. -/
structure Ended (p : Plan) (s : Process) : Prop where
  returned : ∃ error, s.main = .returned (.error error) ∧ p.Origin error
  stopped : ∀ i < s.threads, p.build i = .ok () → (s.workers i).stage = .exited

def Enabled (p : Plan) (s : Process) (t : Thread) : Prop := s.step? p t ≠ none

theorem enabled_length {p : Plan} {s : Process} (hs : s.Sound p) (threads : List Thread)
    (h : Guarded (step p) (Enabled p) s threads) : threads.length ≤ s.measure p := by
  induction threads generalizing s with
  | nil => exact Nat.zero_le _
  | cons t threads ih =>
    obtain ⟨s', hnext⟩ := Option.ne_none_iff_exists'.mp h.1
    have hstep : s.step p t = s' := by rw [step, hnext]; rfl
    have hrest := ih (hs.step t) h.2
    have hlower := step?_measure hs hnext
    rw [hstep] at hrest
    rw [List.length_cons]
    omega

theorem ended_iff_guarded {p : Plan} {threads : List Thread}
    (hfail : ∃ i < p.workers, ∃ error, p.build i = .error error) (hstuck : Stuck p (run (step p) {} threads)) :
    Ended p (run (step p) {} threads) ↔ Guarded (step p) Unflagged {} threads := by
  have hs := sound_run p threads
  have hknows := knows_run hfail threads
  rw [guarded_iff_unstalled]
  constructor
  · intro hended i
    rw [← Bool.not_eq_true]
    intro hstalled
    have hspawned : i < (run (step p) {} threads).threads := by
      by_contra hle
      rw [(hs.spawned i).mpr (Nat.not_lt.mp hle)] at hstalled
      cases hstalled
    have hbuild : p.build i = .ok () := by
      have hfits := (hs.workers i).fits
      cases hstage : ((run (step p) {} threads).workers i).stage <;> rw [hstage] at hstalled hfits <;>
        first | exact hfits | cases hstalled
    rw [hended.stopped i hspawned hbuild] at hstalled
    cases hstalled
  · intro hfree
    obtain ⟨result, hmain⟩ := returned_of_stuck hknows hstuck hfree
    rw [hmain] at hknows
    obtain ⟨⟨error, rfl, horigin⟩, hexited⟩ := hknows
    exact ⟨⟨error, hmain, horigin⟩, fun i hi _ => hexited i hi⟩

end Process

/-- For every number of workers, all outcomes of their builds and every interleaving: as long as no
    worker finds the flag set after its build, no thread waits for an engine that only itself can
    enter; every run comes to a state where no thread can go on; and if a build fails, the process
    is then at its end exactly when no worker found the flag set. -/
theorem failed_start_ends_iff (p : Plan) (threads : List Thread) :
    (Guarded (Process.step p) Process.Unflagged {} threads →
      ∀ front, front <+: threads → ¬ (run (Process.step p) {} front).SelfWait) ∧
    (Guarded (Process.step p) (Process.Enabled p) {} threads → threads.length ≤ 17 * p.workers + 7) ∧
    ((run (Process.step p) {} threads).Stuck p → (∃ i < p.workers, ∃ error, p.build i = .error error) →
      ((run (Process.step p) {} threads).Ended p ↔ Guarded (Process.step p) Process.Unflagged {} threads)) := by
  refine ⟨fun h front hfront => ?_, fun h => ?_, fun hstuck hfail => Process.ended_iff_guarded hfail hstuck⟩
  · obtain ⟨back, rfl⟩ := hfront
    have hfree := (Process.guarded_iff_unstalled p front).mp (guarded_append.mp h).1
    rintro ⟨i, ⟨-, hwaits⟩, -⟩
    have hstalled := hfree i
    rw [hwaits] at hstalled
    cases hstalled
  · have hlength := Process.enabled_length (Process.sound_init p) threads h
    have hranks : ∑ _j ∈ Finset.range p.workers, Stage.unspawned.rank = p.workers * 12 := by
      simp [Stage.rank]
    simp only [Process.measure, Process.mainRank, hranks] at hlength
    omega

/-- The second of two workers does not get its engine, and the first then looks at the flag. -/
def failedBuild : Plan where
  workers := 2
  spawn _ := .ok ()
  build i := if i = 1 then .error "address in use" else .ok ()
  startup _ := .ok ()
  handler := .ok ()

def lateLook : List Thread :=
  [.main, .main, .worker 1, .worker 1, .worker 0, .worker 0, .worker 0, .worker 0, .worker 1, .main, .main, .main,
    .main, .main]

theorem late_look_deadlocks :
    (run (Process.step failedBuild) {} lateLook).SelfWait ∧
      (run (Process.step failedBuild) {} lateLook).Stuck failedBuild ∧
      ¬ (run (Process.step failedBuild) {} lateLook).Ended failedBuild := by
  have hstage : ((run (Process.step failedBuild) {} lateLook).workers 0).stage = .awaiting := rfl
  have hmain : (run (Process.step failedBuild) {} lateLook).main = .waiting 0 [] (.error "address in use") := rfl
  refine ⟨⟨0, ⟨rfl, hstage⟩, ?_⟩, fun t => ?_, fun hended => ?_⟩
  · rw [Process.Unentered, hstage]
    simp
  · rcases t with _ | _ | _ | i <;> rfl
  · obtain ⟨error, hreturned, -⟩ := hended.returned
    rw [hmain] at hreturned
    cases hreturned

end Snolc.Cli
