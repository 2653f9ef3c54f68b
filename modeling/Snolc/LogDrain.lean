import Snolc.LogWorker

set_option autoImplicit false

namespace Snolc.Logging
open GuardedRuns LossyQueue PartialPosts

def Writer.pressed : Writer → Bool
  | .refused _ | .counting _ => true
  | _ => false

structure Unpressed (s : FileLogger) : Prop where
  kept : of .lost s.queue.taken = []
  calm : ∀ writer ∈ s.writers, writer.pressed = false

/-- The records that were written by a thread and not yet taken by the worker fit into the queue. -/
def Fits (limits : Limits) (s : FileLogger) (_ : Move) : Prop :=
  s.called.length ≤ (of .handed s.queue.taken).length + limits.capacity

instance decidableFits (limits : Limits) (s : FileLogger) (move : Move) : Decidable (Fits limits s move) :=
  inferInstanceAs (Decidable (s.called.length ≤ (of .handed s.queue.taken).length + limits.capacity))

section Room
variable {limits : Limits} {d : Disk} {s : FileLogger}

theorem Unpressed.finds_room (h : Unpressed s) (hkept : Kept limits d s) {move : Move} (hfits : Fits limits s move)
    {writer : Writer} (hwriter : writer ∈ s.writers) (hbusy : writer.busy = true) :
    s.queue.items.length < limits.capacity := by
  have hcount : 0 < s.writers.countP Writer.busy := List.countP_pos_iff.mpr ⟨writer, hwriter, hbusy⟩
  have hfates := hkept.fates
  have htotal := hkept.total
  rw [h.kept, List.length_nil] at hfates
  unfold Fits at hfits
  omega

theorem Unpressed.set (h : Unpressed s) {thread : ℕ} {next : Writer} (hnext : next.pressed = false) :
    ∀ writer ∈ s.writers.set thread next, writer.pressed = false := by
  intro writer hwriter
  rcases List.mem_or_eq_of_mem_set hwriter with hold | rfl
  · exact h.calm writer hold
  · exact hnext

theorem Unpressed.enqueue (h : Unpressed s) (hkept : Kept limits d s) {move : Move} (hfits : Fits limits s move)
    {thread : ℕ} {writer next : Writer} (hwriter : s.writers[thread]? = some writer) {queue : RecordQueue}
    {lost : UInt64} (henqueue : enqueue limits.capacity thread s.queue s.lost writer = (next, queue, lost)) :
    Unpressed { s with writers := s.writers.set thread next, queue := queue, lost := lost } := by
  have hmem := List.mem_of_getElem? hwriter
  have hcalm := h.calm writer hmem
  cases writer with
  | idle =>
    cases henqueue
    exact ⟨h.kept, h.set rfl⟩
  | pushing record =>
    rw [Logging.enqueue] at henqueue
    split at henqueue
    · rename_i pushed hpush
      cases henqueue
      obtain ⟨-, rfl⟩ := Queue.push_some hpush
      exact ⟨h.kept, h.set rfl⟩
    · rename_i hpush
      have hroom := h.finds_room hkept hfits hmem rfl
      have hfull := Queue.push_none hpush
      omega
  | refused | counting => cases hcalm

theorem Unpressed.work (h : Unpressed s) {faults : Faults} {next : FileLogger}
    (hwork : runWorker limits faults s = some next) : Unpressed next := by
  unfold runWorker at hwork
  split at hwork
  · split at hwork
    · rename_i record queue hpop
      cases hwork
      obtain ⟨items, -, rfl⟩ := Queue.pop_some hpop
      refine ⟨?_, h.calm⟩
      have hkept := h.kept
      simp [of_single_ne (show Fate.handed ≠ Fate.lost by decide), hkept]
    · cases hwork
      exact ⟨h.kept, h.calm⟩
  · cases hwork
    exact ⟨h.kept, h.calm⟩
  · cases hwork
    exact ⟨h.kept, h.calm⟩
  · cases hwork
    exact ⟨h.kept, h.calm⟩
  · cases hwork
    exact ⟨h.kept, h.calm⟩
  · cases hwork

theorem Unpressed.step (h : Unpressed s) (hkept : Kept limits d s) {move : Move} (hfits : Fits limits s move) :
    Yields (step limits s move) Unpressed := by
  intro next hnext
  cases move with
  | write thread record =>
    rw [Logging.step] at hnext
    split at hnext
    · cases hnext
    · split at hnext
      · cases hnext
        exact ⟨h.kept, h.set rfl⟩
      · cases hnext
  | enqueue thread =>
    rw [Logging.step] at hnext
    split at hnext
    · rename_i writer hwriter
      cases hnext
      exact h.enqueue hkept hfits hwriter rfl
    · cases hnext
  | work faults => exact h.work hnext
  | drop =>
    rw [Logging.step] at hnext
    split at hnext
    · cases hnext
    · cases hnext
      exact ⟨h.kept, h.calm⟩

end Room

/-- A run in which the records not yet taken by the worker always fit into the queue loses none, and the worker
hands them to `append_record` in the order in which they were pushed. -/
theorem logger_keeps_all {limits : Limits} {directory : Option Bool} {faults : Faults} {spawned : Bool} {threads : ℕ}
    {d : Disk} {s₀ s : FileLogger} (hstart : start limits directory faults spawned threads d = .ok s₀)
    {moves : List Move} (hfits : GuardedM (step limits) (Fits limits) s₀ moves)
    (hrun : moves.foldlM (step limits) s₀ = some s) :
    s.appends.map Prod.snd ++ s.worker.hand ++ s.queue.items = s.queue.pushed.map Prod.snd ∧
      of .lost s.queue.taken = [] ∧ s.lost = 0 := by
  obtain ⟨hvalid, hkept⟩ := start_kept hstart
  have hcalm : Unpressed s₀ := by
    unfold start at hstart
    split at hstart
    · cases hstart
    · split at hstart
      · cases hstart
      · split at hstart
        · cases hstart
          refine ⟨rfl, fun writer hwriter => ?_⟩
          rw [List.eq_of_mem_replicate hwriter]
          rfl
        · cases hstart
  obtain ⟨hend, hunpressed⟩ : Kept limits s₀.disk s ∧ Unpressed s :=
    yields_guarded (fun s => Kept limits s₀.disk s ∧ Unpressed s)
      (fun s move hs hguard next hnext => ⟨hs.1.step move next hnext, hs.2.step hs.1 hguard next hnext⟩)
      ⟨hkept, hcalm⟩ hfits s hrun
  have hall : of .handed s.queue.taken = s.queue.taken.map Prod.snd := by
    refine of_all fun e he => ?_
    obtain ⟨fate, record⟩ := e
    cases fate with
    | handed => rfl
    | lost =>
      have hlost := mem_of he
      rw [hunpressed.kept] at hlost
      cases hlost
  refine ⟨by rw [hend.appended, hall, hend.books.order], hunpressed.kept, ?_⟩
  have hcounting : s.writers.countP Writer.isCounting = 0 := by
    rw [List.countP_eq_zero]
    intro writer hwriter hcount
    have hpressed := hunpressed.calm writer hwriter
    cases writer with
    | counting => cases hpressed
    | idle | pushing | refused => cases hcount
  have hcounted := hend.counted
  rw [hcounting, hunpressed.kept, List.length_nil, Nat.add_zero, Nat.mod_eq_of_lt s.lost.toNat_lt] at hcounted
  exact UInt64.toNat_inj.mp hcounted

theorem sample_logger_keeps_all :
    ∃ s, ([.write 0 sampleRecord, .enqueue 0, .work noFaults] : List Move).foldlM (step sampleLimits) sampleLogger =
      some s ∧ s.appends.map Prod.snd ++ s.worker.hand ++ s.queue.items = s.queue.pushed.map Prod.snd ∧
      of .lost s.queue.taken = [] ∧ s.lost = 0 := by
  have hstart : start sampleLimits (some true) noFaults true 2 sampleDisk = .ok sampleLogger := rfl
  obtain ⟨s, hrun⟩ : ∃ s, ([.write 0 sampleRecord, .enqueue 0, .work noFaults] : List Move).foldlM
      (step sampleLimits) sampleLogger = some s := ⟨_, rfl⟩
  exact ⟨s, hrun, logger_keeps_all hstart (by decide +kernel) hrun⟩

def patience (s : FileLogger) : ℕ :=
  let waiting := s.queue.items.length
  match s.worker with
  | .popping _ => 2 * waiting + 3
  | .appending _ | .parked => 2 * waiting + 4
  | .loading _ => if waiting = 0 then 2 else 2 * waiting + 6
  | .checking _ => if waiting = 0 then 1 else 2 * waiting + 5
  | .exited => 0

/-- The records the worker was handed, and those it will be. -/
def promised (s : FileLogger) : List (List UInt8) := of .handed s.queue.taken ++ s.queue.items

theorem work_progress (limits : Limits) {s : FileLogger} (hstop : s.stopping = true) (hworker : s.worker ≠ .exited)
    (faults : Faults) : ∃ next, runWorker limits faults s = some next ∧ next.stopping = true ∧
      patience next < patience s ∧ promised next = promised s ∧ of .lost next.queue.taken = of .lost s.queue.taken := by
  unfold runWorker patience
  rcases hcase : s.worker with wrote | record | wrote | wrote | - | -
  · cases hitems : s.queue.items with
    | nil =>
      have hpop : s.queue.pop .handed = none := by rw [Queue.pop, hitems]
      rw [hpop]
      exact ⟨_, rfl, hstop, by simp [hitems], rfl, rfl⟩
    | cons first items =>
      have hpop : s.queue.pop .handed =
          some (first, ⟨items, s.queue.pushed, s.queue.taken ++ [(.handed, first)]⟩) := by
        rw [Queue.pop, hitems]
      rw [hpop]
      refine ⟨_, rfl, hstop, by simp; omega, ?_, ?_⟩
      · simp [promised, hitems]
      · simp [of_single_ne (show Fate.handed ≠ Fate.lost by decide)]
  · exact ⟨_, rfl, hstop, by simp, rfl, rfl⟩
  · refine ⟨_, rfl, hstop, ?_, rfl, rfl⟩
    rw [hstop, if_pos rfl]
    dsimp only
    split_ifs <;> omega
  · refine ⟨_, rfl, hstop, ?_, rfl, rfl⟩
    cases hitems : s.queue.items with
    | nil => simp
    | cons first items => cases wrote <;> simp [rest]
  · exact ⟨_, rfl, hstop, by simp, rfl, rfl⟩
  · exact absurd hcase hworker

theorem patience_le (s : FileLogger) : patience s ≤ 2 * s.queue.items.length + 6 := by
  unfold patience
  dsimp only
  split
  · omega
  · omega
  · omega
  · split <;> omega
  · split <;> omega
  · omega

theorem drain (limits : Limits) {s : FileLogger} (hstop : s.stopping = true) (turns : List Faults)
    (hturns : patience s ≤ turns.length) :
    ∃ front s', front <+: turns ∧ (front.map Move.work).foldlM (step limits) s = some s' ∧ s'.worker = .exited ∧
      promised s' = promised s ∧ of .lost s'.queue.taken = of .lost s.queue.taken := by
  induction turns generalizing s with
  | nil =>
    refine ⟨[], s, List.nil_prefix, rfl, ?_, rfl, rfl⟩
    by_contra hworker
    obtain ⟨_, -, -, hless, -⟩ := work_progress limits hstop hworker noFaults
    rw [List.length_nil] at hturns
    omega
  | cons turn turns ih =>
    by_cases hworker : s.worker = .exited
    · exact ⟨[], s, List.nil_prefix, rfl, hworker, rfl, rfl⟩
    · obtain ⟨next, hnext, hstop', hless, hpromised, hlost⟩ := work_progress limits hstop hworker turn
      rw [List.length_cons] at hturns
      obtain ⟨front, s', hfront, hrun, hexit, hpromised', hlost'⟩ := ih hstop' (by omega)
      refine ⟨turn :: front, s', (List.prefix_cons_inj turn).mpr hfront, ?_, hexit, hpromised'.trans hpromised,
        hlost'.trans hlost⟩
      rw [List.map_cons, List.foldlM_cons]
      change (runWorker limits turn s).bind _ = _
      rw [hnext]
      exact hrun

/-- Once the logger is being dropped its worker leaves after finitely many actions of its own, whatever fails on the
disk, and by then it has taken out every record that was waiting, in their order, and lost none of them. -/
theorem logger_drains {limits : Limits} {directory : Option Bool} {faults : Faults} {spawned : Bool} {threads : ℕ}
    {d : Disk} {s₀ s : FileLogger} (hstart : start limits directory faults spawned threads d = .ok s₀)
    {moves : List Move} (hrun : moves.foldlM (step limits) s₀ = some s) (hstop : s.stopping = true)
    (turns : List Faults) (hturns : 2 * s.queue.items.length + 6 ≤ turns.length) :
    ∃ front s', front <+: turns ∧ (front.map Move.work).foldlM (step limits) s = some s' ∧ s'.worker = .exited ∧
      s'.appends.map Prod.snd = of .handed s.queue.taken ++ s.queue.items ∧
      of .lost s'.queue.taken = of .lost s.queue.taken := by
  have hkept := run_kept (start_kept hstart).2 hrun
  obtain ⟨front, s', hfront, hdrain, hexit, hpromised, hlost⟩ :=
    drain limits hstop turns ((patience_le s).trans hturns)
  have hkept' := run_kept hkept hdrain
  have happended : s'.appends.map Prod.snd = of .handed s'.queue.taken := by
    have h := hkept'.appended
    rw [hexit] at h
    simpa [Worker.hand] using h
  refine ⟨front, s', hfront, hdrain, hexit, ?_, hlost⟩
  have hitems := (hkept'.exited hexit).2
  rw [promised, hitems, List.append_nil] at hpromised
  rw [happended, hpromised]
  rfl

def droppedMoves : List Move := [.write 0 sampleRecord, .enqueue 0, .drop]

theorem sample_logger_drains :
    ∃ s s' : FileLogger, droppedMoves.foldlM (step sampleLimits) sampleLogger = some s ∧
      s'.worker = .exited ∧ s'.appends.map Prod.snd = [[97, newline]] ∧ of .lost s'.queue.taken = [] := by
  obtain ⟨s, hrun, hstop, hitems, htaken⟩ : ∃ s, droppedMoves.foldlM (step sampleLimits) sampleLogger = some s ∧
      s.stopping = true ∧ s.queue.items = [[97, newline]] ∧ s.queue.taken = [] := ⟨_, rfl, rfl, rfl, rfl⟩
  have hstart : start sampleLimits (some true) noFaults true 2 sampleDisk = .ok sampleLogger := rfl
  obtain ⟨-, s', -, -, hexit, happends, hlost⟩ :=
    logger_drains hstart hrun hstop (List.replicate 8 noFaults) (by rw [hitems]; decide)
  refine ⟨s, s', hrun, hexit, ?_, ?_⟩
  · rw [happends, htaken, hitems]
    rfl
  · rw [hlost, htaken]
    rfl

end Snolc.Logging
