import Snolc.CheckedSlice
import Snolc.SdkPump

set_option autoImplicit false

/-!
# The pump in machine words

A debug build stops at a sum past the top of a word, a release build goes on with what
is left of it modulo the word; both stop at a range that does not lie in its buffer.
-/
namespace Snolc.Sdk
open PollIo GuardedRuns CheckedSlice

/-- What the machine stops at; `unfinished` is a loop that has no turns left. -/
inductive Abort where
  | overflow
  | underflow
  | range
  | unfinished
  deriving DecidableEq, Repr

inductive Build where
  | debug
  | release
  deriving DecidableEq, Repr

namespace Build

def add (build : Build) (a b : ℕ) : Except Abort ℕ :=
  if a + b ≤ wordMax then .ok (a + b)
  else
    match build with
    | debug => .error .overflow
    | release => .ok ((a + b) % 2 ^ 64)

def sub (build : Build) (a b : ℕ) : Except Abort ℕ :=
  if b ≤ a then .ok (a - b)
  else
    match build with
    | debug => .error .underflow
    | release => .ok (a + 2 ^ 64 - b)

theorem add_of_le {build : Build} {a b : ℕ} (h : a + b ≤ wordMax) : build.add a b = pure (a + b) := if_pos h

theorem sub_of_le {build : Build} {a b : ℕ} (h : b ≤ a) : build.sub a b = pure (a - b) := if_pos h

end Build

def range (bytes : List UInt8) (i j : ℕ) : Except Abort (List UInt8) := (slice bytes i j).elim (.error .range) .ok

namespace Turn
variable {S D : Type} [TracedIo S] [ByteIo D]

def offerOn (build : Build) (t : Turn S D) : Except Abort (List UInt8) := do
  let stop ← build.add t.pump.start t.budget
  range t.pump.buffer t.pump.start (min t.pump.stop stop)

def writeTurnOn (build : Build) (t : Turn S D) : Except Abort (Option PumpPoll × Turn S D) := do
  let offer ← t.offerOn build
  let (answer, destination) := AsyncIo.pollWrite t.destination offer
  let t := { t with destination }.called (.write offer answer)
  match answer with
  | .ready (.ok 0) => return (some (.ready (.error .writeZero)), t)
  | .ready (.ok written) =>
    let start ← build.add t.pump.start written
    let total ← build.add t.report.written written
    let budget ← build.sub t.budget written
    return (none, { t with
      pump := if start = t.pump.stop then { t.pump with start := 0, stop := 0 } else { t.pump with start }
      report := { t.report with written := total }
      budget })
  | .ready (.error e) => return (some (.ready (.error (.io e))), t)
  | .pending => return (some (readyOrPending t.report), t)

def readTurnOn (build : Build) (t : Turn S D) : Except Abort (Option PumpPoll × Turn S D) := do
  let limit := min t.pump.buffer.length t.budget
  let _ ← range t.pump.buffer 0 limit
  let (answer, source) := AsyncIo.pollRead t.source limit
  let t := { t with source }.called (.read limit answer)
  match answer with
  | .ready (.ok []) => return (none, { t with pump := { t.pump with sourceEof := true } })
  | .ready (.ok bytes) =>
    let total ← build.add t.report.read bytes.length
    return (none, { t with pump := t.pump.filled bytes, report := { t.report with read := total } })
  | .ready (.error e) => return (some (.ready (.error (.io e))), t)
  | .pending => return (some (readyOrPending t.report), t)

def stepOn (build : Build) (t : Turn S D) : Except Abort (Option PumpPoll × Turn S D) :=
  if t.pump.start < t.pump.stop then t.writeTurnOn build
  else if t.pump.sourceEof then .ok t.shutdownTurn
  else t.readTurnOn build

def runOn (build : Build) : ℕ → Turn S D → Except Abort (PumpPoll × Turn S D)
  | fuel, t =>
    if t.budget = 0 then .ok (.ready (.ok t.report), t)
    else
      match fuel with
      | 0 => .error .unfinished
      | fuel + 1 =>
        match t.stepOn build with
        | .error e => .error e
        | .ok (some result, t) => .ok (result, t)
        | .ok (none, t) => runOn build fuel t

end Turn

section Polls
variable {S D : Type} [TracedIo S] [ByteIo D]

def Pump.pollOn (build : Build) (pump : Pump) (source : S) (destination : D) (maxWork : ℕ) :
    Except Abort (PumpPoll × Turn S D) :=
  Turn.runOn build (3 * maxWork + 2) ⟨pump, source, destination, {}, maxWork, []⟩

def Pump.pendingBytesOn (build : Build) (p : Pump) : Except Abort ℕ := build.sub p.stop p.start

def Pumping.pollOn (build : Build) (s : Pumping S D) (maxWork : ℕ) : Except Abort (Pumping S D) := do
  let (result, t) ← s.pump.pollOn build s.source s.destination maxWork
  return {
    pump := t.pump
    source := t.source
    destination := t.destination
    calls := s.calls ++ t.calls
    read := s.read + (reported result).read
    written := s.written + (reported result).written
    failed := s.failed || isError result }

def Pumping.pollsOn (build : Build) (s : Pumping S D) (works : List ℕ) : Except Abort (Pumping S D) :=
  works.foldlM (Pumping.pollOn build) s

/-- The end of the widest write of a poll is a word. -/
def Pumping.Fits (s : Pumping S D) (maxWork : ℕ) : Prop := s.pump.start + maxWork ≤ wordMax

instance decidableFits (s : Pumping S D) (maxWork : ℕ) : Decidable (s.Fits maxWork) :=
  inferInstanceAs (Decidable (_ ≤ _))

end Polls

section Agreement
variable {S D : Type} [TracedIo S] [ByteIo D]
variable {build : Build} {capacity maxWork : ℕ} {r w : List UInt8} {prior : List PumpCall} {t : Turn S D}

def Turn.Fits (t : Turn S D) : Prop := t.pump.start + t.budget ≤ wordMax

omit [TracedIo S] [ByteIo D] in
theorem Turn.Fits.offerOn (hfits : t.Fits) (h : t.pump.WellFormed capacity) : t.offerOn build = pure t.offer := by
  have hsize := h.size
  have hstart := h.start
  have hstop := h.stop
  rw [Turn.offerOn, Build.add_of_le hfits]
  change range _ _ _ = _
  rw [range, slice_of_le (by omega) (by omega)]
  rfl

theorem Working.writeTurnOn (h : Working capacity r w prior maxWork t) (hmax : maxWork ≤ wordMax) (hfits : t.Fits) :
    t.writeTurnOn build = .ok t.writeTurn ∧ t.writeTurn.2.Fits := by
  have hbound := TracedIo.write_bound t.destination t.offer
  have hformed := h.faithful.formed
  have hbudget := h.budget
  have hfits' : t.pump.start + t.budget ≤ wordMax := hfits
  rw [Turn.writeTurnOn, hfits.offerOn hformed, Turn.writeTurn, pure_bind]
  rcases hans : AsyncIo.pollWrite t.destination t.offer with ⟨(e | n) | _, destination⟩ <;>
    rw [hans] at hbound
  · exact ⟨rfl, hfits⟩
  · cases n with
    | zero => exact ⟨rfl, hfits⟩
    | succ n =>
      have hle : n + 1 ≤ t.budget := by
        rw [writeCount_ok, offer_eq hformed, List.length_take] at hbound
        omega
      have hstart : build.add t.pump.start (n + 1) = pure (t.pump.start + (n + 1)) := Build.add_of_le (by omega)
      have htotal : build.add t.report.written (n + 1) = pure (t.report.written + (n + 1)) :=
        Build.add_of_le (by omega)
      refine ⟨?_, ?_⟩
      · simp only [Turn.called, hstart, htotal, Build.sub_of_le hle, pure_bind]
        rfl
      · change (t.pump.wrote (n + 1)).start + (t.budget - (n + 1)) ≤ wordMax
        rw [Pump.wrote]
        split <;> dsimp only <;> omega
  · exact ⟨rfl, hfits⟩

theorem Working.readTurnOn (h : Working capacity r w prior maxWork t) (hmax : maxWork ≤ wordMax) (hfits : t.Fits)
    (hp : ¬ t.pump.start < t.pump.stop) (heof : t.pump.sourceEof = false) :
    t.readTurnOn build = .ok t.readTurn ∧ t.readTurn.2.Fits := by
  have hnext := (h.readTurn hp heof).working
  have hrange : range t.pump.buffer 0 (min t.pump.buffer.length t.budget) =
      pure (t.pump.buffer.take (min t.pump.buffer.length t.budget)) := by
    rw [range, slice_start (Nat.min_le_left _ _)]
    rfl
  rw [Turn.readTurnOn, hrange, pure_bind]
  rw [Turn.readTurn] at hnext ⊢
  rcases hans : AsyncIo.pollRead t.source (min t.pump.buffer.length t.budget) with ⟨(e | bytes) | _, source⟩ <;>
    rw [hans] at hnext
  · exact ⟨rfl, hfits⟩
  · cases bytes with
    | nil => exact ⟨rfl, hfits⟩
    | cons first bytes =>
      -- the poll has read no more than its budget, this read included
      have hwithin : t.report.read + (bytes.length + 1) ≤ maxWork := hnext.within
      have htotal : build.add t.report.read (first :: bytes).length =
          pure (t.report.read + (first :: bytes).length) := Build.add_of_le (Nat.le_trans hwithin hmax)
      refine ⟨?_, hfits⟩
      simp only [Turn.called, htotal, pure_bind]
      rfl
  · exact ⟨rfl, hfits⟩

theorem Working.stepOn (h : Working capacity r w prior maxWork t) (hmax : maxWork ≤ wordMax) (hfits : t.Fits) :
    t.stepOn build = .ok t.step ∧ t.step.2.Fits := by
  rw [Turn.stepOn, Turn.step]
  split
  · exact h.writeTurnOn hmax hfits
  · next hp =>
    split
    · refine ⟨rfl, ?_⟩
      rw [Turn.shutdownTurn]
      split
      · exact hfits
      · rcases ByteIo.pollShutdownWrite t.destination with ⟨(e | ⟨⟩) | _, destination⟩ <;> exact hfits
    · next heof => exact h.readTurnOn hmax hfits hp (Bool.eq_false_iff.mpr heof)

theorem Turn.runOn_spent {fuel : ℕ} (hzero : t.budget = 0) {result : PumpPoll × Turn S D}
    (hrun : t.run fuel = some result) : t.runOn build fuel = .ok result := by
  cases fuel <;>
  · rw [Turn.run, if_pos hzero] at hrun
    rw [Turn.runOn, if_pos hzero, Option.some.inj hrun]

theorem Working.runOn (fuel : ℕ) (h : Working capacity r w prior maxWork t) (hmax : maxWork ≤ wordMax) (hfits : t.Fits)
    {result : PumpPoll × Turn S D} (hrun : t.run fuel = some result) : t.runOn build fuel = .ok result := by
  induction fuel generalizing t with
  | zero =>
    by_cases hzero : t.budget = 0
    · exact Turn.runOn_spent hzero hrun
    · rw [Turn.run, if_neg hzero] at hrun
      cases hrun
  | succ fuel ih =>
    by_cases hzero : t.budget = 0
    · exact Turn.runOn_spent hzero hrun
    · obtain ⟨hmachine, hnext⟩ : t.stepOn build = .ok t.step ∧ t.step.2.Fits := h.stepOn hmax hfits
      have hworking := h.step.working
      rw [Turn.run, if_neg hzero] at hrun
      rw [Turn.runOn, if_neg hzero, hmachine]
      rcases hstep : t.step with ⟨_ | ended, t'⟩ <;> rw [hstep] at hrun hnext hworking
      · exact ih hworking hnext hrun
      · exact congrArg Except.ok (Option.some.inj hrun)

def Build.fault : Build → Abort
  | debug => .overflow
  | release => .range

omit [TracedIo S] [ByteIo D] in
/-- What a release build leaves of that sum stands before the start of the write. -/
theorem Turn.offerOn_fails (hformed : t.pump.WellFormed capacity) (hpast : wordMax < t.pump.start + t.budget)
    (hbudget : t.budget ≤ wordMax) (hcapacity : capacity ≤ wordMax) : t.offerOn build = .error build.fault := by
  have hstart := hformed.start
  have hstop := hformed.stop
  have hword : wordMax = 2 ^ 64 - 1 := rfl
  rw [Turn.offerOn]
  unfold Build.add
  rw [if_neg (by omega)]
  cases build with
  | debug => rfl
  | release =>
    have hleft : (t.pump.start + t.budget) % 2 ^ 64 < t.pump.start := by omega
    change range _ _ _ = _
    rw [range, slice, if_neg (by omega)]
    rfl

theorem Pump.WellFormed.pollOn_fails {pump : Pump} (h : pump.WellFormed capacity) (source : S) (destination : D)
    (hpast : wordMax < pump.start + maxWork) (hmax : maxWork ≤ wordMax) (hcapacity : capacity ≤ wordMax) :
    pump.pollOn build source destination maxWork = .error build.fault := by
  have hstart := h.start
  have hstop := h.stop
  -- there is a budget, and something is left to write
  have hbudget : maxWork ≠ 0 := by omega
  have hheld : pump.start < pump.stop := by
    by_contra hidle
    have hzero := h.reset (by omega)
    omega
  have hoffer : Turn.offerOn build (⟨pump, source, destination, {}, maxWork, []⟩ : Turn S D) = .error build.fault :=
    Turn.offerOn_fails h hpast hmax hcapacity
  rw [Pump.pollOn, Turn.runOn, if_neg hbudget]
  rw [Turn.stepOn, if_pos hheld, Turn.writeTurnOn, hoffer]
  rfl

theorem Faithful.pollOn {pump : Pump} {source : S} {destination : D} {calls : List PumpCall}
    (h : Faithful capacity r w pump source destination calls) (hmax : maxWork ≤ wordMax)
    (hfits : pump.start + maxWork ≤ wordMax) {result : PumpPoll × Turn S D}
    (hpoll : pump.poll source destination maxWork = some result) :
    pump.pollOn build source destination maxWork = .ok result :=
  (h.working maxWork).runOn _ hmax hfits hpoll

theorem Pumping.Sound.pollOn {s : Pumping S D} (h : s.Sound capacity r w) (hmax : maxWork ≤ wordMax)
    (hcapacity : capacity ≤ wordMax) : ∃ s', s.poll maxWork = some s' ∧ s'.Sound capacity r w ∧
      (s.Fits maxWork → s.pollOn build maxWork = .ok s') ∧
      (¬ s.Fits maxWork → ∃ e, s.pollOn build maxWork = .error e) := by
  obtain ⟨s', hpoll, hsound, -⟩ := h.poll maxWork
  refine ⟨s', hpoll, hsound, fun hfits => ?_, fun hpast => ⟨build.fault, ?_⟩⟩
  · rw [Pumping.poll] at hpoll
    obtain ⟨result, hturn, hafter⟩ := Option.bind_eq_some_iff.mp hpoll
    rw [Pumping.pollOn, h.faithful.pollOn hmax hfits hturn]
    exact congrArg Except.ok (Option.some.inj hafter)
  · rw [Pumping.pollOn, h.faithful.formed.pollOn_fails _ _ (Nat.lt_of_not_le hpast) hmax hcapacity]
    rfl

theorem Pumping.Sound.pollsOn {s : Pumping S D} (h : s.Sound capacity r w) (build : Build) {works : List ℕ}
    (hworks : ∀ maxWork ∈ works, maxWork ≤ wordMax) (hcapacity : capacity ≤ wordMax) :
    ((∃ s', s.pollsOn build works = .ok s') ↔ GuardedM Pumping.poll Pumping.Fits s works) ∧
      ∀ s', s.pollsOn build works = .ok s' → s.polls works = some s' ∧ s'.Sound capacity r w := by
  have hstep (s : Pumping S D) (maxWork : ℕ) (hsound : s.Sound capacity r w) (hmax : maxWork ≤ wordMax) :
      ∃ s', s.poll maxWork = some s' ∧ s'.Sound capacity r w ∧ (s.Fits maxWork → s.pollOn build maxWork = .ok s') ∧
        (¬ s.Fits maxWork → ∃ e, s.pollOn build maxWork = .error e) := hsound.pollOn hmax hcapacity
  exact foldlM_ok_iff (Pumping.Sound capacity r w) hstep h hworks

theorem pollsOn_snoc (build : Build) (s : Pumping S D) (works : List ℕ) (maxWork : ℕ) :
    s.pollsOn build (works ++ [maxWork]) = s.pollsOn build works >>= fun s' => s'.pollOn build maxWork := by
  rw [Pumping.pollsOn, List.foldlM_append]
  exact bind_congr fun s' => bind_pure _

/-- Polls stay within the words and the buffer exactly as long as each could write to its budget's end. -/
theorem polls_within_words_iff {S D : Type} [TracedIo S] [ByteIo D] (build : Build) (capacity : ℕ)
    (hcapacity : capacity ≤ wordMax) (pump : Pump) (hnew : Pump.new capacity = .ok pump) (source : S) (destination : D)
    (works : List ℕ) (hworks : ∀ maxWork ∈ works, maxWork ≤ wordMax) :
    ((∃ s, Pumping.pollsOn build ⟨pump, source, destination, [], 0, 0, false⟩ works = .ok s) ↔
      GuardedM Pumping.poll Pumping.Fits ⟨pump, source, destination, [], 0, 0, false⟩ works) ∧
    ∀ s, Pumping.pollsOn build ⟨pump, source, destination, [], 0, 0, false⟩ works = .ok s →
      -- what the machine computes is what the model does
      Pumping.polls ⟨pump, source, destination, [], 0, 0, false⟩ works = some s ∧
      s.pump.pendingBytesOn build = .ok s.pump.pendingBytes ∧ s.pump.stop ≤ s.pump.buffer.length := by
  obtain ⟨hiff, hsame⟩ := (Pumping.Sound.new hnew source destination).pollsOn build hworks hcapacity
  refine ⟨hiff, fun s hs => ?_⟩
  obtain ⟨hpolls, hsound⟩ := hsame s hs
  have hformed := hsound.faithful.formed
  refine ⟨hpolls, Build.sub_of_le hformed.start, ?_⟩
  rw [hformed.size]
  exact hformed.stop

/-- Every poll of a list goes through and shows a faithful pipe within its budget, exactly as long as each
    could write to its budget's end. -/
theorem pump_faithful_iff {S D : Type} [TracedIo S] [ByteIo D] (build : Build) (capacity : ℕ)
    (hcapacity : capacity ≤ wordMax) (pump : Pump) (hnew : Pump.new capacity = .ok pump) (source : S) (destination : D)
    (works : List ℕ) (hworks : ∀ maxWork ∈ works, maxWork ≤ wordMax) :
    (∀ front maxWork, front ++ [maxWork] <+: works →
      ∃ s s', Pumping.pollsOn build ⟨pump, source, destination, [], 0, 0, false⟩ front = .ok s ∧
        s.pollOn build maxWork = .ok s' ∧ s'.Piped source destination ∧
        s'.pump.pendingBytesOn build = .ok s'.pump.pendingBytes ∧
        (bytesIn s'.calls).length ≤ (bytesIn s.calls).length + maxWork ∧
        (bytesOut s'.calls).length ≤ (bytesOut s.calls).length + maxWork) ↔
      GuardedM Pumping.poll Pumping.Fits ⟨pump, source, destination, [], 0, 0, false⟩ works := by
  have hstart := Pumping.Sound.new hnew source destination
  obtain ⟨hiff, -⟩ := hstart.pollsOn build hworks hcapacity
  constructor
  · intro h
    rcases List.eq_nil_or_concat works with rfl | ⟨front, maxWork, rfl⟩
    · trivial
    · rw [List.concat_eq_append] at h hiff ⊢
      obtain ⟨s, s', hs, hs', -⟩ := h front maxWork (List.prefix_refl _)
      exact hiff.mp ⟨s', by rw [pollsOn_snoc, hs]; exact hs'⟩
  · rintro hguard front maxWork ⟨later, rfl⟩
    have hmax : maxWork ≤ wordMax := hworks maxWork (by simp)
    have hfront : ∀ maxWork ∈ front, maxWork ≤ wordMax := fun maxWork hm => hworks maxWork (by simp [hm])
    obtain ⟨hgone, hrest⟩ := hguard.split.1.split
    obtain ⟨hiff', hsame⟩ := hstart.pollsOn build hfront hcapacity
    obtain ⟨s, hs⟩ := hiff'.mpr hgone
    obtain ⟨hpolls, hsound⟩ := hsame s hs
    have hfits : s.Fits maxWork := (hrest s hpolls).1
    obtain ⟨s', hpoll, hsound', hin, hout⟩ := hsound.poll maxWork
    have hmachine : s.pollOn build maxWork = .ok s' := by
      obtain ⟨s'', hpoll', -, hmachine, -⟩ := hsound.pollOn hmax hcapacity
      cases hpoll.symm.trans hpoll'
      exact hmachine hfits
    exact ⟨s, s', hs, hmachine, hsound'.piped, Build.sub_of_le hsound'.faithful.formed.start, hin, hout⟩

end Agreement

theorem script_within_words : ∃ s, Pumping.pollsOn .debug ⟨⟨[0, 0], 0, 0, false, false⟩,
    ({ incoming := [1, 2, 3], ended := true } : ScriptedIo.Script), ({ writes := [1, 0] } : ScriptedIo.Script),
    [], 0, 0, false⟩ [2, 1, 5] = .ok s ∧ s.pump.pendingBytesOn .debug = .ok s.pump.pendingBytes := by
  obtain ⟨hiff, hsame⟩ := polls_within_words_iff .debug 2 (by decide) ⟨[0, 0], 0, 0, false, false⟩ rfl
    ({ incoming := [1, 2, 3], ended := true } : ScriptedIo.Script) ({ writes := [1, 0] } : ScriptedIo.Script)
    [2, 1, 5] (by decide)
  obtain ⟨s, hs⟩ := hiff.mpr (by decide +kernel)
  exact ⟨s, hs, (hsame s hs).2.1⟩

/-- Three bytes go through a buffer of two, to a destination that takes one at first and then waits. -/
theorem script_pumped : ∃ s s', Pumping.pollsOn .release ⟨⟨[0, 0], 0, 0, false, false⟩,
    ({ incoming := [1, 2, 3], ended := true } : ScriptedIo.Script), ({ writes := [1, 0] } : ScriptedIo.Script),
    [], 0, 0, false⟩ [2, 1] = .ok s ∧ s.pollOn .release 5 = .ok s' ∧ bytesOut s'.calls <+: bytesIn s'.calls ∧
    (bytesOut s'.calls).length ≤ (bytesOut s.calls).length + 5 := by
  obtain ⟨s, s', hs, hs', hpiped, -, -, hout⟩ := (pump_faithful_iff .release 2 (by decide)
    ⟨[0, 0], 0, 0, false, false⟩ rfl ({ incoming := [1, 2, 3], ended := true } : ScriptedIo.Script)
    ({ writes := [1, 0] } : ScriptedIo.Script) [2, 1, 5] (by decide)).mpr (by decide +kernel) [2, 1] 5
    (List.prefix_refl _)
  exact ⟨s, s', hs, hs', hpiped.front, hout⟩

deriving instance DecidableEq for Pumping

def heldBack : Pumping ScriptedIo.Script ScriptedIo.Script where
  pump := ⟨[1, 2, 0, 0], 1, 2, false, false⟩
  source := { received := [1, 2] }
  destination := { written := [1] }
  calls := [.read 2 (.ready (.ok [1, 2])), .write [1, 2] (.ready (.ok 1)), .write [2] .pending]
  read := 2
  written := 1

theorem heldBack_fails (build : Build) : heldBack.pollOn build wordMax = .error build.fault := by
  have hformed : heldBack.pump.WellFormed 4 := ⟨rfl, by decide, by decide, by decide⟩
  rw [Pumping.pollOn, hformed.pollOn_fails _ _ (by decide) (Nat.le_refl _) (by decide)]
  rfl

theorem heldBack_reached (build : Build) : Pumping.pollsOn build ⟨⟨[0, 0, 0, 0], 0, 0, false, false⟩,
    ({ incoming := [1, 2] } : ScriptedIo.Script), ({ writes := [1, 0] } : ScriptedIo.Script), [], 0, 0, false⟩ [2] =
    .ok heldBack := by
  have hnew : Pump.new 4 = .ok ⟨[0, 0, 0, 0], 0, 0, false, false⟩ := rfl
  have hpolls : Pumping.polls ⟨⟨[0, 0, 0, 0], 0, 0, false, false⟩, ({ incoming := [1, 2] } : ScriptedIo.Script),
      ({ writes := [1, 0] } : ScriptedIo.Script), [], 0, 0, false⟩ [2] = some heldBack := by
    decide +kernel
  have hworks : ∀ maxWork ∈ [2], maxWork ≤ wordMax := by decide
  have hcapacity : 4 ≤ wordMax := by decide
  obtain ⟨hiff, hsame⟩ := (Pumping.Sound.new hnew ({ incoming := [1, 2] } : ScriptedIo.Script)
    ({ writes := [1, 0] } : ScriptedIo.Script)).pollsOn build hworks hcapacity
  obtain ⟨s, hs⟩ := hiff.mpr (by decide +kernel)
  cases hpolls.symm.trans (hsame s hs).1
  exact hs

theorem unlimited_poll_stops : ∃ pump, Pump.new 4 = .ok pump ∧
    (∀ build, Pumping.pollsOn build ⟨pump, ({ incoming := [1, 2] } : ScriptedIo.Script),
      ({ writes := [1, 0] } : ScriptedIo.Script), [], 0, 0, false⟩ [2] = .ok heldBack) ∧
    heldBack.pollOn .debug wordMax = .error .overflow ∧ heldBack.pollOn .release wordMax = .error .range :=
  ⟨_, rfl, heldBack_reached, heldBack_fails .debug, heldBack_fails .release⟩

/-- A budget without a limit is not answered, so nothing can be read off after that poll. -/
theorem unlimited_poll_unanswered : ∃ pump, Pump.new 4 = .ok pump ∧ ∀ build,
    ¬ ∃ s, Pumping.pollsOn build ⟨pump, ({ incoming := [1, 2] } : ScriptedIo.Script),
      ({ writes := [1, 0] } : ScriptedIo.Script), [], 0, 0, false⟩ [2, wordMax] = .ok s := by
  refine ⟨_, rfl, fun build => ?_⟩
  rintro ⟨s, hs⟩
  have hstopped := pollsOn_snoc build ⟨⟨[0, 0, 0, 0], 0, 0, false, false⟩,
    ({ incoming := [1, 2] } : ScriptedIo.Script), ({ writes := [1, 0] } : ScriptedIo.Script), [], 0, 0, false⟩ [2]
    wordMax
  rw [heldBack_reached] at hstopped
  cases hs.symm.trans (hstopped.trans (heldBack_fails build))

end Snolc.Sdk
