import Snolc.GuardedRuns
import Snolc.PollIo
import Snolc.Precedence
import Snolc.ScriptedIo

set_option autoImplicit false

/-!
# The pump of the SDK

A pump moves bytes from a source to a destination through one buffer, a bounded
number of them at each poll. Its calls are kept with their answers, so that what
crossed it and when the destination was shut down can be read off.
-/
namespace Snolc.Sdk
open PollIo GuardedRuns Precedence

class ByteIo (T : Type) extends TracedIo T where
  pollShutdownWrite : T → IoPoll Unit × T
  shutdown_written : ∀ t, written (pollShutdownWrite t).2 = written t

structure PumpReport where
  read : ℕ := 0
  written : ℕ := 0
  finished : Bool := false
  deriving DecidableEq, Repr

inductive PumpError where
  | zeroCapacity
  | io (error : IoError)
  | writeZero
  | datagramTooLarge (required : ℕ)
  | invalidDatagram
  deriving DecidableEq, Repr

structure Pump where
  buffer : List UInt8
  start : ℕ
  stop : ℕ
  sourceEof : Bool
  destinationShutdown : Bool
  deriving DecidableEq, Repr

inductive PumpCall where
  | read (limit : ℕ) (answer : IoPoll (List UInt8))
  | write (bytes : List UInt8) (answer : IoPoll ℕ)
  | shutdownWrite (answer : IoPoll Unit)
  deriving DecidableEq, Repr

abbrev PumpPoll := Poll (Except PumpError PumpReport)

def readyOrPending (report : PumpReport) : PumpPoll :=
  if report.read = 0 ∧ report.written = 0 then .pending else .ready (.ok report)

namespace Pump

def new (capacity : ℕ) : Except PumpError Pump :=
  if capacity = 0 then .error .zeroCapacity
  else .ok ⟨List.replicate capacity 0, 0, 0, false, false⟩

def pendingBytes (p : Pump) : ℕ := p.stop - p.start

def wrote (p : Pump) (written : ℕ) : Pump :=
  if p.start + written = p.stop then { p with start := 0, stop := 0 }
  else { p with start := p.start + written }

def filled (p : Pump) (bytes : List UInt8) : Pump :=
  { p with buffer := bytes ++ p.buffer.drop bytes.length, stop := bytes.length }

end Pump

structure Turn (S D : Type) where
  pump : Pump
  source : S
  destination : D
  report : PumpReport
  budget : ℕ
  calls : List PumpCall

namespace Turn
variable {S D : Type} [TracedIo S] [ByteIo D]

def called (t : Turn S D) (call : PumpCall) : Turn S D := { t with calls := t.calls ++ [call] }

/-- The buffer a write offers, cut to the budget in exact numbers; `offerOn` has the machine's sum. -/
def offer (t : Turn S D) : List UInt8 :=
  let stop := min t.pump.stop (t.pump.start + t.budget)
  (t.pump.buffer.drop t.pump.start).take (stop - t.pump.start)

def writeTurn (t : Turn S D) : Option PumpPoll × Turn S D :=
  let (answer, destination) := AsyncIo.pollWrite t.destination t.offer
  let t := { t with destination }.called (.write t.offer answer)
  match answer with
  | .ready (.ok 0) => (some (.ready (.error .writeZero)), t)
  | .ready (.ok written) =>
    (none, { t with
      pump := t.pump.wrote written
      report := { t.report with written := t.report.written + written }
      budget := t.budget - written })
  | .ready (.error e) => (some (.ready (.error (.io e))), t)
  | .pending => (some (readyOrPending t.report), t)

def shutdownTurn (t : Turn S D) : Option PumpPoll × Turn S D :=
  if t.pump.destinationShutdown then (some (.ready (.ok { t.report with finished := true })), t)
  else
    let (answer, destination) := ByteIo.pollShutdownWrite t.destination
    let t := { t with destination }.called (.shutdownWrite answer)
    match answer with
    | .ready (.ok ()) =>
      (some (.ready (.ok { t.report with finished := true })),
        { t with pump := { t.pump with destinationShutdown := true } })
    | .ready (.error e) => (some (.ready (.error (.io e))), t)
    | .pending => (some (readyOrPending t.report), t)

def readTurn (t : Turn S D) : Option PumpPoll × Turn S D :=
  let limit := min t.pump.buffer.length t.budget
  let (answer, source) := AsyncIo.pollRead t.source limit
  let t := { t with source }.called (.read limit answer)
  match answer with
  | .ready (.ok []) => (none, { t with pump := { t.pump with sourceEof := true } })
  | .ready (.ok bytes) =>
    (none, { t with
      pump := t.pump.filled bytes
      report := { t.report with read := t.report.read + bytes.length } })
  | .ready (.error e) => (some (.ready (.error (.io e))), t)
  | .pending => (some (readyOrPending t.report), t)

def step (t : Turn S D) : Option PumpPoll × Turn S D :=
  if t.pump.start < t.pump.stop then t.writeTurn
  else if t.pump.sourceEof then t.shutdownTurn
  else t.readTurn

def run : ℕ → Turn S D → Option (PumpPoll × Turn S D)
  | fuel, t =>
    if t.budget = 0 then some (.ready (.ok t.report), t)
    else
      match fuel with
      | 0 => none
      | fuel + 1 =>
        match t.step with
        | (some result, t) => some (result, t)
        | (none, t) => run fuel t

end Turn

section Polls
variable {S D : Type} [TracedIo S] [ByteIo D]

/-- Three turns for each byte of the budget, and two more, are enough. -/
def Pump.poll (pump : Pump) (source : S) (destination : D) (maxWork : ℕ) : Option (PumpPoll × Turn S D) :=
  Turn.run (3 * maxWork + 2) ⟨pump, source, destination, {}, maxWork, []⟩

def reported : PumpPoll → PumpReport
  | .ready (.ok report) => report
  | _ => {}

def isError : PumpPoll → Bool
  | .ready (.error _) => true
  | _ => false

/-- A pump between its ends, with its calls so far and the sums of its reports. -/
structure Pumping (S D : Type) where
  pump : Pump
  source : S
  destination : D
  calls : List PumpCall := []
  read : ℕ := 0
  written : ℕ := 0
  failed : Bool := false

def Pumping.poll (s : Pumping S D) (maxWork : ℕ) : Option (Pumping S D) := do
  let (result, t) ← s.pump.poll s.source s.destination maxWork
  return {
    pump := t.pump
    source := t.source
    destination := t.destination
    calls := s.calls ++ t.calls
    read := s.read + (reported result).read
    written := s.written + (reported result).written
    failed := s.failed || isError result }

def Pumping.polls (s : Pumping S D) (works : List ℕ) : Option (Pumping S D) :=
  works.foldlM Pumping.poll s

end Polls

def PumpCall.taken : PumpCall → List UInt8
  | .read _ answer => readBytes answer
  | _ => []

def PumpCall.given : PumpCall → List UInt8
  | .write bytes answer => bytes.take (writeCount answer)
  | _ => []

def bytesIn (calls : List PumpCall) : List UInt8 := calls.flatMap PumpCall.taken
def bytesOut (calls : List PumpCall) : List UInt8 := calls.flatMap PumpCall.given

@[simp] theorem bytesIn_append (a b : List PumpCall) : bytesIn (a ++ b) = bytesIn a ++ bytesIn b :=
  List.flatMap_append

@[simp] theorem bytesOut_append (a b : List PumpCall) : bytesOut (a ++ b) = bytesOut a ++ bytesOut b :=
  List.flatMap_append

@[simp] theorem bytesIn_single (call : PumpCall) : bytesIn [call] = call.taken :=
  List.flatMap_singleton ..

@[simp] theorem bytesOut_single (call : PumpCall) : bytesOut [call] = call.given :=
  List.flatMap_singleton ..

def Ended (calls : List PumpCall) : Prop := ∃ limit, PumpCall.read limit (.ready (.ok [])) ∈ calls

/-- A shutdown needs the end of the source, every byte written and no shutdown that succeeded. -/
def ShutdownAllowed (before : List PumpCall) : PumpCall → Prop
  | .shutdownWrite _ => Ended before ∧ bytesOut before = bytesIn before ∧
      PumpCall.shutdownWrite (.ready (.ok ())) ∉ before
  | _ => True

namespace Pump

def pending (p : Pump) : List UInt8 := (p.buffer.drop p.start).take (p.stop - p.start)

structure WellFormed (capacity : ℕ) (p : Pump) : Prop where
  size : p.buffer.length = capacity
  start : p.start ≤ p.stop
  stop : p.stop ≤ capacity
  reset : p.start = p.stop → p.stop = 0

theorem WellFormed.pending_length {capacity : ℕ} {p : Pump} (h : p.WellFormed capacity) :
    p.pending.length = p.pendingBytes := by
  have hsize := h.size
  have hstop := h.stop
  rw [pending, pendingBytes, List.length_take, List.length_drop]
  omega

theorem WellFormed.wrote {capacity n : ℕ} {p : Pump} (h : p.WellFormed capacity)
    (hn : n ≤ p.pendingBytes) (hpos : n ≠ 0) :
    (p.wrote n).WellFormed capacity ∧ (p.wrote n).pending = p.pending.drop n := by
  have hstart := h.start
  have hstop := h.stop
  unfold pendingBytes at hn
  have hdrop : p.pending.drop n = (p.buffer.drop (p.start + n)).take (p.stop - (p.start + n)) := by
    rw [pending, List.drop_take, List.drop_drop, Nat.sub_sub]
  rw [Pump.wrote]
  split
  · next heq =>
    refine ⟨⟨h.size, Nat.le_refl _, Nat.zero_le _, fun _ => rfl⟩, ?_⟩
    rw [hdrop, heq, Nat.sub_self, List.take_zero]
    rfl
  · next hne =>
    refine ⟨⟨h.size, ?_, hstop, fun heq => absurd heq hne⟩, hdrop.symm⟩
    change p.start + n ≤ p.stop
    omega

theorem WellFormed.filled {capacity : ℕ} {p : Pump} {bytes : List UInt8} (h : p.WellFormed capacity)
    (hidle : ¬ p.start < p.stop) (hlength : bytes.length ≤ capacity) (hne : bytes ≠ []) :
    (p.filled bytes).WellFormed capacity ∧ (p.filled bytes).pending = bytes := by
  have heq : p.start = p.stop := Nat.le_antisymm h.start (Nat.le_of_not_lt hidle)
  have hzero : p.start = 0 := heq.trans (h.reset heq)
  have hpos : 0 < bytes.length := List.length_pos_iff.mpr hne
  refine ⟨⟨?_, ?_, hlength, ?_⟩, ?_⟩
  · have hsize := h.size
    simp only [Pump.filled, List.length_append, List.length_drop]
    omega
  · change p.start ≤ bytes.length
    omega
  · change p.start = bytes.length → bytes.length = 0
    omega
  · simp only [pending, Pump.filled, hzero, List.drop_zero, Nat.sub_zero, List.take_left]

theorem WellFormed.idle {capacity : ℕ} {p : Pump} (h : p.WellFormed capacity)
    (hidle : ¬ p.start < p.stop) : p.pending = [] := by
  rw [← List.length_eq_zero_iff, h.pending_length, pendingBytes]
  omega

end Pump

section Faithful
variable {S D : Type} [TracedIo S] [ByteIo D]

/-- What is known of a pump and its ends from the calls made so far; `r` and `w` crossed the
    ends before. -/
structure Faithful (capacity : ℕ) (r w : List UInt8) (pump : Pump) (source : S) (destination : D)
    (calls : List PumpCall) : Prop where
  formed : pump.WellFormed capacity
  received : TracedIo.received source = r ++ bytesIn calls
  written : TracedIo.written destination = w ++ bytesOut calls
  held : bytesIn calls = bytesOut calls ++ pump.pending
  eof : pump.sourceEof = true → Ended calls
  opened : pump.destinationShutdown = false → PumpCall.shutdownWrite (.ready (.ok ())) ∉ calls
  lawful : Lawful ShutdownAllowed calls

structure Working (capacity : ℕ) (r w : List UInt8) (prior : List PumpCall) (maxWork : ℕ) (t : Turn S D) :
    Prop where
  faithful : Faithful capacity r w t.pump t.source t.destination (prior ++ t.calls)
  covered : (bytesOut prior).length ≤ (bytesIn prior).length
  read : t.report.read = (bytesIn t.calls).length
  written : t.report.written = (bytesOut t.calls).length
  budget : t.budget + t.report.written = maxWork
  within : t.report.read ≤ maxWork

def Reports (result : PumpPoll) (t : Turn S D) : Prop :=
  isError result = false → (reported result).read = t.report.read ∧ (reported result).written = t.report.written

omit [TracedIo S] [ByteIo D] in
theorem readyOrPending_reports (t : Turn S D) : Reports (readyOrPending t.report) t := by
  intro _
  unfold readyOrPending
  split
  · next h => exact ⟨h.1.symm, h.2.symm⟩
  · exact ⟨rfl, rfl⟩

def Turn.left (t : Turn S D) : ℕ :=
  3 * t.budget + if t.pump.start < t.pump.stop then 0 else if t.pump.sourceEof then 1 else 2

/-- A turn keeps what is known, and comes closer to the end or ends with its report. -/
structure Advances (capacity : ℕ) (r w : List UInt8) (prior : List PumpCall) (maxWork : ℕ) (t : Turn S D)
    (next : Option PumpPoll × Turn S D) : Prop where
  working : Working capacity r w prior maxWork next.2
  closer : next.1 = none → next.2.left < t.left
  reports : ∀ result, next.1 = some result → Reports result next.2

variable {capacity maxWork : ℕ} {r w : List UInt8} {prior : List PumpCall} {t : Turn S D}

theorem Faithful.call {pump pump' : Pump} {source source' : S} {destination destination' : D}
    {calls : List PumpCall} {call : PumpCall} (h : Faithful capacity r w pump source destination calls)
    (hformed : pump'.WellFormed capacity)
    (hr : TracedIo.received source' = TracedIo.received source ++ call.taken)
    (hw : TracedIo.written destination' = TracedIo.written destination ++ call.given)
    (hheld : pump.pending ++ call.taken = call.given ++ pump'.pending)
    (heof : pump'.sourceEof = true → pump.sourceEof = true ∨ Ended [call])
    (hopened : pump'.destinationShutdown = false →
      pump.destinationShutdown = false ∧ call ≠ .shutdownWrite (.ready (.ok ())))
    (hallowed : ShutdownAllowed calls call) :
    Faithful capacity r w pump' source' destination' (calls ++ [call]) where
  formed := hformed
  received := by rw [hr, h.received, bytesIn_append, bytesIn_single, List.append_assoc]
  written := by rw [hw, h.written, bytesOut_append, bytesOut_single, List.append_assoc]
  held := by
    rw [bytesIn_append, bytesOut_append, bytesIn_single, bytesOut_single, h.held, List.append_assoc, hheld,
      List.append_assoc]
  eof hx := by
    rcases heof hx with hold | ⟨limit, hm⟩
    · obtain ⟨limit, hm⟩ := h.eof hold
      exact ⟨limit, List.mem_append_left _ hm⟩
    · exact ⟨limit, List.mem_append_right _ hm⟩
  opened hx := by
    obtain ⟨hold, hne⟩ := hopened hx
    intro hm
    rcases List.mem_append.mp hm with hm | hm
    · exact h.opened hold hm
    · exact hne (List.mem_singleton.mp hm).symm
  lawful := h.lawful.snoc hallowed

theorem Working.call {t' : Turn S D} {call : PumpCall} (h : Working capacity r w prior maxWork t)
    (hcalls : t'.calls = t.calls ++ [call])
    (hf : Faithful capacity r w t'.pump t'.source t'.destination ((prior ++ t.calls) ++ [call]))
    (hread : t'.report.read = t.report.read + call.taken.length)
    (hwritten : t'.report.written = t.report.written + call.given.length)
    (hbudget : t'.budget + call.given.length = t.budget) (hwithin : t'.report.read ≤ maxWork) :
    Working capacity r w prior maxWork t' where
  faithful := by
    rw [hcalls, ← List.append_assoc]
    exact hf
  covered := h.covered
  read := by rw [hread, h.read, hcalls, bytesIn_append, bytesIn_single, List.length_append]
  written := by rw [hwritten, h.written, hcalls, bytesOut_append, bytesOut_single, List.length_append]
  budget := by
    have hold := h.budget
    omega
  within := hwithin

theorem Working.quiet (h : Working capacity r w prior maxWork t) (source : S) (destination : D) (call : PumpCall)
    (hin : call.taken = []) (hout : call.given = [])
    (hr : TracedIo.received source = TracedIo.received t.source)
    (hw : TracedIo.written destination = TracedIo.written t.destination)
    (hallowed : ShutdownAllowed (prior ++ t.calls) call) (hok : call ≠ .shutdownWrite (.ready (.ok ()))) :
    Working capacity r w prior maxWork ({ t with source, destination }.called call) := by
  refine h.call rfl (h.faithful.call h.faithful.formed ?_ ?_ ?_ .inl (fun hx => ⟨hx, hok⟩) hallowed) ?_ ?_ ?_ h.within
  · rw [hin, List.append_nil]
    exact hr
  · rw [hout, List.append_nil]
    exact hw
  · rw [hin, hout, List.append_nil]
    rfl
  · rw [hin]
    rfl
  · rw [hout]
    rfl
  · rw [hout]
    rfl

omit [TracedIo S] [ByteIo D] in
theorem offer_eq (h : t.pump.WellFormed capacity) : t.offer = t.pump.pending.take t.budget := by
  have hstart := h.start
  rw [Turn.offer, Pump.pending, List.take_take]
  congr 1
  omega

theorem Working.wrote (h : Working capacity r w prior maxWork t) {destination : D} {n : ℕ}
    (hn : n ≤ t.offer.length) (hpos : n ≠ 0)
    (hw : TracedIo.written destination = TracedIo.written t.destination ++ t.offer.take n) :
    Working capacity r w prior maxWork { ({ t with destination }.called (.write t.offer (.ready (.ok n)))) with
      pump := t.pump.wrote n
      report := { t.report with written := t.report.written + n }
      budget := t.budget - n } := by
  have hformed := h.faithful.formed
  have hpending := hformed.pending_length
  have hoffer := offer_eq hformed
  have hbounds : n ≤ t.budget ∧ n ≤ t.pump.pendingBytes := by
    rw [hoffer, List.length_take] at hn
    omega
  have htake : t.offer.take n = t.pump.pending.take n := by
    rw [hoffer, List.take_take, Nat.min_eq_left hbounds.1]
  obtain ⟨hformed', hpending'⟩ := hformed.wrote hbounds.2 hpos
  have hflags : (t.pump.wrote n).sourceEof = t.pump.sourceEof ∧
      (t.pump.wrote n).destinationShutdown = t.pump.destinationShutdown := by
    unfold Pump.wrote
    split <;> exact ⟨rfl, rfl⟩
  have hlength : (t.offer.take n).length = n := by
    rw [List.length_take]
    omega
  refine h.call rfl (h.faithful.call hformed' (List.append_nil _).symm hw ?_ (fun hx => .inl (hflags.1 ▸ hx))
    (fun hx => ⟨hflags.2 ▸ hx, fun hx => nomatch hx⟩) trivial) rfl ?_ ?_ h.within
  · change t.pump.pending ++ [] = t.offer.take n ++ _
    rw [htake, hpending', List.append_nil, List.take_append_drop]
  · change t.report.written + n = t.report.written + (t.offer.take n).length
    rw [hlength]
  · change t.budget - n + (t.offer.take n).length = t.budget
    omega

theorem Working.writeTurn (h : Working capacity r w prior maxWork t) (hp : t.pump.start < t.pump.stop) :
    Advances capacity r w prior maxWork t t.writeTurn := by
  have hbound := TracedIo.write_bound t.destination t.offer
  have hwritten := TracedIo.write_written t.destination t.offer
  have hformed := h.faithful.formed
  have hpending := hformed.pending_length
  rw [Turn.writeTurn]
  rcases hans : AsyncIo.pollWrite t.destination t.offer with ⟨(e | n) | _, destination⟩ <;>
    rw [hans] at hbound hwritten <;> dsimp only at hbound hwritten ⊢
  · have hquiet := h.quiet t.source destination (.write t.offer (.ready (.error e))) rfl
      (by simp [PumpCall.given]) rfl (by simpa using hwritten) trivial (by simp)
    exact ⟨hquiet, by simp, fun result hres => by cases hres; simp [Reports, isError]⟩
  · rw [writeCount_ok] at hbound hwritten
    cases n with
    | zero =>
      have hquiet := h.quiet t.source destination (.write t.offer (.ready (.ok 0))) rfl
        (by simp [PumpCall.given]) rfl (by simpa using hwritten) trivial (by simp)
      exact ⟨hquiet, by simp, fun result hres => by cases hres; simp [Reports, isError]⟩
    | succ n =>
      refine ⟨h.wrote hbound (Nat.succ_ne_zero n) hwritten, fun _ => ?_, by simp⟩
      have hle : n + 1 ≤ t.budget := by
        rw [offer_eq hformed, List.length_take] at hbound
        omega
      simp only [Turn.left, if_pos hp]
      split <;> [skip; split] <;> simp only [Turn.called] <;> omega
  · have hquiet := h.quiet t.source destination (.write t.offer .pending) rfl
      (by simp [PumpCall.given]) rfl (by simpa using hwritten) trivial (by simp)
    exact ⟨hquiet, by simp, fun result hres => by cases hres; exact readyOrPending_reports _⟩

theorem Working.shutdownTurn (h : Working capacity r w prior maxWork t) (hp : ¬ t.pump.start < t.pump.stop)
    (heof : t.pump.sourceEof = true) : Advances capacity r w prior maxWork t t.shutdownTurn := by
  rw [Turn.shutdownTurn]
  split
  · exact ⟨h, by simp, fun result hres => by cases hres; exact fun _ => ⟨rfl, rfl⟩⟩
  · next hopen =>
    have hclosed := h.faithful.opened (Bool.eq_false_iff.mpr hopen)
    have hallowed (answer : IoPoll Unit) : ShutdownAllowed (prior ++ t.calls) (.shutdownWrite answer) := by
      refine ⟨h.faithful.eof heof, ?_, hclosed⟩
      have hheld := h.faithful.held
      rw [h.faithful.formed.idle hp, List.append_nil] at hheld
      exact hheld.symm
    have hwritten := ByteIo.shutdown_written t.destination
    rcases hans : ByteIo.pollShutdownWrite t.destination with ⟨(e | ⟨⟩) | _, destination⟩ <;>
      rw [hans] at hwritten <;> dsimp only at hwritten ⊢
    · have hquiet := h.quiet t.source destination (.shutdownWrite (.ready (.error e))) rfl rfl rfl hwritten
        (hallowed _) (by simp)
      exact ⟨hquiet, by simp, fun result hres => by cases hres; simp [Reports, isError]⟩
    · have hformed := h.faithful.formed
      have hdone : Faithful capacity r w { t.pump with destinationShutdown := true } t.source destination
          ((prior ++ t.calls) ++ [.shutdownWrite (.ready (.ok ()))]) := h.faithful.call
        ⟨hformed.size, hformed.start, hformed.stop, hformed.reset⟩ (List.append_nil _).symm
        (hwritten.trans (List.append_nil _).symm) (List.append_nil _) .inl (fun hx => nomatch hx) (hallowed _)
      exact ⟨h.call rfl hdone rfl rfl rfl h.within, by simp,
        fun result hres => by cases hres; exact fun _ => ⟨rfl, rfl⟩⟩
    · have hquiet := h.quiet t.source destination (.shutdownWrite .pending) rfl rfl rfl hwritten
        (hallowed _) (by simp)
      exact ⟨hquiet, by simp, fun result hres => by cases hres; exact readyOrPending_reports _⟩

theorem Working.filled (h : Working capacity r w prior maxWork t) (hp : ¬ t.pump.start < t.pump.stop) {source : S}
    {bytes : List UInt8} (hn : bytes.length ≤ min t.pump.buffer.length t.budget) (hne : bytes ≠ [])
    (hr : TracedIo.received source = TracedIo.received t.source ++ bytes) :
    Working capacity r w prior maxWork
      { ({ t with source }.called (.read (min t.pump.buffer.length t.budget) (.ready (.ok bytes)))) with
        pump := t.pump.filled bytes
        report := { t.report with read := t.report.read + bytes.length } } := by
  have hformed := h.faithful.formed
  have hsize := hformed.size
  obtain ⟨hformed', hpending'⟩ := hformed.filled hp (by omega) hne
  refine h.call rfl (h.faithful.call hformed' hr (List.append_nil _).symm ?_ .inl
    (fun hx => ⟨hx, fun hx => nomatch hx⟩) trivial) rfl rfl rfl ?_
  · rw [hformed.idle hp, hpending']
    rfl
  · -- nothing is held, so what the poll has read it has written, and the read is within the budget
    have hheld := congrArg List.length h.faithful.held
    simp only [hformed.idle hp, bytesIn_append, bytesOut_append, List.length_append, List.length_nil] at hheld
    have hcovered := h.covered
    have hread := h.read
    have hwritten := h.written
    have hbudget := h.budget
    change t.report.read + bytes.length ≤ maxWork
    omega

theorem Working.readTurn (h : Working capacity r w prior maxWork t) (hp : ¬ t.pump.start < t.pump.stop)
    (heof : t.pump.sourceEof = false) : Advances capacity r w prior maxWork t t.readTurn := by
  have hbound := TracedIo.read_bound t.source (min t.pump.buffer.length t.budget)
  have hreceived := TracedIo.read_received t.source (min t.pump.buffer.length t.budget)
  rw [Turn.readTurn]
  rcases hans : AsyncIo.pollRead t.source (min t.pump.buffer.length t.budget) with ⟨(e | bytes) | _, source⟩ <;>
    rw [hans] at hbound hreceived <;> dsimp only at hbound hreceived ⊢
  · have hquiet := h.quiet source t.destination (.read (min t.pump.buffer.length t.budget) (.ready (.error e)))
      rfl rfl (by simpa using hreceived) rfl trivial (by simp)
    exact ⟨hquiet, by simp, fun result hres => by cases hres; simp [Reports, isError]⟩
  · cases bytes with
    | nil =>
      have hformed := h.faithful.formed
      have hdone : Faithful capacity r w { t.pump with sourceEof := true } source t.destination
          ((prior ++ t.calls) ++ [.read (min t.pump.buffer.length t.budget) (.ready (.ok []))]) := h.faithful.call
        ⟨hformed.size, hformed.start, hformed.stop, hformed.reset⟩ hreceived (List.append_nil _).symm
        (List.append_nil _) (fun _ => .inr ⟨_, List.mem_cons_self⟩) (fun hx => ⟨hx, fun hx => nomatch hx⟩) trivial
      refine ⟨h.call rfl hdone rfl rfl rfl h.within, fun _ => ?_, by simp⟩
      simp only [Turn.left, Turn.called, if_neg hp, heof]
      simp
    | cons first bytes =>
      refine ⟨h.filled hp (by simpa using hbound) (List.cons_ne_nil _ _) (by simpa using hreceived), fun _ => ?_,
        by simp⟩
      have heq : t.pump.start = t.pump.stop := Nat.le_antisymm h.faithful.formed.start (Nat.le_of_not_lt hp)
      have hzero := h.faithful.formed.reset heq
      simp only [Turn.left, Turn.called, Pump.filled, if_neg hp, heof]
      rw [if_pos (by rw [heq, hzero]; simp)]
      simp
  · have hquiet := h.quiet source t.destination (.read (min t.pump.buffer.length t.budget) .pending) rfl rfl
      (by simpa using hreceived) rfl trivial (by simp)
    exact ⟨hquiet, by simp, fun result hres => by cases hres; exact readyOrPending_reports _⟩

theorem Working.step (h : Working capacity r w prior maxWork t) : Advances capacity r w prior maxWork t t.step := by
  rw [Turn.step]
  split
  · next hp => exact h.writeTurn hp
  · next hp =>
    split
    · next heof => exact h.shutdownTurn hp heof
    · next heof => exact h.readTurn hp (Bool.eq_false_iff.mpr heof)

/-- With turns for what is left to do the loop ends by itself. -/
theorem Working.run (fuel : ℕ) (h : Working capacity r w prior maxWork t) (hf : t.left ≤ fuel) :
    ∃ result t', t.run fuel = some (result, t') ∧ Working capacity r w prior maxWork t' ∧ Reports result t' := by
  induction fuel generalizing t with
  | zero =>
    have hzero : t.budget = 0 := by
      unfold Turn.left at hf
      omega
    exact ⟨_, t, by rw [Turn.run, if_pos hzero], h, fun _ => ⟨rfl, rfl⟩⟩
  | succ fuel ih =>
    by_cases hzero : t.budget = 0
    · exact ⟨_, t, by rw [Turn.run, if_pos hzero], h, fun _ => ⟨rfl, rfl⟩⟩
    · obtain ⟨hworking, hcloser, hreports⟩ := h.step
      rcases hstep : t.step with ⟨_ | result, t'⟩ <;> rw [hstep] at hworking hcloser hreports
      · have hless : t'.left < t.left := hcloser rfl
        obtain ⟨result, t'', hrun, hrest⟩ := ih hworking (Nat.le_of_lt_succ (Nat.lt_of_lt_of_le hless hf))
        refine ⟨result, t'', ?_, hrest⟩
        rw [Turn.run, if_neg hzero, hstep]
        exact hrun
      · refine ⟨result, t', ?_, hworking, hreports result rfl⟩
        rw [Turn.run, if_neg hzero, hstep]

structure Polled (capacity : ℕ) (r w : List UInt8) (prior : List PumpCall) (maxWork : ℕ) (result : PumpPoll)
    (t : Turn S D) : Prop where
  faithful : Faithful capacity r w t.pump t.source t.destination (prior ++ t.calls)
  reports : isError result = false →
    (reported result).read = (bytesIn t.calls).length ∧ (reported result).written = (bytesOut t.calls).length
  reads : (bytesIn t.calls).length ≤ maxWork
  writes : (bytesOut t.calls).length ≤ maxWork

theorem Faithful.working {pump : Pump} {source : S} {destination : D} {calls : List PumpCall}
    (h : Faithful capacity r w pump source destination calls) (maxWork : ℕ) :
    Working capacity r w calls maxWork (⟨pump, source, destination, {}, maxWork, []⟩ : Turn S D) := by
  have hcovered : (bytesOut calls).length ≤ (bytesIn calls).length := by
    rw [h.held, List.length_append]
    omega
  refine ⟨?_, hcovered, rfl, rfl, rfl, Nat.zero_le _⟩
  rw [List.append_nil]
  exact h

theorem Faithful.poll {pump : Pump} {source : S} {destination : D} {calls : List PumpCall}
    (h : Faithful capacity r w pump source destination calls) (maxWork : ℕ) :
    ∃ result t, pump.poll source destination maxWork = some (result, t) ∧
      Polled capacity r w calls maxWork result t := by
  obtain ⟨result, t, hrun, hworking, hreports⟩ := (h.working maxWork).run (3 * maxWork + 2) (by
    unfold Turn.left
    dsimp only
    split <;> [skip; split] <;> omega)
  refine ⟨result, t, hrun, hworking.faithful, fun hok => ?_, ?_, ?_⟩
  · rw [← hworking.read, ← hworking.written]
    exact hreports hok
  · rw [← hworking.read]
    exact hworking.within
  · have hbudget := hworking.budget
    rw [← hworking.written]
    omega

structure Pumping.Sound (capacity : ℕ) (r w : List UInt8) (s : Pumping S D) : Prop where
  faithful : Faithful capacity r w s.pump s.source s.destination s.calls
  totals : s.failed = false → s.read = (bytesIn s.calls).length ∧ s.written = (bytesOut s.calls).length

theorem Pumping.Sound.poll {s : Pumping S D} (h : s.Sound capacity r w) (maxWork : ℕ) :
    ∃ s', s.poll maxWork = some s' ∧ s'.Sound capacity r w ∧
      (bytesIn s'.calls).length ≤ (bytesIn s.calls).length + maxWork ∧
      (bytesOut s'.calls).length ≤ (bytesOut s.calls).length + maxWork := by
  obtain ⟨result, t, hpoll, hfaithful, hreports, hreads, hwrites⟩ := h.faithful.poll maxWork
  refine ⟨_, by rw [Pumping.poll, hpoll]; rfl, ⟨hfaithful, fun hok => ?_⟩, ?_, ?_⟩
  · obtain ⟨hfailed, herror⟩ := Bool.or_eq_false_iff.mp hok
    obtain ⟨hread, hwritten⟩ := h.totals hfailed
    obtain ⟨hmore, hmore'⟩ := hreports herror
    simp only [bytesIn_append, bytesOut_append, List.length_append]
    omega
  · simp only [bytesIn_append, List.length_append]
    omega
  · simp only [bytesOut_append, List.length_append]
    omega

theorem Pumping.Sound.new {pump : Pump} (hnew : Pump.new capacity = .ok pump) (source : S) (destination : D) :
    Pumping.Sound capacity (TracedIo.received source) (TracedIo.written destination)
      (⟨pump, source, destination, [], 0, 0, false⟩ : Pumping S D) := by
  unfold Pump.new at hnew
  split at hnew
  · cases hnew
  · cases hnew
    refine ⟨⟨⟨List.length_replicate, Nat.le_refl _, Nat.zero_le _, fun _ => rfl⟩, ?_, ?_, rfl, ?_, ?_, Lawful.nil⟩,
      fun _ => ⟨rfl, rfl⟩⟩
    · exact (List.append_nil _).symm
    · exact (List.append_nil _).symm
    · exact fun hx => nomatch hx
    · exact fun _ hx => nomatch hx

/-- What a pump shows of all its polls: the bytes written are the front of those read, the rest is
    pending, and the destination is shut down in the end and at most once. -/
structure Pumping.Piped (source : S) (destination : D) (s : Pumping S D) : Prop where
  received : TracedIo.received s.source = TracedIo.received source ++ bytesIn s.calls
  written : TracedIo.written s.destination = TracedIo.written destination ++ bytesOut s.calls
  front : bytesOut s.calls <+: bytesIn s.calls
  pending : s.pump.pendingBytes = (bytesIn s.calls).length - (bytesOut s.calls).length
  totals : s.failed = false → s.read = (bytesIn s.calls).length ∧ s.written = (bytesOut s.calls).length
  shutdown : Lawful ShutdownAllowed s.calls

theorem Pumping.Sound.piped {s : Pumping S D} {source : S} {destination : D}
    (h : s.Sound capacity (TracedIo.received source) (TracedIo.written destination)) :
    s.Piped source destination := by
  have hheld := h.faithful.held
  refine ⟨h.faithful.received, h.faithful.written, ⟨_, hheld.symm⟩, ?_, h.totals, h.faithful.lawful⟩
  rw [hheld, List.length_append, h.faithful.formed.pending_length]
  omega

end Faithful

instance : ByteIo ScriptedIo.Script where
  pollShutdownWrite io := (.ready (.ok ()), io)
  shutdown_written _ := rfl

end Snolc.Sdk
