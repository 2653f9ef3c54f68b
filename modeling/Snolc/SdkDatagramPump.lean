import Snolc.SdkPump

set_option autoImplicit false

namespace Snolc.Sdk
open PollIo GuardedRuns

inductive DatagramRecv where
  | datagram (length : ℕ)
  | bufferTooSmall (required : ℕ)
  | closed
  deriving DecidableEq, Repr

/-- Receiving fills a buffer of the caller, whose size stays. -/
class DatagramIo (T : Type) where
  pollRecvDatagram : T → List UInt8 → IoPoll DatagramRecv × List UInt8 × T
  pollSendDatagram : T → List UInt8 → IoPoll Unit × T
  recv_size : ∀ t output, (pollRecvDatagram t output).2.1.length = output.length

structure DatagramPumpReport where
  received : ℕ := 0
  sent : ℕ := 0
  finished : Bool := false
  deriving DecidableEq, Repr

structure DatagramPump where
  buffer : List UInt8
  pending : Option ℕ
  sourceClosed : Bool
  deriving DecidableEq, Repr

abbrev DatagramPumpPoll := Poll (Except PumpError DatagramPumpReport)

namespace DatagramPump

def new (maxDatagramBytes : ℕ) : Except PumpError DatagramPump :=
  if maxDatagramBytes = 0 then .error .zeroCapacity
  else .ok ⟨List.replicate maxDatagramBytes 0, none, false⟩

def pendingBytes (p : DatagramPump) : ℕ := p.pending.getD 0

def isFinished (p : DatagramPump) : Bool := p.sourceClosed && p.pending.isNone

end DatagramPump

structure DatagramEnds (S D : Type) where
  pump : DatagramPump
  source : S
  destination : D

namespace DatagramEnds
variable {S D : Type} [DatagramIo S] [DatagramIo D]

def send (e : DatagramEnds S D) (maxPayloadBytes : ℕ) (report : DatagramPumpReport) :
    DatagramPumpPoll × DatagramEnds S D :=
  match e.pump.pending with
  | none => (.ready (.ok { report with finished := e.pump.isFinished }), e)
  | some length =>
    if maxPayloadBytes < length then (.ready (.ok report), e)
    else
      match DatagramIo.pollSendDatagram e.destination (e.pump.buffer.take length) with
      | (.ready (.ok ()), destination) =>
        let pump := { e.pump with pending := none }
        (.ready (.ok { report with sent := length, finished := pump.isFinished }), { e with pump, destination })
      | (.ready (.error error), destination) => (.ready (.error (.io error)), { e with destination })
      | (.pending, destination) => (.pending, { e with destination })

def poll (e : DatagramEnds S D) (maxPayloadBytes : ℕ) : DatagramPumpPoll × DatagramEnds S D :=
  if maxPayloadBytes = 0 then (.pending, e)
  else if e.pump.pending.isNone ∧ e.pump.sourceClosed = false then
    match DatagramIo.pollRecvDatagram e.source e.pump.buffer with
    | (answer, buffer, source) =>
      let e : DatagramEnds S D := { e with pump := { e.pump with buffer }, source }
      match answer with
      | .ready (.ok (.datagram length)) =>
        if length ≤ buffer.length then
          send { e with pump := { e.pump with pending := some length } } maxPayloadBytes { received := length }
        else (.ready (.error .invalidDatagram), e)
      | .ready (.ok (.bufferTooSmall required)) => (.ready (.error (.datagramTooLarge required)), e)
      | .ready (.ok .closed) => send { e with pump := { e.pump with sourceClosed := true } } maxPayloadBytes {}
      | .ready (.error error) => (.ready (.error (.io error)), e)
      | .pending => (.pending, e)
  else send e maxPayloadBytes {}

/-- The source hands out a datagram with payload, and the destination does not take it in the
    same call. -/
def Withholds (e : DatagramEnds S D) (maxPayloadBytes : ℕ) : Prop :=
  e.pump.pending = none ∧ e.pump.sourceClosed = false ∧
    ∃ length buffer source destination,
      DatagramIo.pollRecvDatagram e.source e.pump.buffer = (.ready (.ok (.datagram length)), buffer, source) ∧
      0 < length ∧ length ≤ buffer.length ∧ length ≤ maxPayloadBytes ∧
      DatagramIo.pollSendDatagram e.destination (buffer.take length) = (.pending, destination)

end DatagramEnds

structure DatagramPumping (S D : Type) where
  ends : DatagramEnds S D
  received : ℕ := 0
  sent : ℕ := 0
  failed : Bool := false

def reportedDatagrams : DatagramPumpPoll → DatagramPumpReport
  | .ready (.ok report) => report
  | _ => {}

def isDatagramError : DatagramPumpPoll → Bool
  | .ready (.error _) => true
  | _ => false

namespace DatagramPumping
variable {S D : Type} [DatagramIo S] [DatagramIo D]

def poll (s : DatagramPumping S D) (maxPayloadBytes : ℕ) : DatagramPumping S D :=
  let r := s.ends.poll maxPayloadBytes
  { ends := r.2
    received := s.received + (reportedDatagrams r.1).received
    sent := s.sent + (reportedDatagrams r.1).sent
    failed := s.failed || isDatagramError r.1 }

def Reported (s : DatagramPumping S D) : Prop := s.received = s.sent + s.ends.pump.pendingBytes

end DatagramPumping

namespace DatagramEnds
variable {S D : Type} [DatagramIo S] [DatagramIo D]

def Refused (e : DatagramEnds S D) (maxPayloadBytes : ℕ) : Prop :=
  ∃ length destination, e.pump.pending = some length ∧ length ≤ maxPayloadBytes ∧
    DatagramIo.pollSendDatagram e.destination (e.pump.buffer.take length) = (.pending, destination)

/-- What the offer of a datagram does: it reports and moves the datagram, or fails, or is
    refused and keeps the report to itself. -/
inductive Sends (e : DatagramEnds S D) (maxPayloadBytes : ℕ) (report : DatagramPumpReport) :
    DatagramPumpPoll × DatagramEnds S D → Prop where
  | reported {e' : DatagramEnds S D} {report' : DatagramPumpReport} (same : report'.received = report.received)
      (moved : report'.sent + e'.pump.pendingBytes = e.pump.pendingBytes) (taken : ¬ e.Refused maxPayloadBytes) :
      Sends e maxPayloadBytes report (.ready (.ok report'), e')
  | failed {e' : DatagramEnds S D} (error : PumpError) : Sends e maxPayloadBytes report (.ready (.error error), e')
  | refused {e' : DatagramEnds S D} (same : e'.pump.pendingBytes = e.pump.pendingBytes)
      (refused : e.Refused maxPayloadBytes) : Sends e maxPayloadBytes report (.pending, e')

omit [DatagramIo S] in
theorem send_sends (e : DatagramEnds S D) (maxPayloadBytes : ℕ) (report : DatagramPumpReport) (hr : report.sent = 0) :
    Sends e maxPayloadBytes report (e.send maxPayloadBytes report) := by
  unfold send
  split
  · rename_i hnone
    refine .reported rfl (by simp [hr]) ?_
    rintro ⟨length, destination, hsome, -⟩
    rw [hnone] at hsome
    cases hsome
  · rename_i length hsome
    split
    · rename_i hlong
      refine .reported rfl (by simp [hr]) ?_
      rintro ⟨length', destination, hsome', hle, -⟩
      cases hsome.symm.trans hsome'
      exact absurd hlong (Nat.not_lt.mpr hle)
    · rename_i hfits
      split <;> rename_i hanswer
      · refine .reported rfl (by simp [DatagramPump.pendingBytes, hsome]) ?_
        rintro ⟨length', destination', hsome', -, hpending⟩
        cases hsome.symm.trans hsome'
        rw [hanswer] at hpending
        cases hpending
      · exact .failed _
      · exact .refused rfl ⟨length, _, hsome, Nat.not_lt.mp hfits, hanswer⟩

structure Accounts (e : DatagramEnds S D) (maxPayloadBytes lost : ℕ) : Prop where
  balance : (reportedDatagrams (e.poll maxPayloadBytes).1).received + lost + e.pump.pendingBytes =
    (reportedDatagrams (e.poll maxPayloadBytes).1).sent + (e.poll maxPayloadBytes).2.pump.pendingBytes
  withheld : lost = 0 ↔ ¬ e.Withholds maxPayloadBytes

theorem Sends.accounts {e e₀ : DatagramEnds S D} {maxPayloadBytes : ℕ}
    (hs : Sends e maxPayloadBytes {} (e₀.poll maxPayloadBytes)) (hsame : e.pump.pendingBytes = e₀.pump.pendingBytes)
    (hno : ¬ e₀.Withholds maxPayloadBytes) (hok : isDatagramError (e₀.poll maxPayloadBytes).1 = false) :
    Accounts e₀ maxPayloadBytes 0 := by
  refine ⟨?_, fun _ => hno, fun _ => rfl⟩
  generalize e₀.poll maxPayloadBytes = r at hs hok
  cases hs with
  | reported same moved taken =>
    simp only [reportedDatagrams, same]
    omega
  | failed error => cases hok
  | refused same refused =>
    simp only [reportedDatagrams]
    omega

theorem Sends.accounts_new {e e₀ : DatagramEnds S D} {maxPayloadBytes length : ℕ} {buffer : List UInt8} {source : S}
    (hs : Sends e maxPayloadBytes { received := length } (e₀.poll maxPayloadBytes))
    (hnone : e₀.pump.pending = none) (hopen : e₀.pump.sourceClosed = false)
    (hanswer : DatagramIo.pollRecvDatagram e₀.source e₀.pump.buffer =
      (.ready (.ok (.datagram length)), buffer, source)) (hfits : length ≤ buffer.length)
    (he : e = ⟨⟨buffer, some length, false⟩, source, e₀.destination⟩)
    (hok : isDatagramError (e₀.poll maxPayloadBytes).1 = false) : ∃ lost, Accounts e₀ maxPayloadBytes lost := by
  have hbefore : e₀.pump.pendingBytes = 0 := by rw [DatagramPump.pendingBytes, hnone]; rfl
  have hafter : e.pump.pendingBytes = length := by rw [he]; rfl
  -- the datagram that is withheld is the one at hand
  have hwithholds : e₀.Withholds maxPayloadBytes ↔ e.Refused maxPayloadBytes ∧ 0 < length := by
    subst he
    constructor
    · rintro ⟨-, -, length', buffer', source', destination, hanswer', hpos, -, hle, hpending⟩
      cases hanswer.symm.trans hanswer'
      exact ⟨⟨length, destination, rfl, hle, hpending⟩, hpos⟩
    · rintro ⟨⟨length', destination, hsome, hle, hpending⟩, hpos⟩
      cases hsome
      exact ⟨hnone, hopen, length, buffer, source, destination, hanswer, hpos, hfits, hle, hpending⟩
  generalize hr : e₀.poll maxPayloadBytes = r at hs hok
  cases hs with
  | reported same moved taken =>
    refine ⟨0, ?_, ?_⟩
    · rw [hr]
      simp only [reportedDatagrams, same]
      omega
    · rw [hwithholds]
      exact ⟨fun _ h => taken h.1, fun _ => rfl⟩
  | failed error => cases hok
  | refused same refused =>
    refine ⟨length, ?_, ?_⟩
    · rw [hr]
      simp only [reportedDatagrams]
      omega
    · rw [hwithholds]
      exact ⟨fun h hx => by omega, fun h => Nat.eq_zero_of_not_pos fun hpos => h ⟨refused, hpos⟩⟩

theorem poll_accounts (e : DatagramEnds S D) (maxPayloadBytes : ℕ)
    (hok : isDatagramError (e.poll maxPayloadBytes).1 = false) : ∃ lost, Accounts e maxPayloadBytes lost := by
  by_cases hzero : maxPayloadBytes = 0
  · have hpoll : e.poll maxPayloadBytes = (.pending, e) := by rw [poll, if_pos hzero]
    refine ⟨0, by rw [hpoll]; simp [reportedDatagrams], fun _ => ?_, fun _ => rfl⟩
    rintro ⟨-, -, length, buffer, source, destination, -, hpos, -, hle, -⟩
    omega
  by_cases hready : e.pump.pending.isNone ∧ e.pump.sourceClosed = false
  · have hnone : e.pump.pending = none := by simpa using hready.1
    have hpoll := poll.eq_1 e maxPayloadBytes
    rw [if_neg hzero, if_pos hready] at hpoll
    rcases hanswer : DatagramIo.pollRecvDatagram e.source e.pump.buffer with ⟨answer, buffer, source⟩
    rw [hanswer] at hpoll
    -- nothing is withheld unless the source hands out a datagram
    have hno (h : ∀ length, answer ≠ .ready (.ok (.datagram length))) : ¬ e.Withholds maxPayloadBytes := by
      rintro ⟨-, -, length, buffer', source', destination, hanswer', -⟩
      cases hanswer.symm.trans hanswer'
      exact h length rfl
    rcases answer with (error | recv) | _
    · rw [hpoll] at hok
      cases hok
    · cases recv with
      | datagram length =>
        by_cases hfits : length ≤ buffer.length
        · dsimp only at hpoll
          rw [if_pos hfits] at hpoll
          have hsends := send_sends (⟨⟨buffer, some length, e.pump.sourceClosed⟩, source, e.destination⟩ :
            DatagramEnds S D) maxPayloadBytes { received := length } rfl
          rw [← hpoll] at hsends
          exact hsends.accounts_new hnone hready.2 hanswer hfits (by rw [hready.2]) hok
        · dsimp only at hpoll
          rw [if_neg hfits] at hpoll
          rw [hpoll] at hok
          cases hok
      | bufferTooSmall required =>
        rw [hpoll] at hok
        cases hok
      | closed =>
        have hsends := send_sends (⟨⟨buffer, e.pump.pending, true⟩, source, e.destination⟩ : DatagramEnds S D)
          maxPayloadBytes {} rfl
        dsimp only at hpoll
        rw [← hpoll] at hsends
        exact ⟨0, hsends.accounts rfl (hno (by simp)) hok⟩
    · refine ⟨0, ?_, fun _ => hno (by simp), fun _ => rfl⟩
      rw [hpoll]
      simp [reportedDatagrams, DatagramPump.pendingBytes]
  · have hpoll : e.poll maxPayloadBytes = e.send maxPayloadBytes {} := by
      rw [poll, if_neg hzero, if_neg hready]
    have hsends := send_sends e maxPayloadBytes {} rfl
    rw [← hpoll] at hsends
    refine ⟨0, hsends.accounts rfl ?_ hok⟩
    rintro ⟨hnone, hopen, -⟩
    exact hready ⟨by rw [hnone]; rfl, hopen⟩

end DatagramEnds

namespace DatagramPumping
variable {S D : Type} [DatagramIo S] [DatagramIo D]

def Short (s : DatagramPumping S D) (lost : ℕ) : Prop :=
  s.received + lost = s.sent + s.ends.pump.pendingBytes

theorem run_failed {s : DatagramPumping S D} (h : s.failed = true) (budgets : List ℕ) :
    (run poll s budgets).failed = true :=
  run_always (fun s : DatagramPumping S D => s.failed = true) (fun s n h => by simp [poll, h]) h budgets

theorem run_short {s : DatagramPumping S D} {lost : ℕ} (h : s.Short lost) (budgets : List ℕ)
    (hok : (run poll s budgets).failed = false) :
    ∃ more, (run poll s budgets).Short (lost + more) ∧
      (more = 0 ↔ Guarded poll (fun s n => ¬ s.ends.Withholds n) s budgets) := by
  induction budgets generalizing s lost with
  | nil => exact ⟨0, h, fun _ => trivial, fun _ => rfl⟩
  | cons n budgets ih =>
    rw [run_cons] at hok ⊢
    have hstep : isDatagramError (s.ends.poll n).1 = false := by
      cases herror : isDatagramError (s.ends.poll n).1 with
      | false => rfl
      | true =>
        have hfailed : (s.poll n).failed = true := by simp [poll, herror]
        rw [run_failed hfailed] at hok
        cases hok
    obtain ⟨here, haccounts⟩ := s.ends.poll_accounts n hstep
    have hbalance := haccounts.balance
    have hnext : (s.poll n).Short (lost + here) := by
      unfold Short at h ⊢
      simp only [poll]
      omega
    obtain ⟨more, hshort, hiff⟩ := ih hnext hok
    refine ⟨here + more, by rw [← Nat.add_assoc]; exact hshort, ?_⟩
    rw [Guarded, ← hiff, ← haccounts.withheld]
    omega

end DatagramPumping

/-- Over any source and destination and any budgets without a failed call, the reports agree
    with the datagram at hand exactly when no call withholds a datagram it has taken. -/
theorem datagrams_reported_iff {S D : Type} [DatagramIo S] [DatagramIo D] {maxDatagramBytes : ℕ} {pump : DatagramPump}
    (hnew : DatagramPump.new maxDatagramBytes = .ok pump) (source : S) (destination : D) (budgets : List ℕ)
    (hok : (run DatagramPumping.poll ⟨⟨pump, source, destination⟩, 0, 0, false⟩ budgets).failed = false) :
    (run DatagramPumping.poll ⟨⟨pump, source, destination⟩, 0, 0, false⟩ budgets).Reported ↔
      Guarded DatagramPumping.poll (fun s n => ¬ s.ends.Withholds n) ⟨⟨pump, source, destination⟩, 0, 0, false⟩
        budgets := by
  have hempty : pump.pendingBytes = 0 := by
    unfold DatagramPump.new at hnew
    split at hnew <;> cases hnew
    rfl
  have hstart : DatagramPumping.Short (⟨⟨pump, source, destination⟩, 0, 0, false⟩ : DatagramPumping S D) 0 := by
    simp [DatagramPumping.Short, hempty]
  obtain ⟨more, hshort, hiff⟩ := DatagramPumping.run_short hstart budgets hok
  rw [← hiff]
  unfold DatagramPumping.Short at hshort
  unfold DatagramPumping.Reported
  omega

structure MemoryDatagram where
  input : List (List UInt8) := []
  output : List (List UInt8) := []
  pendingSend : Bool := false

instance : DatagramIo MemoryDatagram where
  pollRecvDatagram io output :=
    match io.input with
    | [] => (.pending, output, io)
    | datagram :: rest =>
      if output.length < datagram.length then (.ready (.ok (.bufferTooSmall datagram.length)), output, io)
      else
        (.ready (.ok (.datagram datagram.length)), datagram ++ output.drop datagram.length, { io with input := rest })
  pollSendDatagram io datagram :=
    if io.pendingSend then (.pending, { io with pendingSend := false })
    else (.ready (.ok ()), { io with output := io.output ++ [datagram] })
  recv_size io output := by
    split
    · rfl
    · split
      · rfl
      · simp only [List.length_append, List.length_drop]
        omega

theorem roomy_datagrams_reported :
    (run DatagramPumping.poll ⟨⟨⟨[0, 0, 0], none, false⟩, ({ input := [[1, 2, 3]] } : MemoryDatagram),
      ({} : MemoryDatagram)⟩, 0, 0, false⟩ [1]).Reported ∧
    (run DatagramPumping.poll ⟨⟨⟨[0, 0, 0], none, false⟩, ({ input := [[1, 2, 3]] } : MemoryDatagram),
      ({} : MemoryDatagram)⟩, 0, 0, false⟩ [1]).ends.pump.pendingBytes = 3 := by
  have hnew : DatagramPump.new 3 = .ok ⟨[0, 0, 0], none, false⟩ := rfl
  refine ⟨(datagrams_reported_iff hnew ({ input := [[1, 2, 3]] } : MemoryDatagram) ({} : MemoryDatagram) [1] rfl).mpr
    ⟨?_, trivial⟩, rfl⟩
  rintro ⟨-, -, length, buffer, source, destination, hanswer, hpos, hfits, hle, hpending⟩
  cases hanswer
  exact absurd hle (by decide)

/-- Three bytes are taken and the destination makes them wait: they are at hand and no report
    has named them. -/
theorem waiting_datagram_unreported :
    DatagramPump.new 3 = .ok ⟨[0, 0, 0], none, false⟩ ∧
    ∃ s : DatagramPumping MemoryDatagram MemoryDatagram,
      run DatagramPumping.poll
        ⟨⟨⟨[0, 0, 0], none, false⟩, { input := [[1, 2, 3]] }, { pendingSend := true }⟩, 0, 0, false⟩ [3] = s ∧
      s.failed = false ∧ s.received = 0 ∧ s.sent = 0 ∧ s.ends.pump.pendingBytes = 3 ∧ ¬ s.Reported :=
  ⟨rfl, _, rfl, rfl, rfl, rfl, rfl, by unfold DatagramPumping.Reported; decide⟩

end Snolc.Sdk
