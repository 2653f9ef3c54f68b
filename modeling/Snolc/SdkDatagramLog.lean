import Snolc.SdkDatagramPump

set_option autoImplicit false

namespace Snolc.Sdk
open PollIo GuardedRuns

structure Logged (T : Type) where
  io : T
  received : List (List UInt8) := []
  sent : List (List UInt8) := []
  closed : Bool := false

namespace Logged
variable {T : Type}

/-- A datagram is received when the answer gives its length and the buffer holds it. -/
def heard (t : Logged T) (answer : IoPoll DatagramRecv) (buffer : List UInt8) (io : T) : Logged T :=
  match answer with
  | .ready (.ok (.datagram length)) =>
    if length ≤ buffer.length then { t with io, received := t.received ++ [buffer.take length] } else { t with io }
  | .ready (.ok .closed) => { t with io, closed := true }
  | _ => { t with io }

def said (t : Logged T) (answer : IoPoll Unit) (datagram : List UInt8) (io : T) : Logged T :=
  match answer with
  | .ready (.ok ()) => { t with io, sent := t.sent ++ [datagram] }
  | _ => { t with io }

instance [DatagramIo T] : DatagramIo (Logged T) where
  pollRecvDatagram t output :=
    let r := DatagramIo.pollRecvDatagram t.io output
    (r.1, r.2.1, t.heard r.1 r.2.1 r.2.2)
  pollSendDatagram t datagram :=
    let r := DatagramIo.pollSendDatagram t.io datagram
    (r.1, t.said r.1 datagram r.2)
  recv_size t output := DatagramIo.recv_size t.io output

theorem send_taken [DatagramIo T] {t t' : Logged T} {datagram : List UInt8}
    (h : DatagramIo.pollSendDatagram t datagram = (.ready (.ok ()), t')) : t'.sent = t.sent ++ [datagram] := by
  obtain ⟨hanswer, rfl⟩ := Prod.mk.inj h
  change (DatagramIo.pollSendDatagram t.io datagram).1 = _ at hanswer
  rw [hanswer]
  rfl

theorem send_refused [DatagramIo T] {t t' : Logged T} {datagram : List UInt8} {answer : IoPoll Unit}
    (h : DatagramIo.pollSendDatagram t datagram = (answer, t')) (hno : answer ≠ .ready (.ok ())) :
    t'.sent = t.sent := by
  obtain ⟨rfl, rfl⟩ := Prod.mk.inj h
  unfold said
  split
  · rename_i hanswer
    exact absurd hanswer hno
  · rfl

theorem recv_heard [DatagramIo T] {t t' : Logged T} {output buffer : List UInt8} {answer : IoPoll DatagramRecv}
    (h : DatagramIo.pollRecvDatagram t output = (answer, buffer, t')) : ∃ io, t' = t.heard answer buffer io := by
  obtain ⟨rfl, hrest⟩ := Prod.mk.inj h
  obtain ⟨rfl, rfl⟩ := Prod.mk.inj hrest
  exact ⟨_, rfl⟩

end Logged

def DatagramPump.held (p : DatagramPump) : List (List UInt8) := (p.pending.map p.buffer.take).toList

theorem DatagramPump.held_length (p : DatagramPump) : p.held.length ≤ 1 := by
  unfold held
  cases p.pending with
  | none => exact Nat.zero_le 1
  | some length => exact Nat.le_refl 1

theorem DatagramPump.held_none {p : DatagramPump} (h : p.pending = none) : p.held = [] := by
  rw [held, h]
  rfl

theorem DatagramPump.held_some {p : DatagramPump} {length : ℕ} (h : p.pending = some length) :
    p.held = [p.buffer.take length] := by
  rw [held, h]
  rfl

namespace DatagramEnds
variable {S D : Type} [DatagramIo S] [DatagramIo D]

def EndReported (r : DatagramPumpPoll × DatagramEnds (Logged S) (Logged D)) : Prop :=
  ∀ report, r.1 = .ready (.ok report) → report.finished = true → r.2.pump.isFinished = true

structure Offered (e : DatagramEnds (Logged S) (Logged D)) (maxPayloadBytes : ℕ)
    (r : DatagramPumpPoll × DatagramEnds (Logged S) (Logged D)) : Prop where
  source : r.2.source = e.source
  closed : r.2.pump.sourceClosed = e.pump.sourceClosed
  sent : ∃ new, r.2.destination.sent = e.destination.sent ++ new ∧ e.pump.held = new ++ r.2.pump.held ∧
    ∀ datagram ∈ new, datagram.length ≤ maxPayloadBytes
  finished : EndReported r

omit [DatagramIo S] in
theorem send_offered (e : DatagramEnds (Logged S) (Logged D)) (maxPayloadBytes : ℕ) (report : DatagramPumpReport)
    (hr : report.finished = false) : Offered e maxPayloadBytes (e.send maxPayloadBytes report) := by
  unfold send
  split
  · rename_i hnone
    refine ⟨rfl, rfl, ⟨[], by simp, rfl, by simp⟩, ?_⟩
    intro report' h hfinished
    cases h
    exact hfinished
  · rename_i length hsome
    split
    · refine ⟨rfl, rfl, ⟨[], by simp, rfl, by simp⟩, ?_⟩
      intro report' h hfinished
      cases h
      rw [hr] at hfinished
      cases hfinished
    · rename_i hfits
      have hheld := DatagramPump.held_some hsome
      split <;> rename_i hanswer
      · refine ⟨rfl, rfl, ⟨[e.pump.buffer.take length], Logged.send_taken hanswer, ?_, ?_⟩, ?_⟩
        · rw [hheld, DatagramPump.held_none rfl, List.append_nil]
        · intro datagram hdatagram
          rw [List.mem_singleton.mp hdatagram, List.length_take]
          omega
        · intro report' h hfinished
          cases h
          exact hfinished
      · refine ⟨rfl, rfl, ⟨[], ?_, rfl, by simp⟩, ?_⟩
        · rw [List.append_nil]
          exact Logged.send_refused hanswer (by simp)
        · intro report' h
          cases h
      · refine ⟨rfl, rfl, ⟨[], ?_, rfl, by simp⟩, ?_⟩
        · rw [List.append_nil]
          exact Logged.send_refused hanswer (by simp)
        · intro report' h
          cases h

/-- Every datagram received is sent or at hand, and the pump takes its source for closed only
when the source has said so. -/
structure Kept (e : DatagramEnds (Logged S) (Logged D)) : Prop where
  balance : e.source.received = e.destination.sent ++ e.pump.held
  closed : e.pump.sourceClosed = true → e.source.closed = true

structure Polled (e : DatagramEnds (Logged S) (Logged D)) (maxPayloadBytes : ℕ)
    (r : DatagramPumpPoll × DatagramEnds (Logged S) (Logged D)) : Prop where
  kept : Kept r.2
  sent : ∃ new, r.2.destination.sent = e.destination.sent ++ new ∧ ∀ datagram ∈ new, datagram.length ≤ maxPayloadBytes
  finished : EndReported r

omit [DatagramIo S] [DatagramIo D] in
theorem Offered.polled {e e' : DatagramEnds (Logged S) (Logged D)} {maxPayloadBytes : ℕ}
    {r : DatagramPumpPoll × DatagramEnds (Logged S) (Logged D)} (h : Offered e' maxPayloadBytes r) (hkept : Kept e')
    (hsame : e'.destination = e.destination) : Polled e maxPayloadBytes r := by
  obtain ⟨new, hsent, hheld, hshort⟩ := h.sent
  refine ⟨⟨?_, ?_⟩, ⟨new, ?_, hshort⟩, h.finished⟩
  · rw [h.source, hkept.balance, hheld, hsent, List.append_assoc]
  · rw [h.source, h.closed]
    exact hkept.closed
  · rw [hsent, hsame]

omit [DatagramIo S] [DatagramIo D] in
theorem Kept.polled {e e' : DatagramEnds (Logged S) (Logged D)} {maxPayloadBytes : ℕ} {answer : DatagramPumpPoll}
    (hkept : Kept e') (hsame : e'.destination = e.destination) (hno : ∀ report, answer ≠ .ready (.ok report)) :
    Polled e maxPayloadBytes (answer, e') := by
  refine ⟨hkept, ⟨[], ?_, by simp⟩, ?_⟩
  · rw [hsame, List.append_nil]
  · intro report h
    exact absurd h (hno report)

theorem poll_polled {e : DatagramEnds (Logged S) (Logged D)} (hkept : Kept e) (maxPayloadBytes : ℕ) :
    Polled e maxPayloadBytes (e.poll maxPayloadBytes) := by
  unfold poll
  split
  · exact hkept.polled rfl (by simp)
  split
  · rename_i hready
    have hnone : e.pump.pending = none := by simpa using hready.1
    have hbalance : e.source.received = e.destination.sent := by
      rw [hkept.balance, DatagramPump.held_none hnone, List.append_nil]
    rcases hanswer : DatagramIo.pollRecvDatagram e.source e.pump.buffer with ⟨answer, buffer, source⟩
    obtain ⟨io, rfl⟩ := Logged.recv_heard hanswer
    -- an answer without a datagram leaves the received ones as they are
    have hsilent : ∀ source : Logged S, source.received = e.source.received → source.closed = e.source.closed →
        Kept ⟨⟨buffer, e.pump.pending, e.pump.sourceClosed⟩, source, e.destination⟩ := by
      intro source hreceived hclosed
      refine ⟨?_, ?_⟩
      · have hheld : DatagramPump.held ⟨buffer, e.pump.pending, e.pump.sourceClosed⟩ = [] :=
          DatagramPump.held_none hnone
        rw [hreceived, hbalance, hheld, List.append_nil]
      · rw [hclosed]
        exact hkept.closed
    rcases answer with (error | recv) | _
    · refine Kept.polled (hsilent _ rfl rfl) rfl ?_
      simp
    · cases recv with
      | datagram length =>
        dsimp only
        split
        · rename_i hfits
          refine Offered.polled (send_offered _ maxPayloadBytes _ rfl) ⟨?_, ?_⟩ rfl
          · simp only [Logged.heard, if_pos hfits, hbalance]
            rw [DatagramPump.held_some rfl]
          · simp only [Logged.heard, if_pos hfits]
            exact hkept.closed
        · rename_i hlong
          refine Kept.polled (hsilent _ ?_ ?_) rfl ?_
          · simp only [Logged.heard, if_neg hlong]
          · simp only [Logged.heard, if_neg hlong]
          · simp
      | bufferTooSmall required =>
        refine Kept.polled (hsilent _ rfl rfl) rfl ?_
        simp
      | closed =>
        dsimp only
        refine Offered.polled (send_offered _ maxPayloadBytes _ rfl) ⟨?_, fun _ => rfl⟩ rfl
        have hheld : DatagramPump.held ⟨buffer, e.pump.pending, true⟩ = [] := DatagramPump.held_none hnone
        rw [hheld, List.append_nil]
        exact hbalance
    · refine Kept.polled (hsilent _ rfl rfl) rfl ?_
      simp
  · exact (send_offered e maxPayloadBytes {} rfl).polled hkept rfl

def next (e : DatagramEnds S D) (maxPayloadBytes : ℕ) : DatagramEnds S D := (e.poll maxPayloadBytes).2

theorem run_kept {e : DatagramEnds (Logged S) (Logged D)} (h : Kept e) (budgets : List ℕ) : Kept (run next e budgets) :=
  run_always Kept (fun _ n h => (poll_polled h n).kept) h budgets

end DatagramEnds

/-- Over any source and destination and after any budgets, the datagrams sent are a beginning of
those received and at most one is missing, the one at hand. The next call, with any budget, sends
nothing longer than its budget, and it reports the end only when the source has closed and
nothing is at hand. -/
theorem datagrams_preserved {S D : Type} [DatagramIo S] [DatagramIo D] {maxDatagramBytes : ℕ} {pump : DatagramPump}
    (hnew : DatagramPump.new maxDatagramBytes = .ok pump) (source : S) (destination : D) (budgets : List ℕ)
    (e : DatagramEnds (Logged S) (Logged D))
    (he : run DatagramEnds.next ⟨pump, { io := source }, { io := destination }⟩ budgets = e) :
    e.destination.sent <+: e.source.received ∧
    e.source.received = e.destination.sent ++ e.pump.held ∧ e.pump.held.length ≤ 1 ∧
    ∀ maxPayloadBytes,
      (∃ new, (e.poll maxPayloadBytes).2.destination.sent = e.destination.sent ++ new ∧
        ∀ datagram ∈ new, datagram.length ≤ maxPayloadBytes) ∧
      ∀ report, (e.poll maxPayloadBytes).1 = .ready (.ok report) → report.finished = true →
        (e.poll maxPayloadBytes).2.source.closed = true ∧ (e.poll maxPayloadBytes).2.pump.held = [] := by
  have hfresh : pump.pending = none ∧ pump.sourceClosed = false := by
    unfold DatagramPump.new at hnew
    split at hnew <;> cases hnew
    exact ⟨rfl, rfl⟩
  have hstart : DatagramEnds.Kept ⟨pump, ({ io := source } : Logged S), ({ io := destination } : Logged D)⟩ := by
    refine ⟨?_, ?_⟩
    · rw [DatagramPump.held_none hfresh.1]
      rfl
    · intro hclosed
      rw [hfresh.2] at hclosed
      cases hclosed
  have hkept : e.Kept := he ▸ DatagramEnds.run_kept hstart budgets
  refine ⟨⟨_, hkept.balance.symm⟩, hkept.balance, e.pump.held_length, ?_⟩
  intro maxPayloadBytes
  have hpoll := DatagramEnds.poll_polled hkept maxPayloadBytes
  refine ⟨hpoll.sent, ?_⟩
  intro report hreport hfinished
  have hend := hpoll.finished report hreport hfinished
  simp only [DatagramPump.isFinished, Bool.and_eq_true, Option.isNone_iff_eq_none] at hend
  exact ⟨hpoll.kept.closed hend.1, DatagramPump.held_none hend.2⟩

def sampleEnds : DatagramEnds (Logged MemoryDatagram) (Logged MemoryDatagram) where
  pump := ⟨[0, 0, 0], none, false⟩
  source := { io := { input := [[], [1, 2]] } }
  destination := { io := { pendingSend := true } }

/-- The empty datagram goes in the second call; the other one is over the last budget. -/
theorem sample_datagrams_preserved :
    (run DatagramEnds.next sampleEnds [3, 3, 1]).destination.sent = [[]] ∧
    (run DatagramEnds.next sampleEnds [3, 3, 1]).pump.held = [[1, 2]] ∧
    (run DatagramEnds.next sampleEnds [3, 3, 1]).source.received =
      (run DatagramEnds.next sampleEnds [3, 3, 1]).destination.sent ++
        (run DatagramEnds.next sampleEnds [3, 3, 1]).pump.held := by
  have hnew : DatagramPump.new 3 = .ok sampleEnds.pump := rfl
  refine ⟨by decide, by decide, ?_⟩
  exact (datagrams_preserved hnew sampleEnds.source.io sampleEnds.destination.io [3, 3, 1]
    (run DatagramEnds.next sampleEnds [3, 3, 1]) rfl).2.1

end Snolc.Sdk
