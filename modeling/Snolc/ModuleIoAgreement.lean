import Snolc.ModuleIo

set_option autoImplicit false

namespace Snolc.ModuleIo
open PollIo CoreIo
open Sdk (DatagramIo DatagramRecv)

/-- What a caller can tell of an answer: errors are not told apart. -/
def outcome {α : Type} (answer : IoPoll α) : Poll (Option α) := answer.map Except.toOption

def zeroWrite (input : List UInt8) : IoPoll ℕ → IoPoll ℕ
  | .ready (.ok count) => if count = 0 ∧ input.length ≠ 0 then .ready (.error ⟨.writeZero, ""⟩) else .ready (.ok count)
  | answer => answer

theorem mapIo_readResult {length : ℕ} {answer : IoPoll ℕ} (h : ∀ count, answer = .ready (.ok count) → count ≤ length) :
    outcome (mapIo (Objects.readResult length answer) length true) = outcome answer := by
  rcases answer with (e | count) | _
  · rfl
  · have hle := h count rfl
    by_cases hzero : count = 0
    · subst hzero
      rfl
    · simp [Objects.readResult, hzero, hle, mapIo, SnolIoResult.progress]
  · rfl

theorem mapIo_writeResult {input : List UInt8} {answer : IoPoll ℕ}
    (h : ∀ count, answer = .ready (.ok count) → count ≤ input.length) :
    outcome (mapIo (.ofIoResult (writeResult input.length answer)) input.length false) =
      outcome (zeroWrite input answer) := by
  rcases answer with (e | count) | _
  · rfl
  · have hle := h count rfl
    by_cases hzero : count = 0 ∧ input.length ≠ 0
    · rw [writeResult, zeroWrite, if_pos hzero, if_pos hzero]
      rfl
    · rw [writeResult, zeroWrite, if_neg hzero, if_neg hzero, if_pos hle]
      simp [SnolIoResult.ofIoResult, mapIo, SnolIoResult.progress, hle]
  · rfl

theorem mapAction_actionResult (answer : IoPoll Unit) :
    outcome (mapAction (Objects.actionResult answer)) = outcome answer := by
  rcases answer with (e | _) | _ <;> rfl

theorem mapRecv_recvResult {length : ℕ} {answer : IoPoll DatagramRecv}
    (h : ∀ count, answer = .ready (.ok (.datagram count)) → count ≤ length) :
    outcome (mapRecv (Objects.recvResult length answer) length) = outcome answer := by
  rcases answer with (e | ⟨count⟩ | ⟨required⟩ | _) | _
  · rfl
  · have hle := h count rfl
    simp [Objects.recvResult, mapRecv, SnolIoResult.progress, hle]
  · rfl
  · rfl
  · rfl

theorem mapSend_sendResult (length : ℕ) (answer : IoPoll Unit) :
    outcome (mapSend (Objects.sendResult length answer) length) = outcome answer := by
  rcases answer with (e | _) | _
  · rfl
  · simp [Objects.sendResult, mapSend, SnolIoResult.progress]
  · rfl

section
variable (S D : Type) [ByteStream S] [DatagramPort D]

structure ByteWrapper where
  io : ForeignByteIo (Objects S D)
  made : ForeignByteIo.fromRaw io.handle (some coreByteIo) = .ok io

structure DatagramWrapper where
  io : ForeignDatagramIo (Objects S D)
  made : ForeignDatagramIo.fromRaw io.handle (some coreDatagramIo) = .ok io

inductive Call where
  | read (w : ByteWrapper S D) (output : List UInt8)
  | write (w : ByteWrapper S D) (input : List UInt8)
  | flush (w : ByteWrapper S D)
  | shutdownWrite (w : ByteWrapper S D)
  | recvDatagram (w : DatagramWrapper S D) (output : List UInt8)
  | sendDatagram (w : DatagramWrapper S D) (datagram : List UInt8)

end

inductive Answer where
  | read (outcome : Poll (Option ℕ)) (output : List UInt8)
  | write (outcome : Poll (Option ℕ))
  | action (outcome : Poll (Option Unit))
  | received (outcome : Poll (Option DatagramRecv)) (output : List UInt8)
  | sent (outcome : Poll (Option Unit))
  deriving DecidableEq, Repr

variable {S D : Type} [ByteStream S] [DatagramPort D]

def direct (o : Objects S D) : Call S D → Option (Answer × Objects S D)
  | .read w output => (o.streams w.io.handle).map fun io =>
    let r := ByteStream.pollRead io output
    (.read (outcome r.1) r.2.1, o.putStream w.io.handle r.2.2)
  | .write w input => (o.streams w.io.handle).map fun io =>
    let r := ByteStream.pollWrite io input
    (.write (outcome (zeroWrite input r.1)), o.putStream w.io.handle r.2)
  | .flush w => (o.streams w.io.handle).map fun io =>
    let r := ByteStream.pollFlush io
    (.action (outcome r.1), o.putStream w.io.handle r.2)
  | .shutdownWrite w => (o.streams w.io.handle).map fun io =>
    let r := ByteStream.pollClose io
    (.action (outcome r.1), o.putStream w.io.handle r.2)
  | .recvDatagram w output => (o.datagrams w.io.handle).map fun io =>
    let r := DatagramIo.pollRecvDatagram io output
    (.received (outcome r.1) r.2.1, o.putDatagrams w.io.handle r.2.2)
  | .sendDatagram w datagram => (o.datagrams w.io.handle).map fun io =>
    let r := DatagramIo.pollSendDatagram io datagram
    (.sent (outcome r.1), o.putDatagrams w.io.handle r.2)

def foreign (o : Objects S D) : Call S D → Option (Answer × Objects S D)
  | .read w output => (w.io.pollRead o output).map fun r => (.read (outcome r.1) r.2.1, r.2.2)
  | .write w input => (w.io.pollWrite o input).map fun r => (.write (outcome r.1), r.2)
  | .flush w => (w.io.pollFlush o).map fun r => (.action (outcome r.1), r.2)
  | .shutdownWrite w => (w.io.pollShutdownWrite o).map fun r => (.action (outcome r.1), r.2)
  | .recvDatagram w output => (w.io.pollRecvDatagram o output).map fun r => (.received (outcome r.1) r.2.1, r.2.2)
  | .sendDatagram w datagram => (w.io.pollSendDatagram o datagram).map fun r => (.sent (outcome r.1), r.2)

def Objects.Registered (o : Objects S D) : Call S D → Prop
  | .read w _ | .write w _ | .flush w | .shutdownWrite w => (o.streams w.io.handle).isSome
  | .recvDatagram w _ | .sendDatagram w _ => (o.datagrams w.io.handle).isSome

omit [DatagramPort D] in
theorem ByteWrapper.table_eq (w : ByteWrapper S D) : w.io.table = coreByteIo := by
  have hmade := w.made
  unfold ForeignByteIo.fromRaw at hmade
  split at hmade
  · cases hmade
  · next value htable =>
    split at hmade
    · cases hmade
    · rw [Option.some.inj htable, ← Except.ok.inj hmade]

omit [ByteStream S] in
theorem DatagramWrapper.table_eq (w : DatagramWrapper S D) : w.io.table = coreDatagramIo := by
  have hmade := w.made
  unfold ForeignDatagramIo.fromRaw at hmade
  split at hmade
  · cases hmade
  · next value htable =>
    split at hmade
    · cases hmade
    · rw [Option.some.inj htable, ← Except.ok.inj hmade]

theorem foreign_call (o : Objects S D) (call : Call S D) {r : Answer × Objects S D} (h : direct o call = some r) :
    foreign o call = some r := by
  cases call with
  | read w output =>
    obtain ⟨io, hio, rfl⟩ := Option.map_eq_some_iff.mp h
    simp only [foreign, ForeignByteIo.pollRead, w.table_eq, coreByteIo, Option.map_some, Objects.read, hio]
    rw [mapIo_readResult (ByteStream.read_le io output)]
  | write w input =>
    obtain ⟨io, hio, rfl⟩ := Option.map_eq_some_iff.mp h
    simp only [foreign, ForeignByteIo.pollWrite, w.table_eq, coreByteIo, Option.map_some, Objects.write, hio]
    rw [mapIo_writeResult (ByteStream.write_le io input)]
  | flush w =>
    obtain ⟨io, hio, rfl⟩ := Option.map_eq_some_iff.mp h
    simp only [foreign, ForeignByteIo.pollFlush, w.table_eq, coreByteIo, Option.map_some, Objects.flush,
      Objects.action, hio, mapAction_actionResult]
  | shutdownWrite w =>
    obtain ⟨io, hio, rfl⟩ := Option.map_eq_some_iff.mp h
    simp only [foreign, ForeignByteIo.pollShutdownWrite, w.table_eq, coreByteIo, Option.map_some,
      Objects.shutdownWrite, Objects.action, hio, mapAction_actionResult]
  | recvDatagram w output =>
    obtain ⟨io, hio, rfl⟩ := Option.map_eq_some_iff.mp h
    simp only [foreign, ForeignDatagramIo.pollRecvDatagram, w.table_eq, coreDatagramIo, Option.map_some,
      Objects.recvDatagram, hio]
    rw [mapRecv_recvResult (DatagramPort.recv_le io output)]
  | sendDatagram w datagram =>
    obtain ⟨io, hio, rfl⟩ := Option.map_eq_some_iff.mp h
    simp only [foreign, ForeignDatagramIo.pollSendDatagram, w.table_eq, coreDatagramIo, Option.map_some,
      Objects.sendDatagram, hio, mapSend_sendResult]

def run (step : Objects S D → Call S D → Option (Answer × Objects S D)) :
    Objects S D → List (Call S D) → Option (List Answer × Objects S D)
  | o, [] => some ([], o)
  | o, call :: calls => do
    let (answer, o) ← step o call
    let (answers, o) ← run step o calls
    some (answer :: answers, o)

theorem run_mono {step step' : Objects S D → Call S D → Option (Answer × Objects S D)}
    (hstep : ∀ o call r, step o call = some r → step' o call = some r) {o : Objects S D}
    {calls : List (Call S D)} {r : List Answer × Objects S D} (h : run step o calls = some r) :
    run step' o calls = some r := by
  induction calls generalizing o r with
  | nil => exact h
  | cons call calls ih =>
    simp only [run, Option.bind_eq_bind, Option.bind_eq_some_iff, Prod.exists, Option.some.injEq] at h ⊢
    obtain ⟨answer, o', hcall, answers, o'', hrest, rfl⟩ := h
    exact ⟨answer, o', hstep o call _ hcall, answers, o'', ih hrest, rfl⟩

theorem direct_registered {o : Objects S D} {call : Call S D} (h : o.Registered call) :
    ∃ r, direct o call = some r := by
  cases call with
  | read | write | flush | shutdownWrite | recvDatagram | sendDatagram =>
    obtain ⟨io, hio⟩ := Option.isSome_iff_exists.mp h
    exact ⟨_, Option.map_eq_some_iff.mpr ⟨io, hio, rfl⟩⟩

theorem update_isSome {T : Type} {table : Handle → Option T} {handle : Handle} (h : (table handle).isSome)
    (handle' : Handle) (io : T) : (Function.update table handle' (some io) handle).isSome := by
  by_cases heq : handle = handle'
  · rw [heq, Function.update_self, Option.isSome_some]
  · rw [Function.update_of_ne heq]
    exact h

theorem direct_keeps {o : Objects S D} {call call' : Call S D} {r : Answer × Objects S D}
    (h : direct o call = some r) (hreg : o.Registered call') : r.2.Registered call' := by
  cases call with
  | read | write | flush | shutdownWrite =>
    obtain ⟨io, -, rfl⟩ := Option.map_eq_some_iff.mp h
    cases call' with
    | read | write | flush | shutdownWrite => exact update_isSome hreg _ _
    | recvDatagram | sendDatagram => exact hreg
  | recvDatagram | sendDatagram =>
    obtain ⟨io, -, rfl⟩ := Option.map_eq_some_iff.mp h
    cases call' with
    | read | write | flush | shutdownWrite => exact hreg
    | recvDatagram | sendDatagram => exact update_isSome hreg _ _

theorem direct_run {o : Objects S D} {calls : List (Call S D)} (h : ∀ call ∈ calls, o.Registered call) :
    ∃ r, run direct o calls = some r := by
  induction calls generalizing o with
  | nil => exact ⟨_, rfl⟩
  | cons call calls ih =>
    obtain ⟨⟨answer, o'⟩, hcall⟩ := direct_registered (h call List.mem_cons_self)
    obtain ⟨⟨answers, o''⟩, hrest⟩ := ih fun call' hmem => direct_keeps hcall (h call' (List.mem_cons_of_mem _ hmem))
    exact ⟨(answer :: answers, o''), by simp [run, hcall, hrest]⟩

/-- Any sequence of calls on any wrappers gives, answer by answer, what the same calls give on the objects. -/
theorem foreign_agrees (o : Objects S D) (calls : List (Call S D)) (h : ∀ call ∈ calls, o.Registered call) :
    ∃ r, run direct o calls = some r ∧ run foreign o calls = some r := by
  obtain ⟨r, hr⟩ := direct_run h
  exact ⟨r, hr, run_mono (fun o call r => foreign_call o call) hr⟩

/-- A stream that hands out what it holds and takes at most two bytes at a time. -/
structure Pipe where
  held : List UInt8

instance : ByteStream Pipe where
  pollRead t output :=
    let bytes := t.held.take output.length
    (.ready (.ok bytes.length), bytes ++ output.drop bytes.length, ⟨t.held.drop output.length⟩)
  pollWrite t input := (.ready (.ok (min input.length 2)), ⟨t.held ++ input.take 2⟩)
  pollFlush t := (.pending, t)
  pollClose t := (.ready (.error ⟨.brokenPipe, ""⟩), t)
  read_size t output := by
    simp only [List.length_append, List.length_drop, List.length_take]
    omega
  read_le t output count h := by
    simp only [Poll.ready.injEq, Except.ok.injEq, List.length_take] at h
    omega
  write_le t input count h := by
    simp only [Poll.ready.injEq, Except.ok.injEq] at h
    omega

structure Parcel where
  datagram : Option (List UInt8)

def Parcel.pollRecvDatagram (t : Parcel) (output : List UInt8) : IoPoll DatagramRecv × List UInt8 × Parcel :=
  match t.datagram with
  | none => (.ready (.ok .closed), output, t)
  | some bytes =>
    if bytes.length ≤ output.length then
      (.ready (.ok (.datagram bytes.length)), bytes ++ output.drop bytes.length, ⟨none⟩)
    else (.ready (.ok (.bufferTooSmall bytes.length)), output, t)

theorem Parcel.recv_size (t : Parcel) (output : List UInt8) :
    (t.pollRecvDatagram output).2.1.length = output.length := by
  unfold Parcel.pollRecvDatagram
  split
  · rfl
  · split
    · simp
      omega
    · rfl

theorem Parcel.recv_le (t : Parcel) (output : List UInt8) (length : ℕ)
    (h : (t.pollRecvDatagram output).1 = .ready (.ok (.datagram length))) : length ≤ output.length := by
  unfold Parcel.pollRecvDatagram at h
  split at h
  · cases h
  · split at h
    · cases h
      assumption
    · cases h

instance : DatagramPort Parcel where
  pollRecvDatagram := Parcel.pollRecvDatagram
  pollSendDatagram _ datagram := (.ready (.ok ()), ⟨some datagram⟩)
  recv_size := Parcel.recv_size
  recv_le := Parcel.recv_le

def samplePipe : ByteWrapper Pipe Parcel := ⟨⟨1, coreByteIo, false⟩, by rfl⟩

def sampleParcel : DatagramWrapper Pipe Parcel := ⟨⟨2, coreDatagramIo, false⟩, by rfl⟩

def sampleObjects : Objects Pipe Parcel where
  streams handle := if handle = 1 then some ⟨[7]⟩ else none
  datagrams handle := if handle = 2 then some ⟨some []⟩ else none

theorem sample_agrees :
    ∃ r, run direct sampleObjects [.read samplePipe [0, 0], .recvDatagram sampleParcel [], .flush samplePipe,
        .recvDatagram sampleParcel [0]] = some r ∧
      run foreign sampleObjects [.read samplePipe [0, 0], .recvDatagram sampleParcel [], .flush samplePipe,
        .recvDatagram sampleParcel [0]] = some r :=
  foreign_agrees _ _ (by
    intro call h
    simp only [List.mem_cons, List.not_mem_nil, or_false] at h
    rcases h with rfl | rfl | rfl | rfl <;> rfl)

end Snolc.ModuleIo
