import Snolc.MuxOutbound

set_option autoImplicit false

namespace Snolc.Mux
open PollIo SlotTable MuxFrame

def flat (sent : List Frame) : List UInt8 := sent.flatMap Frame.bytes

theorem flat_snoc (sent : List Frame) (f : Frame) : flat (sent ++ [f]) = flat sent ++ f.bytes := by
  simp [flat]

namespace PendingWrite

def frame (w : PendingWrite) : Frame := ⟨w.kind, w.stream, w.bytes.drop muxHeaderBytes⟩

structure Sound (w : PendingWrite) : Prop where
  bytes : w.frame.bytes = w.bytes
  accepted : w.accepted = w.frame.payload.length
  unsent : w.offset < w.bytes.length

theorem ofFrame_frame (f : Frame) (n : ℕ) : (ofFrame f n).frame = f := by
  cases f
  simp [ofFrame, frame, Frame.bytes, List.drop_left' (Frame.headerBytes_length _)]

theorem ofFrame_sound (f : Frame) : (ofFrame f f.payload.length).Sound := by
  refine ⟨by rw [ofFrame_frame]; rfl, by rw [ofFrame_frame]; rfl, ?_⟩
  have h9 : muxHeaderBytes = 9 := rfl
  simp only [ofFrame, Frame.bytes_length]
  omega

end PendingWrite

def StreamState.queued (state : StreamState) : List UInt8 := state.input.flatten.drop state.offset

/-- Chunks are all empty or all nonempty, so a used up chunk has nothing behind it. -/
theorem StreamState.queued_of_used {state : StreamState} {rest : List (List UInt8)} {split : ℕ}
    (hchunk : ∀ chunk ∈ state.input, chunk = [] ↔ split = 0) (hi : state.input = [] :: rest) :
    state.queued = [] := by
  have hzero : split = 0 := (hchunk [] (by rw [hi]; exact List.mem_cons_self)).mp rfl
  have hall : state.input.flatten = [] := by
    rw [List.flatten_eq_nil_iff]
    exact fun chunk hm => (hchunk chunk hm).mpr hzero
  rw [StreamState.queued, hall, List.drop_nil]

namespace Connection
variable {T : Type}

def incoming (c : Connection T) (id : StreamId) : Option (List (List UInt8) × ℕ × Bool) :=
  (c.stream id).map (fun s => (s.input, s.offset, s.eof))

def unread (c : Connection T) : ℕ := total (fun state => state.queued.length) c.streams

/-- Acknowledgement a stream will find once the pending frame is out. -/
def acknowledged (c : Connection T) (id : StreamId) : ℕ :=
  match c.write with
  | some w =>
    if w.kind = .frameData ∧ w.accepted ≠ 0 ∧ w.stream = id ∧ (c.stream id).isSome then w.accepted
    else c.completed id
  | none => c.completed id

def unsent (c : Connection T) : List UInt8 := c.write.elim [] (fun w => w.bytes.drop w.offset)

theorem completed_setCompleted (c : Connection T) (id other : StreamId) (n : ℕ) :
    (c.modifyStream id (fun state => { state with completedWrite := n })).completed other =
      if id = other ∧ (c.stream other).isSome then n else c.completed other := by
  unfold completed
  rw [stream_modifyStream]
  by_cases h : id = other
  · subst h
    cases c.stream id <;> simp
  · simp [h]

theorem acknowledged_idle {c : Connection T} (h : c.write = none) (id : StreamId) :
    c.acknowledged id = c.completed id := by
  simp [acknowledged, h]

@[simp] theorem completeWrite_write (c : Connection T) (w : PendingWrite) :
    (c.completeWrite w).write = none := by
  unfold completeWrite
  dsimp only
  split <;> rfl

@[simp] theorem completeWrite_io (c : Connection T) (w : PendingWrite) :
    (c.completeWrite w).io = c.io := by
  unfold completeWrite
  dsimp only
  split <;> rfl

@[simp] theorem completeWrite_controls (c : Connection T) (w : PendingWrite) :
    (c.completeWrite w).controls = c.controls := by
  unfold completeWrite
  dsimp only
  split <;> rfl

theorem completed_completeWrite (c : Connection T) (w : PendingWrite) (hw : c.write = some w)
    (id : StreamId) : (c.completeWrite w).completed id = c.acknowledged id := by
  unfold completeWrite acknowledged
  rw [hw]
  dsimp only
  split
  · rename_i h
    rw [completed_setCompleted]
    simp only [h, ne_eq, not_false_eq_true, true_and]
    rfl
  · rename_i h
    rw [if_neg (fun h' => h ⟨h'.1, h'.2.1⟩)]
    rfl

variable [TracedIo T]

structure Outbox (c : Connection T) (sent : List Frame) : Prop where
  io : c.io.isSome
  wire : c.sentBytes ++ c.unsent = flat sent
  pending : ∀ w, c.write = some w → w.Sound ∧ ∃ done, sent = done ++ [w.frame]

structure SameInbound (c d : Connection T) : Prop where
  io : d.io.isSome = c.io.isSome
  taken : d.takenBytes = c.takenBytes
  inbound : d.inbound = c.inbound
  next : d.nextStream = c.nextStream
  split : d.splitSendSize = c.splitSendSize
  limit : d.receiveLimit = c.receiveLimit
  buffered : d.receivedBytes = c.receivedBytes
  header : d.readHeader = c.readHeader
  headerOffset : d.readHeaderOffset = c.readHeaderOffset
  frame : d.readFrame = c.readFrame
  closed : d.closed = c.closed
  slots : d.streams.length = c.streams.length
  incoming : ∀ id, d.incoming id = c.incoming id
  unread : d.unread = c.unread

theorem SameInbound.refl (c : Connection T) : SameInbound c c :=
  ⟨rfl, rfl, rfl, rfl, rfl, rfl, rfl, rfl, rfl, rfl, rfl, rfl, fun _ => rfl, rfl⟩

theorem SameInbound.trans {a b c : Connection T} (h : SameInbound a b) (h' : SameInbound b c) :
    SameInbound a c where
  io := h'.io.trans h.io
  taken := h'.taken.trans h.taken
  inbound := h'.inbound.trans h.inbound
  next := h'.next.trans h.next
  split := h'.split.trans h.split
  limit := h'.limit.trans h.limit
  buffered := h'.buffered.trans h.buffered
  header := h'.header.trans h.header
  headerOffset := h'.headerOffset.trans h.headerOffset
  frame := h'.frame.trans h.frame
  closed := h'.closed.trans h.closed
  slots := h'.slots.trans h.slots
  incoming id := (h'.incoming id).trans (h.incoming id)
  unread := h'.unread.trans h.unread

theorem SameInbound.isSome {c d : Connection T} (h : SameInbound c d) (id : StreamId) :
    (d.stream id).isSome = (c.stream id).isSome := by
  have hi := congrArg Option.isSome (h.incoming id)
  simpa [Connection.incoming] using hi

theorem sending_inbound {c : Connection T} {io io' : T} (hio : c.io = some io)
    (hr : TracedIo.received io' = TracedIo.received io) (write : Option PendingWrite)
    (controls : List (FrameKind × StreamId)) :
    SameInbound c { c with io := some io', write := write, controls := controls } :=
  ⟨by simp [hio], by simp [takenBytes, hio, hr], rfl, rfl, rfl, rfl, rfl, rfl, rfl, rfl, rfl, rfl,
    fun _ => rfl, rfl⟩

theorem setWrite_inbound (c : Connection T) (write : Option PendingWrite)
    (controls : List (FrameKind × StreamId)) :
    SameInbound c { c with write := write, controls := controls } :=
  ⟨rfl, rfl, rfl, rfl, rfl, rfl, rfl, rfl, rfl, rfl, rfl, rfl, fun _ => rfl, rfl⟩

theorem setCompleted_inbound (c : Connection T) (id : StreamId) (n : ℕ) :
    SameInbound c (c.modifyStream id (fun state => { state with completedWrite := n })) := by
  refine ⟨rfl, rfl, rfl, rfl, rfl, rfl, rfl, rfl, rfl, rfl, rfl, ?_, fun other => ?_, ?_⟩
  · exact update_length _ _ _
  · unfold incoming
    rw [stream_modifyStream]
    split
    · cases c.stream other <;> rfl
    · rfl
  · cases hs : slot c.streams id.toNat with
    | none => exact total_update_none _ _ hs
    | some state =>
      have ht := total_update (fun state => state.queued.length)
        (fun state => { state with completedWrite := n }) hs
      exact Nat.add_right_cancel ht

theorem completeWrite_inbound (c : Connection T) (w : PendingWrite) :
    SameInbound c (c.completeWrite w) := by
  unfold completeWrite
  dsimp only
  split
  · exact (setWrite_inbound c none c.controls).trans (setCompleted_inbound _ _ _)
  · exact setWrite_inbound c none c.controls

/-- What a flush does besides moving bytes: it either finishes the pending frame,
    which acknowledges it, or stops inside that frame without success. -/
inductive Flushed (c d : Connection T) (result : IoPoll Unit) : Prop where
  | finished (hwrite : d.write = none) (hack : ∀ id, d.completed id = c.acknowledged id)
  | blocked (w : PendingWrite) (k : ℕ) (hw : c.write = some w)
      (hwrite : d.write = some { w with offset := w.offset + k })
      (hresult : result ≠ .ready (.ok ())) (hack : ∀ id, d.completed id = c.completed id)

theorem pollFlushWrite_inbound (c : Connection T) (hw : ∀ w, c.write = some w → w.Sound) :
    SameInbound c c.pollFlushWrite.2 := by
  unfold pollFlushWrite
  split
  · exact SameInbound.refl c
  · rename_i io hio
    split
    · exact sending_inbound hio (TracedIo.flush_received io) c.write c.controls
    · rename_i w hcw
      have hne : w.bytes.drop w.offset ≠ [] := by
        simpa using (hw w hcw).unsent
      have hd := (drain_spec _ io (w.bytes.drop w.offset) (Nat.lt_succ_self _) hne).2.2.1
      dsimp only
      split <;> rename_i heq <;> rw [heq] at hd
      · have hmio : (c.completeWrite w).io = some io := by simpa using hio
        exact (completeWrite_inbound c w).trans
          (sending_inbound hmio ((TracedIo.flush_received _).trans hd) _ _)
      · exact sending_inbound hio hd _ _

theorem pollFlushWrite_controls (c : Connection T) :
    c.pollFlushWrite.2.controls = c.controls := by
  unfold pollFlushWrite
  split
  · rfl
  · split
    · rfl
    · dsimp only
      split
      · exact completeWrite_controls c _
      · rfl

theorem pollFlushWrite_flushed (c : Connection T) (hio : c.io.isSome)
    (hw : ∀ w, c.write = some w → w.Sound) :
    Flushed c c.pollFlushWrite.2 c.pollFlushWrite.1 := by
  unfold pollFlushWrite
  split
  · rename_i hnone; simp [hnone] at hio
  · rename_i io hsome
    split
    · rename_i hcw
      exact .finished hcw (fun id => (acknowledged_idle hcw id).symm)
    · rename_i w hcw
      have hne : w.bytes.drop w.offset ≠ [] := by
        simpa using (hw w hcw).unsent
      have hd := (drain_spec _ io (w.bytes.drop w.offset) (Nat.lt_succ_self _) hne).2.2.2
      dsimp only
      split <;> rename_i heq <;> rw [heq] at hd
      · exact .finished (completeWrite_write c w) (completed_completeWrite c w hcw)
      · rename_i result io' k hres
        exact .blocked w k hcw rfl (fun h => hres h) (fun _ => rfl)

theorem Outbox.flush {c : Connection T} {sent : List Frame} (h : Outbox c sent) :
    Outbox c.pollFlushWrite.2 sent := by
  obtain ⟨hio, hwire, hpend⟩ := h
  unfold pollFlushWrite
  split
  · exact ⟨hio, hwire, hpend⟩
  · rename_i io hsome
    split
    · rename_i hcw
      refine ⟨rfl, ?_, by intro w hw; simp [hcw] at hw⟩
      simpa [sentBytes, unsent, hsome, hcw, TracedIo.flush_written] using hwire
    · rename_i w hcw
      have hsound := (hpend w hcw).1
      have hne : w.bytes.drop w.offset ≠ [] := by
        simpa using hsound.unsent
      obtain ⟨hk, hwr, -, hok⟩ := drain_spec _ io (w.bytes.drop w.offset) (Nat.lt_succ_self _) hne
      dsimp only
      simp only [sentBytes, unsent, hsome, hcw, Option.elim_some] at hwire
      split <;> rename_i heq <;> rw [heq] at hk hwr hok <;> dsimp only at hk hwr hok
      · rename_i k
        have hkl : k = (w.bytes.drop w.offset).length := by simpa using hok
        refine ⟨rfl, ?_, by intro w' hw'; simp at hw'⟩
        simp only [sentBytes, unsent, completeWrite_write, Option.elim_some, Option.elim_none,
          List.append_nil, TracedIo.flush_written]
        rw [hwr, hkl, List.take_length, hwire]
      · rename_i result io' k hres
        have hlt : k < (w.bytes.drop w.offset).length := by
          rcases Nat.lt_or_eq_of_le hk with hlt | heq'
          · exact hlt
          · exact absurd (hok.mpr heq') hres
        rw [List.length_drop] at hlt
        refine ⟨rfl, ?_, ?_⟩
        · simp only [sentBytes, unsent, Option.elim_some]
          rw [hwr, List.append_assoc, ← List.drop_drop, List.take_append_drop, hwire]
        · rintro w' hw'
          cases hw'
          exact ⟨⟨hsound.bytes, hsound.accepted, by dsimp only; omega⟩, (hpend w hcw).2⟩

theorem Outbox.same {c d : Connection T} {sent : List Frame} (h : Outbox c sent)
    (hs : SameOutbound c d) : Outbox d sent where
  io := by rw [hs.io]; exact h.io
  wire := by
    have hu : d.unsent = c.unsent := by simp [unsent, hs.write]
    rw [hs.sent, hu]
    exact h.wire
  pending w hw := h.pending w (by rw [← hs.write]; exact hw)

theorem Outbox.start {c : Connection T} {sent : List Frame} (h : Outbox c sent) (hw : c.write = none)
    (f : Frame) (controls : List (FrameKind × StreamId)) :
    Outbox { c with write := some (.ofFrame f f.payload.length), controls := controls }
      (sent ++ [f]) where
  io := h.io
  wire := by
    have hwire := h.wire
    simp only [unsent, hw, Option.elim_none, List.append_nil] at hwire
    rw [flat_snoc, ← hwire]
    rfl
  pending w hw' := by
    cases hw'
    exact ⟨PendingWrite.ofFrame_sound f, sent, by rw [PendingWrite.ofFrame_frame]⟩

end Connection
end Snolc.Mux
