import Snolc.MuxConnection

set_option autoImplicit false

namespace Snolc.Mux
open PollIo SlotTable MuxFrame

theorem StreamState.advance_completedWrite (s : StreamState) (count : ℕ) :
    (s.advance count).completedWrite = s.completedWrite := by
  unfold StreamState.advance
  repeat' split
  all_goals rfl

namespace Connection
variable {T : Type}

def completed (c : Connection T) (id : StreamId) : ℕ := (c.stream id).elim 0 StreamState.completedWrite

theorem stream_modifyStream (c : Connection T) (id other : StreamId) (f : StreamState → StreamState) :
    (c.modifyStream id f).stream other = if id = other then (c.stream other).map f else c.stream other := by
  unfold modifyStream stream
  rw [slot_update]
  simp only [UInt32.toNat_inj]

theorem stream_insert {c c' : Connection T} {id : StreamId} (h : c.insertStream id = .ok c')
    (other : StreamId) : c'.stream other = if id = other then some {} else c.stream other := by
  unfold insertStream at h
  split at h
  · cases h
  · cases h
    unfold stream
    rw [slot_put]
    simp only [UInt32.toNat_inj]

theorem insert_fresh {c c' : Connection T} {id : StreamId} (h : c.insertStream id = .ok c') :
    c.stream id = none := by
  unfold insertStream at h
  split at h
  · cases h
  · rename_i hs
    simpa using hs

variable [TracedIo T]

def sentBytes (c : Connection T) : List UInt8 := c.io.elim [] TracedIo.written

def takenBytes (c : Connection T) : List UInt8 := c.io.elim [] TracedIo.received

structure SameOutbound (c d : Connection T) : Prop where
  io : d.io.isSome = c.io.isSome
  sent : d.sentBytes = c.sentBytes
  write : d.write = c.write
  controls : d.controls = c.controls
  split : d.splitSendSize = c.splitSendSize
  next : d.nextStream = c.nextStream
  completed : ∀ id, d.completed id = c.completed id
  kept : ∀ id, (c.stream id).isSome → (d.stream id).isSome

theorem SameOutbound.of_fields {c d : Connection T} (hio : d.io = c.io) (hs : d.streams = c.streams)
    (hw : d.write = c.write) (hc : d.controls = c.controls)
    (hsplit : d.splitSendSize = c.splitSendSize) (hn : d.nextStream = c.nextStream) :
    SameOutbound c d where
  io := by rw [hio]
  sent := by simp [sentBytes, hio]
  write := hw
  controls := hc
  split := hsplit
  next := hn
  completed id := by simp [Connection.completed, stream, hs]
  kept id h := by simpa [stream, hs] using h

theorem SameOutbound.refl (c : Connection T) : SameOutbound c c := .of_fields rfl rfl rfl rfl rfl rfl

theorem SameOutbound.trans {a b c : Connection T} (h : SameOutbound a b) (h' : SameOutbound b c) :
    SameOutbound a c where
  io := h'.io.trans h.io
  sent := h'.sent.trans h.sent
  write := h'.write.trans h.write
  controls := h'.controls.trans h.controls
  split := h'.split.trans h.split
  next := h'.next.trans h.next
  completed id := (h'.completed id).trans (h.completed id)
  kept id hs := h'.kept id (h.kept id hs)

theorem modifyStream_outbound (c : Connection T) (id : StreamId) (f : StreamState → StreamState)
    (hf : ∀ s, (f s).completedWrite = s.completedWrite) : SameOutbound c (c.modifyStream id f) := by
  refine ⟨rfl, rfl, rfl, rfl, rfl, rfl, fun other => ?_, fun other hs => ?_⟩
  · unfold completed
    rw [stream_modifyStream]
    split
    · cases c.stream other <;> simp [hf]
    · rfl
  · rw [stream_modifyStream]
    split <;> simpa using hs

theorem advance_outbound (c : Connection T) (id : StreamId) (count : ℕ) :
    SameOutbound c (c.modifyStream id (fun state => state.advance count)) :=
  modifyStream_outbound c id _ (fun s => s.advance_completedWrite count)

theorem insertStream_outbound {c d : Connection T} {id : StreamId} (h : c.insertStream id = .ok d) :
    SameOutbound c d := by
  have hs := stream_insert h
  have hn := insert_fresh h
  unfold insertStream at h
  split at h
  · cases h
  · cases h
    refine ⟨rfl, rfl, rfl, rfl, rfl, rfl, fun other => ?_, fun other ho => ?_⟩
    · unfold completed
      rw [hs]
      split
      · rename_i he; subst he; rw [hn]; rfl
      · rfl
    · rw [hs]
      split <;> simp [*]

theorem finishFrame_outbound {c d : Connection T} {frame : PendingRead}
    (h : c.finishFrame frame = .ok d) : SameOutbound c d := by
  unfold finishFrame at h
  split at h
  · split at h
    · rename_i mid hm
      cases h
      exact (insertStream_outbound hm).trans (.of_fields rfl rfl rfl rfl rfl rfl)
    · cases h
  · split at h
    · cases h
    · cases h
      have hm := modifyStream_outbound
        { c with receivedBytes := c.receivedBytes + frame.bytes.length } frame.stream
        (fun state => { state with input := state.input ++ [frame.bytes] }) (fun _ => rfl)
      exact ⟨hm.io, hm.sent, hm.write, hm.controls, hm.split, hm.next, hm.completed, hm.kept⟩
  · split at h
    · cases h
    · cases h
      exact modifyStream_outbound c frame.stream _ (fun _ => rfl)

/-- Replacing the io by one with the same written history, and any receiving
    field by anything, is invisible on the way out. -/
theorem receiving_outbound {c : Connection T} {io io' : T} (hio : c.io = some io)
    (hw : TracedIo.written io' = TracedIo.written io) (header : List UInt8) (offset : ℕ)
    (frame : Option PendingRead) (closed : Bool) :
    SameOutbound c { c with
      io := some io', readHeader := header, readHeaderOffset := offset, readFrame := frame,
      closed := closed } :=
  ⟨by simp [hio], by simp [sentBytes, hio, hw], rfl, rfl, rfl, rfl, fun _ => rfl, fun _ h => h⟩

theorem acceptHeader_outbound (c : Connection T) : SameOutbound c c.acceptHeader.2 := by
  unfold acceptHeader
  dsimp only
  repeat' split
  all_goals exact .of_fields rfl rfl rfl rfl rfl rfl

theorem pollPrepareFrame_outbound (c : Connection T) : SameOutbound c c.pollPrepareFrame.2 := by
  unfold pollPrepareFrame
  split
  · exact SameOutbound.refl c
  · split
    · exact .of_fields rfl rfl rfl rfl rfl rfl
    · rename_i io hio
      have hw := (fill_spec _ io (muxHeaderBytes - c.readHeaderOffset) (Nat.lt_succ_self _)).2.2.1
      dsimp only
      split <;> rename_i heq <;> rw [heq] at hw
      · exact (receiving_outbound hio hw _ _ _ _).trans (acceptHeader_outbound _)
      · exact receiving_outbound hio hw _ _ _ _
      · exact receiving_outbound hio hw _ _ _ _
      · exact receiving_outbound hio hw _ _ _ _

theorem pollFrameBody_outbound (c : Connection T) (frame : PendingRead) :
    SameOutbound c (c.pollFrameBody frame).2 := by
  unfold pollFrameBody
  dsimp only
  split
  · exact .of_fields rfl rfl rfl rfl rfl rfl
  · rename_i io hio
    have hw := (fill_spec _ io (frame.prepare.bytes.length - frame.prepare.bufferOffset)
      (Nat.lt_succ_self _)).2.2.1
    split <;> rename_i heq <;> rw [heq] at hw
    · split
      · rename_i hf
        exact (receiving_outbound hio hw _ _ _ _).trans (finishFrame_outbound hf)
      · exact receiving_outbound hio hw _ _ _ _
    · exact receiving_outbound hio hw _ _ _ _
    · exact receiving_outbound hio hw _ _ _ _
    · exact receiving_outbound hio hw _ _ _ _

theorem driveRead_outbound (c : Connection T) : SameOutbound c c.driveRead.2 := by
  have hp := pollPrepareFrame_outbound c
  unfold driveRead
  split <;> rename_i heq <;> rw [heq] at hp
  · split
    · exact hp.trans (pollFrameBody_outbound _ _)
    · exact hp
  · exact hp

theorem readDirect_outbound (c : Connection T) (frame : PendingRead) (room : ℕ) :
    SameOutbound c (c.readDirect frame room).2 := by
  unfold readDirect
  split
  · exact SameOutbound.refl c
  · rename_i io hio
    have hw := TracedIo.read_written io (min room (frame.length - frame.wireConsumed))
    split <;> rename_i heq <;> rw [heq] at hw
    · exact receiving_outbound hio hw _ _ _ _
    · exact receiving_outbound hio hw _ _ _ _
    · exact receiving_outbound hio hw _ _ _ _
    · exact receiving_outbound hio hw _ _ _ _

end Connection
end Snolc.Mux
