import Snolc.MuxInbox
import Snolc.MuxWrites
import Snolc.ScriptedIo

set_option autoImplicit false

namespace Snolc.Mux
open PollIo SlotTable MuxFrame ScriptedIo

namespace Connection

theorem pollFlushWrite_open {c : Connection Script} {pipe : Script} (hio : c.io = some pipe)
    (hw : pipe.writes = []) (hf : pipe.flushes = []) {f : Frame} {n : ℕ}
    (hwrite : c.write = some (.ofFrame f n)) :
    c.pollFlushWrite = (.ready (.ok ()),
      { c.completeWrite (.ofFrame f n) with io := some { pipe with written := pipe.written ++ f.bytes } }) := by
  have hdrain := drain_open f.bytes.length hw f.bytes_ne_nil
  have hflush : AsyncIo.pollFlush { pipe with written := pipe.written ++ f.bytes } =
      (.ready (.ok ()), { pipe with written := pipe.written ++ f.bytes }) := by
    change Script.pollFlush _ = _
    simp [Script.pollFlush, hf]
  unfold pollFlushWrite
  rw [hio, hwrite]
  simp only [PendingWrite.ofFrame, List.drop_zero, hdrain, hflush]

/-- A connection with nothing to send, over a pipe that moves everything at once. -/
structure Idle (c : Connection Script) (pipe : Script) : Prop where
  io : c.io = some pipe
  writes : pipe.writes = []
  flushes : pipe.flushes = []
  write : c.write = none
  controls : c.controls = []
  opened : c.closed = false
  settled : ∀ id, c.completed id = 0

theorem Idle.pollData {c : Connection Script} {pipe : Script} (h : c.Idle pipe) (id : StreamId)
    {input : List UInt8} (hne : input ≠ []) :
    (c.pollData id input).1 = .ready (.ok (min input.length c.splitSendSize)) ∧
      (c.pollData id input).2.Idle
        { pipe with written := pipe.written ++ (⟨.frameData, id, input.take c.splitSendSize⟩ : Frame).bytes } ∧
      (c.pollData id input).2.splitSendSize = c.splitSendSize ∧
      ∀ other, ((c.pollData id input).2.stream other).isSome = (c.stream other).isSome := by
  have htake : input.take (min input.length c.splitSendSize) = input.take c.splitSendSize := by
    rw [List.take_eq_take_iff]; omega
  have hstart : (c.clearCompleted id).startQueuedControl = c.clearCompleted id := by
    unfold startQueuedControl
    rw [show (c.clearCompleted id).write = none from h.write,
      show (c.clearCompleted id).controls = [] from h.controls]
  let f : Frame := ⟨.frameData, id, input.take c.splitSendSize⟩
  let n := min input.length c.splitSendSize
  let d : Connection Script := { c.clearCompleted id with write := some (.ofFrame f n) }
  have hdef : c.pollData id input = d.flushAccepted id n := by
    rw [pollData_eq h.opened id hne, h.settled, if_neg (by simp), hstart, writeData,
      show (c.clearCompleted id).write = none from h.write]
    change startData (c.clearCompleted id) id input = _
    unfold startData
    dsimp only
    rw [show (c.clearCompleted id).splitSendSize = c.splitSendSize from rfl, htake]
    rfl
  have hflush := pollFlushWrite_open (c := d) h.io h.writes h.flushes rfl
  have hres : d.flushAccepted id n = (.ready (.ok n), clearCompleted { d.completeWrite (.ofFrame f n) with
      io := some { pipe with written := pipe.written ++ f.bytes } } id) := by
    unfold flushAccepted
    rw [hflush]
  have hfields : (d.completeWrite (.ofFrame f n)).controls = c.controls ∧
      (d.completeWrite (.ofFrame f n)).closed = c.closed ∧
      (d.completeWrite (.ofFrame f n)).splitSendSize = c.splitSendSize := by
    unfold completeWrite
    dsimp only
    split <;> exact ⟨rfl, rfl, rfl⟩
  rw [hdef, hres]
  refine ⟨rfl, ⟨rfl, h.writes, h.flushes, completeWrite_write _ _, hfields.1.trans h.controls,
    hfields.2.1.trans h.opened, fun other => ?_⟩, hfields.2.2, fun other => ?_⟩
  · rw [completed_clear]
    split
    · rfl
    · rename_i hne'
      have hack := completed_completeWrite d (.ofFrame f n) rfl other
      refine hack.trans ?_
      have hnot : ¬ (f.kind = .frameData ∧ n ≠ 0 ∧ f.stream = other ∧ (d.stream other).isSome) :=
        fun hx => hne' hx.2.2.1
      have hclear : (c.clearCompleted id).completed other = 0 := by
        rw [completed_clear, if_neg hne', h.settled]
      unfold acknowledged
      exact (if_neg hnot).trans hclear
  · have hin := (setCompleted_inbound c id 0).isSome other
    have hcomplete := (completeWrite_inbound d (.ofFrame f n)).isSome other
    have hclear := (setCompleted_inbound { d.completeWrite (.ofFrame f n) with
      io := some { pipe with written := pipe.written ++ f.bytes } } id 0).isSome other
    exact (hclear.trans hcomplete).trans hin

/-- A connection between two frames, over a pipe that moves everything at once. -/
structure Between (c : Connection Script) (pipe : Script) : Prop where
  io : c.io = some pipe
  reads : pipe.reads = []
  frame : c.readFrame = none
  offset : c.readHeaderOffset = 0
  header : c.readHeader.length = muxHeaderBytes
  write : c.write = none
  controls : c.controls = []
  opened : c.closed = false

def withHeader (c : Connection Script) (pipe : Script) (header : List UInt8) : Connection Script :=
  { c with io := some pipe, readHeader := header, readHeaderOffset := muxHeaderBytes }

theorem Between.prepare {c : Connection Script} {pipe : Script} (h : c.Between pipe) {header rest : List UInt8}
    (hl : header.length = muxHeaderBytes) (hi : pipe.incoming = header ++ rest) :
    c.pollPrepareFrame =
      (c.withHeader { pipe with incoming := rest, received := pipe.received ++ header } header).acceptHeader := by
  have hfill := fill_open header.length h.reads hi
  unfold pollPrepareFrame
  rw [h.frame, h.io, h.offset]
  simp only [Nat.sub_zero, ← hl, hfill]
  have hover : overwrite c.readHeader 0 header = header := by
    simp [overwrite, h.header, hl]
  simp only [receiveHeader, withHeader, h.offset, hover, Nat.zero_add, hl]

theorem parse_headerOf (kind : FrameKind) (stream : StreamId) {length : ℕ} (hl : length < 2 ^ 32) :
    Header.parse (headerOf kind stream length) = ⟨kind.code, stream, length⟩ := by
  have hp := Header.parse_headerBytes ⟨kind, stream, List.replicate length 0⟩
  rw [← headerOf_payload] at hp
  simp only [Frame.header, List.length_replicate] at hp
  rw [Nat.mod_eq_of_lt hl] at hp
  exact hp

theorem acceptHeader_data (c : Connection Script) (pipe : Script) (stream : StreamId) {length : ℕ}
    (hl : length < 2 ^ 32) (hsplit : length ≤ c.splitSendSize)
    (hlimit : c.receivedBytes + length ≤ c.receiveLimit) :
    (c.withHeader pipe (headerOf .frameData stream length)).acceptHeader = (.ready (.ok ()),
      { c with
        io := some pipe, readHeader := headerOf .frameData stream length, readHeaderOffset := 0,
        readFrame := some ⟨.frameData, stream, length, [], 0, 0⟩ }) := by
  have hsat : saturatingAdd c.receivedBytes length ≤ c.receiveLimit :=
    Nat.le_trans (Nat.min_le_left _ _) hlimit
  unfold acceptHeader
  simp only [withHeader, parse_headerOf _ _ hl]
  rw [if_neg (by omega), FrameKind.ofCode_code]
  simp

theorem acceptHeader_limit (c : Connection Script) (pipe : Script) (stream : StreamId) {length : ℕ}
    (hl : length < 2 ^ 32) (hlimit : c.receiveLimit < saturatingAdd c.receivedBytes length) :
    (c.withHeader pipe (headerOf .frameData stream length)).acceptHeader.1 = .ready (.error limitError) := by
  unfold acceptHeader
  simp only [withHeader, parse_headerOf _ _ hl]
  rw [if_pos (.inr hlimit)]
  rfl

theorem Between.driveWrite {c : Connection Script} {pipe : Script} (h : c.Between pipe) :
    c.driveWrite = (.ready (.ok ()), c) := by
  have hstart : c.startQueuedControl = c := by
    unfold startQueuedControl
    rw [h.write, h.controls]
  unfold Connection.driveWrite
  dsimp only
  rw [hstart, h.write]
  simp

theorem prepare_fresh (stream : StreamId) (length : ℕ) :
    (⟨.frameData, stream, length, [], 0, 0⟩ : PendingRead).prepare =
      ⟨.frameData, stream, length, List.replicate length 0, 0, 0⟩ := by
  unfold PendingRead.prepare
  dsimp only
  by_cases hz : length = 0
  · simp [hz]
  · rw [if_pos ⟨rfl, by simp only [List.length_nil]; omega⟩]
    simp [resize]

theorem Between.drive {c : Connection Script} {pipe : Script} (h : c.Between pipe) {stream : StreamId}
    {payload rest : List UInt8} (hi : pipe.incoming = headerOf .frameData stream payload.length ++ (payload ++ rest))
    (hl : payload.length < 2 ^ 32) (hsplit : payload.length ≤ c.splitSendSize)
    (hlimit : c.receivedBytes + payload.length ≤ c.receiveLimit) (hs : (c.stream stream).isSome) :
    (c.pollDrive).1 = .ready (.ok ()) ∧
      (c.pollDrive).2 = { c with
        io := some { pipe with
          incoming := rest, received := pipe.received ++ (headerOf .frameData stream payload.length ++ payload) }
        readHeader := headerOf .frameData stream payload.length
        receivedBytes := c.receivedBytes + payload.length
        streams := update c.streams stream.toNat (fun state => { state with input := state.input ++ [payload] }) } := by
  obtain ⟨state, hst⟩ := Option.isSome_iff_exists.mp hs
  have hprep := h.prepare (headerOf_length .frameData stream payload.length) hi
  rw [acceptHeader_data c _ stream hl hsplit hlimit] at hprep
  have hover : overwrite (List.replicate payload.length 0) 0 payload = payload := by simp [overwrite]
  have hreads : ({ pipe with
      incoming := payload ++ rest
      received := pipe.received ++ headerOf .frameData stream payload.length } : Script).reads = [] := h.reads
  have hfill := fill_open payload.length hreads rfl
  have hdrive : c.pollDrive = c.driveRead := by
    unfold pollDrive
    rw [if_neg (by simp [h.opened]), h.driveWrite]
  rw [hdrive]
  unfold driveRead
  rw [hprep]
  simp only [pollFrameBody, prepare_fresh, List.length_replicate, Nat.sub_zero, hfill,
    PendingRead.receive, hover, finishFrame]
  have hst' : slot c.streams stream.toNat = some state := hst
  simp only [Connection.stream, hst', modifyStream, h.frame, h.offset, List.append_assoc]
  exact ⟨trivial, trivial⟩

theorem Between.drive_between {c : Connection Script} {pipe : Script} (h : c.Between pipe) {stream : StreamId}
    {payload rest : List UInt8} (hi : pipe.incoming = headerOf .frameData stream payload.length ++ (payload ++ rest))
    (hl : payload.length < 2 ^ 32) (hsplit : payload.length ≤ c.splitSendSize)
    (hlimit : c.receivedBytes + payload.length ≤ c.receiveLimit) (hs : (c.stream stream).isSome) :
    (c.pollDrive).2.Between { pipe with
      incoming := rest
      received := pipe.received ++ (headerOf .frameData stream payload.length ++ payload) } ∧
    (c.pollDrive).2.receivedBytes = c.receivedBytes + payload.length ∧
    (c.pollDrive).2.receiveLimit = c.receiveLimit ∧ (c.pollDrive).2.splitSendSize = c.splitSendSize ∧
    ∀ other, other ≠ stream → (c.pollDrive).2.stream other = c.stream other := by
  rw [(h.drive hi hl hsplit hlimit hs).2]
  refine ⟨⟨rfl, h.reads, h.frame, h.offset, headerOf_length _ _ _, h.write, h.controls, h.opened⟩,
    rfl, rfl, rfl, fun other hne => ?_⟩
  exact (stream_modifyStream c stream other _).trans (if_neg hne.symm)

theorem Between.read {c : Connection Script} {pipe : Script} (h : c.Between pipe) {stream : StreamId}
    {payload rest : List UInt8} (hi : pipe.incoming = headerOf .frameData stream payload.length ++ (payload ++ rest))
    (hne : payload ≠ []) (hl : payload.length < 2 ^ 32) (hsplit : payload.length ≤ c.splitSendSize)
    (hlimit : c.receivedBytes + payload.length ≤ c.receiveLimit) (hs : c.stream stream = some {}) :
    (c.pollRead stream payload.length).1 = .ready (.ok payload) := by
  obtain ⟨first, more, rfl⟩ := List.exists_cons_of_ne_nil hne
  have hprep := h.prepare (headerOf_length .frameData stream (first :: more).length) hi
  rw [acceptHeader_data c _ stream hl hsplit hlimit] at hprep
  have hpoll : AsyncIo.pollRead ({ pipe with
      incoming := first :: more ++ rest
      received := pipe.received ++ headerOf .frameData stream (first :: more).length } : Script)
      (first :: more).length = (.ready (.ok (first :: more)), { pipe with
        incoming := rest
        received := pipe.received ++ headerOf .frameData stream (first :: more).length ++ (first :: more) }) := by
    change Script.pollRead _ _ = _
    simp [Script.pollRead, Script.allowance, h.reads]
  unfold pollRead
  rw [if_neg (by simp), hs]
  simp only [pollReadStream, hprep, Bool.false_eq_true, ↓reduceIte]
  rw [if_neg (by simp)]
  simp only [readDirect, Nat.sub_zero, Nat.min_self, hpoll]

end Connection
end Snolc.Mux
