import Snolc.MuxReceiveBudget
import Snolc.MuxRules

set_option autoImplicit false

namespace Snolc.Mux
open PollIo SlotTable MuxFrame GuardedRuns

namespace PendingRead

structure InBounds (frame : PendingRead) : Prop where
  plain : frame.kind ≠ .frameData → frame.length = 0
  consumed : frame.wireConsumed ≤ frame.length
  buffer : frame.bytes = [] ∨ frame.bytes.length = frame.length - frame.wireConsumed
  offset : frame.bufferOffset ≤ frame.bytes.length

def toCome (frame : PendingRead) : ℕ := frame.length - frame.wireConsumed

theorem InBounds.prepare {frame : PendingRead} (h : frame.InBounds) :
    frame.prepare.InBounds ∧ frame.prepare.bytes.length = frame.toCome := by
  unfold PendingRead.prepare toCome
  dsimp only
  split
  · next hsize =>
    have hnil : frame.bytes = [] := h.buffer.resolve_right hsize.2
    have hzero : frame.bufferOffset = 0 := by
      have hoffset := h.offset
      rw [hnil] at hoffset
      simpa using hoffset
    rw [hnil, resize_nil]
    refine ⟨⟨h.plain, h.consumed, .inr (by simp), ?_⟩, by simp⟩
    rw [hzero]
    exact Nat.zero_le _
  · next hsize =>
    refine ⟨h, ?_⟩
    rcases h.buffer with hnil | hlen
    · by_cases hd : frame.kind = .frameData
      · by_contra hne
        exact hsize ⟨hd, hne⟩
      · rw [hnil, h.plain hd, Nat.zero_sub, List.length_nil]
    · exact hlen

theorem InBounds.receive {frame : PendingRead} (h : frame.InBounds) {chunk : List UInt8}
    (hchunk : chunk.length ≤ frame.prepare.bytes.length - frame.prepare.bufferOffset) :
    (frame.prepare.receive chunk).InBounds ∧
      (frame.prepare.receive chunk).bytes.length = frame.toCome ∧
      (frame.prepare.receive chunk).toCome = frame.toCome := by
  obtain ⟨hprep, hsize⟩ := h.prepare
  have hoffset := hprep.offset
  have hlen : (frame.prepare.receive chunk).bytes.length = frame.prepare.bytes.length :=
    overwrite_length (by omega)
  have hout : (frame.prepare.receive chunk).toCome = frame.toCome := by
    simp [toCome, PendingRead.receive]
  refine ⟨⟨hprep.plain, hprep.consumed, .inr ?_, ?_⟩, hlen.trans hsize, hout⟩
  · rw [hlen, hsize, ← hout]
    rfl
  · rw [hlen]
    change frame.prepare.bufferOffset + chunk.length ≤ _
    omega

theorem InBounds.direct {frame : PendingRead} (h : frame.InBounds) (hnil : frame.bytes = []) {n : ℕ}
    (hn : n ≤ frame.toCome) : ({ frame with wireConsumed := frame.wireConsumed + n } : PendingRead).InBounds := by
  have hconsumed := h.consumed
  unfold toCome at hn
  refine ⟨h.plain, ?_, .inl hnil, h.offset⟩
  dsimp only
  omega

end PendingRead

namespace Connection
variable {T : Type}

def reading (c : Connection T) : Option PendingRead × ℕ × ℕ := (c.readFrame, c.receivedBytes, c.receiveLimit)

def toCome (c : Connection T) : ℕ := c.readFrame.elim 0 PendingRead.toCome

structure Within (c : Connection T) (limit : ℕ) : Prop where
  frame : ∀ frame, c.readFrame = some frame → frame.InBounds
  bound : c.receiveLimit = limit
  room : limit < usizeMax → c.receivedBytes + c.toCome ≤ limit

theorem Within.same {c d : Connection T} {limit : ℕ} (h : c.Within limit) (hd : d.reading = c.reading) :
    d.Within limit := by
  obtain ⟨hframe, hrest⟩ := Prod.mk.inj hd
  obtain ⟨hreceived, hlimit⟩ := Prod.mk.inj hrest
  refine ⟨?_, hlimit.trans h.bound, ?_⟩
  · rw [hframe]
    exact h.frame
  · unfold toCome
    rw [hframe, hreceived]
    exact h.room

theorem queueStream_reading (c : Connection T) : c.queueStream.2.reading = c.reading := by
  rcases c.queueStream_cases with ⟨e, next, heq⟩ | ⟨m, hm, heq⟩ <;> rw [heq]
  · rfl
  · rw [insertStream_fields hm]
    rfl

theorem drop_reading (stream : MuxStream) (c : Connection T) : (stream.drop c).reading = c.reading := by
  unfold MuxStream.drop
  split <;> rfl

theorem sending_within [AsyncIo T] (limit : ℕ) : Sending fun c : Connection T => c.Within limit :=
  .of_updates (fun _ _ _ _ h => h.same rfl) (fun _ _ _ h => h.same rfl)

/-- The limits are tested for the payload as a whole. -/
theorem Within.acceptHeader {c : Connection T} {limit : ℕ} (h : c.Within limit) : c.acceptHeader.2.Within limit := by
  unfold Connection.acceptHeader
  dsimp only
  split
  · exact h.same rfl
  · next hlimits =>
    rw [not_or] at hlimits
    split
    · exact h.same rfl
    · next kind hk =>
      split
      · exact h.same rfl
      · next hplain =>
        refine ⟨fun frame hframe => ?_, h.bound, fun hlt => ?_⟩
        · cases hframe
          refine ⟨fun hd => ?_, Nat.zero_le _, .inl rfl, Nat.zero_le _⟩
          by_contra hne
          exact hplain ⟨hd, hne⟩
        · have hsum := hlimits.2
          have hlimit := h.bound
          unfold saturatingAdd at hsum
          change c.receivedBytes + ((Header.parse c.readHeader).length - 0) ≤ limit
          omega

section Receiving
variable [TracedIo T]

theorem Within.prepare {c : Connection T} {limit : ℕ} (h : c.Within limit) : c.pollPrepareFrame.2.Within limit := by
  unfold pollPrepareFrame
  split
  · exact h
  · split
    · exact h.same rfl
    · dsimp only
      split
      · exact Within.acceptHeader (h.same rfl)
      all_goals exact h.same rfl

omit [TracedIo T] in
theorem Within.finishFrame {c d : Connection T} {limit : ℕ} {frame : PendingRead} (h : c.Within limit)
    (hf : c.readFrame = none) (hroom : limit < usizeMax → c.receivedBytes + frame.bytes.length ≤ limit)
    (hd : c.finishFrame frame = .ok d) : d.Within limit := by
  unfold Connection.finishFrame at hd
  split at hd
  · split at hd
    · next m hm =>
      cases hd
      refine h.same ?_
      rw [insertStream_fields hm]
      rfl
    · cases hd
  · split at hd
    · cases hd
    · cases hd
      refine ⟨h.frame, h.bound, fun hlt => ?_⟩
      have hle := hroom hlt
      change c.receivedBytes + frame.bytes.length + c.readFrame.elim 0 _ ≤ limit
      rw [hf]
      exact hle
  · split at hd
    · cases hd
    · cases hd
      exact h.same rfl

theorem Within.body {c : Connection T} {limit : ℕ} (h : c.Within limit) {frame : PendingRead}
    (hf : c.readFrame = some frame) : (c.pollFrameBody frame).2.Within limit := by
  have hbounds := h.frame frame hf
  have hroom (hlt : limit < usizeMax) : c.receivedBytes + frame.toCome ≤ limit := by
    have hle := h.room hlt
    rw [Connection.toCome, hf] at hle
    exact hle
  unfold pollFrameBody
  dsimp only
  split
  · obtain ⟨hprep, -⟩ := hbounds.prepare
    refine ⟨fun frame' hframe => ?_, h.bound, fun hlt => ?_⟩
    · cases hframe
      exact hprep
    · have hle := hroom hlt
      change c.receivedBytes + frame.prepare.toCome ≤ limit
      simpa [PendingRead.toCome] using hle
  · next io hio =>
    obtain ⟨hchunk, -⟩ := fill_spec _ io (frame.prepare.bytes.length - frame.prepare.bufferOffset) (Nat.lt_succ_self _)
    have hstopped {io' : T} {chunk : List UInt8}
        (hchunk : chunk.length ≤ frame.prepare.bytes.length - frame.prepare.bufferOffset) :
        Within { c with io := some io', readFrame := some (frame.prepare.receive chunk) } limit := by
      obtain ⟨hrecv, -, hout⟩ := hbounds.receive hchunk
      refine ⟨fun frame' hframe => ?_, h.bound, fun hlt => ?_⟩
      · cases hframe
        exact hrecv
      · change c.receivedBytes + (frame.prepare.receive chunk).toCome ≤ limit
        rw [hout]
        exact hroom hlt
    split <;> rename_i heq <;> rw [heq] at hchunk <;> dsimp only at hchunk
    · next io' chunk =>
      obtain ⟨-, hlen, -⟩ := hbounds.receive hchunk
      have htaken : Within { c with io := some io', readFrame := none } limit := by
        refine ⟨fun frame' hframe => (by cases hframe), h.bound, fun hlt => ?_⟩
        have hle := hroom hlt
        change c.receivedBytes + 0 ≤ limit
        omega
      split
      · next d hd =>
        refine htaken.finishFrame rfl (fun hlt => ?_) hd
        rw [hlen]
        exact hroom hlt
      · exact htaken
    all_goals exact hstopped hchunk

/-- Bytes taken directly come off the frame and never enter the queues. -/
theorem Within.readDirect {c : Connection T} {limit : ℕ} (h : c.Within limit) {frame : PendingRead}
    (hf : c.readFrame = some frame) (hnil : frame.bytes = []) (room : ℕ) :
    (c.readDirect frame room).2.Within limit := by
  unfold Connection.readDirect
  split
  · exact h
  · next io hio =>
    have hbound := TracedIo.read_bound io (min room (frame.length - frame.wireConsumed))
    split <;> rename_i heq <;> rw [heq] at hbound
    · exact h.same rfl
    · next bytes io' hne =>
      rw [readBytes_ok] at hbound
      have hle : bytes.length ≤ frame.toCome := Nat.le_trans hbound (Nat.min_le_right _ _)
      have hroom (hlt : limit < usizeMax) : c.receivedBytes + frame.toCome ≤ limit := by
        have hsum := h.room hlt
        rw [Connection.toCome, hf] at hsum
        exact hsum
      refine ⟨fun frame' hframe => ?_, h.bound, fun hlt => ?_⟩
      · dsimp only at hframe
        split at hframe
        · cases hframe
        · cases hframe
          exact (h.frame frame hf).direct hnil hle
      · have hsum := hroom hlt
        unfold Connection.toCome
        dsimp only
        split
        · change c.receivedBytes + 0 ≤ limit
          omega
        · change c.receivedBytes + (frame.length - (frame.wireConsumed + bytes.length)) ≤ limit
          unfold PendingRead.toCome at hsum
          omega
    · exact h.same rfl
    · exact h.same rfl

theorem reading_within (limit : ℕ) : Reading fun c : Connection T => c.Within limit where
  write := (sending_within limit).driveWrite
  prepare _ h := h.prepare
  body _ _ h hf := h.body hf
  direct _ _ room h hf hnil := h.readDirect hf hnil room
  advance _ _ _ h := h.same rfl
  taken c count h := by
    refine ⟨h.frame, h.bound, fun hlt => ?_⟩
    have hle := h.room hlt
    change c.receivedBytes - count + c.toCome ≤ limit
    omega

theorem Within.accept {c : Connection T} {limit : ℕ} (h : c.Within limit) : c.pollAcceptStream.2.Within limit := by
  have hdrive := (reading_within limit).pollDrive c h
  unfold pollAcceptStream
  split
  · exact h.same rfl
  · split <;> rename_i heq <;> rw [heq] at hdrive
    · exact hdrive
    · split <;> exact hdrive

end Receiving

end Connection

structure Receiving {T : Type} (c : Connection T) (config : YamuxConfig) : Prop where
  counter : c.receivedBytes + total StreamState.offset c.streams =
    total (fun state => (state.input.map List.length).sum) c.streams
  offset : ∀ id state, c.stream id = some state →
    (state.input = [] → state.offset = 0) ∧ ∀ front rest, state.input = front :: rest → state.offset ≤ front.length
  limit : config.receiveWindowBytes < usizeMax → c.receivedBytes ≤ config.receiveWindowBytes
  taken : ∀ id state front rest room, c.stream id = some state → state.input = front :: rest →
    min room (front.length - state.offset) ≤ c.receivedBytes
  filled : ∀ frame, c.readFrame = some frame → frame.wireConsumed ≤ frame.length ∧
    frame.bufferOffset ≤ frame.bytes.length ∧
    frame.wireConsumed + (frame.bytes.length - frame.bufferOffset) ≤ frame.length

theorem StreamState.Placed.le {state : StreamState} (h : state.Placed) :
    (state.input = [] → state.offset = 0) ∧
      ∀ front rest, state.input = front :: rest → state.offset ≤ front.length := by
  rcases h with hzero | ⟨front, rest, hi, hlt⟩
  · exact ⟨fun _ => hzero, fun _ _ _ => by omega⟩
  · refine ⟨fun hnil => ?_, fun front' rest' hi' => ?_⟩
    · rw [hi] at hnil
      cases hnil
    · rw [hi] at hi'
      cases hi'
      omega

theorem StreamState.Placed.queued_length {state : StreamState} (h : state.Placed) :
    state.queued.length + state.offset = (state.input.map List.length).sum := by
  rw [StreamState.queued, List.length_drop, List.length_flatten]
  rcases h with hzero | ⟨front, rest, hi, hlt⟩
  · omega
  · rw [hi, List.map_cons, List.sum_cons]
    omega

theorem PendingRead.InBounds.filled {frame : PendingRead} (h : frame.InBounds) :
    frame.wireConsumed ≤ frame.length ∧ frame.bufferOffset ≤ frame.bytes.length ∧
      frame.wireConsumed + (frame.bytes.length - frame.bufferOffset) ≤ frame.length := by
  have hconsumed := h.consumed
  refine ⟨hconsumed, h.offset, ?_⟩
  rcases h.buffer with hnil | hlen
  · rw [hnil, List.length_nil]
    omega
  · omega

theorem Handles.Counted.receiving {T : Type} {c : Connection T} {config : YamuxConfig} (h : Handles.Counted c)
    (hw : c.Within config.receiveWindowBytes) : Receiving c config where
  counter := by
    rw [h.counter]
    apply total_add
    intro i state hs
    have hocc : Occupied c.streams i := by
      rw [Occupied, hs]
      rfl
    have hlt : i < 2 ^ 32 := Nat.lt_of_lt_of_le hocc.lt_length h.slots
    have hid : (UInt32.ofNat i).toNat = i := UInt32.toNat_ofNat_of_lt' hlt
    exact (h.placed (UInt32.ofNat i) state (by rw [Connection.stream, hid, hs])).queued_length
  offset id state hs := (h.placed id state hs).le
  limit hlt := by
    have hroom := hw.room hlt
    omega
  taken id state front rest room hs hi := by
    have hplaced := h.placed id state hs
    have hqueued := hplaced.queued_length
    have hoffset := hplaced.le.2 front rest hi
    have hle := le_total (fun state => state.queued.length) hs
    rw [hi, List.map_cons, List.sum_cons] at hqueued
    rw [h.counter, Connection.unread]
    omega
  filled frame hf := (hw.frame frame hf).filled

namespace Handles
variable {T : Type} [TracedIo T]

theorem step_within {s : Handles T} (call : HandleCall) {limit : ℕ} (h : s.connection.Within limit) :
    (s.step call).connection.Within limit := by
  cases call with
  | openStream =>
    have hq := h.same s.connection.queueStream_reading
    change s.openStream.connection.Within limit
    unfold openStream
    split <;> rename_i heq <;> rw [heq] at hq <;> exact hq
  | queueOpen =>
    have hq := h.same s.connection.queueStream_reading
    change s.queueOpen.connection.Within limit
    unfold queueOpen
    split <;> rename_i heq <;> rw [heq] at hq
    · exact hq.same rfl
    · exact hq
  | control kind id => exact (Connection.sending_within limit).pollControl _ h kind id
  | accept =>
    have ha := h.accept
    change s.accept.connection.Within limit
    unfold accept
    split <;> rename_i heq <;> rw [heq] at ha <;> exact ha
  | read id room =>
    change (s.read id room).connection.Within limit
    unfold read
    split
    · exact (Connection.reading_within limit).pollRead _ h id room
    · exact h
  | write id input => exact (Connection.sending_within limit).pollData _ h id input
  | flush => exact (Connection.sending_within limit).flush _ h
  | drop stream =>
    change (s.drop stream).connection.Within limit
    unfold drop
    split
    · exact h.same (Connection.drop_reading stream _)
    · exact h
  | drive => exact (Connection.reading_within limit).pollDrive _ h

/-- In every state of every run the counter is the unread bytes of the queues and within the limit, and the frame in
progress has room for what it still has to read. -/
theorem receive_accounts (io : T) (role : Mode) (config : YamuxConfig) (calls : List HandleCall) :
    Receiving (run step (Handles.new io role config) calls).connection config := by
  have hstep (s : Handles T) (call : HandleCall)
      (h : Counted s.connection ∧ s.connection.Within config.receiveWindowBytes) :
      Counted (step s call).connection ∧ (step s call).connection.Within config.receiveWindowBytes :=
    ⟨(step_effect s call h.1).counted h.1, step_within call h.2⟩
  have hnew : Counted (Handles.new io role config).connection ∧
      (Handles.new io role config).connection.Within config.receiveWindowBytes :=
    ⟨⟨fun id state hs => by simp [new, MuxSession.new, Connection.stream] at hs, rfl, Nat.zero_le _⟩,
      ⟨fun frame hf => (by cases hf), rfl, fun _ => Nat.zero_le _⟩⟩
  have hrun := run_always _ hstep hnew calls
  exact hrun.1.receiving hrun.2

end Handles

end Snolc.Mux
