import Snolc.MuxInbox
import Snolc.MuxRules

set_option autoImplicit false

namespace Snolc.Mux
open PollIo SlotTable MuxFrame

namespace Connection
variable {T : Type}

def Placed (c : Connection T) : Prop := ∀ id state, c.stream id = some state → state.Placed

def finished (c : Connection T) (id : StreamId) : Bool := (c.stream id).elim false StreamState.eof

structure Still (c d : Connection T) : Prop where
  inbound : d.inbound = c.inbound
  received : d.receivedBytes = c.receivedBytes
  slots : d.streams.length = c.streams.length
  known : ∀ id, (d.stream id).isSome = (c.stream id).isSome
  queued : ∀ id, d.queued id = c.queued id
  finished : ∀ id, d.finished id = c.finished id
  unread : d.unread = c.unread
  placed : c.Placed → d.Placed

theorem Still.of_incoming {c d : Connection T} (hi : d.inbound = c.inbound)
    (hr : d.receivedBytes = c.receivedBytes) (hs : d.streams.length = c.streams.length)
    (hin : ∀ id, d.incoming id = c.incoming id) (hu : d.unread = c.unread) : Still c d := by
  refine ⟨hi, hr, hs, fun id => ?_, fun id => queued_of_incoming (hin id), fun id => ?_, hu, fun hp id state hd => ?_⟩
  · simpa [Connection.incoming] using congrArg Option.isSome (hin id)
  · have hx := congrArg (fun entry => entry.elim false (fun t => t.2.2)) (hin id)
    unfold Connection.incoming at hx
    unfold Connection.finished
    cases hc : c.stream id <;> cases hd : d.stream id <;> simp_all
  · have hx := hin id
    rw [Connection.incoming, Connection.incoming, hd] at hx
    cases hc : c.stream id with
    | none => simp [hc] at hx
    | some old =>
      rw [hc] at hx
      simp only [Option.map_some, Option.some.injEq, Prod.mk.injEq] at hx
      have hold := hp id old hc
      unfold StreamState.Placed at hold ⊢
      rw [hx.1, hx.2.1]
      exact hold

theorem Still.of_fields {c d : Connection T} (hi : d.inbound = c.inbound)
    (hr : d.receivedBytes = c.receivedBytes) (hs : d.streams = c.streams) : Still c d := by
  refine .of_incoming hi hr (by rw [hs]) (fun id => ?_) ?_
  · rw [Connection.incoming, Connection.incoming, stream, stream, hs]
  · rw [Connection.unread, Connection.unread, hs]

theorem Still.refl (c : Connection T) : Still c c := .of_fields rfl rfl rfl

theorem Still.trans {a b c : Connection T} (h : Still a b) (h' : Still b c) : Still a c where
  inbound := h'.inbound.trans h.inbound
  received := h'.received.trans h.received
  slots := h'.slots.trans h.slots
  known id := (h'.known id).trans (h.known id)
  queued id := (h'.queued id).trans (h.queued id)
  finished id := (h'.finished id).trans (h.finished id)
  unread := h'.unread.trans h.unread
  placed hp := h'.placed (h.placed hp)

theorem setCompleted_still (c : Connection T) (id : StreamId) (n : ℕ) :
    Still c (c.modifyStream id (fun state => { state with completedWrite := n })) := by
  refine .of_incoming rfl rfl (update_length _ _ _) (fun other => ?_) ?_
  · unfold Connection.incoming
    rw [stream_modifyStream]
    split
    · cases c.stream other <;> rfl
    · rfl
  · cases hs : slot c.streams id.toNat with
    | none => exact total_update_none _ _ hs
    | some state =>
      have ht := total_update (fun state => state.queued.length)
        (fun state => { state with completedWrite := n }) hs
      exact Nat.add_right_cancel ht

theorem setNext_still (c : Connection T) (next : StreamId) : Still c { c with nextStream := next } :=
  .of_fields rfl rfl rfl

section Sending
variable [AsyncIo T]

theorem sending_still (c : Connection T) : Sending (Still c) :=
  .of_updates (fun _ _ _ _ h => h.trans (.of_fields rfl rfl rfl)) (fun d id n h => h.trans (setCompleted_still d id n))

theorem pollFlushWrite_still (c : Connection T) : Still c c.pollFlushWrite.2 :=
  (sending_still c).flush c (.refl c)

theorem pollControl_still (c : Connection T) (kind : FrameKind) (id : StreamId) :
    Still c (c.pollControl kind id).2 := (sending_still c).pollControl c (.refl c) kind id

theorem pollData_still (c : Connection T) (id : StreamId) (input : List UInt8) :
    Still c (c.pollData id input).2 := (sending_still c).pollData c (.refl c) id input

theorem driveWrite_still (c : Connection T) : Still c c.driveWrite.2 := (sending_still c).driveWrite c (.refl c)

end Sending

theorem drop_still (stream : MuxStream) (c : Connection T) : Still c (stream.drop c) := by
  unfold MuxStream.drop
  split
  · exact Still.refl c
  · exact .of_fields rfl rfl rfl

theorem acceptHeader_still (c : Connection T) : Still c c.acceptHeader.2 := by
  unfold acceptHeader
  dsimp only
  repeat' split
  all_goals exact .of_fields rfl rfl rfl

/-- What completing `frame`, or no frame, does to the queues. -/
inductive Completes (c d : Connection T) : Option PendingRead → Prop where
  | nothing (h : Still c d) : Completes c d none
  | refused (frame : PendingRead) (h : Still c d) (m : Connection T) (hm : Still c m) (e : IoError)
      (he : m.finishFrame frame = .error e) : Completes c d (some frame)
  | finished (frame : PendingRead) (m : Connection T) (hm : Still c m) (hd : m.finishFrame frame = .ok d) :
      Completes c d (some frame)

theorem Completes.after {c m d : Connection T} {arrival : Option PendingRead} (h : Still c m)
    (hd : Completes m d arrival) : Completes c d arrival := by
  cases hd with
  | nothing h' => exact .nothing (h.trans h')
  | refused frame h' m' hm' e he => exact .refused frame (h.trans h') m' (h.trans hm') e he
  | finished frame m' hm' hd => exact .finished frame m' (h.trans hm') hd

section Receiving
variable [AsyncIo T]

theorem pollPrepareFrame_still (c : Connection T) : Still c c.pollPrepareFrame.2 := by
  unfold pollPrepareFrame
  split
  · exact Still.refl c
  · split
    · exact .of_fields rfl rfl rfl
    · dsimp only
      split
      · exact (Still.of_fields rfl rfl rfl : Still c (c.receiveHeader _ _)).trans (acceptHeader_still _)
      · exact .of_fields rfl rfl rfl
      · exact .of_fields rfl rfl rfl
      · exact .of_fields rfl rfl rfl

def bodyAtHand (c : Connection T) : Option PendingRead :=
  match c.readFrame, c.io with
  | some frame, some io =>
    match fill (frame.prepare.bytes.length - frame.prepare.bufferOffset + 1) io
        (frame.prepare.bytes.length - frame.prepare.bufferOffset) with
    | (.full, _, chunk) => some (frame.prepare.receive chunk)
    | _ => none
  | _, _ => none

/-- The frame that the read half of `poll_drive` completes. -/
def readArrival (c : Connection T) : Option PendingRead :=
  match c.pollPrepareFrame with
  | (.ready (.ok ()), c) => c.bodyAtHand
  | _ => none

def driveArrival (c : Connection T) : Option PendingRead :=
  if c.closed then none
  else
    match c.driveWrite with
    | (.ready (.error _), _) => none
    | (_, c) => c.readArrival

theorem pollFrameBody_completes {c : Connection T} {frame : PendingRead} (hf : c.readFrame = some frame) :
    Completes c (c.pollFrameBody frame).2 c.bodyAtHand := by
  unfold pollFrameBody bodyAtHand
  rw [hf]
  dsimp only
  cases hio : c.io with
  | none => exact .nothing (.of_fields rfl rfl rfl)
  | some io =>
    dsimp only
    rcases fill (frame.prepare.bytes.length - frame.prepare.bufferOffset + 1) io
      (frame.prepare.bytes.length - frame.prepare.bufferOffset) with ⟨_ | _ | e | _, io', chunk⟩ <;> dsimp only
    · have hm : Still c { c with io := some io', readFrame := none } := .of_fields rfl rfl rfl
      split
      · rename_i d hd
        exact .finished _ _ hm hd
      · rename_i e he
        exact .refused _ hm _ hm e he
    · exact .nothing (.of_fields rfl rfl rfl)
    · exact .nothing (.of_fields rfl rfl rfl)
    · exact .nothing (.of_fields rfl rfl rfl)

theorem driveRead_completes (c : Connection T) : Completes c c.driveRead.2 c.readArrival := by
  have hprep := pollPrepareFrame_still c
  unfold driveRead readArrival
  generalize c.pollPrepareFrame = r at hprep ⊢
  rcases r with ⟨(e | _) | _, m⟩ <;> dsimp only at hprep ⊢
  · exact .nothing hprep
  · split
    · rename_i frame hf
      exact Completes.after hprep (pollFrameBody_completes hf)
    · rename_i hf
      rw [bodyAtHand, hf]
      exact .nothing hprep
  · exact .nothing hprep

theorem pollDrive_completes (c : Connection T) : Completes c c.pollDrive.2 c.driveArrival := by
  have hwrite := driveWrite_still c
  unfold pollDrive driveArrival
  split
  · exact .nothing (Still.refl c)
  · generalize c.driveWrite = r at hwrite ⊢
    rcases r with ⟨(e | _) | _, m⟩ <;> dsimp only at hwrite ⊢
    · exact .nothing hwrite
    · exact Completes.after hwrite (driveRead_completes m)
    · exact Completes.after hwrite (driveRead_completes m)

/-- The frame that `poll_read_stream` completes: it reads a payload of its own stream
    directly and drives the connection for every other frame. -/
def streamArrival (c : Connection T) (id : StreamId) : Option PendingRead :=
  match c.pollPrepareFrame with
  | (.ready (.ok ()), c) =>
    match c.readFrame with
    | some frame =>
      if frame.kind ≠ .frameData ∨ frame.stream ≠ id ∨ frame.bytes ≠ [] ∨ frame.length = frame.wireConsumed then
        c.driveArrival
      else none
    | none => none
  | _ => none

theorem readDirect_still (c : Connection T) (frame : PendingRead) (room : ℕ) :
    Still c (c.readDirect frame room).2 := by
  unfold readDirect
  split
  · exact Still.refl c
  · split <;> exact .of_fields rfl rfl rfl

theorem pollReadStream_completes (c : Connection T) (id : StreamId) (room : ℕ) :
    Completes c (c.pollReadStream id room).2 (c.streamArrival id) := by
  have hprep := pollPrepareFrame_still c
  unfold pollReadStream streamArrival
  generalize c.pollPrepareFrame = r at hprep ⊢
  rcases r with ⟨(e | _) | _, m⟩ <;> dsimp only at hprep ⊢
  · exact .nothing hprep
  · cases hf : m.readFrame with
    | none => exact .nothing hprep
    | some frame =>
      dsimp only
      split
      · have hdrive := pollDrive_completes m
        generalize m.pollDrive = r at hdrive ⊢
        rcases r with ⟨(e | _) | _, d⟩ <;> exact Completes.after hprep hdrive
      · exact .nothing (hprep.trans (readDirect_still m frame room))
  · exact .nothing hprep

end Receiving

theorem pop_still {c : Connection T} (hp : c.Placed) {id : StreamId} {state : StreamState}
    (hs : c.stream id = some state) {front : List UInt8} {rest : List (List UInt8)}
    (hi : state.input = front :: rest) : Still c (c.modifyStream id (fun state => state.advance 0)) := by
  have hplaced := hp id state hs
  have hqueue := hplaced.queued_advance hi (Nat.zero_le (front.length - state.offset))
  rw [List.take_zero, List.nil_append] at hqueue
  have heof : (state.advance 0).eof = state.eof := by
    unfold StreamState.advance
    rw [hi]
    dsimp only
    split <;> rfl
  have hunread := unread_modifyStream hs (fun state => state.advance 0)
  refine ⟨rfl, rfl, update_length _ _ _, fun other => ?_, fun other => ?_, fun other => ?_, ?_,
    fun _ other state' hs' => ?_⟩
  · rw [stream_modifyStream]
    split <;> simp
  · rw [queued_modifyStream]
    split
    · rename_i he
      subst he
      rw [Connection.queued, hs]
      exact hqueue.symm
    · rfl
  · unfold Connection.finished
    rw [stream_modifyStream]
    split
    · rename_i he
      subst he
      rw [hs]
      exact heof
    · rfl
  · rw [← hqueue] at hunread
    exact Nat.add_right_cancel hunread
  · rw [stream_modifyStream] at hs'
    split at hs'
    · rename_i he
      subst he
      rw [hs] at hs'
      cases hs'
      exact hplaced.advance hi (Nat.zero_le _)
    · exact hp other state' hs'

def added (frame : PendingRead) (id : StreamId) : List UInt8 :=
  if frame.kind = .frameData ∧ frame.stream = id then frame.bytes else []

structure Finished (c d : Connection T) (frame : PendingRead) : Prop where
  inbound : d.inbound = c.inbound ∨ frame.kind = .frameOpen ∧ d.inbound = c.inbound ++ [frame.stream]
  slots : d.streams.length ≤ max c.streams.length (2 ^ 32)
  known : ∀ id, (c.stream id).isSome → (d.stream id).isSome
  stored : frame.kind = .frameData → (c.stream frame.stream).isSome
  queued : ∀ id, d.queued id = c.queued id ++ added frame id
  finished : ∀ id, c.finished id → d.finished id
  balance : d.receivedBytes + c.unread = c.receivedBytes + d.unread
  placed : d.Placed

theorem modifyStream_finished {c : Connection T} {frame : PendingRead} {state : StreamState} (hp : c.Placed)
    (hs : c.stream frame.stream = some state) (change : StreamState → StreamState)
    (hplaced : (change state).Placed) (hqueue : (change state).queued = state.queued ++ added frame frame.stream)
    (heof : state.eof → (change state).eof) {n : ℕ} (hn : (added frame frame.stream).length = n) :
    Finished c ({ c with receivedBytes := c.receivedBytes + n }.modifyStream frame.stream change) frame := by
  have hstream (other : StreamId) :
      ({ c with receivedBytes := c.receivedBytes + n }.modifyStream frame.stream change).stream other =
        if frame.stream = other then (c.stream other).map change else c.stream other :=
    stream_modifyStream c frame.stream other change
  have hunread := unread_modifyStream hs change
  rw [hqueue, List.length_append, hn] at hunread
  refine ⟨.inl rfl, ?_, fun id hid => ?_, fun _ => by simp [hs], fun id => ?_, fun id hid => ?_, ?_,
    fun id state' hs' => ?_⟩
  · exact Nat.le_trans (Nat.le_of_eq (update_length _ _ _)) (Nat.le_max_left _ _)
  · rw [hstream]
    split <;> simpa using hid
  · refine (queued_modifyStream c frame.stream id change).trans ?_
    split
    · rename_i he
      subst he
      rw [hs, Connection.queued, hs]
      exact hqueue
    · rename_i he
      rw [added, if_neg (fun hx => he hx.2), List.append_nil]
  · unfold Connection.finished at hid ⊢
    rw [hstream]
    split
    · rename_i he
      subst he
      rw [hs] at hid ⊢
      exact heof hid
    · exact hid
  · have hu : ({ c with receivedBytes := c.receivedBytes + n }.modifyStream frame.stream change).unread =
        (c.modifyStream frame.stream change).unread := rfl
    change c.receivedBytes + n + c.unread = _
    omega
  · rw [hstream] at hs'
    split at hs'
    · rename_i he
      subst he
      rw [hs] at hs'
      cases hs'
      exact hplaced
    · exact hp id state' hs'

structure Inserted (c d : Connection T) (id : StreamId) : Prop where
  inbound : d.inbound = c.inbound
  received : d.receivedBytes = c.receivedBytes
  slots : d.streams.length ≤ max c.streams.length (2 ^ 32)
  fresh : c.stream id = none
  known : ∀ other, (c.stream other).isSome → (d.stream other).isSome
  queued : ∀ other, d.queued other = c.queued other
  finished : ∀ other, d.finished other = c.finished other
  unread : d.unread = c.unread
  placed : c.Placed → d.Placed

theorem Inserted.still {c m d : Connection T} {id : StreamId} (h : Inserted c m id) (hs : Still m d) :
    Inserted c d id where
  inbound := hs.inbound.trans h.inbound
  received := hs.received.trans h.received
  slots := by rw [hs.slots]; exact h.slots
  fresh := h.fresh
  known other ho := by rw [hs.known]; exact h.known other ho
  queued other := (hs.queued other).trans (h.queued other)
  finished other := (hs.finished other).trans (h.finished other)
  unread := hs.unread.trans h.unread
  placed hp := hs.placed (h.placed hp)

theorem insertStream_inserted {c d : Connection T} {id : StreamId} (h : c.insertStream id = .ok d) :
    Inserted c d id := by
  have hfresh := insert_fresh h
  have hstream (other : StreamId) : d.stream other = if id = other then some {} else c.stream other :=
    stream_insert h other
  unfold insertStream at h
  split at h
  · cases h
  · cases h
    have hlt := id.toNat_lt
    refine ⟨rfl, rfl, ?_, hfresh, fun other ho => ?_, fun other => ?_, fun other => ?_, ?_, fun hp other state hs => ?_⟩
    · dsimp only
      rw [put_length]
      omega
    · rw [hstream]
      split
      · rfl
      · exact ho
    · rw [Connection.queued, hstream, Connection.queued]
      split
      · rename_i he
        subst he
        rw [hfresh]
        rfl
      · rfl
    · rw [Connection.finished, hstream, Connection.finished]
      split
      · rename_i he
        subst he
        rw [hfresh]
        rfl
      · rfl
    · exact total_put _ _ hfresh
    · rw [hstream] at hs
      split at hs
      · cases hs
        exact .inl rfl
      · exact hp other state hs

theorem finishFrame_finished {c d : Connection T} {frame : PendingRead} (hp : c.Placed)
    (h : c.finishFrame frame = .ok d) : Finished c d frame := by
  unfold finishFrame at h
  cases hk : frame.kind <;> rw [hk] at h <;> dsimp only at h
  case frameOpen =>
    split at h
    · rename_i m hm
      cases h
      have hins := insertStream_inserted hm
      refine ⟨.inr ⟨hk, by rw [← hins.inbound]⟩, hins.slots, hins.known, by simp [hk], fun id => ?_,
        fun id hid => ?_, ?_, hins.placed hp⟩
      · rw [added, if_neg (by simp [hk]), List.append_nil]
        exact hins.queued id
      · exact (hins.finished id).trans hid
      · have hr := hins.received
        have hu := hins.unread
        change m.receivedBytes + c.unread = c.receivedBytes + m.unread
        omega
    · cases h
  case frameData =>
    split at h
    · cases h
    · rename_i state hs
      cases h
      have hadd : added frame frame.stream = frame.bytes := if_pos ⟨hk, rfl⟩
      have hplaced := hp _ state hs
      exact modifyStream_finished hp hs _ (hplaced.push _) (by rw [hplaced.queued_push, hadd]) id (by rw [hadd])
  case frameFin =>
    split at h
    · cases h
    · rename_i state hs
      cases h
      have hadd : added frame frame.stream = [] := if_neg (by simp [hk])
      exact modifyStream_finished hp hs (fun state => { state with eof := true }) (hp _ state hs)
        (by rw [hadd, List.append_nil]; rfl) (fun _ => rfl) (n := 0) (by rw [hadd]; rfl)

theorem finishFrame_refused {c : Connection T} {frame : PendingRead} {e : IoError}
    (h : c.finishFrame frame = .error e) (hk : frame.kind = .frameData) : c.stream frame.stream = none := by
  unfold finishFrame at h
  rw [hk] at h
  dsimp only at h
  split at h
  · assumption
  · cases h

end Connection
end Snolc.Mux
