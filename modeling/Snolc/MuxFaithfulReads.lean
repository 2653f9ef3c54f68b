import Snolc.MuxDelivery
import Snolc.MuxReceiveBudget
import Snolc.MuxRules

set_option autoImplicit false

namespace Snolc.Mux
open PollIo SlotTable MuxFrame GuardedRuns ScriptedIo

namespace Connection
variable {T : Type} [TracedIo T]

/-- A sending call: the receiving half does not see it, and the write slot stays sound. -/
structure Sends (c d : Connection T) : Prop where
  inbound : SameInbound c d
  sound : ∀ w, d.write = some w → w.Sound

variable {c : Connection T}

theorem Sends.refl (hw : ∀ w, c.write = some w → w.Sound) : Sends c c := ⟨.refl c, hw⟩

theorem Sends.trans {m d : Connection T} (h : Sends c m) (h' : Sends m d) : Sends c d :=
  ⟨h.inbound.trans h'.inbound, h'.sound⟩

theorem setWrite_sends (c : Connection T) (f : Frame) :
    Sends c { c with write := some (.ofFrame f f.payload.length) } := by
  refine ⟨setWrite_inbound c _ c.controls, fun w hw => ?_⟩
  cases hw
  exact PendingWrite.ofFrame_sound f

theorem clearCompleted_sends (hw : ∀ w, c.write = some w → w.Sound) (id : StreamId) :
    Sends c (c.clearCompleted id) :=
  ⟨setCompleted_inbound c id 0, hw⟩

theorem startQueuedControl_sends (hw : ∀ w, c.write = some w → w.Sound) : Sends c c.startQueuedControl := by
  refine ⟨startQueuedControl_inbound c, ?_⟩
  unfold startQueuedControl
  split
  · rintro w hx
    cases hx
    exact PendingWrite.ofFrame_sound (Frame.control _ _)
  · exact hw

theorem pollFlushWrite_sends (hw : ∀ w, c.write = some w → w.Sound) : Sends c c.pollFlushWrite.2 := by
  refine ⟨pollFlushWrite_inbound c hw, ?_⟩
  unfold pollFlushWrite
  split
  · exact hw
  · rename_i io hio
    split
    · exact hw
    · rename_i w hcw
      have hsound := hw w hcw
      have hne : w.bytes.drop w.offset ≠ [] := by simpa using hsound.unsent
      obtain ⟨hk, -, -, hok⟩ := drain_spec _ io (w.bytes.drop w.offset) (Nat.lt_succ_self _) hne
      dsimp only
      split <;> rename_i heq <;> rw [heq] at hk hok <;> dsimp only at hk hok
      · intro w' hx
        rw [completeWrite_write] at hx
        cases hx
      · rename_i result io' k hres
        have hlt : k < (w.bytes.drop w.offset).length := by
          rcases Nat.lt_or_eq_of_le hk with hlt | hkeq
          · exact hlt
          · exact absurd (hok.mpr hkeq) hres
        rw [List.length_drop] at hlt
        rintro w' hx
        cases hx
        exact ⟨hsound.bytes, hsound.accepted, by dsimp only; omega⟩

theorem sending_sends (c : Connection T) : Sending (Sends c) where
  start d f h := h.trans (setWrite_sends d f)
  queued _ h := h.trans (startQueuedControl_sends h.sound)
  cleared _ id h := h.trans (clearCompleted_sends h.sound id)
  flush _ h := h.trans (pollFlushWrite_sends h.sound)

theorem pollControl_sends (hw : ∀ w, c.write = some w → w.Sound) (kind : FrameKind) (id : StreamId) :
    Sends c (c.pollControl kind id).2 := (sending_sends c).pollControl c (.refl hw) kind id

theorem pollData_sends (hw : ∀ w, c.write = some w → w.Sound) (id : StreamId) (input : List UInt8) :
    Sends c (c.pollData id input).2 := (sending_sends c).pollData c (.refl hw) id input

theorem driveWrite_sends (hw : ∀ w, c.write = some w → w.Sound) : Sends c c.driveWrite.2 :=
  (sending_sends c).driveWrite c (.refl hw)

theorem drop_sends (hw : ∀ w, c.write = some w → w.Sound) (stream : MuxStream) : Sends c (stream.drop c) := by
  unfold MuxStream.drop
  split
  · exact .refl hw
  · exact ⟨setWrite_inbound c c.write _, hw⟩

theorem SameOutbound.connected {d : Connection T} (hs : SameOutbound c d) {connected : Bool}
    (h : c.io.isSome = connected ∧ ∀ w, c.write = some w → w.Sound) :
    d.io.isSome = connected ∧ ∀ w, d.write = some w → w.Sound := by
  refine ⟨hs.io.trans h.1, ?_⟩
  rw [hs.write]
  exact h.2

theorem reading_sound (connected : Bool) :
    Reading fun c : Connection T => c.io.isSome = connected ∧ ∀ w, c.write = some w → w.Sound where
  write c h := by
    have hdrive := driveWrite_sends h.2
    exact ⟨hdrive.inbound.io.trans h.1, hdrive.sound⟩
  prepare c h := (pollPrepareFrame_outbound c).connected h
  body c frame h _ := (pollFrameBody_outbound c frame).connected h
  direct c frame room h _ _ := (readDirect_outbound c frame room).connected h
  advance _ _ _ h := h
  taken _ _ h := h

/-- `poll_read_stream` hands the payload of the frame on the wire straight to the caller. -/
def readsDirect (c : Connection T) (id : StreamId) : Bool :=
  match c.pollPrepareFrame with
  | (.ready (.ok ()), c) =>
    match c.readFrame with
    | some frame =>
      !(decide (frame.kind ≠ .frameData ∨ frame.stream ≠ id ∨ frame.bytes ≠ [] ∨ frame.length = frame.wireConsumed))
    | none => false
  | _ => false

theorem pollReadStream_bytes (c : Connection T) (id : StreamId) (room : ℕ) (h : c.readsDirect id = false) :
    readBytes (c.pollReadStream id room).1 = [] := by
  unfold readsDirect at h
  unfold pollReadStream
  generalize c.pollPrepareFrame = r at h ⊢
  rcases r with ⟨(e | _) | _, m⟩ <;> dsimp only at h ⊢
  · rfl
  · cases hf : m.readFrame with
    | none => rfl
    | some frame =>
      rw [hf] at h
      dsimp only at h ⊢
      rw [Bool.not_eq_false', decide_eq_true_iff] at h
      rw [if_pos h]
      split <;> rfl
  · rfl

theorem pollReadStream_not_end (c : Connection T) (id : StreamId) (room : ℕ) :
    reportsEnd (c.pollReadStream id room).1 = false := by
  unfold pollReadStream
  split
  · rfl
  · rfl
  · split
    · rfl
    · split
      · split <;> rfl
      · unfold readDirect
        split
        · rfl
        · split
          · rfl
          · rename_i bytes io hne heq
            cases bytes with
            | nil => exact absurd rfl hne
            | cons first bytes => rfl
          · rfl
          · rfl

def readerDirect (c : Connection T) (id : StreamId) (room : ℕ) : Bool :=
  (c.atWire id room).any (fun c => c.readsDirect id)

theorem pollRead_bytes {c : Connection T} (hp : c.Placed) {id : StreamId} {room : ℕ}
    (h : readBytes (c.pollRead id room).1 ≠ []) : c.queued id ≠ [] ∨ c.readerDirect id room = true := by
  by_contra hno
  rw [not_or, not_not] at hno
  obtain ⟨hqueue, hdirect⟩ := hno
  rw [Bool.not_eq_true] at hdirect
  refine h ?_
  unfold readerDirect atWire at hdirect
  unfold pollRead
  split
  · rfl
  · rename_i hroom
    rw [if_neg hroom] at hdirect
    cases hs : c.stream id with
    | none => rfl
    | some state =>
      rw [hs] at hdirect
      dsimp only at hdirect ⊢
      cases hi : state.input with
      | nil =>
        rw [hi] at hdirect
        dsimp only at hdirect ⊢
        split
        · rfl
        · rename_i heof
          rw [if_neg heof] at hdirect
          exact pollReadStream_bytes c id room hdirect
      | cons front rest =>
        rw [hi] at hdirect
        dsimp only at hdirect ⊢
        have hq := (hp id state hs).queued_advance hi (Nat.min_le_right room (front.length - state.offset))
        rw [queued, hs, Option.elim_some, hq, List.append_eq_nil_iff] at hqueue
        split
        · exact hqueue.1
        · rename_i hzero
          rw [if_neg hzero] at hdirect
          rw [Decidable.not_not.mp hzero]
          exact pollReadStream_bytes _ id room hdirect

theorem pollRead_end {c : Connection T} {id : StreamId} {room : ℕ} (hroom : room ≠ 0)
    (h : reportsEnd (c.pollRead id room).1 = true) :
    (c.pollRead id room).2 = c ∧ c.finished id = true ∧ c.queued id = [] := by
  unfold pollRead at h ⊢
  rw [if_neg hroom] at h ⊢
  cases hs : c.stream id with
  | none =>
    rw [hs] at h
    cases h
  | some state =>
    rw [hs] at h
    dsimp only at h ⊢
    cases hi : state.input with
    | nil =>
      rw [hi] at h
      dsimp only at h ⊢
      split at h
      · rename_i heof
        rw [if_pos heof, finished, hs, queued, hs]
        exact ⟨rfl, heof, by simp [StreamState.queued, hi]⟩
      · rw [pollReadStream_not_end] at h
        cases h
    | cons front rest =>
      rw [hi] at h
      dsimp only at h
      split at h
      · rename_i hpos
        have hlen : ((front.drop state.offset).take (min room (front.length - state.offset))).length ≠ 0 := by
          rw [List.length_take, List.length_drop]
          omega
        cases hb : (front.drop state.offset).take (min room (front.length - state.offset)) with
        | nil => exact absurd (by rw [hb]; rfl) hlen
        | cons first bytes =>
          rw [hb] at h
          cases h
      · rw [pollReadStream_not_end] at h
        cases h

theorem Inbox.insert {got : List Frame} {part : List UInt8} (h : c.Inbox got part) {id : StreamId}
    {m : Connection T} (hm : c.insertStream id = .ok m) : m.Inbox got part := by
  have hins := insertStream_inserted hm
  have hstream (other : StreamId) : m.stream other = if id = other then some {} else c.stream other :=
    stream_insert hm other
  have hchunks : ∀ other state, m.stream other = some state → ∀ chunk ∈ state.input,
      ∃ f ∈ got, f.kind = .frameData ∧ (chunk = [] ↔ f.payload = []) := by
    intro other state hs chunk hc
    rw [hstream] at hs
    split at hs
    · cases hs
      simp at hc
    · exact h.chunks other state hs chunk hc
  have hbudget : m.receivedBytes = m.unread := by rw [hins.received, hins.unread, h.budget]
  have hplaced := hins.placed h.placed
  unfold insertStream at hm
  split at hm
  · cases hm
  · cases hm
    exact ⟨h.regular, h.taken, h.header, h.idle, h.reading, hplaced, hchunks, hbudget⟩

theorem Inbox.opens {got : List Frame} {part : List UInt8} {delivered : StreamId → List UInt8} (h : c.Inbox got part)
    (hd : Delivery c got part delivered) (hw : ∀ w, c.write = some w → w.Sound) {result : Except MuxError MuxStream}
    {d : Connection T} (hq : c.queueStream = (result, d)) (controls : List (FrameKind × StreamId)) :
    Inbox { d with controls := controls } got part ∧ Delivery { d with controls := controls } got part delivered ∧
      ∀ w, ({ d with controls := controls } : Connection T).write = some w → w.Sound := by
  rcases c.queueStream_cases with ⟨e, next, heq⟩ | ⟨m, hm, heq⟩ <;> rw [heq] at hq <;> cases hq
  · exact ⟨⟨h.regular, h.taken, h.header, h.idle, h.reading, h.placed, h.chunks, h.budget⟩, hd, hw⟩
  · have hm' := h.insert hm
    have hins := insertStream_inserted hm
    obtain ⟨hwrite, hframe⟩ : m.write = c.write ∧ m.readFrame = c.readFrame := by
      unfold insertStream at hm
      split at hm
      · cases hm
      · cases hm
        exact ⟨rfl, rfl⟩
    refine ⟨⟨hm'.regular, hm'.taken, hm'.header, hm'.idle, hm'.reading, hm'.placed, hm'.chunks, hm'.budget⟩,
      fun id => ?_, fun w hx => hw w (by rw [← hwrite]; exact hx)⟩
    have hdirect : direct { m with nextStream := c.nextStream + 2, controls := controls } part id =
        c.direct part id := by
      simp only [direct, hframe]
    have hqueued : queued { m with nextStream := c.nextStream + 2, controls := controls } id = c.queued id :=
      hins.queued id
    rw [hdirect, hqueued]
    exact hd id

end Connection

def failed {α : Type} : IoPoll α → Bool
  | .ready (.error _) => true
  | _ => false

namespace Handles
variable {T : Type}

/-- A payload that is completed for a stream whose end was not reported yet. -/
def Timely (s : Handles T) : Option PendingRead → Prop
  | some frame => frame.kind = .frameData → frame.bytes ≠ [] → s.ended frame.stream = false
  | none => True

instance (s : Handles T) : (arrival : Option PendingRead) → Decidable (s.Timely arrival)
  | some frame =>
    inferInstanceAs (Decidable (frame.kind = .frameData → frame.bytes ≠ [] → s.ended frame.stream = false))
  | none => isTrue trivial

variable [TracedIo T]

/-- The frames of the peer are accepted, a payload taken from the wire overtakes nothing, and
    no payload follows the reported end of its stream. -/
def Orderly (s : Handles T) : HandleCall → Prop
  | .accept => s.connection.inbound ≠ [] ∨
      (failed s.connection.pollDrive.1 = false ∧ s.Timely s.connection.driveArrival)
  | .drive => failed s.connection.pollDrive.1 = false ∧ s.Timely s.connection.driveArrival
  | .read id room => s.held id = false ∨
      (failed (s.connection.pollRead id room).1 = false ∧ s.Timely (s.connection.readerArrival id room) ∧
        (s.connection.readerDirect id room = true → s.connection.queued id = [] ∧ s.ended id = false))
  | _ => True

instance (s : Handles T) : (call : HandleCall) → Decidable (s.Orderly call)
  | .accept => inferInstanceAs (Decidable (_ ∨ (_ ∧ s.Timely _)))
  | .drive => inferInstanceAs (Decidable (_ ∧ s.Timely _))
  | .read _ _ => inferInstanceAs (Decidable (_ ∨ (_ ∧ s.Timely _ ∧ (_ → _ ∧ _))))
  | .openStream => isTrue trivial
  | .queueOpen => isTrue trivial
  | .control _ _ => isTrue trivial
  | .write _ _ => isTrue trivial
  | .flush => isTrue trivial
  | .drop _ => isTrue trivial

theorem Orderly.timely {s : Handles T} {call : HandleCall} (h : s.Orderly call) : s.Timely (s.arrival call) := by
  cases call with
  | accept =>
    rw [arrival]
    split
    · rename_i hi
      exact (h.resolve_left (fun hx => hx hi)).2
    · trivial
  | read id room =>
    rw [arrival]
    split
    · rename_i hid
      exact (h.resolve_left (by simp [hid])).2.1
    · trivial
  | drive => exact h.2
  | _ => trivial

def Ends (s t : Handles T) : Prop :=
  ∀ id, s.ended id = true → t.connection.finished id = true ∧ t.connection.queued id = []

omit [TracedIo T] in
theorem Ends.still {s t : Handles T} (h : Ends s s) (hs : Connection.Still s.connection t.connection) : Ends s t := by
  intro id hid
  rw [hs.finished, hs.queued]
  exact h id hid

theorem Effect.ends {s t : Handles T} {call : HandleCall} (h : Effect s t call) (hc : Counted s.connection)
    (hends : Ends s s) (htimely : s.Timely (s.arrival call)) : Ends s t := by
  cases h with
  | completes hd hheld hcall =>
    generalize s.arrival call = arrival at hd htimely
    cases hd with
    | nothing hs => exact hends.still hs
    | refused frame hs m hm e he => exact hends.still hs
    | finished frame m hm hfin =>
      have hf := Connection.finishFrame_finished (hm.placed hc.placed) hfin
      intro id hid
      obtain ⟨hfinished, hqueue⟩ := hends id hid
      refine ⟨hf.finished id (by rw [hm.finished]; exact hfinished), ?_⟩
      rw [hf.queued, hm.queued, hqueue, List.nil_append, Connection.added]
      split
      · rename_i hx
        obtain ⟨hk, rfl⟩ := hx
        by_contra hne
        have hlate := htimely hk hne
        rw [hid] at hlate
        cases hlate
      · rfl
  | inserts id hd hheld hnone hcall =>
    intro other ho
    rw [hd.finished, hd.queued]
    exact hends other ho
  | accepts id rest hi hd hheld hcall =>
    rw [Ends, hd]
    exact hends
  | takes id room bytes hid htaken hcounted hheld hnone hcall =>
    intro other ho
    obtain ⟨hfinished, hqueue⟩ := hends other ho
    refine ⟨by rw [htaken.finished]; exact hfinished, ?_⟩
    by_cases he : other = id
    · subst he
      rw [htaken.front, List.append_eq_nil_iff] at hqueue
      exact hqueue.2
    · rw [htaken.others other he]
      exact hqueue
  | drops stream hcall hid hd hheld => exact hends.still hd

/-- What the readers got against the frames taken so far. -/
structure Faithful (s : Handles T) (got : List Frame) (part : List UInt8) : Prop where
  inbox : s.connection.Inbox got part
  delivery : s.connection.Delivery got part s.returned
  sound : ∀ w, s.connection.write = some w → w.Sound
  ends : Ends s s
  overrun : ∀ id, s.overrun id = false

variable {s t : Handles T} {got : List Frame} {part : List UInt8}

theorem Faithful.sends (h : Faithful s got part) (hs : Connection.Sends s.connection t.connection) :
    t.connection.Inbox got part ∧ t.connection.Delivery got part s.returned ∧
      ∀ w, t.connection.write = some w → w.Sound :=
  ⟨h.inbox.same hs.inbound, (h.inbox.took_same hs.inbound).delivery_quiet h.delivery, hs.sound⟩

theorem Faithful.drive (h : Faithful s got part) (haccept : failed s.connection.pollDrive.1 = false) :
    ∃ got' part', s.connection.pollDrive.2.Inbox got' part' ∧ s.connection.pollDrive.2.Delivery got' part' s.returned ∧
      ∀ w, s.connection.pollDrive.2.write = some w → w.Sound := by
  rcases h.inbox.drive h.sound with ⟨got', part', pushed, htook⟩ | ⟨e, he, -⟩
  · exact ⟨got', part', htook.inbox, htook.delivery_quiet h.delivery,
      ((Connection.reading_sound _).pollDrive _ ⟨rfl, h.sound⟩).2⟩
  · rw [he] at haccept
    cases haccept

theorem Faithful.opens (h : Faithful s got part) {result : Except MuxError MuxStream} {c : Connection T}
    (hq : s.connection.queueStream = (result, c)) (controls : List (FrameKind × StreamId)) :
    Connection.Inbox { c with controls := controls } got part ∧
      Connection.Delivery { c with controls := controls } got part s.returned ∧
      ∀ w, ({ c with controls := controls } : Connection T).write = some w → w.Sound :=
  h.inbox.opens h.delivery h.sound hq controls

theorem Faithful.read (h : Faithful s got part) {id : StreamId} {room : ℕ}
    (haccept : failed (s.connection.pollRead id room).1 = false)
    (hdirect : s.connection.readerDirect id room = true → s.connection.queued id = [] ∧ s.ended id = false) :
    ∃ got' part', (s.connection.pollRead id room).2.Inbox got' part' ∧
      (s.connection.pollRead id room).2.Delivery got' part'
        (Function.update s.returned id (s.returned id ++ readBytes (s.connection.pollRead id room).1)) := by
  rw [← Connection.update_handed]
  by_cases hroom : room = 0
  · have hsame : s.connection.pollRead id room = (.ready (.ok []), s.connection) := by
      rw [Connection.pollRead, if_pos hroom]
    rw [hsame]
    exact ⟨got, part, h.inbox, by simpa using h.delivery⟩
  · have hgap (state : StreamState) (rest : List (List UInt8)) (hs : s.connection.stream id = some state)
        (hi : state.input = [] :: rest) :
        readBytes ((s.connection.modifyStream id (fun state => state.advance 0)).pollReadStream id room).1 = [] ∨
          state.queued = [] := by
      have hwire : s.connection.atWire id room =
          some (s.connection.modifyStream id (fun state => state.advance 0)) := by
        rw [Connection.atWire, if_neg hroom, hs]
        dsimp only
        rw [hi]
        simp
      cases hd : (s.connection.modifyStream id (fun state => state.advance 0)).readsDirect id with
      | false => exact .inl (Connection.pollReadStream_bytes _ id room hd)
      | true =>
        have hq := (hdirect (by rw [Connection.readerDirect, hwire]; exact hd)).1
        rw [Connection.queued, hs] at hq
        exact .inr hq
    rcases h.inbox.read h.sound h.delivery id room hgap with hok | ⟨e, he, -⟩
    · exact hok
    · rw [he] at haccept
      cases haccept

theorem Faithful.step (h : Faithful s got part) (hc : Counted s.connection) {call : HandleCall} (ho : s.Orderly call) :
    ∃ got' part', Faithful (s.step call) got' part' := by
  have hends := (step_effect s call hc).ends hc h.ends ho.timely
  cases call with
  | openStream =>
    change Ends s s.openStream at hends
    change ∃ got' part', Faithful s.openStream got' part'
    unfold openStream at hends ⊢
    rcases hq : s.connection.queueStream with ⟨e | stream, c⟩ <;> rw [hq] at hends <;> dsimp only at hends ⊢ <;>
      obtain ⟨hin, hdel, hsound⟩ := h.opens hq c.controls
    · exact ⟨got, part, hin, hdel, hsound, hends, h.overrun⟩
    · exact ⟨got, part, hin, hdel, hsound, hends, h.overrun⟩
  | queueOpen =>
    change Ends s s.queueOpen at hends
    change ∃ got' part', Faithful s.queueOpen got' part'
    unfold queueOpen at hends ⊢
    rcases hq : s.connection.queueStream with ⟨e | stream, c⟩ <;> rw [hq] at hends <;> dsimp only at hends ⊢
    · obtain ⟨hin, hdel, hsound⟩ := h.opens hq c.controls
      exact ⟨got, part, hin, hdel, hsound, hends, h.overrun⟩
    · obtain ⟨hin, hdel, hsound⟩ := h.opens hq (c.controls ++ [(.frameOpen, stream.id)])
      exact ⟨got, part, hin, hdel, hsound, hends, h.overrun⟩
  | control kind id =>
    obtain ⟨hin, hdel, hsound⟩ :=
      h.sends (t := s.step (.control kind id)) (Connection.pollControl_sends h.sound kind id)
    exact ⟨got, part, hin, hdel, hsound, hends, h.overrun⟩
  | accept =>
    change Ends s s.accept at hends
    change ∃ got' part', Faithful s.accept got' part'
    unfold accept at hends ⊢
    rcases s.connection.pollAcceptStream_cases with ⟨id, rest, hi, heq⟩ | ⟨hi, heq, hne⟩
    · rw [heq] at hends ⊢
      have hin := h.inbox
      exact ⟨got, part, ⟨hin.regular, hin.taken, hin.header, hin.idle, hin.reading, hin.placed, hin.chunks, hin.budget⟩,
        h.delivery, h.sound, hends, h.overrun⟩
    · have haccept := (ho.resolve_left (fun hx => hx hi)).1
      obtain ⟨got', part', hin, hdel, hsound⟩ := h.drive haccept
      rw [← heq] at hin hdel hsound
      generalize s.connection.pollAcceptStream = r at hends hne hin hdel hsound
      rcases r with ⟨(e | id) | _, c⟩ <;> dsimp only at hends hne ⊢
      · exact ⟨got', part', hin, hdel, hsound, hends, h.overrun⟩
      · exact absurd rfl (hne id)
      · exact ⟨got', part', hin, hdel, hsound, hends, h.overrun⟩
  | read id room =>
    change Ends s (s.read id room) at hends
    change ∃ got' part', Faithful (s.read id room) got' part'
    unfold Handles.read at hends ⊢
    by_cases hid : s.held id
    · rw [if_pos hid] at hends ⊢
      obtain ⟨haccept, htimely, hdirect⟩ := ho.resolve_left (by simp [hid])
      obtain ⟨got', part', hin, hdel⟩ := h.read haccept hdirect
      refine ⟨got', part', hin, hdel, ((Connection.reading_sound _).pollRead _ ⟨rfl, h.sound⟩ id room).2,
        fun other hx => ?_, fun other => ?_⟩
      · dsimp only at hends hx ⊢
        rw [Function.update_apply] at hx
        split at hx
        · rename_i he
          subst he
          rw [Bool.or_eq_true, Bool.and_eq_true, decide_eq_true_iff] at hx
          rcases hx with hx | ⟨hroom, hend⟩
          · exact hends other hx
          · obtain ⟨hsame, hfinished, hqueue⟩ := Connection.pollRead_end hroom hend
            rw [hsame]
            exact ⟨hfinished, hqueue⟩
        · exact hends other hx
      · dsimp only
        rw [Function.update_apply]
        split
        · rw [h.overrun, Bool.false_or, Bool.and_eq_false_iff]
          by_contra hboth
          simp only [not_or, Bool.not_eq_false, Bool.not_eq_true', List.isEmpty_eq_false_iff] at hboth
          obtain ⟨hended, hbytes⟩ := hboth
          rcases Connection.pollRead_bytes hc.placed hbytes with hq | hd
          · exact hq (h.ends id hended).2
          · rw [(hdirect hd).2] at hended
            cases hended
        · exact h.overrun other
    · rw [if_neg hid]
      exact ⟨got, part, h⟩
  | write id input =>
    obtain ⟨hin, hdel, hsound⟩ := h.sends (t := s.step (.write id input)) (Connection.pollData_sends h.sound id input)
    exact ⟨got, part, hin, hdel, hsound, hends, h.overrun⟩
  | flush =>
    obtain ⟨hin, hdel, hsound⟩ := h.sends (t := s.step .flush) (Connection.pollFlushWrite_sends h.sound)
    exact ⟨got, part, hin, hdel, hsound, hends, h.overrun⟩
  | drop stream =>
    change Ends s (s.drop stream) at hends
    change ∃ got' part', Faithful (s.drop stream) got' part'
    unfold Handles.drop at hends ⊢
    by_cases hid : s.held stream.id
    · rw [if_pos hid] at hends ⊢
      obtain ⟨hin, hdel, hsound⟩ := h.sends (t := { s with connection := stream.drop s.connection })
        (Connection.drop_sends h.sound stream)
      exact ⟨got, part, hin, hdel, hsound, hends, h.overrun⟩
    · rw [if_neg hid]
      exact ⟨got, part, h⟩
  | drive =>
    obtain ⟨got', part', hin, hdel, hsound⟩ := h.drive ho.1
    exact ⟨got', part', hin, hdel, hsound, hends, h.overrun⟩

theorem Faithful.new {io : T} (hio : TracedIo.received io = []) (role : Mode) (config : YamuxConfig) :
    Faithful (Handles.new io role config) [] [] := by
  have hstream (id : StreamId) : (Handles.new io role config).connection.stream id = none := rfl
  have hoffset : (Handles.new io role config).connection.readHeaderOffset < muxHeaderBytes := Nat.zero_lt_succ _
  refine ⟨⟨by simp, hio, rfl, fun _ => ⟨hoffset, rfl⟩, fun frame hf => (nomatch hf), fun id state hs => ?_,
    fun id state hs => ?_, rfl⟩, fun id => rfl, fun w hw => (nomatch hw), fun id hx => (nomatch hx), fun _ => rfl⟩
  · rw [hstream] at hs
    cases hs
  · rw [hstream] at hs
    cases hs

/-- In a run whose calls are orderly the readers of every stream get the front of its
    payloads in the order of the wire, and nothing after they were told its end. -/
theorem reads_faithful {io : T} (hio : TracedIo.received io = []) (role : Mode) (config : YamuxConfig)
    (calls : List HandleCall) (h : Guarded Handles.step Orderly (Handles.new io role config) calls) (id : StreamId) :
    (run Handles.step (Handles.new io role config) calls).returned id <+:
        dataOf id (run Handles.step (Handles.new io role config) calls).connection.takenBytes ∧
      (run Handles.step (Handles.new io role config) calls).overrun id = false := by
  have hcounted : Counted (Handles.new io role config).connection :=
    ⟨fun id state hs => by simp [new, MuxSession.new, Connection.stream] at hs, rfl, Nat.zero_le _⟩
  obtain ⟨-, got, part, hf⟩ := run_invariant
    (fun s : Handles T => Counted s.connection ∧ ∃ got part, Faithful s got part)
    (by
      rintro s call ⟨hc, got, part, hf⟩ ho
      exact ⟨(step_effect s call hc).counted hc, hf.step hc ho⟩)
    ⟨hcounted, [], [], Faithful.new hio role config⟩ h
  exact ⟨hf.inbox.delivered hf.delivery id, hf.overrun id⟩

end Handles

def oneFlow : Script :=
  { incoming := (Frame.control .frameOpen 1).bytes ++ (⟨.frameData, 1, [1, 2, 3]⟩ : Frame).bytes ++
      (⟨.frameData, 1, [4]⟩ : Frame).bytes ++ (Frame.control .frameFin 1).bytes
    reads := [9, 9, 2, 0, 1] }

def oneFlowCalls : List HandleCall :=
  [.accept, .accept, .read 1 2, .drive, .drive, .drive, .read 1 8, .drive, .read 1 8, .read 1 8]

theorem oneFlow_faithful :
    (run Handles.step (Handles.new oneFlow .server ⟨16, 4194304, 16384⟩) oneFlowCalls).returned 1 = [1, 2, 3, 4] ∧
    ((run Handles.step (Handles.new oneFlow .server ⟨16, 4194304, 16384⟩) oneFlowCalls).returned 1 <+:
        dataOf 1 (run Handles.step (Handles.new oneFlow .server ⟨16, 4194304, 16384⟩)
          oneFlowCalls).connection.takenBytes ∧
      (run Handles.step (Handles.new oneFlow .server ⟨16, 4194304, 16384⟩) oneFlowCalls).overrun 1 = false) :=
  ⟨by decide, Handles.reads_faithful rfl .server ⟨16, 4194304, 16384⟩ oneFlowCalls (by decide) 1⟩

def emptyFirst : Script :=
  { incoming := (Frame.control .frameOpen 1).bytes ++ (⟨.frameData, 1, []⟩ : Frame).bytes ++
      (⟨.frameData, 1, [1]⟩ : Frame).bytes ++ (⟨.frameData, 1, [2]⟩ : Frame).bytes }

def afterFin : Script :=
  { incoming := (Frame.control .frameOpen 1).bytes ++ (Frame.control .frameFin 1).bytes ++
      (⟨.frameData, 1, [7]⟩ : Frame).bytes }

/-- Behind the empty chunk the reader takes the third payload before the second, and the
    payload behind the FIN is returned after the end was reported. -/
theorem reader_out_of_step :
    ¬ (run Handles.step (Handles.new emptyFirst .server ⟨16, 4194304, 16384⟩)
        [.accept, .accept, .drive, .drive, .read 1 8]).returned 1 <+: dataOf 1 emptyFirst.incoming ∧
    (run Handles.step (Handles.new afterFin .server ⟨16, 4194304, 16384⟩)
      [.accept, .accept, .drive, .read 1 8, .drive, .read 1 8]).overrun 1 = true := by
  constructor
  · decide
  · decide

end Snolc.Mux
