import Snolc.MuxLedger

set_option autoImplicit false

namespace Snolc.Mux
open PollIo SlotTable MuxFrame

namespace Connection
variable {T : Type}

def Writing (c : Connection T) (kind : FrameKind) (stream : StreamId) : Prop :=
  ∃ w, c.write = some w ∧ w.kind = kind ∧ w.stream = stream

instance (c : Connection T) (kind : FrameKind) (stream : StreamId) : Decidable (c.Writing kind stream) :=
  decidable_of_iff (c.write.any (fun w => w.kind = kind ∧ w.stream = stream)) (by
    simp only [Writing, Option.any_eq_true, decide_eq_true_eq])

theorem completed_clear (c : Connection T) (stream id : StreamId) :
    (c.clearCompleted stream).completed id = if stream = id then 0 else c.completed id := by
  unfold clearCompleted
  rw [completed_setCompleted]
  by_cases h : stream = id
  · subst h
    cases hs : c.stream stream <;> simp [completed, hs]
  · simp [h]

variable [TracedIo T]

theorem startControl_balanced {c : Connection T} (hw : c.write = none) {kind : FrameKind}
    (hk : kind ≠ .frameData) (stream : StreamId) :
    Balanced c { c with write := some (.ofFrame (Frame.control kind stream) 0) } where
  ledger hl := ⟨hl.kinds, fun w hw' hd => by cases hw'; exact absurd hd hk⟩
  outstanding _ id _ := by
    rw [outstanding_idle hw, outstanding_other rfl (fun hd => hk hd.1)]
    rfl
  kept _ h := h
  split := rfl
  grows := List.prefix_refl _

theorem pollFlushWrite_ok {c : Connection T} {sent : List Frame} (h : Outbox c sent)
    (hok : c.pollFlushWrite.1 = .ready (.ok ())) : c.pollFlushWrite.2.write = none := by
  rcases pollFlushWrite_flushed c h.io h.sound with ⟨hw, -⟩ | ⟨-, -, -, -, hne, -⟩
  · exact hw
  · exact absurd hok hne

/-- The two ways a `poll_control` call can go: it waits for the frame in the
    write slot, or it starts its own frame behind it. -/
inductive ControlStep (c d : Connection T) (result : IoPoll Unit) (kind : FrameKind)
    (stream : StreamId) (sent : List Frame) : Prop where
  | waiting (hout : d.Outbox sent)
      (hok : result = .ready (.ok ()) → c.Writing kind stream ∧ d.write = none)
  | started (hown : ¬ c.Writing kind stream) (hout : d.Outbox (sent ++ [Frame.control kind stream]))
      (hok : result = .ready (.ok ()) → d.write = none)

structure SendFrame (c d : Connection T) : Prop where
  controls : d.controls = c.controls
  inbound : SameInbound c d
  balanced : Balanced c d

theorem SendFrame.trans {a b c : Connection T} (h : SendFrame a b) (h' : SendFrame b c) : SendFrame a c :=
  ⟨h'.controls.trans h.controls, h.inbound.trans h'.inbound, h.balanced.trans h'.balanced⟩

theorem Outbox.flush_frame {c : Connection T} {sent : List Frame} (h : Outbox c sent) :
    SendFrame c c.pollFlushWrite.2 :=
  ⟨pollFlushWrite_controls c, pollFlushWrite_inbound c h.sound, h.flush_balanced⟩

theorem sendControl_spec {c : Connection T} {sent : List Frame} (h : Outbox c sent) (hw : c.write = none)
    {kind : FrameKind} (hk : kind ≠ .frameData) (stream : StreamId) :
    (c.sendControl kind stream).2.Outbox (sent ++ [Frame.control kind stream]) ∧
    SendFrame c (c.sendControl kind stream).2 ∧
    ((c.sendControl kind stream).1 = .ready (.ok ()) → (c.sendControl kind stream).2.write = none) := by
  have hstart := h.start hw (Frame.control kind stream) c.controls
  have hframe : SendFrame c { c with write := some (.ofFrame (Frame.control kind stream) 0) } :=
    ⟨rfl, setWrite_inbound c _ c.controls, startControl_balanced hw hk stream⟩
  unfold sendControl
  simp only [hw, Option.isNone_none, ↓reduceIte]
  exact ⟨hstart.flush, hframe.trans hstart.flush_frame, pollFlushWrite_ok hstart⟩

theorem pollControl_spec {c : Connection T} {sent : List Frame} (h : Outbox c sent)
    {kind : FrameKind} (hk : kind ≠ .frameData) (stream : StreamId) :
    ControlStep c (c.pollControl kind stream).2 (c.pollControl kind stream).1 kind stream sent ∧
    SendFrame c (c.pollControl kind stream).2 := by
  unfold pollControl
  split
  · rename_i hw
    have hown : ¬ c.Writing kind stream := by rintro ⟨w, hw', -⟩; simp [hw] at hw'
    obtain ⟨hout, hframe, hok⟩ := sendControl_spec h hw hk stream
    exact ⟨.started hown hout hok, hframe⟩
  · rename_i w hw
    split
    · rename_i hmatch
      exact ⟨.waiting h.flush (fun hok => ⟨⟨w, hw, hmatch⟩, pollFlushWrite_ok h hok⟩), h.flush_frame⟩
    · rename_i hmatch
      have hown : ¬ c.Writing kind stream := by
        rintro ⟨w', hw', hm⟩
        rw [hw] at hw'
        cases hw'
        exact hmatch hm
      have hmid := h.flush
      have hnone := pollFlushWrite_ok h
      have hframe := h.flush_frame
      split <;> rename_i heq <;> rw [heq] at hmid hnone hframe
      · obtain ⟨hout, hframe', hok⟩ := sendControl_spec hmid (hnone rfl) hk stream
        exact ⟨.started hown hout hok, hframe.trans hframe'⟩
      · rename_i hres
        exact ⟨.waiting hmid (fun hok => absurd hok hres), hframe⟩

/-- The three ways a call of `poll_data` can go for its own stream, after at most
    one queued control frame was taken: `collected` reports an earlier frame,
    `waited` leaves everything of the stream as it was, `created` puts the front
    of the input into a new frame. -/
inductive DataStep (c d : Connection T) (result : IoPoll ℕ) (stream : StreamId) (input : List UInt8)
    (sent : List Frame) : Prop where
  | collected (hres : result = .ready (.ok (c.outstanding stream))) (hclear : d.outstanding stream = 0)
      (hout : d.Outbox sent)
  | waited (hres : ∀ n, result ≠ .ready (.ok n)) (hsame : d.outstanding stream = c.outstanding stream)
      (hout : d.Outbox sent)
  | created (hfree : c.outstanding stream = 0)
      (hout : d.Outbox (sent ++ [⟨.frameData, stream, input.take c.splitSendSize⟩]))
      (hres : (result = .ready (.ok (min input.length c.splitSendSize)) ∧ d.outstanding stream = 0) ∨
        ((∀ n, result ≠ .ready (.ok n)) ∧ d.outstanding stream = min input.length c.splitSendSize))

structure DataFrame (c d : Connection T) (stream : StreamId) : Prop where
  controls : d.controls = c.controls
  inbound : SameInbound c d
  ledger : c.Ledger → d.Ledger
  others : c.Ledger → ∀ id, id ≠ stream → (c.stream id).isSome ∨ c.outstanding id = 0 →
    d.outstanding id = c.outstanding id
  grows : c.sentBytes <+: d.sentBytes

theorem SendFrame.data {c m d : Connection T} {stream : StreamId} (h : SendFrame c m)
    (h' : DataFrame m d stream) : DataFrame c d stream where
  controls := h'.controls.trans h.controls
  inbound := h.inbound.trans h'.inbound
  ledger hl := h'.ledger (h.balanced.ledger hl)
  others hl id hne hs := by
    have hb := h.balanced.outstanding hl id hs
    refine (h'.others (h.balanced.ledger hl) id hne (hs.imp (h.balanced.kept id) fun hz => ?_)).trans hb
    rw [hb, hz]
  grows := h.balanced.grows.trans h'.grows

theorem SendFrame.dataFrame {c d : Connection T} (h : SendFrame c d) (stream : StreamId) :
    DataFrame c d stream :=
  ⟨h.controls, h.inbound, h.balanced.ledger, fun hl id _ hs => h.balanced.outstanding hl id hs,
    h.balanced.grows⟩

theorem clear_frame (c : Connection T) (stream : StreamId) : DataFrame c (c.clearCompleted stream) stream where
  controls := rfl
  inbound := setCompleted_inbound c stream 0
  ledger hl := by
    refine ⟨hl.kinds, fun w hw hd => ?_⟩
    rw [completed_clear]
    split
    · rfl
    · exact hl.single w hw hd
  others _ id hne _ := outstanding_congr rfl (by rw [completed_clear, if_neg (Ne.symm hne)])
  grows := List.prefix_refl _

theorem clear_outbox {c : Connection T} {sent : List Frame} (h : Outbox c sent) (stream : StreamId) :
    (c.clearCompleted stream).Outbox sent :=
  ⟨h.io, h.wire, h.pending⟩

theorem DataFrame.trans {a b c : Connection T} {stream : StreamId} (h : DataFrame a b stream)
    (h' : DataFrame b c stream) : DataFrame a c stream where
  controls := h'.controls.trans h.controls
  inbound := h.inbound.trans h'.inbound
  ledger hl := h'.ledger (h.ledger hl)
  others hl id hne hs := by
    have hb := h.others hl id hne hs
    refine (h'.others (h.ledger hl) id hne ?_).trans hb
    rw [h.inbound.isSome, hb]
    exact hs
  grows := h.grows.trans h'.grows

/-- The flush of the stream's own frame: success acknowledges it, anything else
    leaves it outstanding. -/
theorem flushAccepted_spec {c : Connection T} {sent : List Frame} (h : Outbox c sent) (hl : c.Ledger)
    (stream : StreamId) (hs : (c.stream stream).isSome) (accepted : ℕ) :
    (c.flushAccepted stream accepted).2.Outbox sent ∧
    DataFrame c (c.flushAccepted stream accepted).2 stream ∧
    (((c.flushAccepted stream accepted).1 = .ready (.ok accepted) ∧
        (c.flushAccepted stream accepted).2.outstanding stream = 0) ∨
      ((∀ n, (c.flushAccepted stream accepted).1 ≠ .ready (.ok n)) ∧
        (c.flushAccepted stream accepted).2.outstanding stream = c.outstanding stream)) := by
  have hout := h.flush
  have hnone := pollFlushWrite_ok h
  have hframe := h.flush_frame
  unfold flushAccepted
  split <;> rename_i heq <;> rw [heq] at hout hnone hframe
  · refine ⟨clear_outbox hout stream, hframe.data (clear_frame _ stream), .inl ⟨rfl, ?_⟩⟩
    rename_i m
    have hm : (m.clearCompleted stream).write = none := hnone rfl
    dsimp only
    rw [outstanding_idle hm, completed_clear, if_pos rfl]
  · exact ⟨hout, hframe.dataFrame stream, .inr ⟨by simp, hframe.balanced.books hl stream hs⟩⟩
  · exact ⟨hout, hframe.dataFrame stream, .inr ⟨by simp, hframe.balanced.books hl stream hs⟩⟩

theorem startData_spec {c : Connection T} {sent : List Frame} (h : Outbox c sent) (hl : c.Ledger)
    (hw : c.write = none) (stream : StreamId) (hs : (c.stream stream).isSome)
    (hfree : c.outstanding stream = 0) (input : List UInt8) :
    DataStep c (c.startData stream input).2 (c.startData stream input).1 stream input sent ∧
    DataFrame c (c.startData stream input).2 stream := by
  have htake : input.take (min input.length c.splitSendSize) = input.take c.splitSendSize := by
    rw [List.take_eq_take_iff]; omega
  have hlen : (input.take c.splitSendSize).length = min input.length c.splitSendSize := by
    rw [List.length_take, Nat.min_comm]
  have hzero : c.completed stream = 0 := by rw [← outstanding_idle hw]; exact hfree
  let d : Connection T := { c with
    write := some (.ofFrame ⟨.frameData, stream, input.take c.splitSendSize⟩
      (min input.length c.splitSendSize)) }
  have hstart : d.Outbox (sent ++ [⟨.frameData, stream, input.take c.splitSendSize⟩]) := by
    have := h.start hw ⟨.frameData, stream, input.take c.splitSendSize⟩ c.controls
    rwa [hlen] at this
  have hd : d.outstanding stream = min input.length c.splitSendSize := by
    rw [outstanding_pending (c := d) rfl]
    simp [PendingWrite.ofFrame]
  have hdata : DataFrame c d stream := by
    refine ⟨rfl, setWrite_inbound c _ c.controls, fun hl => ⟨hl.kinds, fun w hw' _ => ?_⟩,
      fun _ id hne _ => ?_, List.prefix_refl _⟩
    · cases hw'; exact hzero
    · rw [outstanding_idle hw, outstanding_other (c := d) rfl (fun hx => hne hx.2.symm)]
      rfl
  have hdef : c.startData stream input = d.flushAccepted stream (min input.length c.splitSendSize) := by
    unfold startData
    dsimp only
    rw [htake]
  obtain ⟨hout, hframe, hres⟩ :=
    flushAccepted_spec hstart (hdata.ledger hl) stream hs (min input.length c.splitSendSize)
  rw [hdef]
  refine ⟨.created hfree hout ?_, hdata.trans hframe⟩
  rw [hd] at hres
  exact hres

theorem writeData_spec {c : Connection T} {sent : List Frame} (h : Outbox c sent) (hl : c.Ledger)
    (stream : StreamId) (hs : (c.stream stream).isSome) (hzero : c.completed stream = 0)
    (input : List UInt8) :
    DataStep c (c.writeData stream input).2 (c.writeData stream input).1 stream input sent ∧
    DataFrame c (c.writeData stream input).2 stream := by
  unfold writeData
  split
  · rename_i hw
    exact startData_spec h hl hw stream hs (by rw [outstanding_idle hw]; exact hzero) input
  · rename_i w hw
    split
    · rename_i hown
      have hacc : c.outstanding stream = w.accepted := by rw [outstanding_pending hw, if_pos hown]
      obtain ⟨hout, hframe, hres⟩ := flushAccepted_spec h hl stream hs w.accepted
      refine ⟨?_, hframe⟩
      rcases hres with ⟨hok, hclear⟩ | ⟨hno, hsame⟩
      · exact .collected (by rw [hacc]; exact hok) hclear hout
      · exact .waited hno hsame hout
    · rename_i hown
      have hfree : c.outstanding stream = 0 := by rw [outstanding_other hw hown]; exact hzero
      have hout := h.flush
      have hnone := pollFlushWrite_ok h
      have hframe := h.flush_frame
      split <;> rename_i heq <;> rw [heq] at hout hnone hframe
      · rename_i m
        have hm : m.outstanding stream = c.outstanding stream :=
          hframe.balanced.books hl stream hs
        obtain ⟨hstep, hdata⟩ := startData_spec hout (hframe.balanced.ledger hl) (hnone rfl) stream
          (hframe.balanced.kept stream hs) (hm.trans hfree) input
        refine ⟨?_, hframe.data hdata⟩
        have hsplit : m.splitSendSize = c.splitSendSize := hframe.balanced.split
        rcases hstep with ⟨hres, hclear, ho⟩ | ⟨hres, hsame, ho⟩ | ⟨-, ho, hres⟩
        · exact .collected (by rw [← hm]; exact hres) hclear ho
        · exact .waited hres (hsame.trans hm) ho
        · rw [hsplit] at ho hres
          exact .created hfree ho hres
      · exact ⟨.waited (by simp) (hframe.balanced.books hl stream hs) hout, hframe.dataFrame stream⟩
      · exact ⟨.waited (by simp) (hframe.balanced.books hl stream hs) hout, hframe.dataFrame stream⟩

structure DataKept (c d : Connection T) (stream : StreamId) : Prop where
  inbound : SameInbound c d
  ledger : d.Ledger
  others : ∀ id, id ≠ stream → (c.stream id).isSome ∨ c.outstanding id = 0 →
    d.outstanding id = c.outstanding id
  grows : c.sentBytes <+: d.sentBytes

omit [TracedIo T] in
theorem pollData_eq [AsyncIo T] {c : Connection T} (hopen : c.closed = false) (stream : StreamId)
    {input : List UInt8} (hne : input ≠ []) :
    c.pollData stream input =
      if c.completed stream ≠ 0 then (.ready (.ok (c.completed stream)), c.clearCompleted stream)
      else (c.clearCompleted stream).startQueuedControl.writeData stream input := by
  unfold pollData
  rw [if_neg (by simp [hopen]), if_neg hne]
  rfl

theorem pollData_spec {c : Connection T} {sent : List Frame} (h : Outbox c sent) (hl : c.Ledger)
    (hopen : c.closed = false) (stream : StreamId) (hs : (c.stream stream).isSome)
    {input : List UInt8} (hne : input ≠ []) :
    ∃ sent', Shifted sent c.controls sent' (c.pollData stream input).2.controls ∧
      DataStep c (c.pollData stream input).2 (c.pollData stream input).1 stream input sent' ∧
      DataKept c (c.pollData stream input).2 stream := by
  have hclear := clear_frame c stream
  rw [pollData_eq hopen stream hne]
  by_cases hdone : c.completed stream ≠ 0
  · have hother (w : PendingWrite) (hw : c.write = some w) :
        ¬ (w.kind = .frameData ∧ w.stream = stream) := by
      rintro ⟨hk, rfl⟩
      exact hdone (hl.single w hw hk)
    have hout : c.outstanding stream = c.completed stream := by
      cases hw : c.write with
      | none => exact outstanding_idle hw stream
      | some w => exact outstanding_other hw (hother w hw)
    have hzero : (c.clearCompleted stream).outstanding stream = 0 := by
      have hc : (c.clearCompleted stream).completed stream = 0 := by rw [completed_clear, if_pos rfl]
      cases hw : c.write with
      | none => rw [outstanding_idle (c := c.clearCompleted stream) hw, hc]
      | some w => rw [outstanding_other (c := c.clearCompleted stream) hw (hother w hw), hc]
    rw [if_pos hdone]
    exact ⟨sent, .same, .collected (by rw [hout]) hzero (clear_outbox h stream),
      hclear.inbound, hclear.ledger hl, fun id hid hsid => hclear.others hl id hid hsid,
      hclear.grows⟩
  · have hzero : c.completed stream = 0 := by simpa using hdone
    rw [if_neg hdone]
    let m := c.clearCompleted stream
    have hm : m.outstanding stream = c.outstanding stream :=
      outstanding_congr rfl (by rw [completed_clear, if_pos rfl, hzero])
    obtain ⟨sent', hout, hshift⟩ := (clear_outbox h stream).startQueuedControl
    have hml : m.Ledger := hclear.ledger hl
    have hms : (m.stream stream).isSome := by rw [hclear.inbound.isSome]; exact hs
    have hb := startQueuedControl_balanced m
    have hin := startQueuedControl_inbound m
    have hmz : m.startQueuedControl.completed stream = 0 := by
      have hc : m.startQueuedControl.completed stream = m.completed stream := by
        rcases startQueuedControl_cases m with ⟨he, -⟩ | ⟨_, _, _, -, -, he⟩
        · rw [he]
        · rw [he]; rfl
      rw [hc, completed_clear, if_pos rfl]
    obtain ⟨hstep, hdata⟩ := writeData_spec hout (hb.ledger hml) stream (hb.kept stream hms) hmz input
    have hbooks : m.startQueuedControl.outstanding stream = c.outstanding stream :=
      (hb.books hml stream hms).trans hm
    have hsplit : m.startQueuedControl.splitSendSize = c.splitSendSize := hin.split
    refine ⟨sent', ?_, ?_, (hclear.inbound.trans hin).trans hdata.inbound,
      hdata.ledger (hb.ledger hml), fun id hid hsid => ?_,
      (hclear.grows.trans hb.grows).trans hdata.grows⟩
    · rw [hdata.controls]
      exact hshift
    · rcases hstep with ⟨hres, hcl, ho⟩ | ⟨hres, hsame, ho⟩ | ⟨hfree, ho, hres⟩
      · exact .collected (by rw [← hbooks]; exact hres) hcl ho
      · exact .waited hres (hsame.trans hbooks) ho
      · rw [hsplit] at ho hres
        exact .created (by rw [← hbooks]; exact hfree) ho hres
    · have hmid := hclear.others hl id hid hsid
      have hsm : (m.stream id).isSome ∨ m.outstanding id = 0 := by
        rw [hclear.inbound.isSome, hmid]; exact hsid
      have hstart := hb.outstanding hml id hsm
      refine ((hdata.others (hb.ledger hml) id hid (hsm.imp (hb.kept id) fun hz => ?_)).trans hstart).trans hmid
      rw [hstart, hz]

end Connection
end Snolc.Mux
