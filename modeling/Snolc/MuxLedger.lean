import Snolc.MuxOutbox

set_option autoImplicit false

namespace Snolc.Mux
open PollIo SlotTable MuxFrame

def dataIn (id : StreamId) (sent : List Frame) : List UInt8 :=
  sent.flatMap (fun f => if f.kind = .frameData ∧ f.stream = id then f.payload else [])

theorem dataIn_snoc (id : StreamId) (sent : List Frame) (f : Frame) :
    dataIn id (sent ++ [f]) =
      dataIn id sent ++ if f.kind = .frameData ∧ f.stream = id then f.payload else [] := by
  simp [dataIn]

theorem dataOf_flat (id : StreamId) {sent : List Frame} (hf : ∀ f ∈ sent, f.Regular) (rest : List UInt8) :
    dataOf id (flat sent ++ rest) = dataIn id sent ++ dataOf id rest := by
  unfold dataOf flat
  rw [frames_append fun f hm => (hf f hm).fits, List.flatMap_append]
  congr 1
  rw [List.flatMap_map]
  unfold dataIn
  congr 1
  funext f
  have hcode : f.kind.code = FrameKind.frameData.code ↔ f.kind = .frameData :=
    ⟨FrameKind.code_injective, fun h => by rw [h]⟩
  simp only [Frame.entry, Frame.header, hcode]

theorem dataIn_control (id stream : StreamId) (sent : List Frame) (kind : FrameKind) :
    dataIn id (sent ++ [Frame.control kind stream]) = dataIn id sent := by
  rw [dataIn_snoc]
  split <;> simp [Frame.control]

inductive Shifted (sent : List Frame) (controls : List (FrameKind × StreamId)) :
    List Frame → List (FrameKind × StreamId) → Prop where
  | same : Shifted sent controls sent controls
  | pop (kind : FrameKind) (stream : StreamId) (rest : List (FrameKind × StreamId))
      (h : controls = (kind, stream) :: rest) : Shifted sent controls (sent ++ [Frame.control kind stream]) rest

theorem Shifted.dataIn {sent sent' : List Frame} {controls controls' : List (FrameKind × StreamId)}
    (h : Shifted sent controls sent' controls') (id : StreamId) : dataIn id sent' = dataIn id sent := by
  cases h with
  | same => rfl
  | pop kind stream rest _ => exact dataIn_control id stream sent kind

namespace Connection
variable {T : Type}

/-- Number of bytes of a stream that were put into a frame and whose writer has
    not been told so yet. -/
def outstanding (c : Connection T) (id : StreamId) : ℕ :=
  match c.write with
  | some w => if w.kind = .frameData ∧ w.stream = id then w.accepted else c.completed id
  | none => c.completed id

theorem outstanding_idle {c : Connection T} (h : c.write = none) (id : StreamId) :
    c.outstanding id = c.completed id := by
  simp [outstanding, h]

theorem outstanding_pending {c : Connection T} {w : PendingWrite} (h : c.write = some w)
    (id : StreamId) : c.outstanding id =
      if w.kind = .frameData ∧ w.stream = id then w.accepted else c.completed id := by
  simp [outstanding, h]

theorem outstanding_other {c : Connection T} {w : PendingWrite} (h : c.write = some w)
    {id : StreamId} (hn : ¬ (w.kind = .frameData ∧ w.stream = id)) :
    c.outstanding id = c.completed id := by
  rw [outstanding_pending h, if_neg hn]

theorem outstanding_congr {c d : Connection T} {id : StreamId} (hw : d.write = c.write)
    (hc : d.completed id = c.completed id) : d.outstanding id = c.outstanding id := by
  simp [outstanding, hw, hc]

/-- The queue holds control frames only, and a stream never has a frame being
    written and an uncollected acknowledgement at once. -/
structure Ledger (c : Connection T) : Prop where
  kinds : ∀ q ∈ c.controls, q.1 ≠ .frameData
  single : ∀ w, c.write = some w → w.kind = .frameData → c.completed w.stream = 0

variable [TracedIo T]

structure Balanced (c d : Connection T) : Prop where
  ledger : c.Ledger → d.Ledger
  outstanding : c.Ledger → ∀ id, (c.stream id).isSome ∨ c.outstanding id = 0 →
    d.outstanding id = c.outstanding id
  kept : ∀ id, (c.stream id).isSome → (d.stream id).isSome
  split : d.splitSendSize = c.splitSendSize
  grows : c.sentBytes <+: d.sentBytes

theorem Balanced.refl (c : Connection T) : Balanced c c :=
  ⟨id, fun _ _ _ => rfl, fun _ h => h, rfl, List.prefix_refl _⟩

theorem Balanced.trans {a b c : Connection T} (h : Balanced a b) (h' : Balanced b c) : Balanced a c where
  ledger hl := h'.ledger (h.ledger hl)
  outstanding hl id hs := by
    have hb := h.outstanding hl id hs
    refine (h'.outstanding (h.ledger hl) id (hs.imp (h.kept id) fun hz => ?_)).trans hb
    rw [hb, hz]
  kept id hs := h'.kept id (h.kept id hs)
  split := h'.split.trans h.split
  grows := h.grows.trans h'.grows

theorem Balanced.books {c d : Connection T} (h : Balanced c d) (hl : c.Ledger) (id : StreamId)
    (hs : (c.stream id).isSome) : d.outstanding id = c.outstanding id :=
  h.outstanding hl id (.inl hs)

omit [TracedIo T] in
theorem startQueuedControl_cases (c : Connection T) :
    (c.startQueuedControl = c ∧ (c.write = none → c.controls = [])) ∨
    ∃ kind stream rest, c.write = none ∧ c.controls = (kind, stream) :: rest ∧
      c.startQueuedControl =
        { c with controls := rest, write := some (.ofFrame (Frame.control kind stream) 0) } := by
  unfold startQueuedControl
  split
  · rename_i kind stream rest hw hc
    exact .inr ⟨kind, stream, rest, hw, hc, rfl⟩
  · rename_i hne
    refine .inl ⟨rfl, fun hw => ?_⟩
    cases hc : c.controls with
    | nil => rfl
    | cons q rest => exact absurd hc (hne q.1 q.2 rest hw)

theorem startQueuedControl_balanced (c : Connection T) : Balanced c c.startQueuedControl := by
  rcases startQueuedControl_cases c with ⟨h, -⟩ | ⟨kind, stream, rest, hw, hc, h⟩
  · rw [h]; exact Balanced.refl c
  · rw [h]
    have hkind (hl : c.Ledger) : kind ≠ .frameData := hl.kinds (kind, stream) (by simp [hc])
    refine ⟨fun hl => ⟨fun q hq => hl.kinds q (by simp [hc, hq]), fun w hw' hk => ?_⟩,
      fun hl id _ => ?_, fun _ h => h, rfl, List.prefix_refl _⟩
    · cases hw'
      exact absurd hk (hkind hl)
    · rw [outstanding_idle hw, outstanding_other rfl (fun hk => hkind hl hk.1)]
      rfl

theorem SameOutbound.balanced {c d : Connection T} (h : SameOutbound c d) : Balanced c d where
  ledger hl := by
    refine ⟨?_, fun w hw hk => ?_⟩
    · rw [h.controls]; exact hl.kinds
    · rw [h.completed]; exact hl.single w (by rw [← h.write]; exact hw) hk
  outstanding _ id _ := by simp [Connection.outstanding, h.write, h.completed]
  kept := h.kept
  split := h.split
  grows := h.sent ▸ List.prefix_refl _

theorem startQueuedControl_inbound (c : Connection T) : SameInbound c c.startQueuedControl := by
  rcases startQueuedControl_cases c with ⟨h, -⟩ | ⟨kind, stream, rest, -, -, h⟩
  · rw [h]; exact SameInbound.refl c
  · rw [h]; exact setWrite_inbound c _ _

theorem Outbox.startQueuedControl {c : Connection T} {sent : List Frame} (h : Outbox c sent) :
    ∃ sent', Outbox c.startQueuedControl sent' ∧
      Shifted sent c.controls sent' c.startQueuedControl.controls := by
  rcases startQueuedControl_cases c with ⟨he, -⟩ | ⟨kind, stream, rest, hw, hc, he⟩
  · rw [he]; exact ⟨sent, h, .same⟩
  · rw [he]
    exact ⟨sent ++ [Frame.control kind stream], h.start hw (Frame.control kind stream) rest,
      .pop kind stream rest hc⟩

theorem Outbox.sound {c : Connection T} {sent : List Frame} (h : Outbox c sent) :
    ∀ w, c.write = some w → w.Sound := fun w hw => (h.pending w hw).1

theorem Outbox.flush_grows {c : Connection T} {sent : List Frame} (h : Outbox c sent) :
    c.sentBytes <+: c.pollFlushWrite.2.sentBytes := by
  unfold pollFlushWrite
  split
  · exact List.prefix_refl _
  · rename_i io hio
    have hsent : c.sentBytes = TracedIo.written io := by simp [sentBytes, hio]
    rw [hsent]
    split
    · exact ⟨[], by simp [sentBytes, TracedIo.flush_written]⟩
    · rename_i w hcw
      have hne : w.bytes.drop w.offset ≠ [] := by
        simpa using (h.sound w hcw).unsent
      have hd := (drain_spec _ io (w.bytes.drop w.offset) (Nat.lt_succ_self _) hne).2.1
      dsimp only
      split <;> rename_i heq <;> rw [heq] at hd
      · exact ⟨_, by simp only [sentBytes, Option.elim_some, TracedIo.flush_written]; exact hd.symm⟩
      · exact ⟨_, hd.symm⟩

/-- A flush keeps what is outstanding: a finished frame turns into an acknowledgement. -/
theorem Outbox.flush_balanced {c : Connection T} {sent : List Frame} (h : Outbox c sent) :
    Balanced c c.pollFlushWrite.2 := by
  have hin := pollFlushWrite_inbound c h.sound
  have hkept (id : StreamId) (hs : (c.stream id).isSome) : (c.pollFlushWrite.2.stream id).isSome := by
    rw [hin.isSome]; exact hs
  have hcontrols := pollFlushWrite_controls c
  rcases pollFlushWrite_flushed c h.io h.sound with ⟨hw, hack⟩ | ⟨w, k, hcw, hw, -, hack⟩
  · refine ⟨fun hl => ⟨by rw [hcontrols]; exact hl.kinds, fun w hw' => by simp [hw] at hw'⟩,
      fun hl id hs => ?_, hkept, hin.split, h.flush_grows⟩
    rw [outstanding_idle hw, hack]
    cases hcw : c.write with
    | none => rw [acknowledged_idle hcw, outstanding_idle hcw]
    | some w =>
      rw [outstanding_pending hcw]
      by_cases hd : w.kind = .frameData ∧ w.stream = id
      · by_cases ha : w.accepted = 0
        · have hz := hl.single w hcw hd.1
          rw [hd.2] at hz
          simp [acknowledged, hcw, hd, ha, hz]
        · have hocc : (c.stream id).isSome := hs.resolve_right fun hz => ha (by
            rw [outstanding_pending hcw, if_pos hd] at hz; exact hz)
          simp [acknowledged, hcw, hd, ha, hocc]
      · have hn : ¬ (w.kind = .frameData ∧ w.accepted ≠ 0 ∧ w.stream = id ∧ (c.stream id).isSome) :=
          fun hx => hd ⟨hx.1, hx.2.2.1⟩
        simp only [acknowledged, hcw, if_neg hd, if_neg hn]
  · refine ⟨fun hl => ⟨by rw [hcontrols]; exact hl.kinds, fun w' hw' hk => ?_⟩,
      fun hl id _ => ?_, hkept, hin.split, h.flush_grows⟩
    · rw [hw] at hw'
      cases hw'
      rw [hack]
      exact hl.single w hcw hk
    · rw [outstanding_pending hw, outstanding_pending hcw, hack]

/-- A step that starts nothing but the front of the control queue. -/
def DriveStep (c d : Connection T) : Prop :=
  ∀ sent, c.Outbox sent →
    ∃ sent', d.Outbox sent' ∧ Shifted sent c.controls sent' d.controls ∧ Balanced c d

theorem SameOutbound.driveStep {c d : Connection T} (h : SameOutbound c d) : DriveStep c d :=
  fun sent hout => ⟨sent, hout.same h, by rw [h.controls]; exact .same, h.balanced⟩

theorem SameOutbound.before {c m d : Connection T} (h : SameOutbound c m) (h' : DriveStep m d) :
    DriveStep c d := by
  intro sent hout
  obtain ⟨sent', hd, hshift, hb⟩ := h' sent (hout.same h)
  exact ⟨sent', hd, by rw [← h.controls]; exact hshift, h.balanced.trans hb⟩

theorem DriveStep.after {c m d : Connection T} (h : DriveStep c m) (h' : SameOutbound m d) :
    DriveStep c d := by
  intro sent hout
  obtain ⟨sent', hm, hshift, hb⟩ := h sent hout
  exact ⟨sent', hm.same h', by rw [h'.controls]; exact hshift, hb.trans h'.balanced⟩

theorem pollFlushWrite_step (c : Connection T) : DriveStep c c.pollFlushWrite.2 := by
  intro sent h
  refine ⟨sent, h.flush, ?_, h.flush_balanced⟩
  rw [pollFlushWrite_controls]
  exact .same

theorem driveWrite_step (c : Connection T) : DriveStep c c.driveWrite.2 := by
  intro sent h
  obtain ⟨sent', hout, hshift⟩ := h.startQueuedControl
  have hb := startQueuedControl_balanced c
  unfold driveWrite
  dsimp only
  split
  · refine ⟨sent', hout.flush, ?_, hb.trans hout.flush_balanced⟩
    rw [pollFlushWrite_controls]
    exact hshift
  · exact ⟨sent', hout, hshift, hb⟩

theorem pollDrive_step (c : Connection T) : DriveStep c c.pollDrive.2 := by
  have hw := driveWrite_step c
  unfold pollDrive
  split
  · exact (SameOutbound.refl c).driveStep
  · split <;> rename_i heq <;> rw [heq] at hw
    · exact hw
    · exact hw.after (driveRead_outbound _)

theorem pollReadStream_step (c : Connection T) (id : StreamId) (room : ℕ) :
    DriveStep c (c.pollReadStream id room).2 := by
  have hp := pollPrepareFrame_outbound c
  unfold pollReadStream
  split <;> rename_i heq <;> rw [heq] at hp
  · exact hp.driveStep
  · exact hp.driveStep
  · split
    · exact hp.driveStep
    · split
      · rename_i mid _ _ _ _
        have hd := hp.before (pollDrive_step mid)
        split <;> rename_i heq' <;> rw [heq'] at hd
        · exact hd
        · exact hd
      · exact (hp.trans (readDirect_outbound _ _ _)).driveStep

theorem pollRead_step (c : Connection T) (id : StreamId) (room : ℕ) :
    DriveStep c (c.pollRead id room).2 := by
  unfold pollRead
  split
  · exact (SameOutbound.refl c).driveStep
  · split
    · exact (SameOutbound.refl c).driveStep
    · split
      · split
        · exact (SameOutbound.refl c).driveStep
        · exact pollReadStream_step c id room
      · rename_i state _ _ front _ _
        have ha := advance_outbound c id (min room (front.length - state.offset))
        dsimp only
        split
        · exact SameOutbound.driveStep (ha.trans (.of_fields rfl rfl rfl rfl rfl rfl))
        · exact ha.before (pollReadStream_step _ id room)

end Connection
end Snolc.Mux
