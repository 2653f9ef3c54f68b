import Snolc.GuardedRuns
import Snolc.MuxEndpointBooks
import Snolc.Precedence
import Snolc.ScriptedIo

set_option autoImplicit false

namespace Snolc.Mux
open PollIo SlotTable MuxFrame AsyncTask WireFormat GuardedRuns Precedence ScriptedIo

def StreamFrame (id : StreamId) (q : FrameKind × StreamId) : Prop := q.2 = id ∧ q.1 ≠ .frameOpen

namespace Connection
variable {T : Type}

def OpenNext (c : Connection T) (id : StreamId) : Prop :=
  (.frameOpen, id) ∉ c.controls ∨ (c.write = none ∧ c.controls.head? = some (.frameOpen, id))

def OpenStarted [TracedIo T] (c : Connection T) (id : StreamId) : Prop :=
  c.Writing .frameOpen id ∨ wireKey (.frameOpen, id) ∈ headers c.sentBytes

variable [TracedIo T]

theorem pollFlushWrite_steady (hs : Steady T) {c : Connection T} (hio : c.io.isSome)
    (hw : ∀ w, c.write = some w → w.Sound) (e : IoError) : c.pollFlushWrite.1 ≠ .ready (.error e) := by
  unfold pollFlushWrite
  split
  · rename_i hnone; simp [hnone] at hio
  · split
    · exact hs.flush _ e
    · rename_i io _ _ w hcw
      have hne : w.bytes.drop w.offset ≠ [] := by
        simpa using (hw w hcw).unsent
      have hd := drain_steady hs ((w.bytes.drop w.offset).length + 1) io _ hne e
      dsimp only
      split <;> rename_i heq <;> rw [heq] at hd
      · exact hs.flush _ e
      · exact hd

theorem pollControl_steady (hs : Steady T) {c : Connection T} {sent : List Frame} (h : c.Outbox sent)
    (kind : FrameKind) (stream : StreamId) (e : IoError) :
    (c.pollControl kind stream).1 ≠ .ready (.error e) := by
  have hsend (d : Connection T) (sent' : List Frame) (hd : d.Outbox sent') (hn : d.write = none) :
      (d.sendControl kind stream).1 ≠ .ready (.error e) := by
    have hstart := hd.start hn (Frame.control kind stream) d.controls
    unfold sendControl
    simp only [hn, Option.isNone_none, ↓reduceIte]
    exact pollFlushWrite_steady hs hstart.io hstart.sound e
  have hf := pollFlushWrite_steady hs h.io h.sound
  have hout := h.flush
  have hnone := pollFlushWrite_ok h
  unfold pollControl
  split
  · rename_i hw
    exact hsend c sent h hw
  · split
    · exact hf e
    · split <;> rename_i heq <;> rw [heq] at hf hout hnone
      · exact hsend _ sent hout (hnone rfl)
      · exact hf e

theorem pollData_next {c : Connection T} {sent : List Frame} (h : c.Outbox sent) (hl : c.Ledger)
    (hopen : c.closed = false) {id : StreamId} (hs : (c.stream id).isSome)
    {input : List UInt8} (hne : input ≠ []) (hlen : input.length < 2 ^ 32)
    (hw : c.write = none) {rest : List (FrameKind × StreamId)}
    (hc : c.controls = (.frameOpen, id) :: rest) (hzero : c.completed id = 0) :
    ∃ sent', (c.pollData id input).2.Outbox sent' ∧
      Traffic id (sent ++ [Frame.control .frameOpen id]) rest sent' (c.pollData id input).2.controls ∧
      DataKept c (c.pollData id input).2 id := by
  have hpopped : (c.pollData id input).2.controls = rest := by
    have hclear := clear_frame c id
    rw [pollData_eq hopen id hne, if_neg (by simpa using hzero)]
    rcases startQueuedControl_cases (c.clearCompleted id) with ⟨-, hempty⟩ | ⟨k, i, rest', -, hcs, he⟩
    · have : c.controls = [] := hempty hw
      simp [this] at hc
    · obtain ⟨sent₁, hout₁, -⟩ := (clear_outbox h id).startQueuedControl
      have hb := startQueuedControl_balanced (c.clearCompleted id)
      have hsq : ((c.clearCompleted id).startQueuedControl.stream id).isSome := by
        rw [(startQueuedControl_inbound _).isSome, hclear.inbound.isSome]; exact hs
      have hzero' : (c.clearCompleted id).startQueuedControl.completed id = 0 := by
        rw [he]
        change (c.clearCompleted id).completed id = 0
        rw [completed_clear, if_pos rfl]
      have hd := (writeData_spec hout₁ (hb.ledger (hclear.ledger hl)) id hsq hzero' input).2
      rw [hd.controls, he]
      change rest' = rest
      rw [show c.controls = (k, i) :: rest' from hcs, List.cons.injEq] at hc
      exact hc.2
  obtain ⟨sent₁, hshift, hstep, hkept⟩ := pollData_spec h hl hopen id hs hne
  rw [hpopped, hc] at hshift
  have hsent : sent₁ = sent ++ [Frame.control .frameOpen id] := by
    generalize hq : (FrameKind.frameOpen, id) :: rest = controls at hshift
    cases hshift with
    | same => simp at hq
    | pop kind stream rest' hp =>
      subst hq
      rw [List.cons.injEq, Prod.mk.injEq] at hp
      rw [hp.1.1, hp.1.2]
  rw [hpopped]
  subst hsent
  rcases hstep with ⟨-, -, hout⟩ | ⟨-, -, hout⟩ | ⟨-, hout, -⟩
  · exact ⟨_, hout, .none, hkept⟩
  · exact ⟨_, hout, .none, hkept⟩
  · exact ⟨_, hout, Traffic.none.data _ (by rw [List.length_take]; omega), hkept⟩

end Connection

section Keys
variable {id : StreamId} {sent sent' : List Frame} {controls controls' : List (FrameKind × StreamId)}

theorem Traffic.preceded (h : Traffic id sent controls sent' controls') (other : StreamId)
    (hp : Preceded (.frameOpen, other) (StreamFrame other) (keys sent ++ controls))
    (hopen : other = id → (.frameOpen, id) ∈ keys sent) :
    Preceded (.frameOpen, other) (StreamFrame other) (keys sent' ++ controls') := by
  induction h with
  | none => exact hp
  | shift _ hs ih => rw [hs.queue]; exact ih
  | data ht payload _ ih =>
    rw [keys_snoc, List.append_assoc]
    refine Preceded.insert ih ?_
    by_cases he : other = id
    · subst he
      exact .inl (ht.keys_initial.subset (hopen rfl))
    · exact .inr (fun hf => he hf.1.symm)

end Keys

namespace Endpoint
variable {T : Type}

structure Order (e : Endpoint T) (sent : List Frame) : Prop where
  preceded : ∀ id, e.opened id →
    Preceded (.frameOpen, id) (StreamFrame id) (keys sent ++ e.connection.controls)
  handle : ∀ id writeClosed, e.opened id → e.owner id = .handle writeClosed → (.frameOpen, id) ∈ keys sent
  future : ∀ id task, e.owner id = .future task → (.frameOpen, id) ∈ keys sent ∨
    ((.frameOpen, id) ∈ e.connection.controls ∧ e.connection.outstanding id = 0 ∧
      ∃ request, task = openFlowTask request)
  foreign : ∀ id ∈ e.connection.inbound, e.opened id = false

theorem Order.observe {e : Endpoint T} {sent : List Frame} (h : Order e sent) : Order e.observe sent :=
  ⟨h.preceded, h.handle, h.future, h.foreign⟩

theorem Order.setOwner {e : Endpoint T} {sent : List Frame} (h : Order e sent) (id : StreamId)
    (owner : Owner)
    (hh : ∀ writeClosed, owner = .handle writeClosed → e.opened id → (.frameOpen, id) ∈ keys sent)
    (hf : ∀ task, owner = .future task → (.frameOpen, id) ∈ keys sent) : Order (e.setOwner id owner) sent where
  preceded := h.preceded
  handle other writeClosed ho hown := by
    by_cases he : other = id
    · subst he
      exact hh writeClosed (by simpa using hown) ho
    · exact h.handle other writeClosed ho (by simpa [he] using hown)
  future other task hown := by
    by_cases he : other = id
    · subst he
      exact .inl (hf task (by simpa using hown))
    · exact h.future other task (by simpa [he] using hown)
  foreign := h.foreign

theorem Order.accept {e : Endpoint T} {sent : List Frame} (h : Order e sent) {id : StreamId}
    {rest : List StreamId} (hi : e.connection.inbound = id :: rest) :
    Order ((e.withConnection { e.connection with inbound := rest }).setOwner id (.handle false)) sent := by
  have hf : e.opened id = false := h.foreign id (by simp [hi])
  have ho : Order (e.withConnection { e.connection with inbound := rest }) sent :=
    ⟨h.preceded, h.handle, h.future,
      fun other ho => h.foreign other (by rw [hi]; exact List.mem_cons_of_mem _ ho)⟩
  exact ho.setOwner _ (.handle false) (fun _ _ hop => by simp [hf] at hop) (by simp)

variable [TracedIo T]

/-- The order survives a change of the connection that keeps what waits in the
    queue behind what was sent. -/
theorem Order.moved {e : Endpoint T} {sent sent' : List Frame} (h : Order e sent) (hs : Sound e sent)
    {d : Connection T} (harr : Connection.Arrivals e.connection d) (hinit : keys sent <+: keys sent')
    (hqueue : ∀ q ∈ e.connection.controls, q ∈ keys sent' ∨ q ∈ d.controls)
    (hbooks : ∀ id task, e.owner id = .future task → (.frameOpen, id) ∉ keys sent' →
      d.outstanding id = e.connection.outstanding id)
    (hp : ∀ id, e.opened id → Preceded (.frameOpen, id) (StreamFrame id) (keys sent' ++ d.controls)) :
    Order (e.withConnection d) sent' where
  preceded := hp
  handle id writeClosed ho hh := hinit.subset (h.handle id writeClosed ho hh)
  future id task ho := by
    rcases h.future id task ho with hm | ⟨hm, hz, hr⟩
    · exact .inl (hinit.subset hm)
    · by_cases hin : (.frameOpen, id) ∈ keys sent'
      · exact .inl hin
      · rcases hqueue _ hm with hm | hm
        · exact .inl hm
        · exact .inr ⟨hm, (hbooks id task ho hin).trans hz, hr⟩
  foreign id hid := by
    obtain ⟨ids, ha⟩ := harr
    change id ∈ d.inbound at hid
    rw [ha.inbound, List.mem_append] at hid
    rcases hid with hid | hid
    · exact h.foreign id hid
    · by_contra ho
      have := hs.opened id (by simpa using ho)
      simp [ha.fresh id hid] at this

theorem Order.shifted {e : Endpoint T} {sent sent' : List Frame} (h : Order e sent) (hs : Sound e sent)
    {d : Connection T} (harr : Connection.Arrivals e.connection d)
    (hb : Connection.Balanced e.connection d)
    (hshift : Shifted sent e.connection.controls sent' d.controls) : Order (e.withConnection d) sent' := by
  have ht : Traffic 0 sent e.connection.controls sent' d.controls := Traffic.none.shift hshift
  obtain ⟨front, hc, hsent⟩ := ht.taken
  refine h.moved hs harr ht.keys_initial (fun q hq => ?_) (fun id task ho _ => ?_) (fun id ho => ?_)
  · rw [hc, List.mem_append] at hq
    exact hq.imp_left (hsent q)
  · exact hb.books hs.ledger id (hs.owned id (by simp [ho]))
  · rw [hshift.queue]
    exact h.preceded id ho

theorem Order.working {e : Endpoint T} {sent sent' : List Frame} (h : Order e sent) (hs : Sound e sent)
    {id : StreamId} {s : StreamEnd T} (hw : Connection.Working e.connection sent id s sent')
    (hopen : e.opened id ∨ (∃ task, e.owner id = .future task) → (.frameOpen, id) ∈ keys sent) :
    Order (e.withConnection s.connection) sent' := by
  obtain ⟨front, hc, hsent⟩ := hw.traffic.taken
  refine h.moved hs hw.arrivals hw.traffic.keys_initial (fun q hq => ?_) (fun other task ho hn => ?_)
    (fun other ho => hw.traffic.preceded other (h.preceded other ho) ?_)
  · rw [hc, List.mem_append] at hq
    exact hq.imp_left (hsent q)
  · refine hw.others other ?_ (hs.owned other (by simp [ho]))
    rintro rfl
    exact hn (hw.traffic.keys_initial.subset (hopen (.inr ⟨task, ho⟩)))
  · rintro rfl
    exact hopen (.inl ho)

theorem Order.giveUp {e : Endpoint T} {sent : List Frame} (h : Order e sent) (hs : Sound e sent)
    {stream : MuxStream} (hopen : e.opened stream.id →
      (.frameOpen, stream.id) ∈ keys sent ++ e.connection.controls) : Order (e.giveUp stream) sent := by
  have hm : Order (e.withConnection (stream.drop e.connection)) sent := by
    unfold MuxStream.drop
    split
    · exact ⟨h.preceded, h.handle, h.future, h.foreign⟩
    · refine h.moved hs (.of_fields rfl rfl rfl) (List.prefix_refl _)
        (fun q hq => .inr (List.mem_append_left _ hq)) (fun _ _ _ _ => rfl) (fun id ho => ?_)
      change Preceded _ _ (keys sent ++ (e.connection.controls ++ [(.frameFin, stream.id)]))
      rw [← List.append_assoc]
      refine (h.preceded id ho).snoc ?_
      by_cases he : id = stream.id
      · subst he; exact .inl (hopen ho)
      · exact .inr (fun hf => he hf.1.symm)
  have ho := hm.setOwner stream.id .free (by simp) (by simp)
  exact ⟨ho.preceded, ho.handle, ho.future, ho.foreign⟩

theorem Order.adopt {e : Endpoint T} {sent : List Frame} (h : Order e sent) (hs : Sound e sent)
    {m : Connection T} (hm : e.connection.insertStream e.connection.nextStream = .ok m) (next : StreamId)
    (controls : List (FrameKind × StreamId))
    (hq : ∀ q ∈ controls, q = (.frameOpen, e.connection.nextStream)) (owner : Owner)
    (hh : ∀ writeClosed, owner ≠ .handle writeClosed)
    (hf : ∀ task, owner = .future task →
      (.frameOpen, e.connection.nextStream) ∈ controls ∧ ∃ request, task = openFlowTask request) :
    Order ((e.withConnection { m with
      nextStream := next, controls := m.controls ++ controls }).adopt e.connection.nextStream owner) sent := by
  have hsame := Connection.insertStream_outbound hm
  have hfresh := Connection.insert_fresh hm
  have hunused (q : FrameKind × StreamId) (hmem : q ∈ keys sent ++ e.connection.controls) :
      q.2 ≠ e.connection.nextStream := hs.unused hfresh hmem
  have hplain (id : StreamId) : ∀ q ∈ controls, ¬ StreamFrame id q := by
    intro q hmem hsf
    rw [hq q hmem] at hsf
    exact hsf.2 rfl
  have hqueue : keys sent ++ (m.controls ++ controls) = (keys sent ++ e.connection.controls) ++ controls := by
    rw [hsame.controls, List.append_assoc]
  have hpre (id : StreamId)
      (hp : Preceded (.frameOpen, id) (StreamFrame id) (keys sent ++ e.connection.controls)) :
      Preceded (.frameOpen, id) (StreamFrame id) (keys sent ++ (m.controls ++ controls)) := by
    rw [hqueue]
    clear hqueue hq hf
    induction controls using List.reverseRecOn with
    | nil => rw [List.append_nil]; exact hp
    | append_singleton front q ih =>
      rw [← List.append_assoc]
      exact (ih (fun id q hmem => hplain id q (List.mem_append_left _ hmem))).snoc
        (.inr (hplain id q (by simp)))
  have hzero : m.outstanding e.connection.nextStream = 0 := by
    have hc : m.completed e.connection.nextStream = 0 := by
      simp [Connection.completed, Connection.stream_insert hm]
    cases hw : m.write with
    | none => rw [Connection.outstanding_idle hw, hc]
    | some w =>
      have hw' : e.connection.write = some w := by rw [← hsame.write]; exact hw
      obtain ⟨-, done, hdone⟩ := hs.outbox.pending w hw'
      have hne : w.stream ≠ e.connection.nextStream :=
        hunused (w.kind, w.stream) (List.mem_append_left _ (by simp [hdone, PendingWrite.frame]))
      rw [Connection.outstanding_other hw (fun hx => hne hx.2), hc]
  refine ⟨fun id ho => ?_, fun id writeClosed ho hown => ?_, fun id task hown => ?_, fun id hid => ?_⟩
  · by_cases he : id = e.connection.nextStream
    · refine hpre id (Preceded.of_absent fun q hmem hsf => ?_)
      exact hunused q hmem (by rw [hsf.1, he])
    · exact hpre id (h.preceded id (by simpa [Endpoint.adopt, he] using ho))
  · by_cases he : id = e.connection.nextStream
    · subst he
      exact absurd (by simpa [Endpoint.adopt] using hown) (hh writeClosed)
    · exact h.handle id writeClosed (by simpa [Endpoint.adopt, he] using ho)
        (by simpa [Endpoint.adopt, he] using hown)
  · by_cases he : id = e.connection.nextStream
    · subst he
      obtain ⟨hmem, hr⟩ := hf task (by simpa [Endpoint.adopt] using hown)
      exact .inr ⟨List.mem_append_right _ hmem, hzero, hr⟩
    · have hown' : e.owner id = .future task := by simpa [Endpoint.adopt, he] using hown
      rcases h.future id task hown' with hmem | ⟨hmem, hz, hr⟩
      · exact .inl hmem
      · refine .inr ⟨List.mem_append_left _ (by rw [hsame.controls]; exact hmem), ?_, hr⟩
        exact (Connection.outstanding_congr hsame.write (hsame.completed id)).trans hz
  · have hinb : m.inbound = e.connection.inbound := by rw [Connection.insertStream_fields hm]
    change id ∈ m.inbound at hid
    rw [hinb] at hid
    have hne : id ≠ e.connection.nextStream := by
      rintro rfl
      exact hs.unclaimed hfresh hid
    simpa [Endpoint.adopt, hne] using h.foreign id hid

/-- The calls that keep the order: an open future is polled in its turn, a call of
    `open_stream` is not dropped before its OPEN was started, and no frame is
    longer than its length field can say. -/
def InTurn (e : Endpoint T) : Action → Prop
  | .pollFuture id => e.connection.OpenNext id
  | .dropOpen id => e.connection.OpenStarted id
  | .write _ input => min input.length e.connection.splitSendSize < 2 ^ 32
  | _ => True

instance (e : Endpoint T) : (action : Action) → Decidable (e.InTurn action)
  | .pollFuture _ => inferInstanceAs (Decidable (_ ∨ _))
  | .dropOpen _ => inferInstanceAs (Decidable (_ ∨ _))
  | .write _ _ => inferInstanceAs (Decidable (_ < _))
  | .openStream | .pollOpen _ | .beginOpen _ | .dropFuture _ | .acceptStream | .read _ _ | .flush _
  | .close _ | .drop _ | .drive => isTrue trivial

def Ordered (e : Endpoint T) : Prop := ∃ sent, Sound e sent ∧ Order e sent

theorem Ordered.withDrive {e : Endpoint T} (h : Ordered e) {d : Connection T}
    (hd : Connection.DriveStep e.connection d) (harr : Connection.Arrivals e.connection d) :
    Ordered (e.withConnection d) := by
  obtain ⟨sent, hs, ho⟩ := h
  obtain ⟨sent', hout, hshift, hb⟩ := hd sent hs.outbox
  exact ⟨sent', hs.shifted hout hb harr hshift, ho.shifted hs harr hb hshift⟩

theorem Ordered.openStream {e : Endpoint T} (h : Ordered e) : Ordered e.openStream := by
  obtain ⟨sent, hs, ho⟩ := h
  unfold Endpoint.openStream
  rcases e.connection.queueStream_cases with ⟨err, next, hq⟩ | ⟨m, hm, hq⟩ <;> rw [hq]
  · exact ⟨sent, hs.skip next, ho.preceded, ho.handle, ho.future, ho.foreign⟩
  · have hs' := hs.adopt hm (e.connection.nextStream + 2) [] (by simp) (by simp) .opening (by simp)
    have ho' := ho.adopt hs hm (e.connection.nextStream + 2) [] (by simp) .opening (by simp) (by simp)
    rw [List.append_nil] at hs' ho'
    exact ⟨sent, hs', ho'⟩

theorem Ordered.beginOpen {e : Endpoint T} (h : Ordered e) (request : OpenRequest) :
    Ordered (e.beginOpen request) := by
  obtain ⟨sent, hs, ho⟩ := h
  unfold Endpoint.beginOpen Connection.queueOpen
  rcases e.connection.queueStream_cases with ⟨err, next, hq⟩ | ⟨m, hm, hq⟩ <;> rw [hq]
  · exact ⟨sent, hs.skip next, ho.preceded, ho.handle, ho.future, ho.foreign⟩
  · refine ⟨sent, hs.adopt hm _ [(.frameOpen, e.connection.nextStream)] (by simp) (by simp) _ ?_,
      ho.adopt hs hm _ [(.frameOpen, e.connection.nextStream)] (by simp) _ (by simp) ?_⟩
    · rintro task ⟨⟩
      exact openFlowTask_writes request
    · rintro task ⟨⟩
      exact ⟨by simp, request, rfl⟩

theorem Ordered.control {e : Endpoint T} {sent : List Frame} (hs : Sound e sent) (ho : Order e sent)
    (kind : FrameKind) (hk : kind ≠ .frameData) (id : StreamId) (hown : e.owner id ≠ .free)
    (hopen : kind = .frameOpen ∨ (e.opened id → (.frameOpen, id) ∈ keys sent)) :
    ∃ sent', Sound (e.withConnection (e.connection.pollControl kind id).2) sent' ∧
      Order (e.withConnection (e.connection.pollControl kind id).2) sent' ∧ keys sent <+: keys sent' ∧
      ((e.connection.pollControl kind id).1 = .ready (.ok ()) → (kind, id) ∈ keys sent') := by
  have hframe := (Connection.pollControl_spec hs.outbox hk id).2
  have harr := Connection.pollControl_arrivals e.connection kind id
  have hbooks (other : StreamId) (task : Task MuxError OpenResponse) (howner : e.owner other = .future task) :=
    hframe.balanced.books hs.ledger other (hs.owned other (by simp [howner]))
  rcases hs.control hk hown with ⟨hs', hok⟩ | ⟨hs', -, -⟩
  · refine ⟨sent, hs',
      ho.moved hs harr (List.prefix_refl _) (fun q hq => .inr (by rw [hframe.controls]; exact hq))
        (fun other task howner _ => hbooks other task howner)
        (fun other hop => by rw [hframe.controls]; exact ho.preceded other hop),
      List.prefix_refl _, fun hres => ?_⟩
    obtain ⟨⟨w, hw, hwk, hwi⟩, -⟩ := hok hres
    obtain ⟨-, done, rfl⟩ := hs.outbox.pending w hw
    simp [PendingWrite.frame, hwk, hwi]
  · have hkeys : keys (sent ++ [Frame.control kind id]) = keys sent ++ [(kind, id)] := keys_snoc _ _
    refine ⟨_, hs',
      ho.moved hs harr (by rw [hkeys]; exact List.prefix_append _ _)
        (fun q hq => .inr (by rw [hframe.controls]; exact hq))
        (fun other task howner _ => hbooks other task howner) (fun other hop => ?_),
      by rw [hkeys]; exact List.prefix_append _ _, fun _ => by rw [hkeys]; simp⟩
    rw [hkeys, hframe.controls, List.append_assoc]
    refine Preceded.insert (ho.preceded other hop) ?_
    by_cases he : other = id
    · subst he
      rcases hopen with rfl | hopen
      · exact .inr (fun hf => hf.2 rfl)
      · exact .inl (hopen hop)
    · exact .inr (fun hf => he hf.1.symm)

theorem Ordered.pollOpen (hsteady : Steady T) {e : Endpoint T} (h : Ordered e) (id : StreamId) :
    Ordered (e.pollOpen id) := by
  obtain ⟨sent, hs, ho⟩ := h
  unfold Endpoint.pollOpen
  split
  · rename_i hown
    obtain ⟨sent', hs', ho', -, hok⟩ := Ordered.control hs ho .frameOpen (by simp) id (by simp [hown]) (.inl rfl)
    have herr := Connection.pollControl_steady hsteady hs.outbox .frameOpen id
    split <;> rename_i heq <;> rw [heq] at hs' ho' hok herr
    · have hs'' := hs'.setOwner id (hs'.owned id (by simp [hown])) (.handle false) (by simp)
      have ho'' := ho'.setOwner id (.handle false) (fun _ _ _ => hok rfl) (by simp)
      exact ⟨sent', hs''.same rfl rfl rfl, ho''.preceded, ho''.handle, ho''.future, ho''.foreign⟩
    · exact absurd rfl (herr _)
    · exact ⟨sent', hs', ho'⟩
  · exact ⟨sent, hs, ho⟩

theorem Ordered.close {e : Endpoint T} (h : Ordered e) (id : StreamId) : Ordered (e.close id) := by
  obtain ⟨sent, hs, ho⟩ := h
  unfold Endpoint.close
  split
  · rename_i writeClosed hown
    have hconn : ∃ sent', Sound (e.withConnection
          (({ id, writeClosed } : MuxStream).pollClose e.connection).2.2) sent' ∧
        Order (e.withConnection (({ id, writeClosed } : MuxStream).pollClose e.connection).2.2) sent' ∧
        keys sent <+: keys sent' := by
      unfold MuxStream.pollClose
      split
      · exact ⟨sent, hs, ho, List.prefix_refl _⟩
      · obtain ⟨sent', hs', ho', hinit, -⟩ := Ordered.control hs ho .frameFin (by simp) id (by simp [hown])
          (.inr fun hop => ho.handle id writeClosed hop hown)
        split <;> rename_i heq <;> rw [heq] at hs' ho'
        · exact ⟨sent', hs', ho', hinit⟩
        · exact ⟨sent', hs', ho', hinit⟩
    obtain ⟨sent', hs', ho', hinit⟩ := hconn
    have hs'' := hs'.setOwner id (hs'.owned id (by simp [hown]))
      (.handle (({ id, writeClosed } : MuxStream).pollClose e.connection).2.1.writeClosed) (by simp)
    have ho'' := ho'.setOwner id
      (.handle (({ id, writeClosed } : MuxStream).pollClose e.connection).2.1.writeClosed)
      (fun _ _ hop => hinit.subset (ho.handle id writeClosed hop hown)) (by simp)
    exact ⟨sent', hs''.same rfl rfl rfl, ho''.preceded, ho''.handle, ho''.future, ho''.foreign⟩
  · exact ⟨sent, hs, ho⟩

theorem Ordered.write {e : Endpoint T} (h : Ordered e) (id : StreamId) {input : List UInt8}
    (hlen : min input.length e.connection.splitSendSize < 2 ^ 32) : Ordered (e.write id input) := by
  obtain ⟨sent, hs, ho⟩ := h
  unfold Endpoint.write
  split
  · rename_i writeClosed hown
    have hocc := hs.owned id (by simp [hown])
    obtain ⟨sent', hw⟩ := Connection.pollData_traffic hs.outbox hs.ledger hocc hlen
    refine ⟨sent', hs.working hocc hw, ho.working hs hw ?_⟩
    rintro (hop | ⟨task, htask⟩)
    · exact ho.handle id writeClosed hop hown
    · simp [hown] at htask
  · exact ⟨sent, hs, ho⟩

theorem Ordered.settle {e : Endpoint T} {sent : List Frame} (hs : Sound e sent) (ho : Order e sent)
    {id : StreamId} (hocc : (e.connection.stream id).isSome) (hopen : (.frameOpen, id) ∈ keys sent)
    (result : Poll (Except MuxError OpenResponse)) {task : Task MuxError OpenResponse}
    (ht : task.Writes requestBound) : Ordered (e.settle id result task) := by
  unfold Endpoint.settle
  split
  · exact ⟨sent, hs.setOwner _ hocc _ (by simp), ho.setOwner _ _ (fun _ _ _ => hopen) (by simp)⟩
  · exact ⟨sent, hs.giveUp hocc, ho.giveUp hs (fun _ => List.mem_append_left _ hopen)⟩
  · exact ⟨sent, hs.setOwner _ hocc _ (by rintro task ⟨⟩; exact ht),
      ho.setOwner _ _ (by simp) (fun _ _ => hopen)⟩

theorem Ordered.pollFirst {e : Endpoint T} {sent : List Frame} (hs : Sound e sent) (ho : Order e sent)
    {id : StreamId} {task : Task MuxError OpenResponse} (hown : e.owner id = .future task)
    (hzero : e.connection.outstanding id = 0) {request : OpenRequest} (htask : task = openFlowTask request)
    (hw : e.connection.write = none) {rest : List (FrameKind × StreamId)}
    (hc : e.connection.controls = (.frameOpen, id) :: rest) : Ordered (e.pollFuture id) := by
  have hocc := hs.owned id (by simp [hown])
  have hqueued : (.frameOpen, id) ∈ keys sent ++ e.connection.controls := by simp [hc]
  have hdropped : Ordered (e.giveUp { id }) := ⟨sent, hs.giveUp hocc, ho.giveUp hs (fun _ => hqueued)⟩
  unfold Endpoint.pollFuture
  rw [hown]
  dsimp only
  rcases openFlowTask_cases request with ⟨err, hdone⟩ | ⟨bytes, next, hwrite, hne, hlen, hnext⟩
  · rw [htask, hdone]
    exact hdropped
  · rw [htask, hwrite]
    by_cases hclosed : e.connection.closed
    · have herr : AsyncIo.pollWrite (StreamEnd.mk id e.connection) bytes =
          (.ready (.error ⟨.brokenPipe, ""⟩), StreamEnd.mk id e.connection) := by
        change ((e.connection.pollData id bytes).1, StreamEnd.mk id (e.connection.pollData id bytes).2) = _
        rw [Connection.pollData, if_pos hclosed]
      rw [Task.poll_writeAll_error _ hne herr]
      exact hdropped
    · have hcompleted : e.connection.completed id = 0 := by
        rw [← Connection.outstanding_idle hw]; exact hzero
      obtain ⟨sent₁, hout, htraffic, hkept⟩ := Connection.pollData_next hs.outbox hs.ledger
        (by simpa using hclosed) hocc hne (by omega) hw hc hcompleted
      have harr := Connection.pollData_arrivals e.connection id bytes
      obtain ⟨front, hfront, hsent⟩ := htraffic.taken
      have hkeys : keys (sent ++ [Frame.control .frameOpen id]) = keys sent ++ [(.frameOpen, id)] := keys_snoc _ _
      have hopen : (.frameOpen, id) ∈ keys sent₁ := htraffic.keys_initial.subset (by rw [hkeys]; simp)
      have hregular := Frame.regular_snoc hs.regular (Frame.control_regular .frameOpen id)
      have hsame : keys (sent ++ [Frame.control .frameOpen id]) ++ rest = keys sent ++ e.connection.controls := by
        rw [hkeys, hc]; simp
      have hs₁ : Sound (e.withConnection (e.connection.pollData id bytes).2) sent₁ := by
        refine hs.moved hout hkept.ledger harr (htraffic.regular hregular) (fun q hm => ?_)
        rcases htraffic.mem_queue q hm with hm | rfl
        · exact .inl (by rw [← hsame]; exact hm)
        · exact .inr hocc
      have ho₁ : Order (e.withConnection (e.connection.pollData id bytes).2) sent₁ := by
        refine ho.moved hs harr ?_ (fun q hq => ?_) (fun other task' howner hn => ?_) (fun other hop => ?_)
        · exact List.IsPrefix.trans (by rw [hkeys]; exact List.prefix_append _ _) htraffic.keys_initial
        · rw [hc, List.mem_cons] at hq
          rcases hq with rfl | hq
          · exact .inl hopen
          · rw [hfront, List.mem_append] at hq
            exact hq.imp_left (hsent q)
        · refine hkept.others other ?_ (.inl (hs.owned other (by simp [howner])))
          rintro rfl
          exact hn hopen
        · refine htraffic.preceded other (by rw [hsame]; exact ho.preceded other hop) ?_
          rintro rfl
          rw [hkeys]
          simp
      have hocc₁ := harr.kept hocc
      obtain ⟨⟨sent₂, hwork⟩, hwrites⟩ := Connection.poll_working_first MuxError.io (n := requestBound)
        (by decide) hocc₁ hne hlen hnext (s := StreamEnd.mk id e.connection)
        (Connection.Working.start hout hkept.ledger id)
      refine Ordered.settle (hs₁.working hocc₁ hwork) (ho₁.working hs₁ hwork fun _ => hopen)
        (hwork.arrivals.kept hocc₁) (hwork.traffic.keys_initial.subset hopen) _ hwrites

theorem Ordered.pollFuture {e : Endpoint T} (h : Ordered e) {id : StreamId}
    (hnext : e.connection.OpenNext id) : Ordered (e.pollFuture id) := by
  obtain ⟨sent, hs, ho⟩ := h
  cases hown : e.owner id with
  | future task =>
    rcases ho.future id task hown with hopen | ⟨hqueued, hzero, request, htask⟩
    · have hocc := hs.owned id (by simp [hown])
      obtain ⟨⟨sent', hwork⟩, hwrites⟩ := Connection.poll_working MuxError.io (n := requestBound)
        (by decide) hocc (hs.tasks id task hown) (Connection.Working.start hs.outbox hs.ledger id)
      unfold Endpoint.pollFuture
      rw [hown]
      exact Ordered.settle (hs.working hocc hwork) (ho.working hs hwork fun _ => hopen)
        (hwork.arrivals.kept hocc) (hwork.traffic.keys_initial.subset hopen) _ hwrites
    · rcases hnext with hnot | ⟨hw, hhead⟩
      · exact absurd hqueued hnot
      · obtain ⟨rest, hc⟩ := List.head?_eq_some_iff.mp hhead
        exact Ordered.pollFirst hs ho hown hzero htask hw hc
  | free => unfold Endpoint.pollFuture; rw [hown]; exact ⟨sent, hs, ho⟩
  | opening => unfold Endpoint.pollFuture; rw [hown]; exact ⟨sent, hs, ho⟩
  | handle writeClosed => unfold Endpoint.pollFuture; rw [hown]; exact ⟨sent, hs, ho⟩

theorem Ordered.dropOpen {e : Endpoint T} (h : Ordered e) {id : StreamId}
    (hstarted : e.connection.OpenStarted id) : Ordered (e.dropOpen id) := by
  obtain ⟨sent, hs, ho⟩ := h
  unfold Endpoint.dropOpen
  split
  · rename_i hown
    have hopen : (.frameOpen, id) ∈ keys sent := by
      rcases hstarted with ⟨w, hw, hk, hi⟩ | hw
      · obtain ⟨-, done, rfl⟩ := hs.outbox.pending w hw
        simp [PendingWrite.frame, hk, hi]
      · have := (hs.outbox.headers_initial hs.regular).subset hw
        obtain ⟨q, hq, hk⟩ := List.mem_map.mp this
        rwa [← wireKey_injective hk]
    exact ⟨sent, hs.giveUp (hs.owned id (by simp [hown])),
      ho.giveUp hs (fun _ => List.mem_append_left _ hopen)⟩
  · exact ⟨sent, hs, ho⟩

theorem Ordered.dropFuture {e : Endpoint T} (h : Ordered e) (id : StreamId) : Ordered (e.dropFuture id) := by
  obtain ⟨sent, hs, ho⟩ := h
  unfold Endpoint.dropFuture
  split
  · rename_i task hown
    refine ⟨sent, hs.giveUp (hs.owned id (by simp [hown])), ho.giveUp hs (fun _ => ?_)⟩
    exact List.mem_append.mpr ((ho.future id task hown).imp_right And.left)
  · exact ⟨sent, hs, ho⟩

theorem Ordered.drop {e : Endpoint T} (h : Ordered e) (id : StreamId) : Ordered (e.drop id) := by
  obtain ⟨sent, hs, ho⟩ := h
  unfold Endpoint.drop
  split
  · rename_i writeClosed hown
    exact ⟨sent, hs.giveUp (hs.owned id (by simp [hown])),
      ho.giveUp hs (fun hop => List.mem_append_left _ (ho.handle id writeClosed hop hown))⟩
  · exact ⟨sent, hs, ho⟩

theorem Ordered.acceptStream {e : Endpoint T} (h : Ordered e) : Ordered e.acceptStream := by
  rcases e.acceptStream_cases with ⟨id, rest, hi, heq⟩ | heq
  · obtain ⟨sent, hs, ho⟩ := h
    rw [heq]
    exact ⟨sent, hs.accept hi, ho.accept hi⟩
  · rw [heq]
    exact h.withDrive (Connection.pollDrive_step _) (Connection.pollDrive_arrivals _)

theorem Ordered.read {e : Endpoint T} (h : Ordered e) (id : StreamId) (room : ℕ) :
    Ordered (e.read id room) := by
  unfold Endpoint.read
  split
  · exact h.withDrive (Connection.pollRead_step _ _ _) (Connection.pollRead_arrivals _ _ _)
  · exact h

theorem Ordered.flush {e : Endpoint T} (h : Ordered e) (id : StreamId) : Ordered (e.flush id) := by
  unfold Endpoint.flush
  split
  · exact h.withDrive (Connection.pollFlushWrite_step _) (Connection.pollFlushWrite_arrivals _)
  · exact h

theorem Ordered.step (hsteady : Steady T) (e : Endpoint T) (action : Action) (h : Ordered e)
    (hg : InTurn e action) : Ordered (e.step action) := by
  have hact : Ordered (e.act action) := by
    cases action with
    | openStream => exact h.openStream
    | pollOpen id => exact h.pollOpen hsteady id
    | dropOpen id => exact h.dropOpen hg
    | beginOpen request => exact h.beginOpen request
    | pollFuture id => exact h.pollFuture hg
    | dropFuture id => exact h.dropFuture id
    | acceptStream => exact h.acceptStream
    | read id room => exact h.read id room
    | write id input => exact h.write id hg
    | flush id => exact h.flush id
    | close id => exact h.close id
    | drop id => exact h.drop id
    | drive => exact h.withDrive (Connection.pollDrive_step _) (Connection.pollDrive_arrivals _)
  obtain ⟨sent, hs, ho⟩ := hact
  exact ⟨sent, hs.observe, ho.observe⟩

theorem Ordered.new {io : T} (hio : TracedIo.written io = []) (role : Mode) (config : YamuxConfig) :
    Ordered (Endpoint.new io role config) :=
  ⟨[], Sound.new hio role config, by simp [Endpoint.new], by simp [Endpoint.new], by simp [Endpoint.new],
    by simp [Endpoint.new, MuxSession.new]⟩

end Endpoint

def StreamHeader (id : StreamId) (header : UInt8 × StreamId) : Prop :=
  header.2 = id ∧ (header.1 = FrameKind.frameData.code ∨ header.1 = FrameKind.frameFin.code)

instance (id : StreamId) : DecidablePred (StreamHeader id) := fun header =>
  inferInstanceAs (Decidable (header.2 = id ∧ _))

/-- In the bytes written to the io, the OPEN of a local stream comes before every
    DATA and FIN frame of it. -/
def OpenFirst {T : Type} [TracedIo T] (e : Endpoint T) (id : StreamId) : Prop :=
  Preceded (wireKey (.frameOpen, id)) (StreamHeader id) (headers e.connection.sentBytes)

instance {T : Type} [TracedIo T] (e : Endpoint T) (id : StreamId) : Decidable (OpenFirst e id) :=
  inferInstanceAs (Decidable (Preceded _ _ _))

theorem Endpoint.Ordered.openFirst {T : Type} [TracedIo T] {e : Endpoint T} (h : e.Ordered)
    {id : StreamId} (hid : e.opened id) : OpenFirst e id := by
  obtain ⟨sent, hs, ho⟩ := h
  have hp := (ho.preceded id hid).initial (List.prefix_append _ _)
  refine Preceded.initial ?_ (hs.outbox.headers_initial hs.regular)
  intro before event after he hl
  obtain ⟨keysBefore, rest, hk, hb, hr⟩ := List.map_eq_append_iff.mp he
  obtain ⟨q, keysAfter, hq, hev, -⟩ := List.map_eq_cons_iff.mp hr
  rw [← hb]
  refine List.mem_map_of_mem (hp keysBefore q keysAfter (by rw [hk, hq]) ?_)
  rw [← hev] at hl
  refine ⟨hl.1, fun ho => ?_⟩
  rcases hl.2 with h | h <;> simp [wireKey, ho, FrameKind.code] at h

/-- In a run that polls every open future in its turn, OPEN comes first on the wire
    for every stream opened on this side. -/
theorem open_precedes_stream_frames {T : Type} [TracedIo T] (hsteady : Steady T) {io : T}
    (hio : TracedIo.written io = []) (role : Mode) (config : YamuxConfig) (actions : List Action)
    (hturn : Guarded Endpoint.step Endpoint.InTurn (Endpoint.new io role config) actions) (id : StreamId)
    (hid : (run Endpoint.step (Endpoint.new io role config) actions).opened id) :
    OpenFirst (run Endpoint.step (Endpoint.new io role config) actions) id :=
  (run_invariant Endpoint.Ordered (Endpoint.Ordered.step hsteady)
    (Endpoint.Ordered.new hio role config) hturn).openFirst hid

/-- A client whose peer has answered on the policy stream. -/
def policyClient : Endpoint Script :=
  Endpoint.new { incoming := (Frame.mk .frameData 1 policyBytes).bytes } .client ⟨16, 4194304, 16384⟩
where
  policyBytes : List UInt8 :=
    encodeHeader .policy ++ ByteOrder.toBytes 2 3 ++ [0x61, 0x63, 0x6c]

/-- The policy exchange on stream 1, then two flows, on the streams 3 and 5. -/
def twoFlows : List Action :=
  let request : OpenRequest := ⟨.tcp, .ipv4 #v[192, 0, 2, 1], 443, []⟩
  [.openStream, .pollOpen 1, .write 1 policyClient.policyBytes, .flush 1, .read 1 64,
    .beginOpen request, .beginOpen request]

theorem twoFlows_in_turn :
    OpenFirst (run Endpoint.step policyClient (twoFlows ++ [.pollFuture 3, .pollFuture 5])) 5 :=
  open_precedes_stream_frames steady rfl _ _ _ (by decide) 5 (by decide)

/-- The second future polled first: its DATA frame goes out ahead of its OPEN. -/
theorem twoFlows_out_of_turn :
    (run Endpoint.step policyClient (twoFlows ++ [.pollFuture 5])).opened 5 ∧
    ¬ OpenFirst (run Endpoint.step policyClient (twoFlows ++ [.pollFuture 5])) 5 := by
  decide

end Snolc.Mux
