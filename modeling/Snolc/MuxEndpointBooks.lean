import Snolc.MuxTraffic
import Mathlib.Data.List.Count

set_option autoImplicit false

namespace Snolc.Mux
open PollIo SlotTable MuxFrame AsyncTask WireFormat

def requestBound : ℕ := 4110

namespace Endpoint
variable {T : Type} [TracedIo T]

structure Sound (e : Endpoint T) (sent : List Frame) : Prop where
  outbox : e.connection.Outbox sent
  ledger : e.connection.Ledger
  regular : ∀ f ∈ sent, f.Regular
  tasks : ∀ id task, e.owner id = .future task → task.Writes requestBound
  owned : ∀ id, e.owner id ≠ .free → (e.connection.stream id).isSome
  inbound : ∀ id ∈ e.connection.inbound, (e.connection.stream id).isSome
  opened : ∀ id, e.opened id → (e.connection.stream id).isSome
  used : ∀ q ∈ keys sent ++ e.connection.controls, (e.connection.stream q.2).isSome

/-- A stream that is not open is named by no frame queued or sent, waits for no claim and has no owner. -/
theorem Sound.unused {e : Endpoint T} {sent : List Frame} (h : Sound e sent) {id : StreamId}
    (hn : e.connection.stream id = none) {q : FrameKind × StreamId} (hq : q ∈ keys sent ++ e.connection.controls) :
    q.2 ≠ id := by
  rintro rfl
  simpa [hn] using h.used q hq

theorem Sound.unclaimed {e : Endpoint T} {sent : List Frame} (h : Sound e sent) {id : StreamId}
    (hn : e.connection.stream id = none) : id ∉ e.connection.inbound := by
  intro hid
  simpa [hn] using h.inbound id hid

theorem Sound.unowned {e : Endpoint T} {sent : List Frame} (h : Sound e sent) {id : StreamId}
    (hn : e.connection.stream id = none) : e.owner id = .free := by
  by_contra ho
  simpa [hn] using h.owned id ho

theorem Sound.same {e d : Endpoint T} {sent : List Frame} (h : Sound e sent) (hc : d.connection = e.connection)
    (howner : d.owner = e.owner) (ho : d.opened = e.opened) : Sound d sent := by
  obtain ⟨houtbox, hledger, hregular, htasks, howned, hinbound, hopened, hused⟩ := h
  rw [← hc] at houtbox hledger howned hinbound hopened hused
  rw [← howner] at htasks howned
  rw [← ho] at hopened
  exact ⟨houtbox, hledger, hregular, htasks, howned, hinbound, hopened, hused⟩

theorem Sound.observe {e : Endpoint T} {sent : List Frame} (h : Sound e sent) : Sound e.observe sent :=
  h.same rfl rfl rfl

theorem acceptStream_cases {T : Type} [AsyncIo T] (e : Endpoint T) :
    (∃ id rest, e.connection.inbound = id :: rest ∧
      e.acceptStream = (e.withConnection { e.connection with inbound := rest }).setOwner id (.handle false)) ∨
    e.acceptStream = e.withConnection e.connection.pollDrive.2 := by
  unfold acceptStream
  rcases e.connection.pollAcceptStream_cases with ⟨id, rest, hi, hres⟩ | ⟨-, hconn, hno⟩
  · rw [hres]
    exact .inl ⟨id, rest, hi, rfl⟩
  · right
    rw [← hconn]
    split
    · next heq =>
      rw [heq] at hno
      exact absurd rfl (hno _)
    · next heq => rw [heq]

theorem Sound.setOwner {e : Endpoint T} {sent : List Frame} (h : Sound e sent) (id : StreamId)
    (hs : (e.connection.stream id).isSome) (owner : Owner)
    (ht : ∀ task, owner = .future task → task.Writes requestBound) : Sound (e.setOwner id owner) sent where
  outbox := h.outbox
  ledger := h.ledger
  regular := h.regular
  tasks other task ho := by
    by_cases he : other = id
    · subst he
      exact ht task (by simpa using ho)
    · exact h.tasks other task (by simpa [he] using ho)
  owned other ho := by
    by_cases he : other = id
    · subst he; exact hs
    · exact h.owned other (by simpa [he] using ho)
  inbound := h.inbound
  opened := h.opened
  used := h.used

theorem Sound.moved {e : Endpoint T} {sent sent' : List Frame} (h : Sound e sent) {d : Connection T}
    (hout : d.Outbox sent') (hl : d.Ledger) (harr : Connection.Arrivals e.connection d)
    (hregular : ∀ f ∈ sent', f.Regular)
    (hq : ∀ q ∈ keys sent' ++ d.controls,
      q ∈ keys sent ++ e.connection.controls ∨ (e.connection.stream q.2).isSome) :
    Sound (e.withConnection d) sent' where
  outbox := hout
  ledger := hl
  regular := hregular
  tasks := h.tasks
  owned id ho := harr.kept (h.owned id ho)
  inbound id hid := by
    obtain ⟨ids, ha⟩ := harr
    change id ∈ d.inbound at hid
    rw [ha.inbound, List.mem_append] at hid
    refine (ha.occupied id).mpr (hid.imp (h.inbound id) fun h => h)
  opened id ho := harr.kept (h.opened id ho)
  used q hm := by
    rcases hq q hm with hm | hm
    · exact harr.kept (h.used q hm)
    · exact harr.kept hm

theorem Sound.shifted {e : Endpoint T} {sent sent' : List Frame} (h : Sound e sent) {d : Connection T}
    (hout : d.Outbox sent') (hb : Connection.Balanced e.connection d)
    (harr : Connection.Arrivals e.connection d)
    (hs : Shifted sent e.connection.controls sent' d.controls) : Sound (e.withConnection d) sent' :=
  h.moved hout (hb.ledger h.ledger) harr (hs.regular h.regular) (fun q hm => .inl (by rw [← hs.queue]; exact hm))

theorem Sound.working {e : Endpoint T} {sent sent' : List Frame} (h : Sound e sent) {id : StreamId}
    (hs : (e.connection.stream id).isSome) {s : StreamEnd T}
    (hw : Connection.Working e.connection sent id s sent') : Sound (e.withConnection s.connection) sent' :=
  h.moved hw.outbox hw.ledger hw.arrivals (hw.traffic.regular h.regular) (fun q hm => by
    rcases hw.traffic.mem_queue q hm with hm | rfl
    · exact .inl hm
    · exact .inr hs)

theorem Sound.giveUp {e : Endpoint T} {sent : List Frame} (h : Sound e sent) {stream : MuxStream}
    (hs : (e.connection.stream stream.id).isSome) : Sound (e.giveUp stream) sent := by
  have hout : (stream.drop e.connection).Outbox sent ∧ (stream.drop e.connection).Ledger ∧
      Connection.Arrivals e.connection (stream.drop e.connection) ∧
      ∀ q ∈ keys sent ++ (stream.drop e.connection).controls,
        q ∈ keys sent ++ e.connection.controls ∨ (e.connection.stream q.2).isSome := by
    unfold MuxStream.drop
    split
    · exact ⟨h.outbox, h.ledger, .refl _, fun q hm => .inl hm⟩
    · refine ⟨⟨h.outbox.io, h.outbox.wire, h.outbox.pending⟩, ⟨fun q hq => ?_, h.ledger.single⟩,
        .of_fields rfl rfl rfl, fun q hm => ?_⟩
      · rcases List.mem_append.mp hq with hq | hq
        · exact h.ledger.kinds q hq
        · rw [List.mem_singleton.mp hq]; exact FrameKind.noConfusion
      · rw [← List.append_assoc, List.mem_append, List.mem_singleton] at hm
        rcases hm with hm | rfl
        · exact .inl hm
        · exact .inr hs
  obtain ⟨hout, hl, harr, hq⟩ := hout
  have hm := (h.moved hout hl harr h.regular hq).setOwner stream.id (harr.kept hs) .free (by simp)
  exact ⟨hm.outbox, hm.ledger, hm.regular, hm.tasks, hm.owned, hm.inbound, hm.opened, hm.used⟩

theorem Sound.adopt {e : Endpoint T} {sent : List Frame} (h : Sound e sent) {m : Connection T}
    (hm : e.connection.insertStream e.connection.nextStream = .ok m) (next : StreamId)
    (controls : List (FrameKind × StreamId)) (hk : ∀ q ∈ controls, q.1 ≠ .frameData)
    (hq : ∀ q ∈ controls, q.2 = e.connection.nextStream)
    (owner : Owner) (ht : ∀ task, owner = .future task → task.Writes requestBound) :
    Sound ((e.withConnection { m with
      nextStream := next, controls := m.controls ++ controls }).adopt e.connection.nextStream owner) sent := by
  have hsame := Connection.insertStream_outbound hm
  have hs := Connection.stream_insert hm
  have hnew : (m.stream e.connection.nextStream).isSome := by rw [hs, if_pos rfl]; rfl
  have hkept (id : StreamId) (ho : (e.connection.stream id).isSome) : (m.stream id).isSome := hsame.kept id ho
  have hout := h.outbox.same hsame
  have hl := hsame.balanced.ledger h.ledger
  have hinb : m.inbound = e.connection.inbound := by rw [Connection.insertStream_fields hm]
  have hsound : Sound (e.withConnection { m with nextStream := next, controls := m.controls ++ controls })
      sent := by
    refine ⟨⟨hout.io, hout.wire, hout.pending⟩, ⟨fun q hmem => ?_, hl.single⟩, h.regular, h.tasks,
      fun id ho => hkept id (h.owned id ho), fun id hid => ?_, fun id ho => hkept id (h.opened id ho),
      fun q hmem => ?_⟩
    · exact (List.mem_append.mp hmem).elim (hl.kinds q) (hk q)
    · exact hkept id (h.inbound id (by rw [← hinb]; exact hid))
    · change q ∈ keys sent ++ (m.controls ++ controls) at hmem
      rw [← List.append_assoc, List.mem_append, hsame.controls] at hmem
      rcases hmem with hmem | hmem
      · exact hkept _ (h.used q hmem)
      · change (m.stream q.2).isSome
        rw [hq q hmem]
        exact hnew
  have ho := hsound.setOwner _ hnew owner ht
  refine ⟨ho.outbox, ho.ledger, ho.regular, ho.tasks, ho.owned, ho.inbound, fun id hid => ?_, ho.used⟩
  by_cases he : id = e.connection.nextStream
  · rw [he]; exact hnew
  · exact hsound.opened id (by simpa [Endpoint.adopt, he] using hid)

theorem Sound.skip {e : Endpoint T} {sent : List Frame} (h : Sound e sent) (next : StreamId) :
    Sound (e.withConnection { e.connection with nextStream := next }) sent :=
  ⟨⟨h.outbox.io, h.outbox.wire, h.outbox.pending⟩, ⟨h.ledger.kinds, h.ledger.single⟩, h.regular, h.tasks,
    h.owned, h.inbound, h.opened, h.used⟩

theorem Sound.accept {e : Endpoint T} {sent : List Frame} (h : Sound e sent) {id : StreamId}
    {rest : List StreamId} (hi : e.connection.inbound = id :: rest) :
    Sound ((e.withConnection { e.connection with inbound := rest }).setOwner id (.handle false)) sent := by
  have hs : Sound (e.withConnection { e.connection with inbound := rest }) sent :=
    ⟨⟨h.outbox.io, h.outbox.wire, h.outbox.pending⟩, ⟨h.ledger.kinds, h.ledger.single⟩, h.regular,
      h.tasks, h.owned, fun other ho => h.inbound other (by rw [hi]; exact List.mem_cons_of_mem _ ho),
      h.opened, h.used⟩
  exact hs.setOwner _ (h.inbound id (by simp [hi])) (.handle false) (by simp)

/-- The holder of a stream asks for its control frame: the frame in the write slot
    is flushed, and the control frame started unless it is that frame. -/
theorem Sound.control {e : Endpoint T} {sent : List Frame} (h : Sound e sent) {kind : FrameKind}
    (hk : kind ≠ .frameData) {id : StreamId} (hown : e.owner id ≠ .free) :
    (Sound (e.withConnection (e.connection.pollControl kind id).2) sent ∧
      ((e.connection.pollControl kind id).1 = .ready (.ok ()) →
        e.connection.Writing kind id ∧ (e.connection.pollControl kind id).2.write = none)) ∨
    (Sound (e.withConnection (e.connection.pollControl kind id).2) (sent ++ [Frame.control kind id]) ∧
      ¬ e.connection.Writing kind id ∧
      ((e.connection.pollControl kind id).1 = .ready (.ok ()) →
        (e.connection.pollControl kind id).2.write = none)) := by
  obtain ⟨hstep, hframe⟩ := Connection.pollControl_spec h.outbox hk id
  have harr := Connection.pollControl_arrivals e.connection kind id
  have hl := hframe.balanced.ledger h.ledger
  rcases hstep with ⟨hout, hok⟩ | ⟨hnew, hout, hok⟩
  · exact .inl ⟨h.moved hout hl harr h.regular (fun q hm => .inl (by rw [← hframe.controls]; exact hm)), hok⟩
  · refine .inr ⟨h.moved hout hl harr (Frame.regular_snoc h.regular (Frame.control_regular kind id))
      (fun q hm => ?_), hnew, hok⟩
    rw [hframe.controls, keys_snoc, List.append_assoc, List.mem_append, List.mem_append,
      List.mem_singleton] at hm
    rcases hm with hm | rfl | hm
    · exact .inl (List.mem_append_left _ hm)
    · exact .inr (h.owned id hown)
    · exact .inl (List.mem_append_right _ hm)

theorem Sound.new {io : T} (hio : TracedIo.written io = []) (role : Mode) (config : YamuxConfig) :
    Sound (Endpoint.new io role config) [] where
  outbox := by
    refine ⟨rfl, ?_, by simp [Endpoint.new, MuxSession.new]⟩
    simp [Connection.sentBytes, Connection.unsent, Endpoint.new, MuxSession.new, hio, flat]
  ledger := ⟨by simp [Endpoint.new, MuxSession.new], by simp [Endpoint.new, MuxSession.new]⟩
  regular := by simp
  tasks := by simp [Endpoint.new]
  owned := by simp [Endpoint.new]
  inbound := by simp [Endpoint.new, MuxSession.new]
  opened := by simp [Endpoint.new]
  used := by simp [Endpoint.new, MuxSession.new, keys]

end Endpoint

def wireKey (q : FrameKind × StreamId) : UInt8 × StreamId := (q.1.code, q.2)

theorem wireKey_injective : Function.Injective wireKey := by
  rintro ⟨k, i⟩ ⟨k', i'⟩ h
  simp only [wireKey, Prod.mk.injEq] at h
  rw [FrameKind.code_injective h.1, h.2]

theorem headers_flat {sent : List Frame} (hf : ∀ f ∈ sent, f.Regular) (rest : List UInt8) :
    headers (flat sent ++ rest) = (keys sent).map wireKey ++ headers rest := by
  unfold headers flat
  rw [frames_append fun f hm => (hf f hm).fits, List.map_append, keys, List.map_map, List.map_map]
  rfl

namespace Connection
variable {T : Type} [TracedIo T]

theorem Outbox.sentBytes_pending {c : Connection T} {done : List Frame} {w : PendingWrite}
    (h : c.Outbox (done ++ [w.frame])) (hw : c.write = some w) (hs : w.Sound) :
    c.sentBytes = flat done ++ w.frame.bytes.take w.offset := by
  have hwire := h.wire
  rw [flat_snoc, unsent, hw, Option.elim_some, ← hs.bytes] at hwire
  have hsplit : flat done ++ w.frame.bytes =
      (flat done ++ w.frame.bytes.take w.offset) ++ w.frame.bytes.drop w.offset := by
    rw [List.append_assoc, List.take_append_drop]
  rw [hsplit] at hwire
  exact List.append_cancel_right hwire

theorem Outbox.sentBytes_idle {c : Connection T} {sent : List Frame} (h : c.Outbox sent)
    (hw : c.write = none) : c.sentBytes = flat sent := by
  have hwire := h.wire
  simpa only [unsent, hw, Option.elim_none, List.append_nil] using hwire

/-- The headers on the wire are those of the frames started, without the pending
    one while its header is incomplete. -/
theorem Outbox.headers_cases {c : Connection T} {sent : List Frame} (h : c.Outbox sent)
    (hf : ∀ f ∈ sent, f.Regular) :
    (c.write = none ∧ headers c.sentBytes = (keys sent).map wireKey) ∨
    ∃ w done, c.write = some w ∧ w.Sound ∧ sent = done ++ [w.frame] ∧
      headers c.sentBytes = (keys done).map wireKey ++
        if w.offset < muxHeaderBytes then [] else [wireKey (w.kind, w.stream)] := by
  cases hw : c.write with
  | none =>
    refine .inl ⟨rfl, ?_⟩
    have := headers_flat hf []
    rw [List.append_nil] at this
    rw [h.sentBytes_idle hw, this]
    exact List.append_nil _
  | some w =>
    obtain ⟨hs, done, rfl⟩ := h.pending w hw
    refine .inr ⟨w, done, rfl, hs, rfl, ?_⟩
    have hfd : ∀ f ∈ done, f.Regular := fun f hm => hf f (List.mem_append_left _ hm)
    rw [h.sentBytes_pending hw hs, headers_flat hfd]
    congr 1
    unfold headers
    rw [frames_cut_short (hf w.frame (by simp)).fits]
    split <;> rfl

theorem Outbox.headers_initial {c : Connection T} {sent : List Frame} (h : c.Outbox sent)
    (hf : ∀ f ∈ sent, f.Regular) : headers c.sentBytes <+: (keys sent).map wireKey := by
  rcases h.headers_cases hf with ⟨-, he⟩ | ⟨w, done, -, -, rfl, he⟩
  · exact he ▸ List.prefix_refl _
  · rw [he, keys_snoc, List.map_append]
    refine (List.prefix_append_right_inj _).mpr ?_
    split
    · exact List.nil_prefix
    · exact List.prefix_refl _

theorem Outbox.count_headers {c : Connection T} {sent : List Frame} (h : c.Outbox sent)
    (hf : ∀ f ∈ sent, f.Regular) {kind : FrameKind} (hk : kind ≠ .frameData) (id : StreamId) :
    (headers c.sentBytes).count (wireKey (kind, id)) + (if c.Writing kind id then 1 else 0) =
      (keys sent).count (kind, id) := by
  rcases h.headers_cases hf with ⟨hw, he⟩ | ⟨w, done, hw, hs, rfl, he⟩
  · have hn : ¬ c.Writing kind id := by rintro ⟨w, hw', -⟩; simp [hw] at hw'
    rw [if_neg hn, he, List.count_map_of_injective _ _ wireKey_injective, Nat.add_zero]
  · by_cases hm : w.kind = kind ∧ w.stream = id
    · have hown : c.Writing kind id := ⟨w, hw, hm⟩
      have hshort : w.offset < muxHeaderBytes := by
        have hempty := (hf w.frame (by simp)).plain (by rw [← hm.1] at hk; exact hk)
        have hu := hs.unsent
        rw [← hs.bytes, Frame.bytes_length, hempty] at hu
        exact hu
      rw [if_pos hown, he, if_pos hshort, List.append_nil,
        List.count_map_of_injective _ _ wireKey_injective, keys_snoc, List.count_append]
      simp [PendingWrite.frame, hm]
    · have hown : ¬ c.Writing kind id := by
        rintro ⟨w', hw', hm'⟩
        rw [hw] at hw'
        cases hw'
        exact hm hm'
      have hne : ((w.kind, w.stream) == (kind, id)) = false := by
        simpa [Prod.ext_iff] using hm
      have hne' : (wireKey (w.kind, w.stream) == wireKey (kind, id)) = false := by
        rw [beq_eq_false_iff_ne] at hne ⊢
        exact fun h => hne (wireKey_injective h)
      rw [if_neg hown, he, List.count_append, List.count_map_of_injective _ _ wireKey_injective,
        keys_snoc, List.count_append]
      split <;> simp [PendingWrite.frame, List.count_cons, hne, hne']

end Connection
end Snolc.Mux
