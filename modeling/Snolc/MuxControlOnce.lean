import Snolc.GuardedRuns
import Snolc.MuxEndpointBooks
import Snolc.ScriptedIo

set_option autoImplicit false

namespace Snolc.Mux
open PollIo SlotTable MuxFrame AsyncTask WireFormat GuardedRuns ScriptedIo

theorem Shifted.count {sent sent' : List Frame} {controls controls' : List (FrameKind × StreamId)}
    (h : Shifted sent controls sent' controls') (q : FrameKind × StreamId) :
    (keys sent' ++ controls').count q = (keys sent ++ controls).count q := by
  rw [h.queue]

theorem Traffic.count {id : StreamId} {sent sent' : List Frame}
    {controls controls' : List (FrameKind × StreamId)} (h : Traffic id sent controls sent' controls')
    {q : FrameKind × StreamId} (hq : q.1 ≠ .frameData) :
    (keys sent' ++ controls').count q = (keys sent ++ controls).count q := by
  induction h with
  | none => rfl
  | shift _ hs ih => rw [hs.count]; exact ih
  | data _ payload _ ih =>
    have hne : ((FrameKind.frameData, id) == q) = false := by
      rw [beq_eq_false_iff_ne]
      rintro rfl
      exact hq rfl
    rw [← ih, keys_snoc, List.append_assoc, List.count_append, List.count_append, List.count_append]
    simp [List.count_cons, hne]

theorem Traffic.controls_subset {id : StreamId} {sent sent' : List Frame}
    {controls controls' : List (FrameKind × StreamId)} (h : Traffic id sent controls sent' controls') :
    controls' ⊆ controls := by
  obtain ⟨front, hc, -⟩ := h.taken
  rw [hc]
  exact List.subset_append_right _ _

namespace Connection
variable {T : Type} [TracedIo T]

def Written (c : Connection T) (kind : FrameKind) (id : StreamId) : Prop :=
  wireKey (kind, id) ∈ headers c.sentBytes

instance (c : Connection T) (kind : FrameKind) (id : StreamId) : Decidable (c.Written kind id) :=
  inferInstanceAs (Decidable (_ ∈ _))

theorem Outbox.count_unwritten {c : Connection T} {sent : List Frame} (h : c.Outbox sent)
    (hf : ∀ f ∈ sent, f.Regular) {kind : FrameKind} (hk : kind ≠ .frameData) {id : StreamId}
    (hout : ¬ c.Written kind id) (hslot : ¬ c.Writing kind id) : (keys sent).count (kind, id) = 0 := by
  have hc := h.count_headers hf hk id
  rw [if_neg hslot, List.count_eq_zero_of_not_mem hout] at hc
  exact hc.symm

theorem Outbox.written_idle {c : Connection T} {sent : List Frame} (h : c.Outbox sent)
    (hf : ∀ f ∈ sent, f.Regular) (hw : c.write = none) {q : FrameKind × StreamId} (hq : q ∈ keys sent) :
    wireKey q ∈ headers c.sentBytes := by
  rcases h.headers_cases hf with ⟨-, he⟩ | ⟨w, -, hw', -⟩
  · rw [he]
    exact List.mem_map_of_mem hq
  · simp [hw] at hw'

end Connection

def Owner.isOpen : Owner → Bool
  | .handle writeClosed => !writeClosed
  | _ => false

namespace Endpoint
variable {T : Type} [TracedIo T]

structure Once (e : Endpoint T) (sent : List Frame) : Prop where
  single : ∀ kind id, kind ≠ .frameData → (keys sent ++ e.connection.controls).count (kind, id) ≤ 1
  opening : ∀ id, e.owner id = .opening → (.frameOpen, id) ∉ e.connection.controls ∧
    (.frameFin, id) ∉ keys sent ++ e.connection.controls
  future : ∀ id task, e.owner id = .future task → (.frameFin, id) ∉ keys sent ++ e.connection.controls
  handle : ∀ id writeClosed, e.owner id = .handle writeClosed →
    (.frameFin, id) ∉ e.connection.controls ∧ (writeClosed → e.closeCompleted id)
  unclaimed : ∀ id ∈ e.connection.inbound, e.owner id = .free ∧
    (.frameFin, id) ∉ keys sent ++ e.connection.controls
  nodup : e.connection.inbound.Nodup
  opened : ∀ id, e.openCompleted id → e.connection.Written .frameOpen id
  closed : ∀ id, e.closeCompleted id → e.connection.Written .frameFin id

theorem Once.observe {e : Endpoint T} {sent : List Frame} (h : Once e sent) : Once e.observe sent :=
  ⟨h.single, h.opening, h.future, h.handle, h.unclaimed, h.nodup, h.opened, h.closed⟩

/-- A change of the connection that starts no control frame but from the queue. -/
theorem Once.moved {e : Endpoint T} {sent sent' : List Frame} (h : Once e sent) (hs : Sound e sent)
    {d : Connection T} (harr : Connection.Arrivals e.connection d)
    (hgrows : e.connection.sentBytes <+: d.sentBytes)
    (hcount : ∀ q : FrameKind × StreamId, q.1 ≠ .frameData →
      (keys sent' ++ d.controls).count q = (keys sent ++ e.connection.controls).count q)
    (hsub : d.controls ⊆ e.connection.controls) : Once (e.withConnection d) sent' := by
  have habsent (q : FrameKind × StreamId) (hq : q.1 ≠ .frameData)
      (hn : q ∉ keys sent ++ e.connection.controls) : q ∉ keys sent' ++ d.controls := by
    rw [← List.count_eq_zero, hcount q hq, List.count_eq_zero]
    exact hn
  have hkept (q : UInt8 × StreamId) (hq : q ∈ headers e.connection.sentBytes) : q ∈ headers d.sentBytes :=
    (headers_initial hgrows).subset hq
  obtain ⟨ids, ha⟩ := harr
  have hnew (id : StreamId) (hid : id ∈ ids) : e.owner id = .free ∧
      (.frameFin, id) ∉ keys sent ++ e.connection.controls := by
    have hfresh := ha.fresh id hid
    exact ⟨hs.unowned hfresh, fun hm => hs.unused hfresh hm rfl⟩
  refine ⟨fun kind id hk => ?_, fun id ho => ?_, fun id task ho => ?_, fun id writeClosed ho => ?_,
    fun id hid => ?_, ?_, fun id ho => hkept _ (h.opened id ho), fun id ho => hkept _ (h.closed id ho)⟩
  · rw [withConnection_connection, hcount _ hk]
    exact h.single kind id hk
  · obtain ⟨h₁, h₂⟩ := h.opening id ho
    exact ⟨fun hm => h₁ (hsub hm), habsent _ (by simp) h₂⟩
  · exact habsent _ (by simp) (h.future id task ho)
  · obtain ⟨h₁, h₂⟩ := h.handle id writeClosed ho
    exact ⟨fun hm => h₁ (hsub hm), h₂⟩
  · change id ∈ d.inbound at hid
    rw [ha.inbound, List.mem_append] at hid
    obtain ⟨h₁, h₂⟩ := hid.elim (h.unclaimed id) (hnew id)
    exact ⟨h₁, habsent _ (by simp) h₂⟩
  · change d.inbound.Nodup
    rw [ha.inbound]
    refine List.nodup_append.mpr ⟨h.nodup, ha.nodup, fun id hid id' hid' he => ?_⟩
    subst he
    exact hs.unclaimed (ha.fresh id hid') hid

theorem Once.working {e : Endpoint T} {sent sent' : List Frame} (h : Once e sent) (hs : Sound e sent)
    {id : StreamId} {s : StreamEnd T} (hw : Connection.Working e.connection sent id s sent') :
    Once (e.withConnection s.connection) sent' :=
  h.moved hs hw.arrivals hw.grows (fun _ hq => hw.traffic.count hq) hw.traffic.controls_subset

theorem Once.shifted {e : Endpoint T} {sent sent' : List Frame} (h : Once e sent) (hs : Sound e sent)
    {d : Connection T} (harr : Connection.Arrivals e.connection d)
    (hb : Connection.Balanced e.connection d)
    (hshift : Shifted sent e.connection.controls sent' d.controls) : Once (e.withConnection d) sent' := by
  have ht : Traffic 0 sent e.connection.controls sent' d.controls := Traffic.none.shift hshift
  exact h.moved hs harr hb.grows (fun q _ => hshift.count q) ht.controls_subset

theorem Once.start {e : Endpoint T} {sent : List Frame} (h : Once e sent) {kind : FrameKind} {id : StreamId}
    (hzero : (keys sent ++ e.connection.controls).count (kind, id) = 0)
    (hopen : kind = .frameOpen ∨ ∃ writeClosed, e.owner id = .handle writeClosed) :
    Once e (sent ++ [Frame.control kind id]) := by
  have hqueue : keys (sent ++ [Frame.control kind id]) ++ e.connection.controls =
      keys sent ++ (kind, id) :: e.connection.controls := by
    rw [keys_snoc, List.append_assoc]; rfl
  -- a FIN that was absent stays absent: the new frame is an OPEN or of another stream
  have habsent (other : StreamId) (hne : ∀ writeClosed, e.owner other ≠ .handle writeClosed)
      (hn : (.frameFin, other) ∉ keys sent ++ e.connection.controls) :
      (.frameFin, other) ∉ keys (sent ++ [Frame.control kind id]) ++ e.connection.controls := by
    rw [hqueue, List.mem_append, List.mem_cons, or_left_comm, ← List.mem_append, not_or]
    refine ⟨fun he => ?_, hn⟩
    rw [Prod.mk.injEq] at he
    rcases hopen with hk | ⟨writeClosed, hown⟩
    · simp [hk] at he
    · exact hne writeClosed (by rw [he.2]; exact hown)
  refine ⟨fun k i hk => ?_, fun i ho => ?_, fun i task ho => ?_, h.handle, fun i hi => ?_, h.nodup,
    h.opened, h.closed⟩
  · rw [hqueue, List.count_append, List.count_cons]
    have hs := h.single k i hk
    rw [List.count_append] at hs hzero
    split
    · rename_i he
      rw [beq_iff_eq] at he
      rw [← he]
      omega
    · omega
  · exact ⟨(h.opening i ho).1, habsent i (by simp [ho]) (h.opening i ho).2⟩
  · exact habsent i (by simp [ho]) (h.future i task ho)
  · obtain ⟨hfree, hn⟩ := h.unclaimed i hi
    exact ⟨hfree, habsent i (by simp [hfree]) hn⟩

theorem Once.setOwner {e : Endpoint T} {sent : List Frame} (h : Once e sent) (id : StreamId)
    (owner : Owner) (hinb : id ∉ e.connection.inbound)
    (ho : owner = .opening → (.frameOpen, id) ∉ e.connection.controls ∧
      (.frameFin, id) ∉ keys sent ++ e.connection.controls)
    (hf : ∀ task, owner = .future task → (.frameFin, id) ∉ keys sent ++ e.connection.controls)
    (hh : ∀ writeClosed, owner = .handle writeClosed →
      (.frameFin, id) ∉ e.connection.controls ∧ (writeClosed → e.closeCompleted id)) :
    Once (e.setOwner id owner) sent := by
  refine ⟨h.single, fun i hi => ?_, fun i task hi => ?_, fun i writeClosed hi => ?_, fun i hi => ?_, h.nodup,
    h.opened, h.closed⟩
  · by_cases he : i = id
    · subst he; exact ho (by simpa using hi)
    · exact h.opening i (by simpa [he] using hi)
  · by_cases he : i = id
    · subst he; exact hf task (by simpa using hi)
    · exact h.future i task (by simpa [he] using hi)
  · by_cases he : i = id
    · subst he; exact hh writeClosed (by simpa using hi)
    · exact h.handle i writeClosed (by simpa [he] using hi)
  · have hne : i ≠ id := by rintro rfl; exact hinb hi
    obtain ⟨h₁, h₂⟩ := h.unclaimed i hi
    exact ⟨by simpa [hne] using h₁, h₂⟩

theorem Once.not_inbound {e : Endpoint T} {sent : List Frame} (h : Once e sent) (id : StreamId)
    (ho : e.owner id ≠ .free) : id ∉ e.connection.inbound :=
  fun hi => ho (h.unclaimed id hi).1

theorem Once.giveUp {e : Endpoint T} {sent : List Frame} (h : Once e sent) {stream : MuxStream}
    (hown : e.owner stream.id ≠ .free)
    (hfin : stream.writeClosed = false → e.connection.closed = false →
      (keys sent ++ e.connection.controls).count (.frameFin, stream.id) = 0) : Once (e.giveUp stream) sent := by
  have hinb := h.not_inbound _ hown
  have hfree := h.setOwner stream.id .free hinb (by simp) (by simp) (by simp)
  unfold Endpoint.giveUp MuxStream.drop
  split
  · exact ⟨hfree.single, hfree.opening, hfree.future, hfree.handle, hfree.unclaimed, hfree.nodup,
      hfree.opened, hfree.closed⟩
  · rename_i hopen
    simp only [not_or, Bool.not_eq_true] at hopen
    have hzero := hfin hopen.1 hopen.2
    have hqueue : keys sent ++ (e.connection.controls ++ [(FrameKind.frameFin, stream.id)]) =
        (keys sent ++ e.connection.controls) ++ [(FrameKind.frameFin, stream.id)] := by
      rw [List.append_assoc]
    have habsent (i : StreamId) (hne : i ≠ stream.id)
        (hn : (.frameFin, i) ∉ keys sent ++ e.connection.controls) :
        (.frameFin, i) ∉ keys sent ++ (e.connection.controls ++ [(.frameFin, stream.id)]) := by
      rw [hqueue, List.mem_append, not_or]
      exact ⟨hn, by simp [hne]⟩
    have howner (i : StreamId) (ho : Function.update e.owner stream.id .free i ≠ .free) : i ≠ stream.id := by
      rintro rfl
      simp at ho
    refine ⟨fun k i hk => ?_, fun i hi => ?_, fun i task hi => ?_, fun i writeClosed hi => ?_, fun i hi => ?_,
      h.nodup, h.opened, h.closed⟩
    · change (keys sent ++ (e.connection.controls ++ [(FrameKind.frameFin, stream.id)])).count (k, i) ≤ 1
      rw [hqueue, List.count_append, List.count_singleton]
      have hs := h.single k i hk
      split
      · rename_i he
        rw [beq_iff_eq] at he
        have hnone := he ▸ hzero
        omega
      · omega
    · have hne := howner i (by rw [show Function.update e.owner stream.id .free i = _ from hi]; simp)
      obtain ⟨h₁, h₂⟩ := hfree.opening i hi
      refine ⟨?_, habsent i hne h₂⟩
      change (.frameOpen, i) ∉ e.connection.controls ++ [(.frameFin, stream.id)]
      rw [List.mem_append, not_or]
      exact ⟨h₁, by simp⟩
    · have hne := howner i (by rw [show Function.update e.owner stream.id .free i = _ from hi]; simp)
      exact habsent i hne (hfree.future i task hi)
    · have hne := howner i (by rw [show Function.update e.owner stream.id .free i = _ from hi]; simp)
      obtain ⟨h₁, h₂⟩ := hfree.handle i writeClosed hi
      refine ⟨?_, h₂⟩
      change (.frameFin, i) ∉ e.connection.controls ++ [(.frameFin, stream.id)]
      rw [List.mem_append, not_or]
      exact ⟨h₁, by simp [hne]⟩
    · obtain ⟨h₁, h₂⟩ := hfree.unclaimed i hi
      have hne : i ≠ stream.id := by rintro rfl; exact hinb hi
      exact ⟨h₁, habsent i hne h₂⟩

theorem Once.adopt {e : Endpoint T} {sent : List Frame} (h : Once e sent) (hs : Sound e sent)
    {m : Connection T} (hm : e.connection.insertStream e.connection.nextStream = .ok m) (next : StreamId)
    (controls : List (FrameKind × StreamId))
    (hq : controls = [] ∨ controls = [(.frameOpen, e.connection.nextStream)]) (owner : Owner)
    (ho : owner = .opening → controls = []) (hh : ∀ writeClosed, owner ≠ .handle writeClosed) :
    Once ((e.withConnection { m with
      nextStream := next, controls := m.controls ++ controls }).adopt e.connection.nextStream owner) sent := by
  have hsame := Connection.insertStream_outbound hm
  have hfresh := Connection.insert_fresh hm
  have hinb : m.inbound = e.connection.inbound := by rw [Connection.insertStream_fields hm]
  have hunused (q : FrameKind × StreamId) (hmem : q ∈ keys sent ++ e.connection.controls) :
      q.2 ≠ e.connection.nextStream := hs.unused hfresh hmem
  have hqueue : keys sent ++ (m.controls ++ controls) = (keys sent ++ e.connection.controls) ++ controls := by
    rw [hsame.controls, List.append_assoc]
  have hfin (i : StreamId) (hn : (.frameFin, i) ∉ keys sent ++ e.connection.controls) :
      (.frameFin, i) ∉ keys sent ++ (m.controls ++ controls) := by
    rw [hqueue, List.mem_append, not_or]
    refine ⟨hn, ?_⟩
    rcases hq with rfl | rfl <;> simp
  have hnone : (.frameFin, e.connection.nextStream) ∉ keys sent ++ e.connection.controls :=
    fun hmem => hunused _ hmem rfl
  refine ⟨fun k i hk => ?_, fun i hi => ?_, fun i task hi => ?_, fun i writeClosed hi => ?_, fun i hi => ?_, ?_,
    fun i hi => ?_, fun i hi => ?_⟩
  · change (keys sent ++ (m.controls ++ controls)).count (k, i) ≤ 1
    rw [hqueue, List.count_append]
    have hs := h.single k i hk
    rcases hq with rfl | rfl
    · rw [List.count_nil]; omega
    · rw [List.count_singleton]
      split
      · rename_i he
        rw [beq_iff_eq] at he
        have hnone : (keys sent ++ e.connection.controls).count (.frameOpen, e.connection.nextStream) = 0 :=
          List.count_eq_zero_of_not_mem fun hmem => hunused _ hmem rfl
        rw [he] at hnone
        omega
      · omega
  · change (.frameOpen, i) ∉ m.controls ++ controls ∧ (.frameFin, i) ∉ keys sent ++ (m.controls ++ controls)
    rw [hsame.controls] at hfin ⊢
    by_cases he : i = e.connection.nextStream
    · subst he
      rw [ho (by simpa [Endpoint.adopt] using hi), List.append_nil]
      refine ⟨fun hmem => hunused _ (List.mem_append_right _ hmem) rfl, hnone⟩
    · obtain ⟨h₁, h₂⟩ := h.opening i (by simpa [Endpoint.adopt, he] using hi)
      refine ⟨?_, hfin i h₂⟩
      rw [List.mem_append, not_or]
      refine ⟨h₁, ?_⟩
      rcases hq with rfl | rfl <;> simp [he]
  · by_cases he : i = e.connection.nextStream
    · subst he; exact hfin _ hnone
    · exact hfin i (h.future i task (by simpa [Endpoint.adopt, he] using hi))
  · by_cases he : i = e.connection.nextStream
    · subst he
      exact absurd (by simpa [Endpoint.adopt] using hi) (hh writeClosed)
    · obtain ⟨h₁, h₂⟩ := h.handle i writeClosed (by simpa [Endpoint.adopt, he] using hi)
      refine ⟨?_, h₂⟩
      change (.frameFin, i) ∉ m.controls ++ controls
      rw [hsame.controls, List.mem_append, not_or]
      refine ⟨h₁, ?_⟩
      rcases hq with rfl | rfl <;> simp
  · change i ∈ m.inbound at hi
    rw [hinb] at hi
    obtain ⟨h₁, h₂⟩ := h.unclaimed i hi
    refine ⟨?_, hfin i h₂⟩
    have hne : i ≠ e.connection.nextStream := by
      rintro rfl
      exact hs.unclaimed hfresh hi
    simpa [Endpoint.adopt, hne] using h₁
  · change m.inbound.Nodup
    rw [hinb]
    exact h.nodup
  · change wireKey _ ∈ headers m.sentBytes
    rw [hsame.sent]
    exact h.opened i hi
  · change wireKey _ ∈ headers m.sentBytes
    rw [hsame.sent]
    exact h.closed i hi

theorem Once.accept {e : Endpoint T} {sent : List Frame} (h : Once e sent) {id : StreamId}
    {rest : List StreamId} (hi : e.connection.inbound = id :: rest) :
    Once ((e.withConnection { e.connection with inbound := rest }).setOwner id (.handle false)) sent := by
  have hnodup := h.nodup
  rw [hi, List.nodup_cons] at hnodup
  obtain ⟨-, hfin⟩ := h.unclaimed id (by simp [hi])
  have ho : Once (e.withConnection { e.connection with inbound := rest }) sent :=
    ⟨h.single, h.opening, h.future, h.handle,
      fun i hmem => h.unclaimed i (by rw [hi]; exact List.mem_cons_of_mem _ hmem), hnodup.2,
      h.opened, h.closed⟩
  refine ho.setOwner _ (.handle false) hnodup.1 (by simp) (by simp) ?_
  rintro writeClosed ⟨⟩
  exact ⟨fun hmem => hfin (List.mem_append_right _ hmem), by simp⟩

/-- The calls that repeat no control frame: nobody polls `open_stream` or
    `poll_close` again once the frame is written out, and a handle whose FIN is in
    the write slot or written out is not dropped before `poll_close` has returned. -/
def Unrepeated (e : Endpoint T) : Action → Prop
  | .pollOpen id => ¬ e.connection.Written .frameOpen id
  | .close id => (e.owner id).isOpen → ¬ e.connection.Written .frameFin id
  | .drop id => (e.owner id).isOpen → e.connection.closed = false →
      ¬ e.connection.Written .frameFin id ∧ ¬ e.connection.Writing .frameFin id
  | .write _ input => min input.length e.connection.splitSendSize < 2 ^ 32
  | _ => True

instance (e : Endpoint T) : (action : Action) → Decidable (e.Unrepeated action)
  | .pollOpen _ => inferInstanceAs (Decidable (¬ _))
  | .close _ => inferInstanceAs (Decidable (_ → _))
  | .drop _ => inferInstanceAs (Decidable (_ → _ → _))
  | .write _ _ => inferInstanceAs (Decidable (_ < _))
  | .openStream | .dropOpen _ | .beginOpen _ | .pollFuture _ | .dropFuture _ | .acceptStream | .read _ _
  | .flush _ | .drive => isTrue trivial

def Counted (e : Endpoint T) : Prop := ∃ sent, Sound e sent ∧ Once e sent

theorem Counted.withDrive {e : Endpoint T} (h : Counted e) {d : Connection T}
    (hd : Connection.DriveStep e.connection d) (harr : Connection.Arrivals e.connection d) :
    Counted (e.withConnection d) := by
  obtain ⟨sent, hs, ho⟩ := h
  obtain ⟨sent', hout, hshift, hb⟩ := hd sent hs.outbox
  exact ⟨sent', hs.shifted hout hb harr hshift, ho.shifted hs harr hb hshift⟩

theorem Counted.openStream {e : Endpoint T} (h : Counted e) : Counted e.openStream := by
  obtain ⟨sent, hs, ho⟩ := h
  unfold Endpoint.openStream
  rcases e.connection.queueStream_cases with ⟨err, next, hq⟩ | ⟨m, hm, hq⟩ <;> rw [hq]
  · exact ⟨sent, hs.skip next, ho.single, ho.opening, ho.future, ho.handle, ho.unclaimed, ho.nodup,
      ho.opened, ho.closed⟩
  · have hs' := hs.adopt hm (e.connection.nextStream + 2) [] (by simp) (by simp) .opening (by simp)
    have ho' := ho.adopt hs hm (e.connection.nextStream + 2) [] (.inl rfl) .opening (fun _ => rfl) (by simp)
    rw [List.append_nil] at hs' ho'
    exact ⟨sent, hs', ho'⟩

theorem Counted.beginOpen {e : Endpoint T} (h : Counted e) (request : OpenRequest) :
    Counted (e.beginOpen request) := by
  obtain ⟨sent, hs, ho⟩ := h
  unfold Endpoint.beginOpen Connection.queueOpen
  rcases e.connection.queueStream_cases with ⟨err, next, hq⟩ | ⟨m, hm, hq⟩ <;> rw [hq]
  · exact ⟨sent, hs.skip next, ho.single, ho.opening, ho.future, ho.handle, ho.unclaimed, ho.nodup,
      ho.opened, ho.closed⟩
  · refine ⟨sent, hs.adopt hm _ [(.frameOpen, e.connection.nextStream)] (by simp) (by simp) _ ?_,
      ho.adopt hs hm _ [(.frameOpen, e.connection.nextStream)] (.inr rfl) _ (by simp) (by simp)⟩
    rintro task ⟨⟩
    exact openFlowTask_writes request

/-- A control frame that is not written out yet is asked for: afterwards it was
    started once, and it is written out when the call succeeds. -/
theorem Counted.control {e : Endpoint T} {sent : List Frame} (hs : Sound e sent) (ho : Once e sent)
    (kind : FrameKind) (hk : kind ≠ .frameData) (id : StreamId) (hown : e.owner id ≠ .free)
    (hopen : kind = .frameOpen ∨ ∃ writeClosed, e.owner id = .handle writeClosed)
    (hunwritten : ¬ e.connection.Written kind id) (hqueue : (kind, id) ∉ e.connection.controls) :
    ∃ sent', Sound (e.withConnection (e.connection.pollControl kind id).2) sent' ∧
      Once (e.withConnection (e.connection.pollControl kind id).2) sent' ∧
      ((e.connection.pollControl kind id).1 = .ready (.ok ()) →
        (e.connection.pollControl kind id).2.Written kind id) := by
  have hframe := (Connection.pollControl_spec hs.outbox hk id).2
  have hmoved : Once (e.withConnection (e.connection.pollControl kind id).2) sent :=
    ho.moved hs (Connection.pollControl_arrivals _ _ _) hframe.balanced.grows
      (fun q _ => by rw [hframe.controls]) (by rw [hframe.controls]; exact fun _ h => h)
  rcases hs.control hk hown with ⟨hs', hok⟩ | ⟨hs', hnew, hok⟩
  · refine ⟨sent, hs', hmoved, fun hres => ?_⟩
    obtain ⟨⟨w, hw, hwk, hwi⟩, hnone⟩ := hok hres
    obtain ⟨-, done, rfl⟩ := hs.outbox.pending w hw
    exact hs'.outbox.written_idle hs'.regular hnone (by simp [PendingWrite.frame, hwk, hwi])
  · have hzero : (keys sent ++ (e.connection.pollControl kind id).2.controls).count (kind, id) = 0 := by
      rw [hframe.controls, List.count_append, hs.outbox.count_unwritten hs.regular hk hunwritten hnew,
        List.count_eq_zero_of_not_mem hqueue]
    exact ⟨_, hs', hmoved.start hzero hopen, fun hres =>
      hs'.outbox.written_idle hs'.regular (hok hres) (by rw [keys_snoc]; simp [Frame.control])⟩

theorem Counted.pollOpen {e : Endpoint T} (h : Counted e) {id : StreamId}
    (hg : ¬ e.connection.Written .frameOpen id) : Counted (e.pollOpen id) := by
  obtain ⟨sent, hs, ho⟩ := h
  unfold Endpoint.pollOpen
  split
  · rename_i hown
    obtain ⟨sent', hs', ho', hok⟩ := Counted.control hs ho .frameOpen (by simp) id
      (by simp [hown]) (.inl rfl) hg (ho.opening id hown).1
    split <;> rename_i heq <;> rw [heq] at hs' ho' hok
    · have hs'' := hs'.setOwner id (hs'.owned id (by simp [hown])) (.handle false) (by simp)
      have hfin := (ho'.opening id hown).2
      have ho'' := ho'.setOwner id (.handle false) (ho'.not_inbound _ (by simp [hown])) (by simp)
        (by simp) (by rintro _ ⟨⟩; exact ⟨fun hm => hfin (List.mem_append_right _ hm), by simp⟩)
      refine ⟨sent', hs''.same rfl rfl rfl, ho''.single, ho''.opening, ho''.future, ho''.handle, ho''.unclaimed,
        ho''.nodup, fun i hi => ?_, ho''.closed⟩
      by_cases he : i = id
      · subst he; exact hok rfl
      · exact ho''.opened i (by simpa [he] using hi)
    · refine ⟨sent', hs'.giveUp (hs'.owned id (by simp [hown])), ho'.giveUp (by simp [hown]) fun _ _ => ?_⟩
      exact List.count_eq_zero_of_not_mem (ho'.opening id hown).2
    · exact ⟨sent', hs', ho'⟩
  · exact ⟨sent, hs, ho⟩

theorem Counted.close {e : Endpoint T} (h : Counted e) {id : StreamId}
    (hg : (e.owner id).isOpen → ¬ e.connection.Written .frameFin id) : Counted (e.close id) := by
  obtain ⟨sent, hs, ho⟩ := h
  unfold Endpoint.close
  split
  · rename_i writeClosed hown
    have hconn : ∃ sent', Sound (e.withConnection
          (({ id, writeClosed } : MuxStream).pollClose e.connection).2.2) sent' ∧
        Once (e.withConnection (({ id, writeClosed } : MuxStream).pollClose e.connection).2.2) sent' ∧
        ((({ id, writeClosed } : MuxStream).pollClose e.connection).2.1.writeClosed →
          (({ id, writeClosed } : MuxStream).pollClose e.connection).2.2.Written .frameFin id) := by
      unfold MuxStream.pollClose
      split
      · rename_i hclosed
        exact ⟨sent, hs, ho, fun _ => ho.closed id ((ho.handle id writeClosed hown).2 hclosed)⟩
      · rename_i hopen
        have hfalse : writeClosed = false := by simpa using hopen
        subst hfalse
        obtain ⟨sent', hs', ho', hok⟩ := Counted.control hs ho .frameFin (by simp) id
          (by simp [hown]) (.inr ⟨_, hown⟩) (hg (by simp [hown, Owner.isOpen])) (ho.handle id _ hown).1
        split <;> rename_i heq <;> rw [heq] at hs' ho' hok
        · exact ⟨sent', hs', ho', fun _ => hok rfl⟩
        · exact ⟨sent', hs', ho', by simp⟩
    obtain ⟨sent', hs', ho', hfin⟩ := hconn
    generalize ({ id, writeClosed } : MuxStream).pollClose e.connection = r at hs' ho' hfin
    have hs'' := hs'.setOwner id (hs'.owned id (by simp [hown])) (.handle r.2.1.writeClosed) (by simp)
    have hinb := ho'.not_inbound id (by simp [hown])
    have hfree := (ho'.handle id writeClosed hown).1
    have ho'' : Once ({ e.withConnection r.2.2 with
        closeCompleted := Function.update e.closeCompleted id (e.closeCompleted id || r.2.1.writeClosed) }) sent' := by
      refine ⟨ho'.single, ho'.opening, ho'.future, fun i b hi => ⟨(ho'.handle i b hi).1, fun hb => ?_⟩,
        ho'.unclaimed, ho'.nodup, ho'.opened, fun i hi => ?_⟩
      · have := (ho'.handle i b hi).2 hb
        by_cases he : i = id
        · subst he
          have : e.closeCompleted i = true := this
          simp [this]
        · simpa [he] using this
      · by_cases he : i = id
        · subst he
          simp only [Function.update_self, Bool.or_eq_true] at hi
          exact hi.elim (ho'.closed i) hfin
        · exact ho'.closed i (by simpa [he] using hi)
    have hlast := ho''.setOwner id (.handle r.2.1.writeClosed) hinb (by simp) (by simp)
      (by
        intro b hb
        cases hb
        exact ⟨hfree, fun hw => by simp [hw]⟩)
    exact ⟨sent', hs''.same rfl rfl rfl, hlast⟩
  · exact ⟨sent, hs, ho⟩

theorem Counted.write {e : Endpoint T} (h : Counted e) (id : StreamId) {input : List UInt8}
    (hlen : min input.length e.connection.splitSendSize < 2 ^ 32) : Counted (e.write id input) := by
  obtain ⟨sent, hs, ho⟩ := h
  unfold Endpoint.write
  split
  · rename_i writeClosed hown
    have hocc := hs.owned id (by simp [hown])
    obtain ⟨sent', hw⟩ := Connection.pollData_traffic hs.outbox hs.ledger hocc hlen
    exact ⟨sent', hs.working hocc hw, ho.working hs hw⟩
  · exact ⟨sent, hs, ho⟩

theorem Counted.pollFuture {e : Endpoint T} (h : Counted e) (id : StreamId) : Counted (e.pollFuture id) := by
  obtain ⟨sent, hs, ho⟩ := h
  unfold Endpoint.pollFuture
  split
  · rename_i task hown
    have hocc := hs.owned id (by simp [hown])
    obtain ⟨⟨sent', hwork⟩, hwrites⟩ := Connection.poll_working MuxError.io (n := requestBound)
      (by decide) hocc (hs.tasks id task hown) (Connection.Working.start hs.outbox hs.ledger id)
    have hs' := hs.working hocc hwork
    have ho' := ho.working hs hwork
    have hfin := ho'.future id task hown
    have hinb := ho'.not_inbound id (by simp [hown])
    have hocc' := hwork.arrivals.kept hocc
    dsimp only
    unfold Endpoint.settle
    split
    · refine ⟨sent', hs'.setOwner _ hocc' _ (by simp), ho'.setOwner _ _ hinb (by simp) (by simp) ?_⟩
      rintro _ ⟨⟩
      exact ⟨fun hm => hfin (List.mem_append_right _ hm), by simp⟩
    · exact ⟨sent', hs'.giveUp hocc',
        ho'.giveUp (by simp [hown]) fun _ _ => List.count_eq_zero_of_not_mem hfin⟩
    · exact ⟨sent', hs'.setOwner _ hocc' _ (by rintro task ⟨⟩; exact hwrites),
        ho'.setOwner _ _ hinb (by simp) (fun _ _ => hfin) (by simp)⟩
  · exact ⟨sent, hs, ho⟩

theorem Counted.dropOpen {e : Endpoint T} (h : Counted e) (id : StreamId) : Counted (e.dropOpen id) := by
  obtain ⟨sent, hs, ho⟩ := h
  unfold Endpoint.dropOpen
  split
  · rename_i hown
    exact ⟨sent, hs.giveUp (hs.owned id (by simp [hown])),
      ho.giveUp (by simp [hown]) fun _ _ => List.count_eq_zero_of_not_mem (ho.opening id hown).2⟩
  · exact ⟨sent, hs, ho⟩

theorem Counted.dropFuture {e : Endpoint T} (h : Counted e) (id : StreamId) : Counted (e.dropFuture id) := by
  obtain ⟨sent, hs, ho⟩ := h
  unfold Endpoint.dropFuture
  split
  · rename_i task hown
    exact ⟨sent, hs.giveUp (hs.owned id (by simp [hown])),
      ho.giveUp (by simp [hown]) fun _ _ => List.count_eq_zero_of_not_mem (ho.future id task hown)⟩
  · exact ⟨sent, hs, ho⟩

theorem Counted.drop {e : Endpoint T} (h : Counted e) {id : StreamId}
    (hg : (e.owner id).isOpen → e.connection.closed = false →
      ¬ e.connection.Written .frameFin id ∧ ¬ e.connection.Writing .frameFin id) : Counted (e.drop id) := by
  obtain ⟨sent, hs, ho⟩ := h
  unfold Endpoint.drop
  split
  · rename_i writeClosed hown
    refine ⟨sent, hs.giveUp (hs.owned id (by simp [hown])), ho.giveUp (by simp [hown]) fun hw hc => ?_⟩
    have hfalse : writeClosed = false := hw
    subst hfalse
    obtain ⟨h₁, h₂⟩ := hg (by simp [hown, Owner.isOpen]) hc
    rw [List.count_append, hs.outbox.count_unwritten hs.regular (by simp) h₁ h₂,
      List.count_eq_zero_of_not_mem (ho.handle id _ hown).1]
  · exact ⟨sent, hs, ho⟩

theorem Counted.acceptStream {e : Endpoint T} (h : Counted e) : Counted e.acceptStream := by
  rcases e.acceptStream_cases with ⟨id, rest, hi, heq⟩ | heq
  · obtain ⟨sent, hs, ho⟩ := h
    rw [heq]
    exact ⟨sent, hs.accept hi, ho.accept hi⟩
  · rw [heq]
    exact h.withDrive (Connection.pollDrive_step _) (Connection.pollDrive_arrivals _)

theorem Counted.step (e : Endpoint T) (action : Action) (h : Counted e) (hg : Unrepeated e action) :
    Counted (e.step action) := by
  have hact : Counted (e.act action) := by
    cases action with
    | openStream => exact h.openStream
    | pollOpen id => exact h.pollOpen hg
    | dropOpen id => exact h.dropOpen id
    | beginOpen request => exact h.beginOpen request
    | pollFuture id => exact h.pollFuture id
    | dropFuture id => exact h.dropFuture id
    | acceptStream => exact h.acceptStream
    | read id room =>
      simp only [Endpoint.act, Endpoint.read]
      split
      · exact h.withDrive (Connection.pollRead_step _ _ _) (Connection.pollRead_arrivals _ _ _)
      · exact h
    | write id input => exact h.write id hg
    | flush id =>
      simp only [Endpoint.act, Endpoint.flush]
      split
      · exact h.withDrive (Connection.pollFlushWrite_step _) (Connection.pollFlushWrite_arrivals _)
      · exact h
    | close id => exact h.close hg
    | drop id => exact h.drop hg
    | drive => exact h.withDrive (Connection.pollDrive_step _) (Connection.pollDrive_arrivals _)
  obtain ⟨sent, hs, ho⟩ := hact
  exact ⟨sent, hs.observe, ho.observe⟩

theorem Counted.new {io : T} (hio : TracedIo.written io = []) (role : Mode) (config : YamuxConfig) :
    Counted (Endpoint.new io role config) :=
  ⟨[], Sound.new hio role config, by simp [Endpoint.new, MuxSession.new, keys], by simp [Endpoint.new],
    by simp [Endpoint.new], by simp [Endpoint.new], by simp [Endpoint.new, MuxSession.new],
    by simp [Endpoint.new, MuxSession.new], by simp [Endpoint.new], by simp [Endpoint.new]⟩

end Endpoint

def timesWritten {T : Type} [TracedIo T] (e : Endpoint T) (kind : FrameKind) (id : StreamId) : ℕ :=
  (headers e.connection.sentBytes).count (wireKey (kind, id))

/-- OPEN and FIN of a stream at most once, and exactly once when the call that asks
    for it has succeeded. -/
structure ControlOnce {T : Type} [TracedIo T] (e : Endpoint T) (id : StreamId) : Prop where
  openOnce : timesWritten e .frameOpen id ≤ 1
  openDone : e.openCompleted id → timesWritten e .frameOpen id = 1
  finOnce : timesWritten e .frameFin id ≤ 1
  finDone : e.closeCompleted id → timesWritten e .frameFin id = 1

theorem Endpoint.Counted.controlOnce {T : Type} [TracedIo T] {e : Endpoint T} (h : e.Counted)
    (id : StreamId) : ControlOnce e id := by
  obtain ⟨sent, hs, ho⟩ := h
  have hle (kind : FrameKind) (hk : kind ≠ .frameData) : timesWritten e kind id ≤ 1 := by
    have hc := hs.outbox.count_headers hs.regular hk id
    have hsingle := ho.single kind id hk
    rw [List.count_append] at hsingle
    unfold timesWritten
    omega
  have hpos (kind : FrameKind) (hw : e.connection.Written kind id) : 0 < timesWritten e kind id :=
    List.count_pos_iff.mpr hw
  refine ⟨hle _ (by simp), fun hd => ?_, hle _ (by simp), fun hd => ?_⟩
  · exact Nat.le_antisymm (hle _ (by simp)) (hpos _ (ho.opened id hd))
  · exact Nat.le_antisymm (hle _ (by simp)) (hpos _ (ho.closed id hd))

/-- In a run that repeats no request for a control frame, every control frame goes out once. -/
theorem control_frames_written_once {T : Type} [TracedIo T] {io : T} (hio : TracedIo.written io = [])
    (role : Mode) (config : YamuxConfig) (actions : List Action)
    (hrepeat : Guarded Endpoint.step Endpoint.Unrepeated (Endpoint.new io role config) actions)
    (id : StreamId) : ControlOnce (run Endpoint.step (Endpoint.new io role config) actions) id :=
  (run_invariant Endpoint.Counted Endpoint.Counted.step
    (Endpoint.Counted.new hio role config) hrepeat).controlOnce id

/-- Stream 1 is opened over an io that takes five bytes at first, and closed. -/
theorem partial_write_once :
    ControlOnce (run Endpoint.step
      (Endpoint.new ({ writes := [5, 0] } : Script) .client ⟨16, 4194304, 16384⟩)
      [.openStream, .pollOpen 1, .pollOpen 1, .close 1]) 1 :=
  control_frames_written_once rfl _ _ _ (by decide) 1

def slowFlush (flushes : List Bool) : Endpoint Script :=
  Endpoint.new { flushes } .client ⟨16, 4194304, 16384⟩

/-- `open_stream` polled again behind a pending flush sends its OPEN a second time, and
    so does the drop of a handle behind a pending `poll_close` with the FIN. -/
theorem control_frames_written_twice :
    ¬ ControlOnce (run Endpoint.step (slowFlush [false]) [.openStream, .pollOpen 1, .pollOpen 1]) 1 ∧
    ¬ ControlOnce (run Endpoint.step (slowFlush [true, false])
      [.openStream, .pollOpen 1, .close 1, .drop 1, .drive]) 1 := by
  have hopen : timesWritten (run Endpoint.step (slowFlush [false])
      [.openStream, .pollOpen 1, .pollOpen 1]) .frameOpen 1 = 2 := by decide
  have hfin : timesWritten (run Endpoint.step (slowFlush [true, false])
      [.openStream, .pollOpen 1, .close 1, .drop 1, .drive]) .frameFin 1 = 2 := by decide
  refine ⟨fun h => ?_, fun h => ?_⟩
  · have := h.openOnce
    omega
  · have := h.finOnce
    omega

end Snolc.Mux
