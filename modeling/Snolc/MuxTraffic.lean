import Snolc.MuxArrivals
import Snolc.MuxEndpoint

set_option autoImplicit false

namespace Snolc.Mux
open PollIo SlotTable MuxFrame AsyncTask WireFormat ByteOrder

def Frame.key (f : Frame) : FrameKind × StreamId := (f.kind, f.stream)

def keys (sent : List Frame) : List (FrameKind × StreamId) := sent.map Frame.key

@[simp] theorem keys_snoc (sent : List Frame) (f : Frame) :
    keys (sent ++ [f]) = keys sent ++ [(f.kind, f.stream)] := by
  simp [keys, Frame.key]

/-- Control frames leave the queue at its front and DATA of the stream goes out in between. -/
inductive Traffic (id : StreamId) (sent : List Frame) (controls : List (FrameKind × StreamId)) :
    List Frame → List (FrameKind × StreamId) → Prop where
  | none : Traffic id sent controls sent controls
  | shift {sent₁ sent₂ : List Frame} {controls₁ controls₂ : List (FrameKind × StreamId)}
      (h : Traffic id sent controls sent₁ controls₁) (hs : Shifted sent₁ controls₁ sent₂ controls₂) :
      Traffic id sent controls sent₂ controls₂
  | data {sent₁ : List Frame} {controls₁ : List (FrameKind × StreamId)}
      (h : Traffic id sent controls sent₁ controls₁) (payload : List UInt8) (hf : payload.length < 2 ^ 32) :
      Traffic id sent controls (sent₁ ++ [⟨.frameData, id, payload⟩]) controls₁

theorem Shifted.queue {sent sent' : List Frame} {controls controls' : List (FrameKind × StreamId)}
    (h : Shifted sent controls sent' controls') : keys sent' ++ controls' = keys sent ++ controls := by
  cases h with
  | same => rfl
  | pop kind stream rest hc => simp [hc, Frame.control]

theorem Shifted.regular {sent sent' : List Frame} {controls controls' : List (FrameKind × StreamId)}
    (h : Shifted sent controls sent' controls') (hf : ∀ f ∈ sent, f.Regular) :
    ∀ f ∈ sent', f.Regular := by
  cases h with
  | same => exact hf
  | pop kind stream rest hc => exact Frame.regular_snoc hf (Frame.control_regular kind stream)

theorem Shifted.initial {sent sent' : List Frame} {controls controls' : List (FrameKind × StreamId)}
    (h : Shifted sent controls sent' controls') : sent <+: sent' := by
  cases h with
  | same => exact List.prefix_refl _
  | pop kind stream rest hc => exact List.prefix_append _ _

namespace Traffic
variable {id : StreamId} {sent sent' : List Frame} {controls controls' : List (FrameKind × StreamId)}

theorem trans {sent'' : List Frame} {controls'' : List (FrameKind × StreamId)}
    (h : Traffic id sent controls sent' controls') (h' : Traffic id sent' controls' sent'' controls'') :
    Traffic id sent controls sent'' controls'' := by
  induction h' with
  | none => exact h
  | shift _ hs ih => exact ih.shift hs
  | data _ payload hf ih => exact ih.data payload hf

theorem initial (h : Traffic id sent controls sent' controls') : sent <+: sent' := by
  induction h with
  | none => exact List.prefix_refl _
  | shift _ hs ih => exact ih.trans hs.initial
  | data _ payload _ ih => exact ih.trans (List.prefix_append _ _)

theorem regular (h : Traffic id sent controls sent' controls') (hf : ∀ f ∈ sent, f.Regular) :
    ∀ f ∈ sent', f.Regular := by
  induction h with
  | none => exact hf
  | shift _ hs ih => exact hs.regular ih
  | data _ payload hp ih => exact Frame.regular_snoc ih (Frame.data_regular id hp)

theorem taken (h : Traffic id sent controls sent' controls') :
    ∃ front, controls = front ++ controls' ∧ ∀ q ∈ front, q ∈ keys sent' := by
  induction h with
  | none => exact ⟨[], rfl, by simp⟩
  | shift _ hs ih =>
    obtain ⟨front, hc, hm⟩ := ih
    cases hs with
    | same => exact ⟨front, hc, hm⟩
    | pop kind stream rest hp =>
      refine ⟨front ++ [(kind, stream)], by rw [hc, hp]; simp, fun q hq => ?_⟩
      rw [keys_snoc]
      rcases List.mem_append.mp hq with hq | hq
      · exact List.mem_append_left _ (hm q hq)
      · exact List.mem_append_right _ hq
  | data _ payload _ ih =>
    obtain ⟨front, hc, hm⟩ := ih
    refine ⟨front, hc, fun q hq => ?_⟩
    rw [keys_snoc]
    exact List.mem_append_left _ (hm q hq)

theorem keys_initial (h : Traffic id sent controls sent' controls') : keys sent <+: keys sent' :=
  h.initial.map _

theorem mem_queue (h : Traffic id sent controls sent' controls') (q : FrameKind × StreamId) :
    q ∈ keys sent' ++ controls' → q ∈ keys sent ++ controls ∨ q = (.frameData, id) := by
  induction h with
  | none => exact .inl
  | shift _ hs ih => rw [hs.queue]; exact ih
  | data _ payload _ ih =>
    intro hq
    simp only [keys_snoc, List.append_assoc, List.mem_append, List.mem_singleton] at hq
    rcases hq with hq | hq | hq
    · exact ih (List.mem_append_left _ hq)
    · exact .inr hq
    · exact ih (List.mem_append_right _ hq)

end Traffic

theorem encodeOpen_length {request : OpenRequest} {bytes : List UInt8}
    (h : encodeOpen request = .ok bytes) : bytes ≠ [] ∧ bytes.length ≤ 4110 := by
  unfold encodeOpen at h
  simp only [bind, Except.bind, pure, Except.pure, throw, throwThe, MonadExceptOf.throw] at h
  split at h
  · cases h
  · split at h
    · cases h
    · split at h
      · cases h
      · split at h
        · cases h
        · split at h
          · cases h
          · rename_i hbody
            cases h
            refine ⟨by simp [encodeHeader, magic], ?_⟩
            simp only [List.length_append] at hbody ⊢
            simp only [encodeHeader, magic, maxOpenBody, toBytes_length, List.length_append,
              List.length_cons, List.length_nil] at hbody ⊢
            omega

theorem readOpenResponse_writes (n : ℕ) : readOpenResponse.Writes n := by
  intro start
  dsimp only
  split
  · trivial
  · intro body
    trivial

theorem openFlowTask_cases (request : OpenRequest) :
    (∃ e, openFlowTask request = .done (.error e)) ∨
    ∃ bytes next, openFlowTask request = .writeAll bytes next ∧ bytes ≠ [] ∧
      bytes.length ≤ 4110 ∧ next.Writes 4110 := by
  unfold openFlowTask writeOpen writeFrame
  cases h : encodeOpen request with
  | error e => exact .inl ⟨_, rfl⟩
  | ok bytes =>
    obtain ⟨hne, hlen⟩ := encodeOpen_length h
    exact .inr ⟨bytes, _, rfl, hne, hlen, readOpenResponse_writes 4110⟩

theorem openFlowTask_writes (request : OpenRequest) : (openFlowTask request).Writes 4110 := by
  rcases openFlowTask_cases request with ⟨e, h⟩ | ⟨bytes, next, h, -, hlen, hn⟩
  · rw [h]; trivial
  · rw [h]; exact ⟨hlen, hn⟩

namespace Connection
variable {T : Type} [TracedIo T]

/-- State of the stream `id` some calls of its holder after the state `c`. -/
structure Working (c : Connection T) (sent : List Frame) (id : StreamId) (s : StreamEnd T)
    (sent' : List Frame) : Prop where
  same : s.id = id
  outbox : s.connection.Outbox sent'
  ledger : s.connection.Ledger
  traffic : Traffic id sent c.controls sent' s.connection.controls
  arrivals : Arrivals c s.connection
  others : ∀ other, other ≠ id → (c.stream other).isSome →
    s.connection.outstanding other = c.outstanding other
  grows : c.sentBytes <+: s.connection.sentBytes

theorem Working.start {c : Connection T} {sent : List Frame} (h : c.Outbox sent) (hl : c.Ledger)
    (id : StreamId) : Working c sent id ⟨id, c⟩ sent :=
  ⟨rfl, h, hl, .none, Arrivals.refl c, fun _ _ _ => rfl, List.prefix_refl _⟩

/-- A write of a stream sends at most one control frame from the queue and one
    DATA frame of the stream. -/
theorem pollData_traffic {c : Connection T} {sent : List Frame} (h : c.Outbox sent) (hl : c.Ledger)
    {id : StreamId} (hs : (c.stream id).isSome) {input : List UInt8}
    (hlen : min input.length c.splitSendSize < 2 ^ 32) :
    ∃ sent', Working c sent id ⟨id, (c.pollData id input).2⟩ sent' := by
  by_cases hclosed : c.closed
  · exact ⟨sent, by rw [pollData, if_pos hclosed]; exact Working.start h hl id⟩
  · by_cases hne : input = []
    · exact ⟨sent, by rw [pollData, if_neg hclosed, if_pos hne]; exact Working.start h hl id⟩
    · obtain ⟨sent₁, hshift, hstep, hkept⟩ := pollData_spec h hl (by simpa using hclosed) id hs hne
      have harr := pollData_arrivals c id input
      have htraffic := Traffic.shift (.none : Traffic id sent c.controls _ _) hshift
      have hothers (other : StreamId) (hne : other ≠ id) (ho : (c.stream other).isSome) :=
        hkept.others other hne (.inl ho)
      rcases hstep with ⟨-, -, hout⟩ | ⟨-, -, hout⟩ | ⟨-, hout, -⟩
      · exact ⟨sent₁, rfl, hout, hkept.ledger, htraffic, harr, hothers, hkept.grows⟩
      · exact ⟨sent₁, rfl, hout, hkept.ledger, htraffic, harr, hothers, hkept.grows⟩
      · exact ⟨_, rfl, hout, hkept.ledger,
          htraffic.data _ (by rw [List.length_take, Nat.min_comm]; exact hlen), harr, hothers, hkept.grows⟩

theorem Working.trans {c : Connection T} {sent sent₁ sent₂ : List Frame} {id : StreamId}
    {s s' : StreamEnd T} (h : Working c sent id s sent₁) (h' : Working s.connection sent₁ id s' sent₂) :
    Working c sent id s' sent₂ :=
  ⟨h'.same, h'.outbox, h'.ledger, h.traffic.trans h'.traffic, h.arrivals.trans h'.arrivals,
    fun other hne hs => (h'.others other hne (h.arrivals.kept hs)).trans (h.others other hne hs),
    h.grows.trans h'.grows⟩

theorem Working.write {c : Connection T} {sent sent' : List Frame} {id : StreamId} {s : StreamEnd T}
    (h : Working c sent id s sent') (hs : (c.stream id).isSome) {input : List UInt8}
    (hlen : input.length < 2 ^ 32) : ∃ sent'', Working c sent id (AsyncIo.pollWrite s input).2 sent'' := by
  have hfit : min input.length s.connection.splitSendSize < 2 ^ 32 := by omega
  obtain ⟨sent'', hw⟩ := pollData_traffic h.outbox h.ledger (h.arrivals.kept hs) hfit
  refine ⟨sent'', h.trans ?_⟩
  obtain ⟨rfl, -⟩ := h
  exact hw

theorem Working.flush {c : Connection T} {sent sent' : List Frame} {id : StreamId} {s : StreamEnd T}
    (h : Working c sent id s sent') : Working c sent id (AsyncIo.pollFlush s).2 sent' := by
  have hf := h.outbox.flush_frame
  refine h.trans ⟨h.same, h.outbox.flush, hf.balanced.ledger h.ledger, ?_, pollFlushWrite_arrivals _,
    fun other _ hs => hf.balanced.books h.ledger other hs, hf.balanced.grows⟩
  change Traffic id sent' s.connection.controls sent' s.connection.pollFlushWrite.2.controls
  rw [hf.controls]
  exact .none

theorem Working.read {c : Connection T} {sent sent' : List Frame} {id : StreamId} {s : StreamEnd T}
    (h : Working c sent id s sent') (room : ℕ) :
    ∃ sent'', Working c sent id (AsyncIo.pollRead s room).2 sent'' := by
  obtain ⟨sent'', hout, hshift, hb⟩ := pollRead_step s.connection s.id room sent' h.outbox
  exact ⟨sent'', h.trans ⟨h.same, hout, hb.ledger h.ledger, Traffic.none.shift hshift,
    pollRead_arrivals _ _ _, fun other _ hs => hb.books h.ledger other hs, hb.grows⟩⟩

theorem poll_working {ε α : Type} (lift : IoError → ε) {n : ℕ} (hn : n < 2 ^ 32) {c : Connection T}
    {id : StreamId} (hs : (c.stream id).isSome) {task : Task ε α} (ht : task.Writes n) {s : StreamEnd T}
    {sent sent₀ : List Frame} (h : Working c sent id s sent₀) :
    (∃ sent', Working c sent id (task.poll lift s).2.2 sent') ∧ (task.poll lift s).2.1.Writes n := by
  refine Task.poll_invariant lift (fun s => ∃ sent', Working c sent id s sent') n ?_ ?_ ?_ task s ht ⟨_, h⟩
  · rintro s bytes - hlen ⟨sent', h⟩
    exact h.write hs (by omega)
  · rintro s ⟨sent', h⟩
    exact ⟨sent', h.flush⟩
  · rintro s room ⟨sent', h⟩
    exact h.read room

theorem poll_working_first {ε α : Type} (lift : IoError → ε) {n : ℕ} (hn : n < 2 ^ 32) {c : Connection T}
    {id : StreamId} (hs : (c.stream id).isSome) {bytes : List UInt8} {next : Task ε α} (hne : bytes ≠ [])
    (hlen : bytes.length ≤ n) (ht : next.Writes n) {s : StreamEnd T} {sent : List Frame}
    (h : Working c sent id (AsyncIo.pollWrite s bytes).2 sent) :
    (∃ sent', Working c sent id ((Task.writeAll bytes next).poll lift s).2.2 sent') ∧
      ((Task.writeAll bytes next).poll lift s).2.1.Writes n := by
  refine Task.poll_invariant_first lift (fun s => ∃ sent', Working c sent id s sent') n ?_ ?_ ?_ hne hlen
    ht ⟨_, h⟩
  · rintro s bytes - hlen ⟨sent', h⟩
    exact h.write hs (by omega)
  · rintro s ⟨sent', h⟩
    exact ⟨sent', h.flush⟩
  · rintro s room ⟨sent', h⟩
    exact h.read room

end Connection
end Snolc.Mux
