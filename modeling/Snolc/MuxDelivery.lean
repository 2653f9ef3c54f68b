import Snolc.MuxInbox

set_option autoImplicit false

namespace Snolc.Mux
open PollIo SlotTable MuxFrame

theorem dataOf_header {kind : FrameKind} {stream : StreamId} {length : ℕ} (hl : length < 2 ^ 32)
    (rest : List UInt8) (id : StreamId) : dataOf id (headerOf kind stream length ++ rest) =
      (if kind = .frameData ∧ stream = id then rest.take length else []) ++ dataOf id (rest.drop length) := by
  have hf := frames_of_header ⟨kind, stream, List.replicate length 0⟩ rest
  have hlen : (⟨kind, stream, List.replicate length 0⟩ : Frame).header.length = length := by
    simpa [Frame.header] using hl
  have hcode : kind.code = FrameKind.frameData.code ↔ kind = .frameData :=
    ⟨FrameKind.code_injective, fun h => by rw [h]⟩
  rw [hlen, ← headerOf_payload] at hf
  simp only [List.length_replicate] at hf
  unfold dataOf
  rw [hf, List.flatMap_cons]
  simp only [Frame.header, hcode]

namespace Connection
variable {T : Type} [TracedIo T] {c : Connection T} {got : List Frame} {part : List UInt8}

theorem driveWrite_inbound {c : Connection T} (hw : ∀ w, c.write = some w → w.Sound) :
    SameInbound c c.driveWrite.2 := by
  have hstart := startQueuedControl_inbound c
  have hsound : ∀ w, c.startQueuedControl.write = some w → w.Sound := by
    rcases startQueuedControl_cases c with ⟨he, -⟩ | ⟨kind, stream, rest, -, -, he⟩
    · rw [he]; exact hw
    · rw [he]
      rintro w hw'
      cases hw'
      exact PendingWrite.ofFrame_sound (Frame.control kind stream)
  unfold driveWrite
  dsimp only
  split
  · exact hstart.trans (pollFlushWrite_inbound _ hsound)
  · exact hstart

theorem Inbox.driveRead (h : c.Inbox got part) :
    (∃ got' part' pushed, Took c c.driveRead.2 got part got' part' (fun _ => []) pushed) ∨
    ∃ e, c.driveRead.1 = .ready (.error e) ∧ Refused c.driveRead.2 got e := by
  have hp := h.prepare
  unfold Connection.driveRead
  split <;> rename_i heq <;> rw [heq] at hp
  · rcases hp with ⟨mid, htook⟩ | ⟨e, he, -⟩
    · split
      · rename_i frame hf
        rcases htook.inbox.body hf with ⟨got', part', pushed, hbody⟩ | ⟨e, he, hbad⟩
        · exact .inl ⟨got', part', pushed, htook.after hbody⟩
        · exact .inr ⟨e, he, hbad⟩
      · exact .inl ⟨got, mid, _, htook⟩
    · cases he
  · rcases hp with ⟨mid, htook⟩ | ⟨e, he, hbad⟩
    · exact .inl ⟨got, mid, _, htook⟩
    · exact .inr ⟨e, he, hbad⟩

theorem Inbox.drive (h : c.Inbox got part)
    (hw : ∀ w, c.write = some w → w.Sound) :
    (∃ got' part' pushed, Took c c.pollDrive.2 got part got' part' (fun _ => []) pushed) ∨
    ∃ e, c.pollDrive.1 = .ready (.error e) ∧ Refused c.pollDrive.2 got e := by
  have hsame := driveWrite_inbound hw
  unfold pollDrive
  split
  · exact .inl ⟨got, part, _, .refl h⟩
  · split <;> rename_i heq <;> rw [heq] at hsame
    · exact .inl ⟨got, part, _, h.took_same hsame⟩
    · exact ((h.took_same hsame).inbox.driveRead).imp_left
        fun ⟨got', part', pushed, htook⟩ => ⟨got', part', pushed, (h.took_same hsame).after htook⟩

def handedTo (id : StreamId) (bytes : List UInt8) (other : StreamId) : List UInt8 :=
  if id = other then bytes else []

omit [TracedIo T] in
theorem update_handed (delivered : StreamId → List UInt8) (id : StreamId) (bytes : List UInt8) :
    (fun other => delivered other ++ handedTo id bytes other) =
      Function.update delivered id (delivered id ++ bytes) := by
  funext other
  by_cases he : other = id
  · subst he
    simp [handedTo]
  · simp [handedTo, Function.update_of_ne he, Ne.symm he]

theorem Inbox.direct_last (h : c.Inbox got part)
    {frame : PendingRead} (hf : c.readFrame = some frame) (hk : frame.kind = .frameData)
    {payload bytes : List UInt8} (hpart : part = headerOf frame.kind frame.stream frame.length ++ payload)
    (htaken : payload.length = frame.wireConsumed) (hsound : frame.Sound payload)
    (hdirect : ∀ id, c.direct part id = if frame.stream = id then payload else [])
    {io io' : T} (hio : c.io = some io) (hr : TracedIo.received io' = TracedIo.received io ++ bytes)
    (hdone : frame.wireConsumed + bytes.length = frame.length) :
    Took c { c with io := some io', readFrame := none } got part
      (got ++ [⟨.frameData, frame.stream, payload ++ bytes⟩]) []
      (handedTo frame.stream bytes) (fun _ => []) := by
  have hoff := (h.reading frame hf).1
  have hlen : (payload ++ bytes).length = frame.length := by rw [List.length_append]; omega
  have hbytes : part ++ bytes = (⟨.frameData, frame.stream, payload ++ bytes⟩ : Frame).bytes := by
    rw [hpart, hk, List.append_assoc, ← hlen]
    rfl
  have hfits : (payload ++ bytes).length < 2 ^ 32 := by rw [hlen]; exact hsound.fits
  refine ⟨⟨Frame.regular_snoc h.regular (Frame.data_regular _ hfits), ?_, h.header,
    fun _ => ⟨by rw [hoff]; decide, by rw [hoff]; rfl⟩, fun g hg => by simp at hg, h.placed,
    fun id state hs chunk hm => ?_, h.budget⟩, fun id => ?_, fun id => ?_⟩
  · rw [List.append_nil, flat_snoc, ← hbytes]
    exact h.moved hio hr
  · obtain ⟨g, hg, hx⟩ := h.chunks id state hs chunk hm
    exact ⟨g, List.mem_append_left _ hg, hx⟩
  · rw [dataIn_snoc, hdirect]
    simp only [direct, handedTo, true_and, List.append_nil, List.append_assoc]
    split <;> simp
  · simp [queued, stream]

theorem Inbox.readDirect (h : c.Inbox got part)
    {frame : PendingRead} (hf : c.readFrame = some frame) (hk : frame.kind = .frameData)
    (hb : frame.bytes = []) (room : ℕ) :
    ∃ got' part', Took c (c.readDirect frame room).2 got part got' part'
      (handedTo frame.stream (readBytes (c.readDirect frame room).1)) (fun _ => []) := by
  obtain ⟨hoff, payload, hpart, hsound⟩ := h.reading frame hf
  have hzero : frame.bufferOffset = 0 := by
    have := hsound.offset
    rw [hb] at this
    simpa using this
  have htakenlen : payload.length = frame.wireConsumed := by have := hsound.taken; omega
  have hdirect (id : StreamId) : c.direct part id = if frame.stream = id then payload else [] := by
    simp only [direct, hf, hk, true_and]
    rw [hpart, List.drop_left' (headerOf_length _ _ _), ← htakenlen, List.take_length]
  have hsame {io io' : T} (hio : c.io = some io)
      (hr : TracedIo.received io' = TracedIo.received io) {bytes : List UInt8} (hbytes : bytes = []) :
      Took c { c with io := some io' } got part got part (handedTo frame.stream bytes) (fun _ => []) := by
    have ht := h.taken
    simp only [takenBytes, hio, Option.elim_some] at ht
    refine ⟨⟨h.regular, ?_, h.header, h.idle, h.reading, h.placed, h.chunks, h.budget⟩, fun id => ?_,
      fun id => ?_⟩
    · simp only [takenBytes, Option.elim_some]
      rw [hr, ht]
    · simp [direct, handedTo, hbytes]
    · simp [queued, stream]
  unfold Connection.readDirect
  split
  · exact ⟨got, part, h, fun id => by simp [handedTo], by simp⟩
  · rename_i io hio
    have hr := TracedIo.read_received io (min room (frame.length - frame.wireConsumed))
    have hbound := TracedIo.read_bound io (min room (frame.length - frame.wireConsumed))
    split <;> rename_i heq <;> rw [heq] at hr hbound
    · exact ⟨got, part, hsame hio (by simpa using hr) rfl⟩
    · rename_i bytes io' hne
      rw [readBytes_ok] at hr hbound
      dsimp only
      split
      · rename_i hdone
        exact ⟨_, _, h.direct_last hf hk hpart htakenlen hsound hdirect hio hr hdone⟩
      · rename_i hdone
        have hlt : frame.wireConsumed + bytes.length < frame.length := by
          have := hsound.unfinished
          have hpos : 0 < bytes.length := List.length_pos_iff.mpr hne
          omega
        have hnext := hsound.direct hb hlt
        refine ⟨got, part ++ bytes, ⟨h.regular, h.moved hio hr, h.header, fun hx => by simp at hx,
          fun g hg => ?_, h.placed, h.chunks, h.budget⟩, fun id => ?_, fun id => ?_⟩
        · cases hg
          exact ⟨hoff, payload ++ bytes, by rw [hpart, List.append_assoc], hnext⟩
        · have hall : (payload ++ bytes).take (frame.wireConsumed + bytes.length) = payload ++ bytes := by
            rw [← htakenlen, ← List.length_append, List.take_length]
          rw [hdirect]
          simp only [direct, hk, true_and, handedTo, readBytes_ok, List.append_nil]
          rw [hpart, List.append_assoc, List.drop_left' (headerOf_length _ _ _), hall]
          split <;> simp
        · simp [queued, stream]
    · exact ⟨got, part, hsame hio (by simpa using hr) rfl⟩
    · exact ⟨got, part, hsame hio (by simpa using hr) rfl⟩

@[simp] theorem handedTo_nil (id : StreamId) : handedTo id [] = fun _ => [] := by
  funext other
  simp [handedTo]

theorem Inbox.readStream (h : c.Inbox got part)
    (hw : ∀ w, c.write = some w → w.Sound) (id : StreamId) (room : ℕ) :
    (∃ got' part' pushed, Took c (c.pollReadStream id room).2 got part got' part'
      (handedTo id (readBytes (c.pollReadStream id room).1)) pushed) ∨
    ∃ e, (c.pollReadStream id room).1 = .ready (.error e) ∧ Refused (c.pollReadStream id room).2 got e := by
  have hp := h.prepare
  have hout := (pollPrepareFrame_outbound c).write
  unfold pollReadStream
  split <;> rename_i heq <;> rw [heq] at hp hout
  · rcases hp with ⟨mid, htook⟩ | ⟨e, he, hbad⟩
    · exact .inl ⟨got, mid, _, by simpa using htook⟩
    · cases he
      exact .inr ⟨_, rfl, hbad⟩
  · rcases hp with ⟨mid, htook⟩ | ⟨e, he, -⟩
    · exact .inl ⟨got, mid, _, by simpa using htook⟩
    · cases he
  · rcases hp with ⟨mid, htook⟩ | ⟨e, he, -⟩
    · split
      · exact .inl ⟨got, mid, _, by simpa using htook⟩
      · rename_i frame hf
        split
        · have hdrive := htook.inbox.drive (by rw [hout]; exact hw)
          split <;> rename_i heq' <;> rw [heq'] at hdrive
          · rcases hdrive with ⟨got', part', pushed, hd⟩ | ⟨e, he, hbad⟩
            · exact .inl ⟨got', part', pushed, by simpa using htook.after hd⟩
            · cases he
              exact .inr ⟨_, rfl, hbad⟩
          · rename_i hres
            rcases hdrive with ⟨got', part', pushed, hd⟩ | ⟨e, he, -⟩
            · exact .inl ⟨got', part', pushed, by simpa using htook.after hd⟩
            · exact absurd he (hres e)
        · rename_i hdirect
          simp only [not_or, not_not] at hdirect
          obtain ⟨hk, rfl, hb, -⟩ := hdirect
          obtain ⟨got', part', hd⟩ := htook.inbox.readDirect hf hk hb room
          exact .inl ⟨got', part', _, htook.after hd⟩
    · cases he

/-- Everything taken for a stream was handed out or waits in its queue, in this order. -/
def Delivery (c : Connection T) (got : List Frame) (part : List UInt8)
    (delivered : StreamId → List UInt8) : Prop :=
  ∀ id, dataIn id got ++ c.direct part id = delivered id ++ c.queued id

theorem Took.delivery {c d : Connection T} {got got' : List Frame} {part part' : List UInt8}
    {id : StreamId} {bytes : List UInt8} {pushed delivered : StreamId → List UInt8}
    (h : Took c d got part got' part' (handedTo id bytes) pushed) (hd : Delivery c got part delivered)
    (hq : bytes = [] ∨ c.queued id = []) :
    Delivery d got' part' (fun other => delivered other ++ handedTo id bytes other) := by
  intro other
  rw [h.flow, hd, h.queue]
  rcases hq with rfl | hq
  · simp
  · by_cases he : id = other
    · subst he
      simp [hq]
    · simp [handedTo, he]

theorem Took.delivery_quiet {d : Connection T} {got' : List Frame} {part' : List UInt8}
    {pushed delivered : StreamId → List UInt8} (h : Took c d got part got' part' (fun _ => []) pushed)
    (hd : Delivery c got part delivered) : Delivery d got' part' delivered := by
  intro id
  rw [h.flow, hd, h.queue]
  simp

theorem Inbox.advance (h : c.Inbox got part)
    {id : StreamId} {state : StreamState} (hs : c.stream id = some state) {front : List UInt8}
    {rest : List (List UInt8)} (hi : state.input = front :: rest) {count : ℕ}
    (hc : count ≤ front.length - state.offset) :
    Inbox { c.modifyStream id (fun state => state.advance count) with
      receivedBytes := c.receivedBytes - count } got part := by
  have hp := h.placed id state hs
  have hq := congrArg List.length (hp.queued_advance hi hc)
  have hlen : ((front.drop state.offset).take count).length = count := by
    rw [List.length_take, List.length_drop]; omega
  rw [List.length_append, hlen] at hq
  have hunread := unread_modifyStream hs (fun state => state.advance count)
  refine ⟨h.regular, h.taken, h.header, h.idle, h.reading, fun other state' hs' => ?_,
    fun other state' hs' chunk hm => ?_, ?_⟩
  · have hs' := (stream_modifyStream c id other _).symm.trans hs'
    split at hs'
    · rename_i he
      subst he
      rw [hs] at hs'
      cases hs'
      exact hp.advance hi hc
    · exact h.placed other state' hs'
  · have hs' := (stream_modifyStream c id other _).symm.trans hs'
    split at hs'
    · rename_i he
      subst he
      rw [hs] at hs'
      cases hs'
      exact h.chunks id state hs chunk (state.advance_input count hm)
    · exact h.chunks other state' hs' chunk hm
  · have hu : c.receivedBytes - count = (c.modifyStream id (fun state => state.advance count)).unread := by
      rw [h.budget]; omega
    exact hu

/-- `MuxStream::poll_read`, when it does not get behind an empty chunk to bytes on the wire
    while more bytes are queued. -/
theorem Inbox.read (h : c.Inbox got part)
    (hw : ∀ w, c.write = some w → w.Sound) {delivered : StreamId → List UInt8}
    (hd : Delivery c got part delivered) (id : StreamId) (room : ℕ)
    (hgap : ∀ state rest, c.stream id = some state → state.input = [] :: rest →
      readBytes ((c.modifyStream id (fun state => state.advance 0)).pollReadStream id room).1 = [] ∨
        state.queued = []) :
    (∃ got' part', (c.pollRead id room).2.Inbox got' part' ∧ Delivery (c.pollRead id room).2 got' part'
      (fun other => delivered other ++ handedTo id (readBytes (c.pollRead id room).1) other)) ∨
    ∃ e, (c.pollRead id room).1 = .ready (.error e) ∧ Refused (c.pollRead id room).2 got e := by
  unfold pollRead
  split
  · exact .inl ⟨got, part, h, by simpa using hd⟩
  · rename_i hroom
    split
    · exact .inl ⟨got, part, h, by simpa using hd⟩
    · rename_i state hs
      split
      · rename_i hi
        split
        · exact .inl ⟨got, part, h, by simpa using hd⟩
        · have hq : c.queued id = [] := by simp [queued, hs, StreamState.queued, hi]
          rcases h.readStream hw id room with ⟨got', part', pushed, htook⟩ | hrefused
          · exact .inl ⟨got', part', htook.inbox, htook.delivery hd (.inr hq)⟩
          · exact .inr hrefused
      · rename_i front rest hi
        have hp := h.placed id state hs
        have hc : min room (front.length - state.offset) ≤ front.length - state.offset := Nat.min_le_right _ _
        have hin := h.advance hs hi hc
        have hq := hp.queued_advance hi hc
        have hqueued (other : StreamId) :
            c.queued other = handedTo id ((front.drop state.offset).take (min room (front.length - state.offset)))
              other ++ (c.modifyStream id
                (fun s => s.advance (min room (front.length - state.offset)))).queued other := by
          rw [queued_modifyStream, handedTo]
          split
          · rename_i he
            subst he
            rw [queued, hs]
            exact hq
          · rfl
        dsimp only
        split
        · refine .inl ⟨got, part, hin, fun other => ?_⟩
          refine (hd other).trans ?_
          rw [hqueued other, List.append_assoc]
          rfl
        · rename_i hzero
          have hcount : min room (front.length - state.offset) = 0 := Decidable.not_not.mp hzero
          rw [hcount] at hin hqueued ⊢
          have hempty : front = [] := by
            rcases hp with ho | ⟨front', rest', hi', hlt⟩
            · apply List.eq_nil_of_length_eq_zero; omega
            · rw [hi] at hi'; cases hi'; omega
          have hfree := hgap state rest hs (by rw [hi, hempty])
          have hqueue : c.queued id = state.queued := by rw [queued, hs]; rfl
          have hnext (other : StreamId) :
              (c.modifyStream id (fun state => state.advance 0)).queued other = c.queued other := by
            rw [hqueued other]; simp [handedTo]
          have hd' : Delivery (c.modifyStream id (fun state => state.advance 0)) got part delivered := by
            intro other
            rw [hnext]
            exact hd other
          have hclear := hfree.imp_right fun hnone => (hnext id).trans (hqueue.trans hnone)
          rcases hin.readStream hw id room with ⟨got', part', pushed, htook⟩ | hrefused
          · exact .inl ⟨got', part', htook.inbox, htook.delivery hd' hclear⟩
          · exact .inr hrefused

theorem Inbox.delivered (h : c.Inbox got part) {delivered : StreamId → List UInt8}
    (hd : Delivery c got part delivered) (id : StreamId) : delivered id <+: dataOf id c.takenBytes := by
  have hdirect : c.direct part id <+: dataOf id part := by
    unfold direct
    split
    · rename_i frame hf
      obtain ⟨-, payload, hpart, hsound⟩ := h.reading frame hf
      split
      · rename_i hown
        have hle : frame.wireConsumed ≤ frame.length := by have := hsound.unfinished; omega
        rw [hpart, List.drop_left' (headerOf_length _ _ _), dataOf_header hsound.fits, if_pos hown]
        exact ((List.take_prefix_take_left hle).trans (List.prefix_append _ _))
      · exact List.nil_prefix
    · exact List.nil_prefix
  rw [h.taken, dataOf_flat id h.regular]
  have hall : delivered id <+: dataIn id got ++ c.direct part id := ⟨c.queued id, (hd id).symm⟩
  exact hall.trans ((List.prefix_append_right_inj _).mpr hdirect)

end Connection

/-- Two parts of equal length at the front of one another's bytes are the same part. -/
theorem initial_parts {α : Type} {x x' y y' : List α} (hl : x.length = x'.length)
    (h : x ++ y <+: x' ++ y') : x = x' ∧ y <+: y' := by
  obtain ⟨more, hmore⟩ := h
  rw [List.append_assoc] at hmore
  obtain ⟨hx, hy⟩ := List.append_inj hmore hl
  exact ⟨hx, more, hy⟩

theorem Frame.same_header {f g : Frame} (hf : f.Fits) (hg : g.Fits) (h : f.headerBytes = g.headerBytes) :
    f.kind = g.kind ∧ f.stream = g.stream ∧ f.payload.length = g.payload.length := by
  have hparse : f.header = g.header := by
    rw [← Header.parse_headerBytes, h, Header.parse_headerBytes]
  refine ⟨FrameKind.code_injective (congrArg Header.kind hparse), congrArg Header.stream hparse, ?_⟩
  rw [← hf.header_length, ← hg.header_length, hparse]

theorem flat_initial {got sent : List Frame} (hgot : ∀ f ∈ got, f.Fits) (hsent : ∀ f ∈ sent, f.Fits)
    (h : flat got <+: flat sent) : got <+: sent := by
  induction got generalizing sent with
  | nil => exact List.nil_prefix
  | cons f got ih =>
    cases sent with
    | nil =>
      have hlen := h.length_le
      simp [flat, muxHeaderBytes] at hlen
    | cons g sent =>
      simp only [flat, List.flatMap_cons, Frame.bytes, List.append_assoc] at h
      obtain ⟨hheader, h⟩ := initial_parts (by simp) h
      obtain ⟨hkind, hstream, hlen⟩ :=
        Frame.same_header (hgot f (by simp)) (hsent g (by simp)) hheader
      obtain ⟨hpayload, h⟩ := initial_parts hlen h
      have hfg : f = g := by
        cases f
        cases g
        simp_all
      rw [hfg]
      exact (List.prefix_cons_inj g).mpr
        (ih (fun x hx => hgot x (by simp [hx])) (fun x hx => hsent x (by simp [hx])) h)

theorem header_initial {got sent : List Frame} (hgot : ∀ f ∈ got, f.Fits) (hsent : ∀ f ∈ sent, f.Fits)
    {header : List UInt8} (h9 : header.length = muxHeaderBytes) (h : flat got ++ header <+: flat sent) :
    ∃ f ∈ sent, header = f.headerBytes := by
  obtain ⟨more, rfl⟩ := flat_initial hgot hsent ((List.prefix_append _ _).trans h)
  rw [flat, flat, List.flatMap_append] at h
  have h := (List.prefix_append_right_inj _).mp h
  cases more with
  | nil =>
    have hlen := h.length_le
    simp [h9, muxHeaderBytes] at hlen
  | cons f more =>
    rw [List.flatMap_cons, Frame.bytes, List.append_assoc, ← List.append_nil header] at h
    exact ⟨f, by simp, (initial_parts (by simp [h9]) h).1⟩

end Snolc.Mux
