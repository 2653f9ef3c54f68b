import Snolc.MuxLedger
import Snolc.MuxPendingRead

set_option autoImplicit false

namespace Snolc.Mux
open PollIo SlotTable MuxFrame

namespace Connection
variable {T : Type} [TracedIo T]

structure Inbox (c : Connection T) (got : List Frame) (part : List UInt8) : Prop where
  regular : ∀ f ∈ got, f.Regular
  taken : c.takenBytes = flat got ++ part
  header : c.readHeader.length = muxHeaderBytes
  idle : c.readFrame = none →
    c.readHeaderOffset < muxHeaderBytes ∧ part = c.readHeader.take c.readHeaderOffset
  reading : ∀ frame, c.readFrame = some frame → c.readHeaderOffset = 0 ∧
    ∃ payload, part = headerOf frame.kind frame.stream frame.length ++ payload ∧ frame.Sound payload
  placed : ∀ id state, c.stream id = some state → state.Placed
  chunks : ∀ id state, c.stream id = some state → ∀ chunk ∈ state.input,
    ∃ f ∈ got, f.kind = .frameData ∧ (chunk = [] ↔ f.payload = [])
  budget : c.receivedBytes = c.unread

def queued (c : Connection T) (id : StreamId) : List UInt8 := (c.stream id).elim [] StreamState.queued

def direct (c : Connection T) (part : List UInt8) (id : StreamId) : List UInt8 :=
  match c.readFrame with
  | some frame =>
    if frame.kind = .frameData ∧ frame.stream = id then (part.drop muxHeaderBytes).take frame.wireConsumed
    else []
  | none => []

omit [TracedIo T] in
theorem queued_of_incoming {c d : Connection T} {id : StreamId} (h : d.incoming id = c.incoming id) :
    d.queued id = c.queued id := by
  unfold incoming at h
  unfold queued
  cases hc : c.stream id <;> cases hd : d.stream id <;> rw [hc, hd] at h <;> simp_all [StreamState.queued]

/-- What an operation on the receiving half leads to when nothing is refused:
    `handed` went to a reader directly, `pushed` into the queues. -/
structure Took (c d : Connection T) (got : List Frame) (part : List UInt8) (got' : List Frame)
    (part' : List UInt8) (handed pushed : StreamId → List UInt8) : Prop where
  inbox : d.Inbox got' part'
  flow : ∀ id, dataIn id got' ++ d.direct part' id =
    dataIn id got ++ c.direct part id ++ handed id ++ pushed id
  queue : ∀ id, d.queued id = c.queued id ++ pushed id

def limitError : IoError := ⟨.invalidData, "mux receive limit exceeded"⟩

/-- How the receiving half turns bytes down: a header beyond the limits or not of
    a frame, or a frame whose stream exists already or is not known. -/
inductive Refused (d : Connection T) (got : List Frame) (e : IoError) : Prop where
  | limits (header : List UInt8) (h9 : header.length = muxHeaderBytes)
      (htaken : d.takenBytes = flat got ++ header) (he : e = limitError)
  | invalid (header : List UInt8) (h9 : header.length = muxHeaderBytes)
      (htaken : d.takenBytes = flat got ++ header)
      (hbad : ∀ kind, FrameKind.ofCode (Header.parse header).kind = some kind →
        kind ≠ .frameData ∧ (Header.parse header).length ≠ 0)
  | frame (f : Frame) (hf : f.Regular) (htaken : d.takenBytes = flat (got ++ [f]))
      (hbad : f.kind = .frameOpen ∧ (d.stream f.stream).isSome ∨
        f.kind ≠ .frameOpen ∧ d.stream f.stream = none)

variable {c : Connection T} {got : List Frame} {part : List UInt8}

theorem Inbox.same {d : Connection T} (h : c.Inbox got part) (hs : SameInbound c d) : d.Inbox got part := by
  have hstate {id : StreamId} {state : StreamState} (hd : d.stream id = some state) :
      ∃ state', c.stream id = some state' ∧ state'.input = state.input ∧ state'.offset = state.offset := by
    have hi := hs.incoming id
    unfold incoming at hi
    rw [hd] at hi
    cases hc : c.stream id with
    | none => simp [hc] at hi
    | some state' =>
      simp only [hc, Option.map_some, Option.some.injEq, Prod.mk.injEq] at hi
      exact ⟨state', rfl, hi.1.symm, hi.2.1.symm⟩
  refine ⟨h.regular, by rw [hs.taken]; exact h.taken, by rw [hs.header]; exact h.header, ?_, ?_, ?_, ?_, ?_⟩
  · rw [hs.frame, hs.headerOffset, hs.header]; exact h.idle
  · rw [hs.frame, hs.headerOffset]; exact h.reading
  · intro id state hd
    obtain ⟨state', hc, hi, ho⟩ := hstate hd
    have hp := h.placed id state' hc
    unfold StreamState.Placed at hp ⊢
    rw [← hi, ← ho]
    exact hp
  · intro id state hd
    obtain ⟨state', hc, hi, -⟩ := hstate hd
    rw [← hi]
    exact h.chunks id state' hc
  · rw [hs.buffered, hs.unread]; exact h.budget

theorem SameInbound.direct {c d : Connection T} (hs : SameInbound c d) (part : List UInt8) (id : StreamId) :
    d.direct part id = c.direct part id := by
  unfold Connection.direct
  rw [hs.frame]

theorem Took.refl (h : c.Inbox got part) :
    Took c c got part got part (fun _ => []) (fun _ => []) :=
  ⟨h, by simp, by simp⟩

theorem Took.after {c m d : Connection T} {got got' : List Frame} {part mid part' : List UInt8}
    {handed pushed : StreamId → List UInt8}
    (h : Took c m got part got mid (fun _ => []) (fun _ => []))
    (h' : Took m d got mid got' part' handed pushed) : Took c d got part got' part' handed pushed where
  inbox := h'.inbox
  flow id := by
    have hf := h.flow id
    rw [List.append_nil, List.append_nil] at hf
    rw [h'.flow, hf]
  queue id := by rw [h'.queue, h.queue, List.append_nil]

theorem Inbox.took_same {d : Connection T} (h : c.Inbox got part) (hs : SameInbound c d) :
    Took c d got part got part (fun _ => []) (fun _ => []) :=
  ⟨h.same hs, fun id => by rw [hs.direct]; simp, fun id => by rw [queued_of_incoming (hs.incoming id)]; simp⟩

theorem Inbox.header_part (h : c.Inbox got part)
    (hf : c.readFrame = none) {io io' : T} (hio : c.io = some io) {chunk : List UInt8}
    (hr : TracedIo.received io' = TracedIo.received io ++ chunk)
    (hlen : c.readHeaderOffset + chunk.length ≤ muxHeaderBytes) :
    (c.receiveHeader io' chunk).takenBytes = flat got ++ (part ++ chunk) ∧
      (c.receiveHeader io' chunk).readHeader.length = muxHeaderBytes ∧
      part ++ chunk = (c.receiveHeader io' chunk).readHeader.take (c.readHeaderOffset + chunk.length) := by
  obtain ⟨hlt, hpart⟩ := h.idle hf
  have hoff : c.readHeaderOffset ≤ c.readHeader.length := by rw [h.header]; omega
  refine ⟨?_, ?_, ?_⟩
  · have ht := h.taken
    simp only [takenBytes, hio, Option.elim_some] at ht
    simp only [takenBytes, receiveHeader, Option.elim_some]
    rw [hr, ht, List.append_assoc]
  · exact (PendingRead.overwrite_length (by rw [h.header]; exact hlen)).trans h.header
  · simp only [receiveHeader]
    rw [PendingRead.take_overwrite hoff, hpart]

theorem Inbox.header_short (h : c.Inbox got part)
    (hf : c.readFrame = none) {io io' : T} (hio : c.io = some io) {chunk : List UInt8}
    (hr : TracedIo.received io' = TracedIo.received io ++ chunk)
    (hlen : c.readHeaderOffset + chunk.length < muxHeaderBytes) (closed : Bool) :
    Took c { c.receiveHeader io' chunk with closed := closed } got part got (part ++ chunk)
      (fun _ => []) (fun _ => []) := by
  obtain ⟨ht, hl, hp⟩ := h.header_part hf hio hr (Nat.le_of_lt hlen)
  refine ⟨⟨h.regular, ht, hl, fun _ => ⟨hlen, hp⟩, fun frame hx => ?_, h.placed, h.chunks, h.budget⟩,
    fun id => ?_, fun id => ?_⟩
  · exact absurd (hf.symm.trans hx) (by simp)
  · simp [direct, receiveHeader, hf]
  · simp [queued, stream, receiveHeader]

/-- A complete header: accepted, or turned down. -/
theorem Inbox.header_full (h : c.Inbox got part)
    (hf : c.readFrame = none) {io io' : T} (hio : c.io = some io) {chunk : List UInt8}
    (hr : TracedIo.received io' = TracedIo.received io ++ chunk)
    (hlen : c.readHeaderOffset + chunk.length = muxHeaderBytes) :
    (∃ part', Took c (c.receiveHeader io' chunk).acceptHeader.2 got part got part'
      (fun _ => []) (fun _ => [])) ∨
    ∃ e, (c.receiveHeader io' chunk).acceptHeader.1 = .ready (.error e) ∧
      Refused (c.receiveHeader io' chunk).acceptHeader.2 got e := by
  obtain ⟨ht, hl, hp⟩ := h.header_part hf hio hr (Nat.le_of_eq hlen)
  rw [hlen, ← hl, List.take_length] at hp
  rw [hp] at ht
  unfold acceptHeader
  dsimp only
  split
  · exact .inr ⟨_, rfl, .limits _ hl ht rfl⟩
  · split
    · rename_i hk
      exact .inr ⟨_, rfl, .invalid _ hl ht fun kind hx => by rw [hk] at hx; cases hx⟩
    · rename_i kind hk
      split
      · rename_i hbad
        exact .inr ⟨_, rfl, .invalid _ hl ht fun kind' hx => by rw [hk] at hx; cases hx; exact hbad⟩
      · rename_i hplain
        refine .inl ⟨_, ⟨⟨h.regular, ht, hl, fun hx => by simp at hx, fun frame hx => ?_, h.placed,
          h.chunks, h.budget⟩, fun id => ?_, fun id => ?_⟩⟩
        · cases hx
          refine ⟨rfl, [], ?_, .fresh (parse_length_lt _) fun hd => ?_⟩
          · dsimp only
            rw [List.append_nil, headerOf_parse hl hk]
          · by_contra hne
            exact hplain ⟨hd, hne⟩
        · simp [direct, hf]
        · simp [queued, stream, receiveHeader]

theorem Inbox.prepare (h : c.Inbox got part) :
    (∃ part', Took c c.pollPrepareFrame.2 got part got part' (fun _ => []) (fun _ => [])) ∨
    ∃ e, c.pollPrepareFrame.1 = .ready (.error e) ∧ Refused c.pollPrepareFrame.2 got e := by
  unfold pollPrepareFrame
  split
  · exact .inl ⟨part, .refl h⟩
  · rename_i hf
    split
    · rename_i hio
      refine .inl ⟨part, ⟨⟨h.regular, h.taken, h.header, h.idle, h.reading, h.placed, h.chunks, h.budget⟩,
        fun id => ?_, fun id => ?_⟩⟩
      · simp [direct, hf]
      · simp [queued, stream]
    · rename_i io hio
      have hoff := (h.idle hf).1
      obtain ⟨hle, hr, -, hfull⟩ := fill_spec _ io (muxHeaderBytes - c.readHeaderOffset) (Nat.lt_succ_self _)
      dsimp only
      split <;> rename_i heq <;> rw [heq] at hle hr hfull <;> dsimp only at hle hr hfull
      · have hlen := hfull.mp rfl
        exact h.header_full hf hio hr (by omega)
      all_goals
        simp only [reduceCtorEq, false_iff] at hfull
        exact .inl ⟨_, h.header_short hf hio hr (by omega) _⟩

theorem Inbox.moved {chunk : List UInt8} (h : c.Inbox got part)
    {io io' : T} (hio : c.io = some io)
    (hr : TracedIo.received io' = TracedIo.received io ++ chunk) :
    TracedIo.received io' = flat got ++ (part ++ chunk) := by
  have ht := h.taken
  simp only [takenBytes, hio, Option.elim_some] at ht
  rw [hr, ht, List.append_assoc]

theorem Inbox.body_short (h : c.Inbox got part)
    {frame : PendingRead} (hf : c.readFrame = some frame) {io io' : T} (hio : c.io = some io)
    {chunk : List UInt8} (hr : TracedIo.received io' = TracedIo.received io ++ chunk)
    (hlen : chunk.length ≤ frame.prepare.bytes.length - frame.prepare.bufferOffset) :
    Took c { c with io := some io', readFrame := some (frame.prepare.receive chunk) } got part got
      (part ++ chunk) (fun _ => []) (fun _ => []) := by
  obtain ⟨hoff, payload, hpart, hsound⟩ := h.reading frame hf
  obtain ⟨hprep, hsize⟩ := hsound.prepare
  have hcap : frame.prepare.bufferOffset + chunk.length ≤ frame.prepare.bytes.length := by
    have := hprep.offset; omega
  have hrecv := hprep.receive (by simpa using hsize) hcap
  have hwc : frame.wireConsumed ≤ payload.length := by have := hsound.taken; omega
  refine ⟨⟨h.regular, h.moved hio hr, h.header, fun hx => by simp at hx, fun g hg => ?_, h.placed,
    h.chunks, h.budget⟩, fun id => ?_, fun id => ?_⟩
  · cases hg
    refine ⟨hoff, payload ++ chunk, ?_, hrecv⟩
    simp only [PendingRead.receive, PendingRead.prepare_kind, PendingRead.prepare_stream,
      PendingRead.prepare_length]
    rw [hpart, List.append_assoc]
  · simp only [direct, hf, PendingRead.receive, PendingRead.prepare_kind, PendingRead.prepare_stream,
      PendingRead.prepare_wireConsumed, List.append_nil]
    rw [hpart, List.append_assoc, List.drop_left' (headerOf_length _ _ _),
      List.drop_left' (headerOf_length _ _ _), List.take_append_of_le_length hwc]
  · simp [queued, stream]

theorem Inbox.body_full (h : c.Inbox got part)
    {frame : PendingRead} (hf : c.readFrame = some frame) {chunk : List UInt8}
    (hlen : chunk.length = frame.prepare.bytes.length - frame.prepare.bufferOffset) :
    ∃ payload, (⟨frame.kind, frame.stream, payload⟩ : Frame).Regular ∧
      part ++ chunk = (⟨frame.kind, frame.stream, payload⟩ : Frame).bytes ∧
      (frame.prepare.receive chunk).bytes = payload.drop frame.wireConsumed ∧
      ((frame.prepare.receive chunk).bytes = [] ↔ payload = []) ∧
      ∀ id, c.direct part id =
        if frame.kind = .frameData ∧ frame.stream = id then payload.take frame.wireConsumed else [] := by
  obtain ⟨hoff, payload, hpart, hsound⟩ := h.reading frame hf
  obtain ⟨hprep, hsize⟩ := hsound.prepare
  have hcap : frame.prepare.bufferOffset + chunk.length = frame.prepare.bytes.length := by
    have := hprep.offset; omega
  have hrecv := hprep.receive (by simpa using hsize) (Nat.le_of_eq hcap)
  have hwc : frame.wireConsumed ≤ payload.length := by have := hsound.taken; omega
  have htotal : (payload ++ chunk).length = frame.length := by
    have h1 := hrecv.taken
    have h2 := hsound.unfinished
    simp only [PendingRead.receive, PendingRead.prepare_wireConsumed] at h1
    omega
  have hbytes : (frame.prepare.receive chunk).bytes = (payload ++ chunk).drop frame.wireConsumed := by
    have hb := hrecv.buffered
    simp only [PendingRead.receive, PendingRead.prepare_wireConsumed] at hb ⊢
    rw [hb, hcap, ← PendingRead.overwrite_length (Nat.le_of_eq hcap), List.take_length]
  refine ⟨payload ++ chunk, ⟨?_, fun hk => ?_⟩, ?_, hbytes, ?_, fun id => ?_⟩
  · change (payload ++ chunk).length < 2 ^ 32
    rw [htotal]; exact hsound.fits
  · apply List.eq_nil_of_length_eq_zero
    exact htotal.trans (hsound.plain hk)
  · rw [hpart, List.append_assoc, ← htotal]
    rfl
  · rw [hbytes, List.drop_eq_nil_iff, ← List.length_eq_zero_iff]
    have := hsound.unfinished
    omega
  · simp only [direct, hf]
    rw [hpart, List.drop_left' (headerOf_length _ _ _), List.take_append_of_le_length hwc]

def buffered (f : Frame) (consumed : ℕ) (id : StreamId) : List UInt8 :=
  if f.kind = .frameData ∧ f.stream = id then f.payload.drop consumed else []

theorem Inbox.finished {c d : Connection T} {got : List Frame} {part chunk : List UInt8}
    (h : c.Inbox got part) {frame : PendingRead} (hf : c.readFrame = some frame) {f : Frame}
    (hreg : f.Regular) (hbytes : part ++ chunk = f.bytes)
    (hdirect : ∀ id, c.direct part id =
      if f.kind = .frameData ∧ f.stream = id then f.payload.take frame.wireConsumed else [])
    (htaken : d.takenBytes = flat got ++ (part ++ chunk)) (hheader : d.readHeader = c.readHeader)
    (hoffset : d.readHeaderOffset = c.readHeaderOffset) (hnone : d.readFrame = none)
    (hplaced : ∀ id state, d.stream id = some state → state.Placed)
    (hchunks : ∀ id state, d.stream id = some state → ∀ chunk ∈ state.input,
      (∃ old, c.stream id = some old ∧ chunk ∈ old.input) ∨
        f.kind = .frameData ∧ (chunk = [] ↔ f.payload = []))
    (hqueue : ∀ id, d.queued id = c.queued id ++ buffered f frame.wireConsumed id)
    (hbudget : d.receivedBytes = d.unread) :
    Took c d got part (got ++ [f]) [] (fun _ => []) (buffered f frame.wireConsumed) := by
  have hzero : d.readHeaderOffset = 0 := hoffset.trans (h.reading frame hf).1
  refine ⟨⟨Frame.regular_snoc h.regular hreg, ?_, by rw [hheader]; exact h.header,
    fun _ => ⟨by rw [hzero]; decide, by rw [hzero]; rfl⟩, fun g hg => ?_, hplaced,
    fun id state hs bytes hm => ?_, hbudget⟩, fun id => ?_, hqueue⟩
  · rw [htaken, hbytes, flat_snoc, List.append_nil]
  · rw [hnone] at hg
    cases hg
  · rcases hchunks id state hs bytes hm with ⟨old, ho, hm'⟩ | hnew
    · obtain ⟨g, hg, hx⟩ := h.chunks id old ho bytes hm'
      exact ⟨g, List.mem_append_left _ hg, hx⟩
    · exact ⟨f, by simp, hnew⟩
  · rw [dataIn_snoc, hdirect, buffered]
    simp only [direct, hnone, List.append_nil, List.append_assoc]
    split
    · rw [List.take_append_drop]
    · rfl

omit [TracedIo T] in
theorem queued_modifyStream (c : Connection T) (id other : StreamId) (f : StreamState → StreamState) :
    (c.modifyStream id f).queued other =
      if id = other then (c.stream other).elim [] (fun state => (f state).queued) else c.queued other := by
  unfold queued
  rw [stream_modifyStream]
  split
  · cases c.stream other <;> rfl
  · rfl

omit [TracedIo T] in
theorem unread_modifyStream {c : Connection T} {id : StreamId} {state : StreamState}
    (h : c.stream id = some state) (f : StreamState → StreamState) :
    (c.modifyStream id f).unread + state.queued.length = c.unread + (f state).queued.length :=
  total_update _ f h

theorem Inbox.finish_open {chunk : List UInt8} (h : c.Inbox got part) {frame : PendingRead}
    (hf : c.readFrame = some frame) {f : Frame} (hreg : f.Regular) (hbytes : part ++ chunk = f.bytes)
    (hk : f.kind = .frameOpen)
    (hdirect : ∀ id, c.direct part id =
      if f.kind = .frameData ∧ f.stream = id then f.payload.take frame.wireConsumed else [])
    {io' : T} (htaken : TracedIo.received io' = flat got ++ (part ++ chunk)) {m : Connection T}
    (hm : insertStream { c with io := some io', readFrame := none } f.stream = .ok m)
    (inbound : List StreamId) :
    Took c { m with inbound := inbound } got part (got ++ [f]) [] (fun _ => [])
      (buffered f frame.wireConsumed) := by
  have hstream (other : StreamId) : m.stream other = if f.stream = other then some {} else c.stream other := by
    rw [stream_insert hm]; rfl
  have hfresh : c.stream f.stream = none := by
    have := insert_fresh hm
    exact this
  have hunread : m.unread = c.unread := by
    unfold insertStream at hm
    split at hm
    · cases hm
    · cases hm
      exact total_put _ _ hfresh
  obtain ⟨hio, hrb, hrh, hro, hrf⟩ : m.io = some io' ∧ m.receivedBytes = c.receivedBytes ∧
      m.readHeader = c.readHeader ∧ m.readHeaderOffset = c.readHeaderOffset ∧ m.readFrame = none := by
    unfold insertStream at hm
    split at hm
    · cases hm
    · cases hm
      exact ⟨rfl, rfl, rfl, rfl, rfl⟩
  refine h.finished hf hreg hbytes hdirect ?_ hrh hro hrf (fun id state hs => ?_)
    (fun id state hs bytes hb => .inl ?_) (fun id => ?_) ((hrb.trans h.budget).trans hunread.symm)
  · simp only [takenBytes, hio, Option.elim_some]
    exact htaken
  · have hs := (hstream id).symm.trans hs
    split at hs
    · cases hs; exact .inl rfl
    · exact h.placed id state hs
  · have hs := (hstream id).symm.trans hs
    split at hs
    · cases hs; simp at hb
    · exact ⟨state, hs, hb⟩
  · have hnone : buffered f frame.wireConsumed id = [] := by simp [buffered, hk]
    have hs : stream { m with inbound := inbound } id = _ := hstream id
    rw [hnone, List.append_nil, queued, queued, hs]
    split
    · rename_i he
      subst he
      rw [hfresh]
      rfl
    · rfl

theorem Inbox.finish_known {chunk : List UInt8} (h : c.Inbox got part) {frame : PendingRead}
    (hf : c.readFrame = some frame) {f : Frame} (hreg : f.Regular) (hbytes : part ++ chunk = f.bytes)
    (hdirect : ∀ id, c.direct part id =
      if f.kind = .frameData ∧ f.stream = id then f.payload.take frame.wireConsumed else [])
    {io' : T} (htaken : TracedIo.received io' = flat got ++ (part ++ chunk)) {state : StreamState}
    (hs : c.stream f.stream = some state) (change : StreamState → StreamState)
    (hplaced : (change state).Placed)
    (hchunks : ∀ bytes ∈ (change state).input, bytes ∈ state.input ∨
      f.kind = .frameData ∧ (bytes = [] ↔ f.payload = []))
    (hqueue : (change state).queued = state.queued ++ buffered f frame.wireConsumed f.stream) :
    Took c ({ c with
        io := some io', readFrame := none
        receivedBytes := c.receivedBytes + (buffered f frame.wireConsumed f.stream).length }.modifyStream
          f.stream change) got part (got ++ [f]) [] (fun _ => []) (buffered f frame.wireConsumed) := by
  have hunread := unread_modifyStream hs change
  rw [hqueue, List.length_append] at hunread
  refine h.finished hf hreg hbytes hdirect htaken rfl rfl rfl (fun id state' hs' => ?_)
    (fun id state' hs' bytes hb => ?_) (fun id => ?_) ?_
  · have hs' := (stream_modifyStream c f.stream id change).symm.trans hs'
    split at hs'
    · rename_i he
      subst he
      rw [hs] at hs'
      cases hs'
      exact hplaced
    · exact h.placed id state' hs'
  · have hs' := (stream_modifyStream c f.stream id change).symm.trans hs'
    split at hs'
    · rename_i he
      subst he
      rw [hs] at hs'
      cases hs'
      exact (hchunks bytes hb).imp_left fun hx => ⟨state, hs, hx⟩
    · exact .inl ⟨state', hs', hb⟩
  · refine (queued_modifyStream c f.stream id change).trans ?_
    split
    · rename_i he
      subst he
      rw [hs, queued, hs]
      exact hqueue
    · rename_i he
      rw [buffered, if_neg (fun hx => he hx.2), List.append_nil]
  · have hu : c.receivedBytes + (buffered f frame.wireConsumed f.stream).length =
        (c.modifyStream f.stream change).unread := by
      rw [h.budget]; omega
    exact hu

theorem Inbox.finish (h : c.Inbox got part)
    {frame : PendingRead} (hf : c.readFrame = some frame) {io io' : T} (hio : c.io = some io)
    {chunk : List UInt8} (hr : TracedIo.received io' = TracedIo.received io ++ chunk)
    (hlen : chunk.length = frame.prepare.bytes.length - frame.prepare.bufferOffset) :
    (∀ d, finishFrame { c with io := some io', readFrame := none } (frame.prepare.receive chunk) = .ok d →
      ∃ got' pushed, Took c d got part got' [] (fun _ => []) pushed) ∧
    ∀ e, finishFrame { c with io := some io', readFrame := none } (frame.prepare.receive chunk) = .error e →
      Refused { c with io := some io', readFrame := none } got e := by
  obtain ⟨payload, hreg, hbytes, hrest, hempty, hdirect⟩ := h.body_full hf hlen
  have htaken := h.moved hio hr
  have hwhole : TracedIo.received io' = flat (got ++ [⟨frame.kind, frame.stream, payload⟩]) := by
    rw [htaken, hbytes, flat_snoc]
  have hkind : (frame.prepare.receive chunk).kind = frame.kind := by simp [PendingRead.receive]
  have hstream : (frame.prepare.receive chunk).stream = frame.stream := by simp [PendingRead.receive]
  unfold finishFrame
  rw [hkind, hstream]
  cases hk : frame.kind <;> rw [hk] at hreg hbytes hdirect hwhole <;> dsimp only
  case frameOpen =>
    split
    · rename_i m hm
      refine ⟨fun d hd => ?_, by simp⟩
      cases hd
      exact ⟨_, _, h.finish_open hf hreg hbytes rfl hdirect htaken hm _⟩
    · rename_i err hm
      refine ⟨by simp, fun e _ => .frame _ hreg hwhole (.inl ⟨rfl, ?_⟩)⟩
      unfold insertStream at hm
      split at hm
      · rename_i hs; exact hs
      · cases hm
  case frameData =>
    cases hs : c.stream frame.stream with
    | none =>
      have hs' : stream { c with io := some io', readFrame := none } frame.stream = none := hs
      simp only [hs', reduceCtorEq, false_implies, implies_true, Except.error.injEq, true_and]
      exact fun e _ => .frame _ hreg hwhole (.inr ⟨by simp, hs⟩)
    | some state =>
      have hs' : stream { c with io := some io', readFrame := none } frame.stream = some state := hs
      simp only [hs', Except.ok.injEq, reduceCtorEq, false_implies, implies_true, and_true]
      rintro d rfl
      have hpush : (frame.prepare.receive chunk).bytes =
          buffered ⟨.frameData, frame.stream, payload⟩ frame.wireConsumed frame.stream := by
        rw [hrest, buffered, if_pos ⟨rfl, rfl⟩]
      have hp := h.placed _ state hs
      have htook := h.finish_known hf hreg hbytes hdirect htaken hs
        (fun state => { state with input := state.input ++ [(frame.prepare.receive chunk).bytes] })
        (hp.push _) (fun bytes hb => (List.mem_append.mp hb).imp_right fun hx => ?_)
        (by rw [hp.queued_push, hpush])
      · rw [← hpush] at htook
        exact ⟨_, _, htook⟩
      · rw [List.mem_singleton.mp hx]
        exact ⟨rfl, hempty⟩
  case frameFin =>
    cases hs : c.stream frame.stream with
    | none =>
      have hs' : stream { c with io := some io', readFrame := none } frame.stream = none := hs
      simp only [hs', reduceCtorEq, false_implies, implies_true, Except.error.injEq, true_and]
      exact fun e _ => .frame _ hreg hwhole (.inr ⟨by simp, hs⟩)
    | some state =>
      have hs' : stream { c with io := some io', readFrame := none } frame.stream = some state := hs
      simp only [hs', Except.ok.injEq, reduceCtorEq, false_implies, implies_true, and_true]
      rintro d rfl
      have hpush : buffered ⟨.frameFin, frame.stream, payload⟩ frame.wireConsumed frame.stream = [] := by
        simp [buffered]
      have htook := h.finish_known hf hreg hbytes hdirect htaken hs
        (fun state => { state with eof := true }) (h.placed _ state hs) (fun bytes hb => .inl hb)
        (by rw [hpush, List.append_nil]; rfl)
      rw [hpush] at htook
      exact ⟨_, _, htook⟩

theorem Inbox.body (h : c.Inbox got part)
    {frame : PendingRead} (hf : c.readFrame = some frame) :
    (∃ got' part' pushed, Took c (c.pollFrameBody frame).2 got part got' part' (fun _ => []) pushed) ∨
    ∃ e, (c.pollFrameBody frame).1 = .ready (.error e) ∧ Refused (c.pollFrameBody frame).2 got e := by
  unfold pollFrameBody
  dsimp only
  split
  · rename_i hio
    obtain ⟨hoff, payload, hpart, hsound⟩ := h.reading frame hf
    refine .inl ⟨got, part, fun _ => [], ⟨h.regular, h.taken, h.header, fun hx => by simp at hx,
      fun g hg => ?_, h.placed, h.chunks, h.budget⟩, fun id => ?_, fun id => ?_⟩
    · cases hg
      exact ⟨hoff, payload, by simpa using hpart, hsound.prepare.1⟩
    · simp [direct, hf]
    · simp [queued, stream]
  · rename_i io hio
    obtain ⟨hle, hr, -, hfull⟩ := fill_spec _ io (frame.prepare.bytes.length - frame.prepare.bufferOffset)
      (Nat.lt_succ_self _)
    split <;> rename_i heq <;> rw [heq] at hle hr hfull <;> dsimp only at hle hr hfull
    · obtain ⟨hok, herr⟩ := h.finish hf hio hr (hfull.mp rfl)
      split
      · rename_i d hd
        obtain ⟨got', pushed, htook⟩ := hok d hd
        exact .inl ⟨got', [], pushed, htook⟩
      · rename_i e he
        exact .inr ⟨e, rfl, herr e he⟩
    all_goals exact .inl ⟨got, _, _, h.body_short hf hio hr hle⟩

end Connection
end Snolc.Mux
