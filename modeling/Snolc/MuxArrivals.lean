import Snolc.MuxRules
import Snolc.MuxSession
import Snolc.MuxWrites

set_option autoImplicit false

namespace Snolc.Mux
open PollIo SlotTable MuxFrame

namespace Connection
variable {T : Type}

def Tight (c : Connection T) : Prop :=
  c.streams.length = 0 ∨ ∃ id : StreamId, c.streams.length = id.toNat + 1 ∧ (c.stream id).isSome

/-- The peer announced exactly the streams `ids` between two states. -/
structure Arrived (c d : Connection T) (ids : List StreamId) : Prop where
  next : d.nextStream = c.nextStream
  inbound : d.inbound = c.inbound ++ ids
  nodup : ids.Nodup
  fresh : ∀ id ∈ ids, c.stream id = none
  occupied : ∀ id, (d.stream id).isSome ↔ (c.stream id).isSome ∨ id ∈ ids
  tight : c.Tight → d.Tight

def Arrivals (c d : Connection T) : Prop := ∃ ids, Arrived c d ids

theorem Arrived.trans {a b c : Connection T} {ids ids' : List StreamId} (h : Arrived a b ids)
    (h' : Arrived b c ids') : Arrived a c (ids ++ ids') where
  next := h'.next.trans h.next
  inbound := by rw [h'.inbound, h.inbound, List.append_assoc]
  nodup := by
    refine List.nodup_append.mpr ⟨h.nodup, h'.nodup, fun id hid id' hid' he => ?_⟩
    subst he
    have hs := (h.occupied id).mpr (.inr hid)
    simp [h'.fresh id hid'] at hs
  fresh id hid := by
    rcases List.mem_append.mp hid with hid | hid
    · exact h.fresh id hid
    · have hb := h'.fresh id hid
      by_contra hs
      have := (h.occupied id).mpr (.inl (Option.isSome_iff_ne_none.mpr hs))
      simp [hb] at this
  occupied id := by
    rw [h'.occupied, h.occupied, List.mem_append, or_assoc]
  tight ht := h'.tight (h.tight ht)

theorem Arrivals.trans {a b c : Connection T} (h : Arrivals a b) (h' : Arrivals b c) : Arrivals a c := by
  obtain ⟨ids, h⟩ := h
  obtain ⟨ids', h'⟩ := h'
  exact ⟨ids ++ ids', h.trans h'⟩

theorem Arrivals.of_slots {c d : Connection T} (hn : d.nextStream = c.nextStream)
    (hi : d.inbound = c.inbound) (hl : d.streams.length = c.streams.length)
    (hs : ∀ id, (d.stream id).isSome = (c.stream id).isSome) : Arrivals c d := by
  refine ⟨[], hn, by simp [hi], List.nodup_nil, by simp, fun id => by simp [hs], ?_⟩
  rintro (h | ⟨id, h, ho⟩)
  · exact .inl (by rw [hl, h])
  · exact .inr ⟨id, by rw [hl, h], by rw [hs]; exact ho⟩

theorem Arrivals.of_fields {c d : Connection T} (hn : d.nextStream = c.nextStream)
    (hi : d.inbound = c.inbound) (hs : d.streams = c.streams) : Arrivals c d :=
  .of_slots hn hi (by rw [hs]) (fun id => by simp [stream, hs])

theorem Arrivals.of_later {c m d : Connection T} (h : Arrivals m d) (hn : m.nextStream = c.nextStream)
    (hi : m.inbound = c.inbound) (hs : m.streams = c.streams) : Arrivals c d :=
  (Arrivals.of_fields hn hi hs).trans h

theorem Arrivals.refl (c : Connection T) : Arrivals c c := .of_fields rfl rfl rfl

theorem Arrivals.kept {c d : Connection T} (h : Arrivals c d) {id : StreamId}
    (hs : (c.stream id).isSome) : (d.stream id).isSome := by
  obtain ⟨ids, h⟩ := h
  exact (h.occupied id).mpr (.inl hs)

theorem modifyStream_arrivals (c : Connection T) (id : StreamId) (f : StreamState → StreamState) :
    Arrivals c (c.modifyStream id f) := by
  refine .of_slots rfl rfl (update_length _ _ _) (fun other => ?_)
  rw [stream_modifyStream]
  split <;> simp

theorem insertStream_fields {c d : Connection T} {id : StreamId} (h : c.insertStream id = .ok d) :
    d = { c with streams := put c.streams id.toNat {} } := by
  unfold insertStream at h
  split at h
  · cases h
  · cases h; rfl

theorem insertStream_tight {c d : Connection T} {id : StreamId} (h : c.insertStream id = .ok d)
    (ht : c.Tight) : d.Tight := by
  have hlen : d.streams.length = max c.streams.length (id.toNat + 1) := by
    rw [insertStream_fields h]
    exact put_length _ _ _
  have hs := stream_insert h
  by_cases hbig : c.streams.length ≤ id.toNat + 1
  · exact .inr ⟨id, by omega, by rw [hs, if_pos rfl]; rfl⟩
  · rcases ht with h0 | ⟨last, hl, ho⟩
    · omega
    · refine .inr ⟨last, by omega, ?_⟩
      rw [hs]
      split
      · rfl
      · exact ho

theorem finishFrame_arrivals {c d : Connection T} {frame : PendingRead}
    (h : c.finishFrame frame = .ok d) : Arrivals c d := by
  unfold finishFrame at h
  split at h
  · split at h
    · rename_i m hm
      cases h
      have hs := stream_insert hm
      have hfields := insertStream_fields hm
      refine ⟨[frame.stream], by rw [hfields], by rw [hfields], by simp,
        fun id hid => ?_, fun id => ?_, fun ht => ?_⟩
      · rw [List.mem_singleton.mp hid]
        exact insert_fresh hm
      · change (m.stream id).isSome ↔ _
        rw [hs, List.mem_singleton]
        by_cases he : frame.stream = id
        · simp [he]
        · simp [he, Ne.symm he]
      · exact insertStream_tight (d := m) hm ht
    · cases h
  · split at h
    · cases h
    · cases h
      exact (modifyStream_arrivals _ _ _).of_later rfl rfl rfl
  · split at h
    · cases h
    · cases h
      exact modifyStream_arrivals _ _ _

theorem acceptHeader_arrivals (c : Connection T) : Arrivals c c.acceptHeader.2 := by
  unfold acceptHeader
  dsimp only
  repeat' split
  all_goals exact .of_fields rfl rfl rfl

section Receiving
variable [AsyncIo T]

theorem pollPrepareFrame_arrivals (c : Connection T) : Arrivals c c.pollPrepareFrame.2 := by
  unfold pollPrepareFrame
  split
  · exact Arrivals.refl c
  · split
    · exact .of_fields rfl rfl rfl
    · dsimp only
      split
      · exact (acceptHeader_arrivals _).of_later rfl rfl rfl
      · exact .of_fields rfl rfl rfl
      · exact .of_fields rfl rfl rfl
      · exact .of_fields rfl rfl rfl

theorem pollFrameBody_arrivals (c : Connection T) (frame : PendingRead) :
    Arrivals c (c.pollFrameBody frame).2 := by
  unfold pollFrameBody
  dsimp only
  split
  · exact .of_fields rfl rfl rfl
  · split
    · split
      · rename_i hf
        exact (finishFrame_arrivals hf).of_later rfl rfl rfl
      · exact .of_fields rfl rfl rfl
    · exact .of_fields rfl rfl rfl
    · exact .of_fields rfl rfl rfl
    · exact .of_fields rfl rfl rfl

theorem readDirect_arrivals (c : Connection T) (frame : PendingRead) (room : ℕ) :
    Arrivals c (c.readDirect frame room).2 := by
  unfold readDirect
  split
  · exact Arrivals.refl c
  · split
    all_goals exact .of_fields rfl rfl rfl

theorem sending_arrivals (c : Connection T) : Sending (Arrivals c) :=
  .of_updates (fun _ _ _ _ h => h.trans (.of_fields rfl rfl rfl))
    (fun d id _ h => h.trans (modifyStream_arrivals d id _))

theorem reading_arrivals (c : Connection T) : Reading (Arrivals c) where
  write := (sending_arrivals c).driveWrite
  prepare d h := h.trans (pollPrepareFrame_arrivals d)
  body d frame h _ := h.trans (pollFrameBody_arrivals d frame)
  direct d frame room h _ _ := h.trans (readDirect_arrivals d frame room)
  advance d id _ h := h.trans (modifyStream_arrivals d id _)
  taken _ _ h := h.trans (.of_fields rfl rfl rfl)

theorem pollFlushWrite_arrivals (c : Connection T) : Arrivals c c.pollFlushWrite.2 :=
  (sending_arrivals c).flush c (.refl c)

theorem pollControl_arrivals (c : Connection T) (kind : FrameKind) (stream : StreamId) :
    Arrivals c (c.pollControl kind stream).2 := (sending_arrivals c).pollControl c (.refl c) kind stream

theorem pollData_arrivals (c : Connection T) (stream : StreamId) (input : List UInt8) :
    Arrivals c (c.pollData stream input).2 := (sending_arrivals c).pollData c (.refl c) stream input

theorem pollDrive_arrivals (c : Connection T) : Arrivals c c.pollDrive.2 :=
  (reading_arrivals c).pollDrive c (.refl c)

theorem pollRead_arrivals (c : Connection T) (id : StreamId) (room : ℕ) :
    Arrivals c (c.pollRead id room).2 := (reading_arrivals c).pollRead c (.refl c) id room

end Receiving

/-- A local stream takes the next id, which no stream had before; a refusal at
    most skips an id. -/
theorem queueStream_cases (c : Connection T) :
    (∃ e next, c.queueStream = (.error e, { c with nextStream := next })) ∨
    (∃ m, c.insertStream c.nextStream = .ok m ∧
      c.queueStream = (.ok { id := c.nextStream }, { m with nextStream := c.nextStream + 2 })) := by
  unfold queueStream
  dsimp only
  split
  · exact .inl ⟨_, c.nextStream, rfl⟩
  · unfold insertStream
    by_cases hs : (c.stream c.nextStream).isSome
    · have hs' : ({ c with nextStream := c.nextStream + 2 }.stream c.nextStream).isSome := hs
      rw [if_pos hs']
      exact .inl ⟨_, _, rfl⟩
    · have hs' : ¬ ({ c with nextStream := c.nextStream + 2 }.stream c.nextStream).isSome := hs
      rw [if_neg hs', if_neg hs]
      exact .inr ⟨_, rfl, rfl⟩

section Accepting
variable [AsyncIo T]

theorem pollAcceptStream_cases (c : Connection T) :
    (∃ id rest, c.inbound = id :: rest ∧
      c.pollAcceptStream = (.ready (.ok id), { c with inbound := rest })) ∨
    (c.inbound = [] ∧ c.pollAcceptStream.2 = c.pollDrive.2 ∧
      ∀ id, c.pollAcceptStream.1 ≠ .ready (.ok id)) := by
  unfold pollAcceptStream
  split
  · rename_i id rest hi
    exact .inl ⟨id, rest, hi, rfl⟩
  · rename_i hi
    refine .inr ⟨hi, ?_⟩
    split <;> rename_i heq <;> rw [heq]
    · exact ⟨rfl, by simp⟩
    · split
      · exact ⟨rfl, by simp⟩
      · exact ⟨rfl, by simp⟩

end Accepting
end Connection
end Snolc.Mux
