import Snolc.MuxOutbox

set_option autoImplicit false

namespace Snolc.Mux
open PollIo SlotTable MuxFrame ByteOrder

def headerOf (kind : FrameKind) (stream : StreamId) (length : ℕ) : List UInt8 :=
  kind.code :: (toBytes 4 stream.toNat ++ toBytes 4 length)

@[simp] theorem headerOf_length (kind : FrameKind) (stream : StreamId) (length : ℕ) :
    (headerOf kind stream length).length = muxHeaderBytes := by
  simp [headerOf, muxHeaderBytes]

theorem FrameKind.code_ofCode {byte : UInt8} {kind : FrameKind} (h : FrameKind.ofCode byte = some kind) :
    kind.code = byte := by
  unfold FrameKind.ofCode at h
  split at h
  · cases h; simp [FrameKind.code, *]
  · split at h
    · cases h; simp [FrameKind.code, *]
    · split at h
      · cases h; simp [FrameKind.code, *]
      · cases h

theorem parse_length_lt (bytes : List UInt8) : (Header.parse bytes).length < 2 ^ 32 := by
  have hlen : ((bytes.drop 5).take 4).length ≤ 4 := List.length_take_le _ _
  have hlt := ofBytes_lt ((bytes.drop 5).take 4)
  calc (Header.parse bytes).length < 256 ^ ((bytes.drop 5).take 4).length := hlt
    _ ≤ 256 ^ 4 := Nat.pow_le_pow_right (by decide) hlen
    _ = 2 ^ 32 := by decide

theorem headerOf_parse {bytes : List UInt8} (h9 : bytes.length = muxHeaderBytes) {kind : FrameKind}
    (hk : FrameKind.ofCode (Header.parse bytes).kind = some kind) :
    headerOf kind (Header.parse bytes).stream (Header.parse bytes).length = bytes := by
  obtain ⟨first, rest, rfl⟩ : ∃ first rest, bytes = first :: rest := by
    cases bytes with
    | nil => simp [muxHeaderBytes] at h9
    | cons first rest => exact ⟨first, rest, rfl⟩
  have h8 : rest.length = 8 := by simpa [muxHeaderBytes] using h9
  have hfirst : (rest.take 4).length = 4 := by rw [List.length_take]; omega
  have hlast : ((rest.drop 4).take 4).length = 4 := by rw [List.length_take, List.length_drop]; omega
  have hstream : (UInt32.ofNat (ofBytes (rest.take 4))).toNat = ofBytes (rest.take 4) := by
    have hlt := ofBytes_lt (rest.take 4)
    rw [hfirst] at hlt
    rw [UInt32.toNat_ofNat']
    exact Nat.mod_eq_of_lt hlt
  have hs := toBytes_ofBytes (rest.take 4)
  have hl := toBytes_ofBytes ((rest.drop 4).take 4)
  rw [hfirst] at hs
  rw [hlast] at hl
  have hcode := FrameKind.code_ofCode hk
  simp only [headerOf, Header.parse, List.headD_cons, List.drop_succ_cons, List.drop_zero] at hcode ⊢
  have hrest : (rest.drop 4).take 4 = rest.drop 4 :=
    List.take_of_length_le (by rw [List.length_drop]; omega)
  rw [hcode, hstream, hs, hl, hrest, List.take_append_drop]

theorem headerOf_payload (f : Frame) : headerOf f.kind f.stream f.payload.length = f.headerBytes := rfl

namespace PendingRead

/-- `payload` is what was taken of the frame's payload, the last part of it into the buffer. -/
structure Sound (frame : PendingRead) (payload : List UInt8) : Prop where
  fits : frame.length < 2 ^ 32
  plain : frame.kind ≠ .frameData → frame.length = 0
  unfinished : frame.wireConsumed = 0 ∨ frame.wireConsumed < frame.length
  buffer : frame.bytes = [] ∨ frame.bytes.length = frame.length - frame.wireConsumed
  offset : frame.bufferOffset ≤ frame.bytes.length
  taken : payload.length = frame.wireConsumed + frame.bufferOffset
  buffered : payload.drop frame.wireConsumed = frame.bytes.take frame.bufferOffset

theorem Sound.fresh {kind : FrameKind} {stream : StreamId} {length : ℕ} (hl : length < 2 ^ 32)
    (hp : kind ≠ .frameData → length = 0) : Sound ⟨kind, stream, length, [], 0, 0⟩ [] :=
  ⟨hl, hp, .inl rfl, .inl rfl, Nat.le_refl _, rfl, rfl⟩

theorem resize_nil (n : ℕ) : resize [] n = List.replicate n 0 := by simp [resize]

theorem Sound.prepare {frame : PendingRead} {payload : List UInt8} (h : frame.Sound payload) :
    frame.prepare.Sound payload ∧
      frame.prepare.bytes.length = frame.length - frame.wireConsumed := by
  unfold PendingRead.prepare
  dsimp only
  split
  · rename_i hsize
    have hnil : frame.bytes = [] := h.buffer.resolve_right hsize.2
    have hzero : frame.bufferOffset = 0 := by
      have := h.offset
      rw [hnil] at this
      simpa using this
    have hempty : payload.drop frame.wireConsumed = [] := by rw [h.buffered, hzero]; rfl
    rw [hnil, resize_nil]
    refine ⟨⟨h.fits, h.plain, h.unfinished, .inr (by simp), ?_, h.taken, ?_⟩, by simp⟩
    · rw [hzero]; exact Nat.zero_le _
    · rw [hempty, hzero]; rfl
  · rename_i hsize
    refine ⟨h, ?_⟩
    rcases h.buffer with hnil | hlen
    · by_cases hd : frame.kind = .frameData
      · by_contra hne
        exact hsize ⟨hd, hne⟩
      · have := h.plain hd
        rw [hnil, this]
        simp
    · exact hlen

@[simp] theorem prepare_kind (frame : PendingRead) : frame.prepare.kind = frame.kind := by
  unfold prepare; dsimp only; split <;> rfl

@[simp] theorem prepare_stream (frame : PendingRead) : frame.prepare.stream = frame.stream := by
  unfold prepare; dsimp only; split <;> rfl

@[simp] theorem prepare_length (frame : PendingRead) : frame.prepare.length = frame.length := by
  unfold prepare; dsimp only; split <;> rfl

@[simp] theorem prepare_wireConsumed (frame : PendingRead) :
    frame.prepare.wireConsumed = frame.wireConsumed := by
  unfold prepare; dsimp only; split <;> rfl

theorem overwrite_length {buffer chunk : List UInt8} {offset : ℕ}
    (h : offset + chunk.length ≤ buffer.length) : (overwrite buffer offset chunk).length = buffer.length := by
  simp only [overwrite, List.length_append, List.length_take, List.length_drop]
  omega

theorem take_overwrite {buffer chunk : List UInt8} {offset : ℕ} (h : offset ≤ buffer.length) :
    (overwrite buffer offset chunk).take (offset + chunk.length) = buffer.take offset ++ chunk := by
  rw [overwrite]
  apply List.take_left'
  rw [List.length_append, List.length_take, Nat.min_eq_left h]

theorem Sound.receive {frame : PendingRead} {payload chunk : List UInt8} (h : frame.Sound payload)
    (hsize : frame.bytes.length = frame.length - frame.wireConsumed)
    (hc : frame.bufferOffset + chunk.length ≤ frame.bytes.length) :
    (frame.receive chunk).Sound (payload ++ chunk) := by
  have hlen : (overwrite frame.bytes frame.bufferOffset chunk).length = frame.bytes.length :=
    overwrite_length hc
  refine ⟨h.fits, h.plain, h.unfinished, .inr (hlen.trans hsize), ?_, ?_, ?_⟩
  · change frame.bufferOffset + chunk.length ≤ (overwrite frame.bytes frame.bufferOffset chunk).length
    omega
  · have := h.taken
    simp only [PendingRead.receive, List.length_append]
    omega
  · have hw : frame.wireConsumed ≤ payload.length := by have := h.taken; omega
    simp only [PendingRead.receive]
    rw [take_overwrite h.offset, List.drop_append_of_le_length hw, h.buffered]

theorem Sound.direct {frame : PendingRead} {payload bytes : List UInt8} (h : frame.Sound payload)
    (hb : frame.bytes = []) (hc : frame.wireConsumed + bytes.length < frame.length) :
    Sound { frame with wireConsumed := frame.wireConsumed + bytes.length } (payload ++ bytes) := by
  have hzero : frame.bufferOffset = 0 := by
    have := h.offset
    rw [hb] at this
    simpa using this
  have ht := h.taken
  refine ⟨h.fits, h.plain, .inr hc, .inl hb, h.offset, ?_, ?_⟩
  · simp only [List.length_append]; omega
  · simp only [hzero, List.take_zero]
    apply List.drop_eq_nil_of_le
    rw [List.length_append]; omega

end PendingRead

namespace StreamState

def Placed (state : StreamState) : Prop :=
  state.offset = 0 ∨ ∃ front rest, state.input = front :: rest ∧ state.offset < front.length

theorem Placed.push {state : StreamState} (h : state.Placed) (bytes : List UInt8) :
    ({ state with input := state.input ++ [bytes] } : StreamState).Placed := by
  rcases h with h | ⟨front, rest, hi, hlt⟩
  · exact .inl h
  · exact .inr ⟨front, rest ++ [bytes], by simp [hi], hlt⟩

theorem Placed.queued_push {state : StreamState} (h : state.Placed) (bytes : List UInt8) :
    ({ state with input := state.input ++ [bytes] } : StreamState).queued = state.queued ++ bytes := by
  have hle : state.offset ≤ state.input.flatten.length := by
    rcases h with h | ⟨front, rest, hi, hlt⟩
    · omega
    · rw [hi, List.flatten_cons, List.length_append]; omega
  simp only [queued, List.flatten_append, List.flatten_singleton]
  rw [List.drop_append_of_le_length hle]

theorem Placed.advance {state : StreamState} (h : state.Placed) {front : List UInt8}
    {rest : List (List UInt8)} (hi : state.input = front :: rest) {count : ℕ}
    (hc : count ≤ front.length - state.offset) : (state.advance count).Placed := by
  have hle : state.offset ≤ front.length := by
    rcases h with h | ⟨front', rest', hi', hlt⟩
    · omega
    · rw [hi] at hi'; cases hi'; omega
  unfold StreamState.advance
  rw [hi]
  dsimp only
  split
  · exact .inl rfl
  · exact .inr ⟨front, rest, rfl, by dsimp only; omega⟩

theorem advance_input (state : StreamState) (count : ℕ) : (state.advance count).input ⊆ state.input := by
  unfold StreamState.advance
  split
  · exact List.Subset.refl _
  · rename_i hi
    split
    · rw [hi]; exact List.subset_cons_self _ _
    · exact List.Subset.refl _

/-- Reading from the first chunk takes the front of what is queued. -/
theorem Placed.queued_advance {state : StreamState} (h : state.Placed) {front : List UInt8}
    {rest : List (List UInt8)} (hi : state.input = front :: rest) {count : ℕ}
    (hc : count ≤ front.length - state.offset) :
    state.queued = (front.drop state.offset).take count ++ (state.advance count).queued := by
  have hle : state.offset ≤ front.length := by
    rcases h with h | ⟨front', rest', hi', hlt⟩
    · omega
    · rw [hi] at hi'; cases hi'; omega
  have hsplit : front.drop state.offset =
      (front.drop state.offset).take count ++ front.drop (state.offset + count) := by
    rw [← List.drop_drop, List.take_append_drop]
  have hq : state.queued = front.drop state.offset ++ rest.flatten := by
    rw [queued, hi, List.flatten_cons, List.drop_append_of_le_length hle]
  have hadv : (state.advance count).queued = front.drop (state.offset + count) ++ rest.flatten := by
    unfold StreamState.advance
    rw [hi]
    dsimp only
    split
    · rename_i he
      rw [List.drop_eq_nil_of_le (Nat.le_of_eq he.symm)]
      rfl
    · simp only [queued]
      rw [List.flatten_cons, List.drop_append_of_le_length (by omega)]
  rw [hq, hadv, ← List.append_assoc, ← hsplit]

end StreamState

end Snolc.Mux
