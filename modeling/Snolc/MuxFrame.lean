import Snolc.ByteOrder

set_option autoImplicit false

namespace Snolc.MuxFrame
open ByteOrder

inductive FrameKind where
  | frameOpen
  | frameData
  | frameFin
  deriving DecidableEq, Repr

def FrameKind.code : FrameKind → UInt8
  | frameOpen => 1
  | frameData => 2
  | frameFin => 3

def FrameKind.ofCode (byte : UInt8) : Option FrameKind :=
  if byte = 1 then some frameOpen
  else if byte = 2 then some frameData
  else if byte = 3 then some frameFin
  else none

abbrev StreamId := UInt32

def muxHeaderBytes : ℕ := 9

structure Frame where
  kind : FrameKind
  stream : StreamId
  payload : List UInt8
  deriving DecidableEq, Repr

def Frame.control (kind : FrameKind) (stream : StreamId) : Frame := ⟨kind, stream, []⟩

def Frame.headerBytes (f : Frame) : List UInt8 :=
  f.kind.code :: (toBytes 4 f.stream.toNat ++ toBytes 4 f.payload.length)

def Frame.bytes (f : Frame) : List UInt8 := f.headerBytes ++ f.payload

structure Header where
  kind : UInt8
  stream : StreamId
  length : ℕ
  deriving DecidableEq, Repr

def Header.parse (bytes : List UInt8) : Header :=
  ⟨bytes.headD 0, UInt32.ofNat (ofBytes ((bytes.drop 1).take 4)), ofBytes ((bytes.drop 5).take 4)⟩

def Frame.header (f : Frame) : Header := ⟨f.kind.code, f.stream, f.payload.length % 2 ^ 32⟩

@[simp] theorem FrameKind.ofCode_code (k : FrameKind) : FrameKind.ofCode k.code = some k := by
  cases k <;> rfl

theorem FrameKind.code_injective {a b : FrameKind} (h : a.code = b.code) : a = b := by
  cases a <;> cases b <;> first | rfl | exact absurd h (by decide)

@[simp] theorem Frame.headerBytes_length (f : Frame) : f.headerBytes.length = muxHeaderBytes := by
  simp [headerBytes, muxHeaderBytes]

@[simp] theorem Frame.bytes_length (f : Frame) :
    f.bytes.length = muxHeaderBytes + f.payload.length := by
  simp [bytes]

theorem Frame.bytes_ne_nil (f : Frame) : f.bytes ≠ [] := by simp [bytes, headerBytes]

theorem Header.parse_headerBytes (f : Frame) : Header.parse f.headerBytes = f.header := by
  have hs : f.stream.toNat < 256 ^ 4 := f.stream.toNat_lt
  have h4 : (toBytes 4 f.stream.toNat).length = 4 := by simp
  have hstream : ((toBytes 4 f.stream.toNat ++ toBytes 4 f.payload.length).take 4) =
      toBytes 4 f.stream.toNat := List.take_left' h4
  have hlength : ((toBytes 4 f.stream.toNat ++ toBytes 4 f.payload.length).drop 4).take 4 =
      toBytes 4 f.payload.length := by
    rw [List.drop_left' h4, List.take_of_length_le (by simp)]
  simp only [Header.parse, Frame.header, Frame.headerBytes, List.headD_cons, List.drop_succ_cons,
    List.drop_zero]
  rw [hstream, hlength, ofBytes_toBytes_of_lt hs, ofBytes_toBytes]
  simp

def Frame.Fits (f : Frame) : Prop := f.payload.length < 2 ^ 32

theorem Frame.Fits.header_length {f : Frame} (h : f.Fits) : f.header.length = f.payload.length :=
  Nat.mod_eq_of_lt h

theorem Frame.control_fits (kind : FrameKind) (stream : StreamId) : (Frame.control kind stream).Fits := by
  simp [Frame.Fits, Frame.control]

/-- A frame as the connection builds them: control frames carry no payload. -/
structure Frame.Regular (f : Frame) : Prop where
  fits : f.Fits
  plain : f.kind ≠ .frameData → f.payload = []

theorem Frame.control_regular (kind : FrameKind) (stream : StreamId) :
    (Frame.control kind stream).Regular :=
  ⟨Frame.control_fits kind stream, fun _ => rfl⟩

theorem Frame.data_regular (stream : StreamId) {payload : List UInt8} (h : payload.length < 2 ^ 32) :
    (Frame.mk .frameData stream payload).Regular :=
  ⟨h, fun hk => absurd rfl hk⟩

theorem Frame.regular_snoc {sent : List Frame} {f : Frame} (h : ∀ g ∈ sent, g.Regular) (hf : f.Regular) :
    ∀ g ∈ sent ++ [f], g.Regular := by
  intro g hm
  rcases List.mem_append.mp hm with hm | hm
  · exact h g hm
  · rw [List.mem_singleton.mp hm]
    exact hf

/-- Cut a byte sequence into frames: every complete header, with as much of its
    payload as is there. -/
def cut : ℕ → List UInt8 → List (Header × List UInt8)
  | 0, _ => []
  | fuel + 1, bytes =>
    if bytes.length < muxHeaderBytes then []
    else
      let header := Header.parse (bytes.take muxHeaderBytes)
      let rest := bytes.drop muxHeaderBytes
      (header, rest.take header.length) :: cut fuel (rest.drop header.length)

def frames (bytes : List UInt8) : List (Header × List UInt8) := cut bytes.length bytes

def Frame.entry (f : Frame) : Header × List UInt8 := (f.header, f.payload)

theorem cut_congr (n : ℕ) {bytes : List UInt8} {a b : ℕ} (hn : bytes.length ≤ n)
    (ha : bytes.length ≤ a) (hb : bytes.length ≤ b) : cut a bytes = cut b bytes := by
  induction n generalizing bytes a b with
  | zero =>
    have hs : bytes.length < muxHeaderBytes := by simp only [muxHeaderBytes]; omega
    cases a <;> cases b <;> simp [cut, hs]
  | succ n ih =>
    by_cases hs : bytes.length < muxHeaderBytes
    · cases a <;> cases b <;> simp [cut, hs]
    · have h9 : muxHeaderBytes = 9 := rfl
      obtain ⟨a, rfl⟩ : ∃ a', a = a' + 1 := ⟨a - 1, by omega⟩
      obtain ⟨b, rfl⟩ : ∃ b', b = b' + 1 := ⟨b - 1, by omega⟩
      simp only [cut, if_neg hs]
      congr 1
      apply ih <;> simp only [List.length_drop] <;> omega

theorem cut_fuel {bytes : List UInt8} {fuel : ℕ} (h : bytes.length ≤ fuel) :
    cut fuel bytes = frames bytes :=
  cut_congr _ (Nat.le_refl _) h (Nat.le_refl _)

theorem frames_short {bytes : List UInt8} (h : bytes.length < muxHeaderBytes) : frames bytes = [] := by
  unfold frames
  cases hl : bytes.length with
  | zero => rfl
  | succ n => rw [cut, if_pos h]

theorem frames_long {bytes : List UInt8} (h : muxHeaderBytes ≤ bytes.length) :
    frames bytes =
      let header := Header.parse (bytes.take muxHeaderBytes)
      let rest := bytes.drop muxHeaderBytes
      (header, rest.take header.length) :: frames (rest.drop header.length) := by
  have h9 : muxHeaderBytes = 9 := rfl
  obtain ⟨n, hn⟩ : ∃ n, bytes.length = n + 1 := ⟨bytes.length - 1, by omega⟩
  rw [frames, hn, cut, if_neg (by omega)]
  dsimp only
  rw [cut_fuel (by simp only [List.length_drop]; omega)]

theorem frames_of_header (f : Frame) (rest : List UInt8) :
    frames (f.headerBytes ++ rest) =
      (f.header, rest.take f.header.length) :: frames (rest.drop f.header.length) := by
  rw [frames_long (by simp)]
  simp only [List.take_left' f.headerBytes_length, List.drop_left' f.headerBytes_length,
    Header.parse_headerBytes]

theorem frames_frame {f : Frame} (hf : f.Fits) (rest : List UInt8) :
    frames (f.bytes ++ rest) = f.entry :: frames rest := by
  rw [Frame.bytes, List.append_assoc, frames_of_header, hf.header_length, List.take_left,
    List.drop_left]
  rfl

/-- A frame of which `k` bytes are there shows once its header is complete. -/
theorem frames_cut_short {f : Frame} (hf : f.Fits) (k : ℕ) :
    frames (f.bytes.take k) =
      if k < muxHeaderBytes then [] else [(f.header, f.payload.take (k - muxHeaderBytes))] := by
  split
  · rename_i hk
    exact frames_short (by simp only [List.length_take, Frame.bytes_length]; omega)
  · rename_i hk
    have hsplit : f.bytes.take k = f.headerBytes ++ f.payload.take (k - muxHeaderBytes) := by
      rw [Frame.bytes, List.take_append, f.headerBytes_length,
        List.take_of_length_le (by rw [f.headerBytes_length]; omega)]
    have hshort : (f.payload.take (k - muxHeaderBytes)).length ≤ f.payload.length := by
      rw [List.length_take]; omega
    rw [hsplit, frames_of_header, hf.header_length, List.take_of_length_le hshort,
      List.drop_eq_nil_of_le hshort]
    rfl

theorem frames_append {fs : List Frame} (hfs : ∀ f ∈ fs, f.Fits) (rest : List UInt8) :
    frames (fs.flatMap Frame.bytes ++ rest) = fs.map Frame.entry ++ frames rest := by
  induction fs with
  | nil => rfl
  | cons f fs ih =>
    rw [List.flatMap_cons, List.append_assoc, frames_frame (hfs f (by simp)),
      ih (fun g hg => hfs g (by simp [hg]))]
    rfl

def headers (bytes : List UInt8) : List (UInt8 × StreamId) :=
  (frames bytes).map (fun entry => (entry.1.kind, entry.1.stream))

def dataOf (stream : StreamId) (bytes : List UInt8) : List UInt8 :=
  (frames bytes).flatMap (fun entry =>
    if entry.1.kind = FrameKind.frameData.code ∧ entry.1.stream = stream then entry.2 else [])

/-- The frames of a longer sequence: those of the shorter one, of which the last
    may have got more payload, and new ones. -/
inductive Extends : List (Header × List UInt8) → List (Header × List UInt8) → Prop where
  | nil (later : List (Header × List UInt8)) : Extends [] later
  | last (header : Header) {part payload : List UInt8} (later : List (Header × List UInt8))
      (h : part <+: payload) : Extends [(header, part)] ((header, payload) :: later)
  | cons (entry : Header × List UInt8) {early later : List (Header × List UInt8)}
      (h : Extends early later) : Extends (entry :: early) (entry :: later)

theorem frames_extends (bytes more : List UInt8) : Extends (frames bytes) (frames (bytes ++ more)) := by
  induction hn : bytes.length using Nat.strongRecOn generalizing bytes with
  | ind n ih =>
    by_cases hs : bytes.length < muxHeaderBytes
    · rw [frames_short hs]
      exact .nil _
    · have hlong : muxHeaderBytes ≤ bytes.length := Nat.le_of_not_lt hs
      have h9 : muxHeaderBytes = 9 := rfl
      rw [frames_long hlong, frames_long (by rw [List.length_append]; omega),
        List.take_append_of_le_length hlong, List.drop_append_of_le_length hlong]
      dsimp only
      generalize Header.parse (bytes.take muxHeaderBytes) = header
      have hrest : (bytes.drop muxHeaderBytes).length < n := by rw [List.length_drop]; omega
      generalize bytes.drop muxHeaderBytes = rest at hrest
      by_cases hfull : header.length ≤ rest.length
      · rw [List.take_append_of_le_length hfull, List.drop_append_of_le_length hfull]
        exact .cons _ (ih _ (by rw [List.length_drop]; omega) _ rfl)
      · rw [List.take_of_length_le (by omega), List.drop_eq_nil_of_le (by omega),
          frames_short (by simp [muxHeaderBytes])]
        refine .last _ _ ?_
        rw [List.take_append, List.take_of_length_le (by omega)]
        exact List.prefix_append _ _

theorem Extends.headers {early later : List (Header × List UInt8)} (h : Extends early later) :
    early.map (fun entry => (entry.1.kind, entry.1.stream)) <+:
      later.map (fun entry => (entry.1.kind, entry.1.stream)) := by
  induction h with
  | nil later => exact List.nil_prefix
  | last header later _ => exact List.prefix_append [_] _
  | cons entry _ ih => exact (List.prefix_cons_inj _).mpr ih

theorem headers_initial {bytes later : List UInt8} (h : bytes <+: later) : headers bytes <+: headers later := by
  obtain ⟨more, rfl⟩ := h
  exact (frames_extends bytes more).headers

theorem Extends.data {early later : List (Header × List UInt8)} (h : Extends early later) (stream : StreamId) :
    early.flatMap (fun entry =>
        if entry.1.kind = FrameKind.frameData.code ∧ entry.1.stream = stream then entry.2 else []) <+:
      later.flatMap (fun entry =>
        if entry.1.kind = FrameKind.frameData.code ∧ entry.1.stream = stream then entry.2 else []) := by
  induction h with
  | nil later => exact List.nil_prefix
  | last header later hp =>
    rw [List.flatMap_cons, List.flatMap_nil, List.flatMap_cons, List.append_nil]
    split
    · exact hp.trans (List.prefix_append _ _)
    · exact List.nil_prefix
  | cons entry _ ih =>
    rw [List.flatMap_cons, List.flatMap_cons]
    exact (List.prefix_append_right_inj _).mpr ih

/-- The data of a stream only grows when more bytes follow. -/
theorem dataOf_initial (stream : StreamId) {bytes later : List UInt8} (h : bytes <+: later) :
    dataOf stream bytes <+: dataOf stream later := by
  obtain ⟨more, rfl⟩ := h
  exact (frames_extends bytes more).data stream

end Snolc.MuxFrame
