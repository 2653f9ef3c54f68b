import Snolc.ByteOrder
import Snolc.CheckedSlice

set_option autoImplicit false

namespace Snolc.Stack
open ByteOrder CheckedSlice

def ipv6HeaderBytes : ℕ := 40
def ipv6FragmentHeaderBytes : ℕ := 8
def maxIpv6PacketBytes : ℕ := ipv6HeaderBytes + 65535
def reassemblyBlockBytes : ℕ := 8
def reassemblyBlocks : ℕ := 65535 / reassemblyBlockBytes + 1

structure Ipv6FragmentKey where
  source : List UInt8
  destination : List UInt8
  identifier : ℕ
  deriving DecidableEq, Repr

structure Ipv6Fragment where
  key : Ipv6FragmentKey
  prefixLen : ℕ
  previousNextHeader : ℕ
  nextHeader : UInt8
  offset : ℕ
  more : Bool
  payload : List UInt8
  deriving DecidableEq, Repr

def ipVersion (packet : List UInt8) : Option ℕ := packet.head?.map fun byte => byte.toNat / 16

-- The fields of the fixed header and of the fragment header stand where RFC 8200
-- puts them; these are the accessors of smoltcp's wire types.
def payloadLength (packet : List UInt8) : ℕ := ofBytes ((packet.drop 4).take 2)
def srcAddr (packet : List UInt8) : List UInt8 := (packet.drop 8).take 16
def dstAddr (packet : List UInt8) : List UInt8 := (packet.drop 24).take 16

/-- `Ipv6Packet::new_checked` accepts a packet that holds its header and payload. -/
def ipv6Checked (packet : List UInt8) : Bool :=
  decide (ipv6HeaderBytes ≤ packet.length) &&
    decide (ipv6HeaderBytes + payloadLength packet ≤ packet.length)

def fragOffset (header : List UInt8) : ℕ := ofBytes (header.take 2) / 8
def moreFrags (header : List UInt8) : Bool := decide (ofBytes (header.take 2) % 2 = 1)
def ident (header : List UInt8) : ℕ := ofBytes ((header.drop 2).take 4)

def extensionLength (nextHeader : UInt8) : Option (ℕ × ℕ) :=
  if nextHeader = 0 ∨ nextHeader = 43 ∨ nextHeader = 60 then some (1, 8)
  else if nextHeader = 51 then some (2, 4)
  else none

def readFragmentHeader (ipv6 packet : List UInt8) (previousNextHeader offset : ℕ) :
    Option (Except Unit (Option Ipv6Fragment)) :=
  match checkedAdd offset ipv6FragmentHeaderBytes with
  | none => some (.error ())
  | some stop =>
    match slice packet offset stop with
    | none => some (.error ())
    | some bytes => do
      let reserved ← bytes[1]?
      let high ← bytes[2]?
      let low ← bytes[3]?
      if reserved ≠ 0 ∨ ofBytes [high, low] &&& 0x0006 ≠ 0 then
        return .error ()
      let header ← slice bytes 2 bytes.length
      if header.length < 6 then
        return .error ()
      let nextHeader ← bytes[0]?
      let payload ← slice packet stop packet.length
      return .ok (some {
        key := ⟨srcAddr ipv6, dstAddr ipv6, ident header⟩
        prefixLen := offset
        previousNextHeader := previousNextHeader
        nextHeader := nextHeader
        offset := fragOffset header * reassemblyBlockBytes
        more := moreFrags header
        payload := payload })

/-- The loop of `ipv6_fragment`; every turn moves `offset` on by eight or more, so
the packet's length is fuel enough. -/
def walkHeaders (ipv6 packet : List UInt8) :
    ℕ → UInt8 → ℕ → ℕ → Option (Except Unit (Option Ipv6Fragment))
  | 0, _, _, _ => none
  | fuel + 1, nextHeader, previousNextHeader, offset =>
    if nextHeader = 44 then readFragmentHeader ipv6 packet previousNextHeader offset
    else
      match extensionLength nextHeader with
      | none => some (.ok none)
      | some (bias, scale) =>
        match slice packet offset (offset + 2) with
        | none => some (.error ())
        | some header => do
          let next ← header[0]?
          let size ← header[1]?
          match checkedMul (size.toNat + bias) scale with
          | none => return .error ()
          | some length =>
            match checkedAdd offset length with
            | none => return .error ()
            | some stop =>
              if packet.length < stop then return .error ()
              else walkHeaders ipv6 packet fuel next offset stop

def ipv6Fragment (packet : List UInt8) : Option (Except Unit (Option Ipv6Fragment)) :=
  if ipVersion packet ≠ some 6 then some (.ok none)
  else if ipv6Checked packet = false then some (.error ())
  else
    match checkedAdd ipv6HeaderBytes (payloadLength packet) with
    | none => some (.error ())
    | some packetLen => do
      let bytes ← slice packet 0 packetLen
      let nextHeader ← bytes[6]?
      walkHeaders packet bytes bytes.length nextHeader 6 ipv6HeaderBytes

structure Ipv6Fragment.Located (f : Ipv6Fragment) (packet : List UInt8) : Prop where
  header_le : ipv6HeaderBytes ≤ f.prefixLen
  prefix_le : f.prefixLen + ipv6FragmentHeaderBytes + f.payload.length ≤ packet.length
  packet_le : f.prefixLen + ipv6FragmentHeaderBytes + f.payload.length ≤ maxIpv6PacketBytes
  le_previous : 6 ≤ f.previousNextHeader
  previous_lt : f.previousNextHeader < f.prefixLen
  offset_aligned : f.offset % reassemblyBlockBytes = 0
  offset_lt : f.offset < 65536

def Sane (packet : List UInt8) (result : Option (Except Unit (Option Ipv6Fragment))) : Prop :=
  ∃ out, result = some out ∧ ∀ f, out = .ok (some f) → f.Located packet

theorem sane_error (packet : List UInt8) : Sane packet (some (.error ())) :=
  ⟨_, rfl, fun _ h => nomatch h⟩

theorem sane_none (packet : List UInt8) : Sane packet (some (.ok none)) :=
  ⟨_, rfl, fun _ h => by cases h⟩

theorem fragOffset_lt (header : List UInt8) : fragOffset header < 8192 := by
  have hlt := ofBytes_lt (header.take 2)
  have hlen : (header.take 2).length ≤ 2 := List.length_take_le 2 header
  have hpow : 256 ^ (header.take 2).length ≤ 256 ^ 2 := Nat.pow_le_pow_right (by omega) hlen
  rw [fragOffset]
  omega

theorem readFragmentHeader_sane (ipv6 packet : List UInt8) {previous offset : ℕ}
    (hsix : 6 ≤ previous) (hprev : previous < offset) (hoff : ipv6HeaderBytes ≤ offset)
    (hmax : packet.length ≤ maxIpv6PacketBytes) :
    Sane packet (readFragmentHeader ipv6 packet previous offset) := by
  unfold readFragmentHeader
  split
  · exact sane_error packet
  next stop hstop =>
  split
  · exact sane_error packet
  next bytes hbytes =>
  have hs : stop = offset + 8 := checkedAdd_eq_some hstop
  obtain ⟨-, hle, -, hcount⟩ := slice_eq_some hbytes
  have hlen : bytes.length = 8 := by omega
  match bytes, hlen with
  | [b0, b1, b2, b3, b4, b5, b6, b7], _ =>
    by_cases hres : b1 ≠ 0 ∨ ofBytes [b2, b3] &&& 0x0006 ≠ 0
    · refine ⟨.error (), ?_, fun _ h => nomatch h⟩
      simp [hres]
    · refine ⟨_, by simp [hres, slice, hle]; rfl, fun f hf => ?_⟩
      cases hf
      have hfo := fragOffset_lt [b2, b3, b4, b5, b6, b7]
      refine ⟨hoff, ?_, ?_, hsix, hprev, by simp [reassemblyBlockBytes], ?_⟩
      · simp [ipv6FragmentHeaderBytes]
        omega
      · simp [ipv6FragmentHeaderBytes]
        omega
      · simp only [reassemblyBlockBytes]
        omega

theorem walkHeaders_sane (ipv6 packet : List UInt8) (hmax : packet.length ≤ maxIpv6PacketBytes) :
    ∀ (fuel : ℕ) (nextHeader : UInt8) (previous offset : ℕ), 6 ≤ previous → previous < offset →
      ipv6HeaderBytes ≤ offset → offset ≤ packet.length → packet.length + 1 ≤ fuel + offset →
      Sane packet (walkHeaders ipv6 packet fuel nextHeader previous offset) := by
  intro fuel
  induction fuel with
  | zero =>
    intro nextHeader previous offset hsix hprev hoff hle hfuel
    omega
  | succ fuel ih =>
    intro nextHeader previous offset hsix hprev hoff hle hfuel
    unfold walkHeaders
    split
    · exact readFragmentHeader_sane ipv6 packet hsix hprev hoff hmax
    split
    · exact sane_none packet
    next bias scale hlength =>
    have hscale : 8 ≤ bias * scale ∧ bias ≤ 2 ∧ scale ≤ 8 := by
      unfold extensionLength at hlength
      split at hlength
      · cases hlength
        omega
      · split at hlength
        · cases hlength
          omega
        · cases hlength
    split
    · exact sane_error packet
    next header hheader =>
    obtain ⟨-, -, -, hcount⟩ := slice_eq_some hheader
    have hlen : header.length = 2 := by omega
    match header, hlen with
    | [next, size], _ =>
      have hsize := size.toNat_lt
      have hbound : (size.toNat + bias) * scale ≤ wordMax := by
        have h := Nat.mul_le_mul (show size.toNat + bias ≤ 258 by omega) hscale.2.2
        exact Nat.le_trans h (by decide)
      have hgrow : 8 ≤ (size.toNat + bias) * scale := by
        have := Nat.mul_le_mul_right scale (Nat.le_add_left bias size.toNat)
        omega
      have hsum : offset + (size.toNat + bias) * scale ≤ wordMax := by
        have h := Nat.mul_le_mul (show size.toNat + bias ≤ 258 by omega) hscale.2.2
        have hw : 65575 + 258 * 8 ≤ wordMax := by decide
        have hm : maxIpv6PacketBytes = 65575 := rfl
        omega
      simp only [List.getElem?_cons_zero, List.getElem?_cons_succ, Option.bind_eq_bind,
        Option.bind_some, checkedMul_of_le hbound, checkedAdd_of_le hsum]
      split
      · exact sane_error packet
      · exact ih next offset _ (by have : ipv6HeaderBytes = 40 := rfl; omega) (by omega) (by omega) (by omega)
          (by omega)

/-- The header walk never aborts, and a fragment it reports lies inside the packet. -/
theorem ipv6Fragment_sane (packet : List UInt8) : Sane packet (ipv6Fragment packet) := by
  unfold ipv6Fragment
  split
  · exact sane_none packet
  split
  · exact sane_error packet
  next hchecked =>
  have hpay : payloadLength packet < 65536 := by
    have hlt := ofBytes_lt ((packet.drop 4).take 2)
    have hlen : ((packet.drop 4).take 2).length ≤ 2 := List.length_take_le 2 _
    have hpow := Nat.pow_le_pow_right (n := 256) (by omega) hlen
    exact Nat.lt_of_lt_of_le hlt hpow
  have hsum : ipv6HeaderBytes + payloadLength packet ≤ wordMax := by
    have hw : 40 + 65536 ≤ wordMax := by decide
    have hh : ipv6HeaderBytes = 40 := rfl
    omega
  rw [checkedAdd_of_le hsum]
  obtain ⟨-, hok⟩ : ipv6HeaderBytes ≤ packet.length ∧
      ipv6HeaderBytes + payloadLength packet ≤ packet.length := by
    simpa [ipv6Checked] using hchecked
  have hlen : (packet.take (ipv6HeaderBytes + payloadLength packet)).length =
      ipv6HeaderBytes + payloadLength packet := List.length_take_of_le hok
  have hsix : 6 < (packet.take (ipv6HeaderBytes + payloadLength packet)).length := by
    rw [hlen, ipv6HeaderBytes]
    omega
  simp only [slice_start hok, Option.bind_eq_bind, Option.bind_some,
    List.getElem?_eq_getElem hsix]
  have hmax : (packet.take (ipv6HeaderBytes + payloadLength packet)).length ≤
      maxIpv6PacketBytes := by
    have hm : maxIpv6PacketBytes = ipv6HeaderBytes + 65535 := rfl
    omega
  obtain ⟨out, hout, hloc⟩ := walkHeaders_sane packet
    (packet.take (ipv6HeaderBytes + payloadLength packet)) hmax
    (packet.take (ipv6HeaderBytes + payloadLength packet)).length
    ((packet.take (ipv6HeaderBytes + payloadLength packet))[6]) 6 ipv6HeaderBytes
    (Nat.le_refl _) (by decide) (Nat.le_refl _) (by omega) (by have : ipv6HeaderBytes = 40 := rfl; omega)
  refine ⟨out, hout, fun f hf => ?_⟩
  have hl := hloc f hf
  exact { hl with prefix_le := by have := hl.prefix_le; omega }

end Snolc.Stack
