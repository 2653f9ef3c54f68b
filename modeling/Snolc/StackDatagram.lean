import Snolc.ReassemblyPool

set_option autoImplicit false

namespace Snolc.Stack
open ByteOrder CheckedSlice

/-- A header the walk passes over, with as many bytes as its length field says. -/
structure ExtensionHeader where
  kind : UInt8
  size : UInt8
  body : List UInt8
  fits : (extensionLength kind).map (fun unit => (size.toNat + unit.1) * unit.2) =
    some (body.length + 2)

def chainStart : List ExtensionHeader → UInt8 → UInt8
  | [], last => last
  | h :: _, _ => h.kind

def chainBytes : List ExtensionHeader → UInt8 → List UInt8
  | [], _ => []
  | h :: rest, last => chainStart rest last :: h.size :: (h.body ++ chainBytes rest last)

def chainLen : List ExtensionHeader → ℕ
  | [] => 0
  | h :: rest => h.body.length + 2 + chainLen rest

/-- Where the type after the chain is announced. -/
def announcedAt : ℕ → ℕ → List ExtensionHeader → ℕ
  | previous, _, [] => previous
  | _, offset, h :: rest => announcedAt offset (offset + (h.body.length + 2)) rest

structure Datagram where
  lead : List UInt8
  lead_length : lead.length = 4
  version : ipVersion lead = some 6
  hopLimit : UInt8
  source : List UInt8
  source_length : source.length = 16
  destination : List UInt8
  destination_length : destination.length = 16
  chain : List ExtensionHeader
  nextHeader : UInt8
  body : List UInt8
  nonempty : body ≠ []
  small : chainLen chain + body.length ≤ 65535

structure Piece where
  offset : ℕ
  payload : List UInt8
  more : Bool
  deriving DecidableEq, Repr

namespace Datagram

def prefixBytes (o : Datagram) (payloadLen : ℕ) (last : UInt8) : List UInt8 :=
  o.lead ++ (toBytes 2 payloadLen ++ (chainStart o.chain last :: o.hopLimit ::
    (o.source ++ (o.destination ++ chainBytes o.chain last))))

def bytes (o : Datagram) : List UInt8 :=
  o.prefixBytes (chainLen o.chain + o.body.length) o.nextHeader ++ o.body

def fragmentHeader (o : Datagram) (identifier : ℕ) (piece : Piece) : List UInt8 :=
  o.nextHeader :: 0 :: (toBytes 2 (piece.offset + piece.more.toNat) ++ toBytes 4 identifier)

def fragment (o : Datagram) (identifier : ℕ) (piece : Piece) : List UInt8 :=
  o.prefixBytes (chainLen o.chain + ipv6FragmentHeaderBytes + piece.payload.length) 44 ++
    (o.fragmentHeader identifier piece ++ piece.payload)

def key (o : Datagram) (identifier : ℕ) : Ipv6FragmentKey := ⟨o.source, o.destination, identifier⟩

def prefixLen (o : Datagram) : ℕ := ipv6HeaderBytes + chainLen o.chain

def previousNextHeader (o : Datagram) : ℕ := announcedAt 6 ipv6HeaderBytes o.chain

end Datagram

@[simp] theorem chainBytes_length (chain : List ExtensionHeader) (last : UInt8) :
    (chainBytes chain last).length = chainLen chain := by
  induction chain with
  | nil => rfl
  | cons h rest ih =>
    simp only [chainBytes, chainLen, List.length_cons, List.length_append, ih]
    omega

@[simp] theorem Datagram.prefixBytes_length (o : Datagram) (n : ℕ) (last : UInt8) :
    (o.prefixBytes n last).length = o.prefixLen := by
  simp [prefixBytes, prefixLen, ipv6HeaderBytes, o.lead_length, o.source_length,
    o.destination_length]
  omega

theorem Datagram.bytes_length (o : Datagram) : o.bytes.length = o.prefixLen + o.body.length := by
  simp [bytes]

theorem walkHeaders_chain (ipv6 packet tail : List UInt8)
    (hmax : packet.length ≤ maxIpv6PacketBytes) (chain : List ExtensionHeader) :
    ∀ (fuel previous offset : ℕ), chain.length + 1 ≤ fuel →
      offset + chainLen chain ≤ packet.length →
      packet.drop offset = chainBytes chain 44 ++ tail →
      walkHeaders ipv6 packet fuel (chainStart chain 44) previous offset =
        readFragmentHeader ipv6 packet (announcedAt previous offset chain)
          (offset + chainLen chain) := by
  induction chain with
  | nil =>
    intro fuel previous offset hfuel _ _
    match fuel, hfuel with
    | fuel + 1, _ => simp [walkHeaders, chainStart, announcedAt, chainLen]
  | cons h rest ih =>
    intro fuel previous offset hfuel hlen hdrop
    match fuel, hfuel with
    | fuel + 1, hfuel =>
      obtain ⟨⟨bias, scale⟩, hknown, hstep⟩ := Option.map_eq_some_iff.mp h.fits
      have hkind : ¬ h.kind = 44 := by
        intro hk
        rw [hk] at hknown
        cases hknown
      simp only [chainLen] at hlen
      have hm : maxIpv6PacketBytes = 65575 := rfl
      have hw : 65575 ≤ wordMax := by decide
      have hslice : slice packet offset (offset + 2) = some [chainStart rest 44, h.size] := by
        rw [slice_of_le (by omega) (by omega), hdrop, show offset + 2 - offset = 2 by omega]
        rfl
      have hmul : checkedMul (h.size.toNat + bias) scale = some (h.body.length + 2) := by
        rw [← hstep]
        exact checkedMul_of_le (by dsimp only at hstep; omega)
      have hadd : checkedAdd offset (h.body.length + 2) = some (offset + (h.body.length + 2)) :=
        checkedAdd_of_le (by omega)
      have hnext : packet.drop (offset + (h.body.length + 2)) = chainBytes rest 44 ++ tail := by
        rw [← List.drop_drop, hdrop]
        simp [chainBytes]
      have hrec := ih fuel offset (offset + (h.body.length + 2))
        (by simp only [List.length_cons] at hfuel; omega) (by omega) hnext
      change walkHeaders ipv6 packet (fuel + 1) h.kind previous offset = _
      simp only [walkHeaders, if_neg hkind, hknown, hslice, Option.bind_eq_bind,
        List.getElem?_cons_zero, List.getElem?_cons_succ, Option.bind_some, hmul, hadd]
      rw [if_neg (by omega), hrec, announcedAt, chainLen, Nat.add_assoc]

theorem reserved_bits_clear {x : ℕ} (h : x % 8 ≤ 1) : x &&& 0x0006 = 0 := by
  have hlow : x &&& 6 = (x % 8) &&& 6 := by
    rw [show (6 : ℕ) = 7 &&& 6 from rfl, ← Nat.and_assoc, ← Nat.and_assoc,
      Nat.and_two_pow_sub_one_eq_mod x 3, Nat.and_two_pow_sub_one_eq_mod (x % 8) 3]
    simp
  rw [hlow]
  match x % 8, h with
  | 0, _ => rfl
  | 1, _ => rfl

structure Piece.Fits (piece : Piece) : Prop where
  aligned : piece.offset % 8 = 0
  offset_lt : piece.offset < 65536

theorem Piece.Fits.field {piece : Piece} (h : piece.Fits) :
    piece.offset + piece.more.toNat < 256 ^ 2 ∧ (piece.offset + piece.more.toNat) % 8 ≤ 1 ∧
      (piece.offset + piece.more.toNat) / 8 * 8 = piece.offset ∧
      (piece.offset + piece.more.toNat) % 2 = piece.more.toNat := by
  have h1 := h.aligned
  have h2 := h.offset_lt
  cases piece.more
  · simp only [Bool.toNat_false]
    omega
  · simp only [Bool.toNat_true]
    omega

theorem readFragmentHeader_fragment (o : Datagram) (identifier : ℕ) (piece : Piece)
    (ipv6 packet : List UInt8) (previous offset : ℕ) (hfits : piece.Fits)
    (hid : identifier < 2 ^ 32) (hmax : packet.length ≤ maxIpv6PacketBytes)
    (hlen : packet.length = offset + ipv6FragmentHeaderBytes + piece.payload.length)
    (hdrop : packet.drop offset = o.fragmentHeader identifier piece ++ piece.payload) :
    readFragmentHeader ipv6 packet previous offset = some (.ok (some {
      key := ⟨srcAddr ipv6, dstAddr ipv6, identifier⟩
      prefixLen := offset
      previousNextHeader := previous
      nextHeader := o.nextHeader
      offset := piece.offset
      more := piece.more
      payload := piece.payload })) := by
  obtain ⟨hlt, hres, hoff, hmore⟩ := hfits.field
  have hm : maxIpv6PacketBytes = 65575 := rfl
  have h8 : ipv6FragmentHeaderBytes = 8 := rfl
  have hw : 65575 ≤ wordMax := by decide
  have hlen2 : (toBytes 2 (piece.offset + piece.more.toNat)).length = 2 := toBytes_length 2 _
  have hval := ofBytes_toBytes_of_lt hlt
  have hidv : ofBytes (toBytes 4 identifier) = identifier := ofBytes_toBytes_of_lt hid
  have hlen4 : (toBytes 4 identifier).length = 4 := toBytes_length 4 _
  unfold Datagram.fragmentHeader at hdrop
  generalize toBytes 2 (piece.offset + piece.more.toNat) = field at *
  generalize toBytes 4 identifier = idField at *
  match field, hlen2 with
  | [b2, b3], _ =>
    match idField, hlen4 with
    | [b4, b5, b6, b7], _ =>
      have hslice : slice packet offset (offset + 8) =
          some [o.nextHeader, 0, b2, b3, b4, b5, b6, b7] := by
        rw [slice_of_le (by omega) (by omega), hdrop, show offset + 8 - offset = 8 by omega]
        rfl
      have hpay : slice packet (offset + 8) packet.length = some piece.payload := by
        rw [slice_rest (by omega), ← List.drop_drop, hdrop]
        rfl
      rw [readFragmentHeader, h8, checkedAdd_of_le (by omega)]
      simp only [hslice]
      have hreserved : ¬ ((0 : UInt8) ≠ 0 ∨ ofBytes [b2, b3] &&& 0x0006 ≠ 0) := by
        rw [hval, reserved_bits_clear hres]
        simp
      have hheader : slice [o.nextHeader, 0, b2, b3, b4, b5, b6, b7] 2
          [o.nextHeader, 0, b2, b3, b4, b5, b6, b7].length = some [b2, b3, b4, b5, b6, b7] := rfl
      have hfo : fragOffset [b2, b3, b4, b5, b6, b7] * reassemblyBlockBytes = piece.offset := by
        change ofBytes [b2, b3] / 8 * 8 = piece.offset
        rw [hval, hoff]
      have hmf : moreFrags [b2, b3, b4, b5, b6, b7] = piece.more := by
        change decide (ofBytes [b2, b3] % 2 = 1) = piece.more
        rw [hval, hmore]
        cases piece.more <;> rfl
      have hident : ident [b2, b3, b4, b5, b6, b7] = identifier := hidv
      simp only [List.getElem?_cons_zero, List.getElem?_cons_succ, Option.bind_eq_bind,
        Option.bind_some, if_neg hreserved, hheader, hpay, hfo, hmf, hident]
      rfl

theorem length_two {xs : List UInt8} (h : xs.length = 2) : ∃ a b, xs = [a, b] := by
  match xs, h with
  | [a, b], _ => exact ⟨a, b, rfl⟩

theorem length_four {xs : List UInt8} (h : xs.length = 4) : ∃ a b c d, xs = [a, b, c, d] := by
  match xs, h with
  | [a, b, c, d], _ => exact ⟨a, b, c, d, rfl⟩

theorem Datagram.header_fields (o : Datagram) {payloadLen : ℕ} (hp : payloadLen ≤ 65535)
    (last : UInt8) (tail : List UInt8) :
    ipVersion (o.prefixBytes payloadLen last ++ tail) = some 6 ∧
    payloadLength (o.prefixBytes payloadLen last ++ tail) = payloadLen ∧
    (o.prefixBytes payloadLen last ++ tail)[6]? = some (chainStart o.chain last) ∧
    srcAddr (o.prefixBytes payloadLen last ++ tail) = o.source ∧
    dstAddr (o.prefixBytes payloadLen last ++ tail) = o.destination ∧
    (o.prefixBytes payloadLen last ++ tail).drop ipv6HeaderBytes =
      chainBytes o.chain last ++ tail := by
  obtain ⟨a, b, c, d, hlead⟩ := length_four o.lead_length
  obtain ⟨x, y, hpl⟩ := length_two (toBytes_length 2 payloadLen)
  have hver := o.version
  rw [hlead] at hver
  have hval : ofBytes [x, y] = payloadLen := by
    rw [← hpl]
    exact ofBytes_toBytes_of_lt (by omega)
  have heq : o.prefixBytes payloadLen last ++ tail = a :: b :: c :: d :: x :: y ::
      chainStart o.chain last :: o.hopLimit ::
        (o.source ++ (o.destination ++ (chainBytes o.chain last ++ tail))) := by
    simp [prefixBytes, hlead, hpl]
  rw [heq]
  refine ⟨hver, hval, rfl, ?_, ?_, ?_⟩
  · exact List.take_left' o.source_length
  · change ((o.source ++ (o.destination ++ (chainBytes o.chain last ++ tail))).drop 16).take 16 = _
    rw [List.drop_left' o.source_length, List.take_left' o.destination_length]
  · change (o.source ++ (o.destination ++ (chainBytes o.chain last ++ tail))).drop (16 + 16) = _
    rw [← List.drop_drop, List.drop_left' o.source_length, List.drop_left' o.destination_length]

theorem chain_length_le (chain : List ExtensionHeader) : chain.length ≤ chainLen chain := by
  induction chain with
  | nil => exact Nat.le_refl 0
  | cons h rest ih =>
    simp only [List.length_cons, chainLen]
    omega

theorem Datagram.fragment_length (o : Datagram) (identifier : ℕ) (piece : Piece) :
    (o.fragment identifier piece).length =
      o.prefixLen + ipv6FragmentHeaderBytes + piece.payload.length := by
  simp [fragment, fragmentHeader, ipv6FragmentHeaderBytes]
  omega

/-- Every fragment of a packet is read back as the piece it was made from. -/
theorem fragmentOf_fragment (o : Datagram) (identifier : ℕ) (piece : Piece) (hfits : piece.Fits)
    (hid : identifier < 2 ^ 32)
    (hlen : chainLen o.chain + ipv6FragmentHeaderBytes + piece.payload.length ≤ 65535) :
    fragmentOf (o.fragment identifier piece) = some {
      key := o.key identifier
      prefixLen := o.prefixLen
      previousNextHeader := o.previousNextHeader
      nextHeader := o.nextHeader
      offset := piece.offset
      more := piece.more
      payload := piece.payload } := by
  have hlength := o.fragment_length identifier piece
  obtain ⟨hver, hpay, hsix, hsrc, hdst, hdrop⟩ := o.header_fields hlen 44
    (o.fragmentHeader identifier piece ++ piece.payload)
  rw [← Datagram.fragment] at hver hpay hsix hsrc hdst hdrop
  have hpre : o.prefixLen = ipv6HeaderBytes + chainLen o.chain := rfl
  have h40 : ipv6HeaderBytes = 40 := rfl
  have h8 : ipv6FragmentHeaderBytes = 8 := rfl
  have hm : maxIpv6PacketBytes = 65575 := rfl
  have hw : 65575 ≤ wordMax := by decide
  have hsum : ipv6HeaderBytes + payloadLength (o.fragment identifier piece) =
      (o.fragment identifier piece).length := by omega
  have hchecked : ipv6Checked (o.fragment identifier piece) = true := by
    simp only [ipv6Checked, hsum, Nat.le_refl, decide_true, Bool.and_true, decide_eq_true_eq]
    omega
  have hbody : (o.fragment identifier piece).drop o.prefixLen =
      o.fragmentHeader identifier piece ++ piece.payload := by
    rw [Datagram.fragment, List.drop_left' (o.prefixBytes_length _ _)]
  have hchain := chain_length_le o.chain
  have hwalk := walkHeaders_chain (o.fragment identifier piece) (o.fragment identifier piece)
    (o.fragmentHeader identifier piece ++ piece.payload) (by omega) o.chain
    (o.fragment identifier piece).length 6 ipv6HeaderBytes (by omega) (by omega) hdrop
  have hread := readFragmentHeader_fragment o identifier piece (o.fragment identifier piece)
    (o.fragment identifier piece) o.previousNextHeader o.prefixLen hfits hid (by omega) hlength hbody
  rw [hsrc, hdst] at hread
  have hfull : ipv6Fragment (o.fragment identifier piece) =
      walkHeaders (o.fragment identifier piece) (o.fragment identifier piece)
        (o.fragment identifier piece).length (chainStart o.chain 44) 6 ipv6HeaderBytes := by
    have hadd := checkedAdd_of_le
      (show ipv6HeaderBytes + payloadLength (o.fragment identifier piece) ≤ wordMax by omega)
    rw [ipv6Fragment, if_neg (not_not.mpr hver), if_neg (by rw [hchecked]; decide), hadd]
    simp only [hsum, slice_start (Nat.le_refl _), List.take_length, Option.bind_eq_bind,
      Option.bind_some, hsix]
  rw [fragmentOf, hfull, hwalk, ← hpre, ← Datagram.previousNextHeader, hread]
  rfl

def lastStart : List ExtensionHeader → ℕ
  | [] => 0
  | [_] => 0
  | h :: g :: rest => h.body.length + 2 + lastStart (g :: rest)

theorem announcedAt_cons (previous : ℕ) (chain : List ExtensionHeader) :
    ∀ (offset : ℕ) (h : ExtensionHeader),
      announcedAt previous offset (h :: chain) = offset + lastStart (h :: chain) := by
  induction chain generalizing previous with
  | nil =>
    intro offset h
    rfl
  | cons g rest ih =>
    intro offset h
    rw [announcedAt, ih, lastStart]
    omega

theorem chainBytes_set (chain : List ExtensionHeader) (a b : UInt8) :
    ∀ h : ExtensionHeader,
      (chainBytes (h :: chain) a).set (lastStart (h :: chain)) b = chainBytes (h :: chain) b := by
  induction chain with
  | nil =>
    intro h
    simp [chainBytes, chainStart, lastStart]
  | cons g rest ih =>
    intro h
    have hrec := ih g
    rw [show chainBytes (h :: g :: rest) a = chainStart (g :: rest) a :: h.size ::
      (h.body ++ chainBytes (g :: rest) a) from rfl, lastStart]
    have hsplit : h.body.length + 2 + lastStart (g :: rest) =
        (h.body.length + lastStart (g :: rest)) + 1 + 1 := by omega
    rw [hsplit, List.set_cons_succ, List.set_cons_succ,
      List.set_append_right _ _ (by omega), Nat.add_sub_cancel_left, hrec]
    rfl

theorem Datagram.prefixBytes_set (o : Datagram) (n : ℕ) (a b : UInt8) :
    (o.prefixBytes n a).set o.previousNextHeader b = o.prefixBytes n b := by
  obtain ⟨w, x, y, z, hlead⟩ := length_four o.lead_length
  obtain ⟨u, v, hpl⟩ := length_two (toBytes_length 2 n)
  unfold prefixBytes previousNextHeader
  rw [hlead, hpl]
  cases hchain : o.chain with
  | nil => rfl
  | cons h rest =>
    have hs := o.source_length
    have hd := o.destination_length
    rw [announcedAt_cons, ← chainBytes_set rest a b h]
    have hsplit : ipv6HeaderBytes + lastStart (h :: rest) =
        (o.source.length + (o.destination.length + lastStart (h :: rest))) + 1 + 1 + 1 + 1 + 1 + 1 + 1 + 1 := by
      have h40 : ipv6HeaderBytes = 40 := rfl
      omega
    rw [hsplit]
    simp [chainStart, List.set_append_right]

theorem Datagram.prefixBytes_payload (o : Datagram) (n m : ℕ) (last : UInt8) {i : ℕ}
    (h : ¬ (4 ≤ i ∧ i < 6)) : (o.prefixBytes n last)[i]? = (o.prefixBytes m last)[i]? := by
  have hl := o.lead_length
  unfold prefixBytes
  rcases Nat.lt_or_ge i 4 with hlt | hge
  · rw [List.getElem?_append_left (by omega), List.getElem?_append_left (by omega)]
  · have h2 : ∀ k, (toBytes 2 k).length ≤ i - o.lead.length := by
      intro k
      rw [toBytes_length]
      omega
    have hle : o.lead.length ≤ i := by omega
    rw [List.getElem?_append_right hle, List.getElem?_append_right (h2 n),
      List.getElem?_append_right hle, List.getElem?_append_right (h2 m), toBytes_length,
      toBytes_length]

theorem Datagram.prefixBytes_length_field (o : Datagram) (n : ℕ) (last : UInt8) {i : ℕ}
    (h : 4 ≤ i ∧ i < 6) : (o.prefixBytes n last)[i]? = (toBytes 2 n)[i - 4]? := by
  have hl := o.lead_length
  unfold prefixBytes
  rw [List.getElem?_append_right (by omega), hl,
    List.getElem?_append_left (by rw [toBytes_length]; omega)]

theorem Datagram.prefixBytes_restored (o : Datagram) (n m : ℕ) {i : ℕ} (hi : i < o.prefixLen) :
    (o.prefixBytes m o.nextHeader)[i]? =
      if i = o.previousNextHeader then some o.nextHeader
      else if 4 ≤ i ∧ i < 6 then (toBytes 2 m)[i - 4]?
      else (o.prefixBytes n 44)[i]? := by
  rw [← o.prefixBytes_set m 44 o.nextHeader, List.getElem?_set]
  by_cases hp : o.previousNextHeader = i
  · rw [if_pos hp, if_pos hp.symm, if_pos (by rw [o.prefixBytes_length, hp]; exact hi)]
  · rw [if_neg hp, if_neg (Ne.symm hp)]
    split
    · next h => exact o.prefixBytes_length_field m 44 h
    · next h => exact o.prefixBytes_payload m n 44 h

end Snolc.Stack
