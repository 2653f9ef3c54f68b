import Snolc.EngineHost
import Snolc.StackReassembly

set_option autoImplicit false

namespace Snolc.Stack
open ByteOrder CheckedSlice
open Engine (IpAddr)

structure IpEndpoint where
  addr : IpAddr
  port : UInt16
  deriving DecidableEq, Repr

structure PacketTcpTuple where
  source : IpEndpoint
  destination : IpEndpoint
  deriving DecidableEq, Repr

structure PacketUdpTuple where
  source : IpEndpoint
  destination : IpEndpoint
  deriving DecidableEq, Repr

def field16 (bytes : List UInt8) (i : ℕ) : ℕ := ofBytes ((bytes.drop i).take 2)

def ipv4At (packet : List UInt8) (i : ℕ) : IpAddr := .v4 (Vector.ofFn fun k => packet.getD (i + k) 0)
def ipv6At (packet : List UInt8) (i : ℕ) : IpAddr := .v6 (Vector.ofFn fun k => packet.getD (i + k) 0)

def ipv4HeaderLen (packet : List UInt8) : ℕ := (packet.getD 0 0).toNat % 16 * 4
def ipv4TotalLen (packet : List UInt8) : ℕ := field16 packet 2
def ipv4FragOffset (packet : List UInt8) : ℕ := field16 packet 6 % 8192 * 8

def ipv4Checked (packet : List UInt8) : Bool :=
  decide (20 ≤ packet.length) && decide (ipv4HeaderLen packet ≤ packet.length) &&
    decide (ipv4HeaderLen packet ≤ ipv4TotalLen packet) &&
    decide (ipv4TotalLen packet ≤ packet.length)

def ipv4Payload (packet : List UInt8) : List UInt8 :=
  (packet.take (ipv4TotalLen packet)).drop (ipv4HeaderLen packet)

def ipv6Payload (packet : List UInt8) : List UInt8 :=
  (packet.drop ipv6HeaderBytes).take (payloadLength packet)

/-- Source, destination and payload of a packet that carries the protocol next to its
fixed header; with `whole` a later fragment of an IPv4 packet is passed over. -/
def transport (protocol : UInt8) (whole : Bool) (packet : List UInt8) :
    Option (IpAddr × IpAddr × List UInt8) :=
  match ipVersion packet with
  | some 4 =>
    if ipv4Checked packet = false then none
    else if packet.getD 9 0 ≠ protocol ∨ (whole ∧ ipv4FragOffset packet ≠ 0) then none
    else some (ipv4At packet 12, ipv4At packet 16, ipv4Payload packet)
  | some 6 =>
    if ipv6Checked packet = false then none
    else if packet.getD 6 0 ≠ protocol then none
    else some (ipv6At packet 8, ipv6At packet 24, ipv6Payload packet)
  | _ => none

def tcpHeaderLen (payload : List UInt8) : ℕ := field16 payload 12 / 4096 * 4
def tcpSyn (payload : List UInt8) : Bool := decide (field16 payload 12 / 2 % 2 = 1)
def tcpAck (payload : List UInt8) : Bool := decide (field16 payload 12 / 16 % 2 = 1)

def tcpChecked (payload : List UInt8) : Bool :=
  decide (20 ≤ payload.length) && decide (tcpHeaderLen payload ≤ payload.length) &&
    decide (20 ≤ tcpHeaderLen payload)

def tcpSynTuple (packet : List UInt8) : Option PacketTcpTuple :=
  match transport 6 false packet with
  | none => none
  | some (source, destination, payload) =>
    if tcpChecked payload = false then none
    else if tcpSyn payload = false ∨ tcpAck payload = true ∨ field16 payload 0 = 0 ∨
        field16 payload 2 = 0 then none
    else some ⟨⟨source, UInt16.ofNat (field16 payload 0)⟩,
      ⟨destination, UInt16.ofNat (field16 payload 2)⟩⟩

def udpTuple (packet : List UInt8) : Option PacketUdpTuple :=
  match transport 17 true packet with
  | none => none
  | some (source, destination, payload) =>
    if payload.length < 8 then none
    else if field16 payload 0 = 0 ∨ field16 payload 2 = 0 then none
    else some ⟨⟨source, UInt16.ofNat (field16 payload 0)⟩,
      ⟨destination, UInt16.ofNat (field16 payload 2)⟩⟩

theorem transport_protocol {protocol : UInt8} {whole : Bool} {packet : List UInt8}
    {r : IpAddr × IpAddr × List UInt8} (h : transport protocol whole packet = some r) :
    (ipVersion packet = some 4 ∧ packet.getD 9 0 = protocol) ∨
      (ipVersion packet = some 6 ∧ packet.getD 6 0 = protocol) := by
  unfold transport at h
  split at h
  · next hv =>
    split at h
    · cases h
    split at h
    · cases h
    next hp =>
    exact .inl ⟨hv, not_not.mp fun hne => hp (.inl hne)⟩
  · next hv =>
    split at h
    · cases h
    split at h
    · cases h
    next hp => exact .inr ⟨hv, not_not.mp hp⟩
  · cases h

theorem tcpSynTuple_transport {packet : List UInt8} {tuple : PacketTcpTuple}
    (h : tcpSynTuple packet = some tuple) : ∃ r, transport 6 false packet = some r := by
  unfold tcpSynTuple at h
  split at h
  · cases h
  next ht => exact ⟨_, ht⟩

theorem udpTuple_transport {packet : List UInt8} {tuple : PacketUdpTuple}
    (h : udpTuple packet = some tuple) : ∃ r, transport 17 true packet = some r := by
  unfold udpTuple at h
  split at h
  · cases h
  next ht => exact ⟨_, ht⟩

theorem udpTuple_of_tcpSynTuple {packet : List UInt8} {tuple : PacketTcpTuple}
    (h : tcpSynTuple packet = some tuple) : udpTuple packet = none := by
  cases hu : udpTuple packet with
  | none => rfl
  | some tuple' =>
    obtain ⟨r, hr⟩ := tcpSynTuple_transport h
    obtain ⟨r', hr'⟩ := udpTuple_transport hu
    rcases transport_protocol hr with ⟨hv, hp⟩ | ⟨hv, hp⟩ <;>
      rcases transport_protocol hr' with ⟨hv', hp'⟩ | ⟨hv', hp'⟩ <;> simp_all

def validIpPacket (packet : List UInt8) : Bool :=
  match ipVersion packet with
  | some 4 => decide (20 ≤ packet.length)
  | some 6 => decide (40 ≤ packet.length)
  | _ => false

def virtualLoopbackDestination (packet : List UInt8) : Bool :=
  match ipVersion packet with
  | some 4 => packet[16]? == some 127
  | some 6 => slice packet 24 40 == some [0, 0, 0, 0, 0, 0, 0, 0, 0, 0, 0, 0, 0, 0, 0, 1]
  | _ => false

structure QueuedPacket where
  bytes : List UInt8
  external : Bool
  deriving DecidableEq, Repr

structure BoundedDevice where
  ingress : List QueuedPacket
  egress : List (List UInt8)
  bytes : ℕ
  byteLimit : ℕ
  stopped : Bool
  dropped : ℕ
  deriving DecidableEq, Repr

namespace BoundedDevice

def new (byteLimit : ℕ) : BoundedDevice := ⟨[], [], 0, byteLimit, false, 0⟩

def spend (d : BoundedDevice) (count : ℕ) : Option BoundedDevice :=
  if count ≤ d.bytes then some { d with bytes := d.bytes - count } else none

def popIngress (d : BoundedDevice) : Option (BoundedDevice × Option QueuedPacket) :=
  match d.ingress with
  | [] => some (d, none)
  | packet :: rest => do
    let d ← { d with ingress := rest }.spend packet.bytes.length
    return (d, some packet)

def receive (d : BoundedDevice) : Option (BoundedDevice × Option QueuedPacket) :=
  if d.stopped then some (d, none) else d.popIngress

/-- `TxToken::consume` for a packet smoltcp has written. The sum saturates in the source,
at a size no queue in memory has. -/
def consume (d : BoundedDevice) (packet : List UInt8) : BoundedDevice :=
  if d.bytes + packet.length ≤ d.byteLimit then
    if virtualLoopbackDestination packet then
      { d with bytes := d.bytes + packet.length, ingress := d.ingress ++ [⟨packet, false⟩] }
    else { d with bytes := d.bytes + packet.length, egress := d.egress ++ [packet] }
  else { d with dropped := d.dropped + 1 }

def queued (d : BoundedDevice) : ℕ :=
  (d.ingress.map fun packet => packet.bytes.length).sum + (d.egress.map List.length).sum

structure Balanced (d : BoundedDevice) : Prop where
  bytes : d.bytes = d.queued
  le_limit : d.bytes ≤ d.byteLimit

theorem new_balanced (byteLimit : ℕ) : (new byteLimit).Balanced := ⟨rfl, Nat.zero_le _⟩

theorem popIngress_balanced {d : BoundedDevice} (hd : d.Balanced) :
    (d.ingress = [] ∧ d.popIngress = some (d, none)) ∨
    ∃ packet rest d', d.ingress = packet :: rest ∧ d.popIngress = some (d', some packet) ∧
      d'.ingress = rest ∧ d'.Balanced ∧ d'.byteLimit = d.byteLimit ∧ d'.stopped = d.stopped := by
  unfold popIngress
  cases hin : d.ingress with
  | nil => exact .inl ⟨rfl, rfl⟩
  | cons packet rest =>
    right
    have hb := hd.bytes
    have hl := hd.le_limit
    simp only [queued, hin, List.map_cons, List.sum_cons] at hb
    have hle : packet.bytes.length ≤ d.bytes := by omega
    refine ⟨packet, rest, { d with ingress := rest, bytes := d.bytes - packet.bytes.length }, rfl,
      ?_, rfl, ⟨?_, ?_⟩, rfl, rfl⟩
    · simp [spend, hle]
    · simp only [queued]
      omega
    · change d.bytes - packet.bytes.length ≤ d.byteLimit
      omega

theorem consume_balanced {d : BoundedDevice} (hd : d.Balanced) (packet : List UInt8) :
    (d.consume packet).Balanced := by
  have hb := hd.bytes
  unfold queued at hb
  unfold consume
  split
  · next hle =>
    split
    · refine ⟨?_, hle⟩
      simp only [queued, List.map_append, List.map_cons, List.map_nil, List.sum_append,
        List.sum_cons, List.sum_nil]
      omega
    · refine ⟨?_, hle⟩
      simp only [queued, List.map_append, List.map_cons, List.map_nil, List.sum_append,
        List.sum_cons, List.sum_nil]
      omega
  · exact ⟨hd.bytes, hd.le_limit⟩

theorem foldl_consume_balanced {d : BoundedDevice} (hd : d.Balanced)
    (packets : List (List UInt8)) : (packets.foldl consume d).Balanced := by
  induction packets generalizing d with
  | nil => exact hd
  | cons packet packets ih => exact ih (consume_balanced hd packet)

/-- What smoltcp sends comes back in, if at all, behind everything queued and not from
outside. -/
theorem consume_ingress (d : BoundedDevice) (packet : List UInt8) :
    ∃ back, (d.consume packet).ingress = d.ingress ++ back ∧ ∀ q ∈ back, q.external = false := by
  unfold consume
  split
  · split
    · exact ⟨[⟨packet, false⟩], rfl, fun q hq => by rw [List.mem_singleton.mp hq]⟩
    · exact ⟨[], (List.append_nil _).symm, fun _ h => nomatch h⟩
  · exact ⟨[], (List.append_nil _).symm, fun _ h => nomatch h⟩

theorem foldl_consume_ingress (d : BoundedDevice) (packets : List (List UInt8)) :
    ∃ back, (packets.foldl consume d).ingress = d.ingress ++ back ∧
      ∀ q ∈ back, q.external = false := by
  induction packets generalizing d with
  | nil => exact ⟨[], (List.append_nil _).symm, fun _ h => nomatch h⟩
  | cons packet packets ih =>
    obtain ⟨first, h1, hf⟩ := consume_ingress d packet
    obtain ⟨later, h2, hl⟩ := ih (d.consume packet)
    refine ⟨first ++ later, by rw [List.foldl_cons, h2, h1, List.append_assoc], fun q hq => ?_⟩
    rcases List.mem_append.mp hq with hq | hq
    · exact hf q hq
    · exact hl q hq

end BoundedDevice
end Snolc.Stack
