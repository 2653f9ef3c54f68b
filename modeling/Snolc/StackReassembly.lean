import Snolc.StackFragment

set_option autoImplicit false

/-!
# The IPv6 reassembly slots

`Ipv6Reassembly::ingest` and the slot operations under it. A slot keeps its buffer
when it is cleared: only the bitmap of eight byte blocks tells which bytes are its
own. As in the header walk, the outer `Option` is `none` where the source aborts.
-/
namespace Snolc.Stack
open ByteOrder CheckedSlice

structure Ipv6ReassemblySlot where
  key : Option Ipv6FragmentKey
  packet : List UInt8
  received : List Bool
  prefixLen : ℕ
  previousNextHeader : ℕ
  fragmentNextHeader : UInt8
  totalFragmentLen : Option ℕ
  expiresAtMs : ℕ

structure Ipv6Reassembly where
  slots : List Ipv6ReassemblySlot
  timeoutMs : ℕ

inductive ReassemblyOutcome where
  | packet (bytes : List UInt8)
  | buffered
  | pending
  | dropped
  deriving DecidableEq, Repr

namespace Ipv6ReassemblySlot

def new : Ipv6ReassemblySlot where
  key := none
  packet := List.replicate maxIpv6PacketBytes 0
  received := List.replicate reassemblyBlocks false
  prefixLen := 0
  previousNextHeader := 0
  fragmentNextHeader := 0
  totalFragmentLen := none
  expiresAtMs := 0

def clear (slot : Ipv6ReassemblySlot) : Ipv6ReassemblySlot :=
  { slot with
    key := none
    received := List.replicate slot.received.length false
    totalFragmentLen := none }

def isComplete (slot : Ipv6ReassemblySlot) : Option Bool :=
  match slot.totalFragmentLen with
  | none => some false
  | some total => (slice slot.received 0 (divCeil total reassemblyBlockBytes)).map (·.all id)

def takePacket (slot : Ipv6ReassemblySlot) (available : ℕ) :
    Option (Ipv6ReassemblySlot × Option (List UInt8)) := do
  if (← slot.isComplete) = false then
    return (slot, none)
  match slot.totalFragmentLen with
  | none => return (slot, none)
  | some total =>
    match checkedAdd slot.prefixLen total with
    | none => return (slot, none)
    | some packetLen =>
      if available < packetLen then
        return (slot, none)
      if packetLen < ipv6HeaderBytes then
        return (slot, none)
      let payloadLen := packetLen - ipv6HeaderBytes
      if 65535 < payloadLen then
        return (slot, none)
      let buffer ← copyAt slot.packet 4 (toBytes 2 payloadLen)
      let buffer ← setAt buffer slot.previousNextHeader slot.fragmentNextHeader
      let packet ← slice buffer 0 packetLen
      return ({ slot with packet := buffer }.clear, some packet)

/-- A free slot is opened for the fragment; a held one must show the same prefix.
`.error` is a slot about to be cleared. -/
def join (slot : Ipv6ReassemblySlot) (packet : List UInt8) (fragment : Ipv6Fragment)
    (nowMs timeoutMs : ℕ) : Option (Except Ipv6ReassemblySlot Ipv6ReassemblySlot) :=
  if slot.key = none then do
    let head ← slice packet 0 fragment.prefixLen
    let buffer ← copyAt slot.packet 0 head
    return .ok { slot with
      key := some fragment.key
      prefixLen := fragment.prefixLen
      previousNextHeader := fragment.previousNextHeader
      fragmentNextHeader := fragment.nextHeader
      expiresAtMs := saturatingSum nowMs timeoutMs
      packet := buffer }
  else if slot.prefixLen ≠ fragment.prefixLen ∨
      slot.previousNextHeader ≠ fragment.previousNextHeader ∨
      slot.fragmentNextHeader ≠ fragment.nextHeader then
    some (.error slot)
  else do
    if (← slice slot.packet 0 4) ≠ (← slice packet 0 4) then
      return .error slot
    if (← slice slot.packet 6 fragment.prefixLen) ≠ (← slice packet 6 fragment.prefixLen) then
      return .error slot
    return .ok slot

def refuses (slot : Ipv6ReassemblySlot) (fragment : Ipv6Fragment) (stop : ℕ) : Bool :=
  decide (stop = 0) || (checkedAdd slot.prefixLen stop).isNone ||
    decide (maxIpv6PacketBytes < slot.prefixLen + stop) ||
    (fragment.more && decide (fragment.payload.length % reassemblyBlockBytes ≠ 0)) ||
    slot.totalFragmentLen.any
      (fun total => decide (total < stop) || (fragment.more && decide (stop = total)))

def write (slot : Ipv6ReassemblySlot) (fragment : Ipv6Fragment) (stop : ℕ) :
    Option (Except Ipv6ReassemblySlot Ipv6ReassemblySlot) := do
  let firstBlock := fragment.offset / reassemblyBlockBytes
  let lastBlock := divCeil stop reassemblyBlockBytes
  if (← slice slot.received firstBlock lastBlock).any id then
    return .error slot
  let buffer ← copyAt slot.packet (slot.prefixLen + fragment.offset) fragment.payload
  let received ← fillAt slot.received firstBlock lastBlock true
  let slot := { slot with packet := buffer, received := received }
  if fragment.more then
    return .ok slot
  if slot.totalFragmentLen.any (fun total => decide (total ≠ stop)) then
    return .error slot
  return .ok { slot with totalFragmentLen := some stop }

def outcome : Option (List UInt8) → ReassemblyOutcome
  | none => .pending
  | some packet => .packet packet

def deliver (slot : Ipv6ReassemblySlot) (available : ℕ) :
    Option (Ipv6ReassemblySlot × ReassemblyOutcome) := do
  if ← slot.isComplete then
    let (slot, packet) ← slot.takePacket available
    return (slot, outcome packet)
  return (slot, .buffered)

def place (slot : Ipv6ReassemblySlot) (fragment : Ipv6Fragment) (available : ℕ) :
    Option (Ipv6ReassemblySlot × ReassemblyOutcome) :=
  match checkedAdd fragment.offset fragment.payload.length with
  | none => some (slot.clear, .dropped)
  | some stop =>
    if slot.refuses fragment stop then some (slot.clear, .dropped)
    else do
      match ← slot.write fragment stop with
      | .error slot => return (slot.clear, .dropped)
      | .ok slot => slot.deliver available

def accept (slot : Ipv6ReassemblySlot) (packet : List UInt8) (fragment : Ipv6Fragment)
    (nowMs timeoutMs available : ℕ) : Option (Ipv6ReassemblySlot × ReassemblyOutcome) := do
  match ← slot.join packet fragment nowMs timeoutMs with
  | .error slot => return (slot.clear, .dropped)
  | .ok slot => slot.place fragment available

def expire (nowMs : ℕ) (slot : Ipv6ReassemblySlot) : Ipv6ReassemblySlot :=
  if slot.key ≠ none ∧ slot.expiresAtMs ≤ nowMs then slot.clear else slot

end Ipv6ReassemblySlot

/-- `iter_mut().find(|slot| slot.key == Some(key) && slot.is_complete())`. -/
def findComplete (key : Ipv6FragmentKey) : List Ipv6ReassemblySlot → Option (Option ℕ)
  | [] => some none
  | slot :: slots => do
    if slot.key = some key then
      if ← slot.isComplete then
        return some 0
    return (← findComplete key slots).map (· + 1)

namespace Ipv6Reassembly

def new (slots timeoutMs : ℕ) : Ipv6Reassembly :=
  ⟨List.replicate slots Ipv6ReassemblySlot.new, timeoutMs⟩

def ingest (r : Ipv6Reassembly) (packet : List UInt8) (nowMs available : ℕ) :
    Option (Ipv6Reassembly × ReassemblyOutcome) := do
  match ← ipv6Fragment packet with
  | .ok none => return (r, .packet packet)
  | .error () => return (r, .dropped)
  | .ok (some fragment) =>
    let slots := r.slots.map (Ipv6ReassemblySlot.expire nowMs)
    match ← findComplete fragment.key slots with
    | some index =>
      let slot ← slots[index]?
      let (slot, packet) ← slot.takePacket available
      return ({ r with slots := slots.set index slot }, Ipv6ReassemblySlot.outcome packet)
    | none =>
      match (slots.findIdx? fun slot => decide (slot.key = some fragment.key)).or
          (slots.findIdx? fun slot => decide (slot.key = none)) with
      | none => return ({ r with slots := slots }, .dropped)
      | some index =>
        let slot ← slots[index]?
        let (slot, out) ← slot.accept packet fragment nowMs r.timeoutMs available
        return ({ r with slots := slots.set index slot }, out)

end Ipv6Reassembly
end Snolc.Stack
