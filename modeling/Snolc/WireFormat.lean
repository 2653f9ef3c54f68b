import Snolc.ByteOrder

set_option autoImplicit false

/-!
# Wire version 1

The frames a stream starts with: the twelve byte header, the policy frame, the
flow OPEN request and its response, and the length-prefixed UDP record. Integers
are big-endian and every parser rejects trailing bytes. Text is a `String`; the
wire carries its UTF-8 octets.
-/
namespace Snolc.WireFormat
open ByteOrder

def magic : List UInt8 := [0x53, 0x4e, 0x4f, 0x4c]
def wireVersion : ℕ := 1
def headerLength : ℕ := 12
def maxPolicyFamily : ℕ := 64
def maxOpenBody : ℕ := 4096
def maxMetadata : ℕ := 1024
def maxReason : ℕ := 256
def maxUdpPayload : ℕ := 65507

inductive WireError where
  | incomplete
  | invalidMagic
  | version (value : ℕ)
  | unknownKind (value : UInt8)
  | invalidKind
  | reserved
  | trailingBytes
  | length
  | addressType (value : UInt8)
  | domain
  | policyFamily
  | port
  | utf8
  | unknownStatus (value : UInt8)
  deriving DecidableEq, Repr

inductive StreamKind where
  | policy
  | tcp
  | udp
  deriving DecidableEq, Repr

def StreamKind.code : StreamKind → UInt8
  | policy => 1
  | tcp => 2
  | udp => 3

def StreamKind.tryFrom (value : UInt8) : Except WireError StreamKind :=
  if value = 1 then .ok policy
  else if value = 2 then .ok tcp
  else if value = 3 then .ok udp
  else .error (.unknownKind value)

inductive OpenStatus where
  | ok
  | denied
  | connectFailed
  | unsupported
  | resourceLimit
  | protocolError
  | internalError
  deriving DecidableEq, Repr

def OpenStatus.code : OpenStatus → UInt8
  | ok => 0
  | denied => 1
  | connectFailed => 2
  | unsupported => 3
  | resourceLimit => 4
  | protocolError => 5
  | internalError => 6

def OpenStatus.tryFrom (value : UInt8) : Except WireError OpenStatus :=
  if value = 0 then .ok ok
  else if value = 1 then .ok denied
  else if value = 2 then .ok connectFailed
  else if value = 3 then .ok unsupported
  else if value = 4 then .ok resourceLimit
  else if value = 5 then .ok protocolError
  else if value = 6 then .ok internalError
  else .error (.unknownStatus value)

inductive Destination where
  | ipv4 (octets : Vector UInt8 4)
  | ipv6 (octets : Vector UInt8 16)
  | domain (name : String)
  deriving DecidableEq, Repr

structure OpenRequest where
  kind : StreamKind
  destination : Destination
  port : UInt16
  metadata : List UInt8
  deriving DecidableEq, Repr

structure OpenResponse where
  status : OpenStatus
  reason : String
  deriving DecidableEq, Repr

/-- UTF-8 octets of a text. -/
def octets (text : String) : List UInt8 := text.toByteArray.data.toList

def fromUtf8 (bytes : List UInt8) : Except WireError String :=
  match String.fromUTF8? ⟨bytes.toArray⟩ with
  | some text => .ok text
  | none => .error .utf8

structure Cursor where
  input : List UInt8
  position : ℕ

namespace Cursor

def remaining (c : Cursor) : ℕ := c.input.length - c.position

def bytes (c : Cursor) (length : ℕ) : Except WireError (List UInt8 × Cursor) :=
  if c.position + length ≤ c.input.length then
    .ok ((c.input.drop c.position).take length, { c with position := c.position + length })
  else .error .incomplete

def array (c : Cursor) (n : ℕ) : Except WireError (Vector UInt8 n × Cursor) := do
  let (bytes, c) ← c.bytes n
  if h : bytes.length = n then pure (⟨bytes.toArray, by simpa using h⟩, c)
  else .error .incomplete

def u8 (c : Cursor) : Except WireError (UInt8 × Cursor) := do
  let (bytes, c) ← c.bytes 1
  pure (bytes.headD 0, c)

def u16 (c : Cursor) : Except WireError (ℕ × Cursor) := do
  let (bytes, c) ← c.bytes 2
  pure (ofBytes bytes, c)

end Cursor

def isAsciiAlphanumeric (byte : UInt8) : Bool :=
  (48 ≤ byte && byte ≤ 57) || (65 ≤ byte && byte ≤ 90) || (97 ≤ byte && byte ≤ 122)

def validateFamily (family : String) : Except WireError Unit :=
  let bytes := octets family
  if bytes = [] ∨ maxPolicyFamily < bytes.length ∨
      ¬ bytes.all (fun byte => isAsciiAlphanumeric byte || byte == 45 || byte == 95 || byte == 46) then
    .error .policyFamily
  else .ok ()

/-- One dot-separated label of a domain. -/
def validLabel (label : List UInt8) : Bool :=
  !label.isEmpty && label.length ≤ 63 && label.head? != some 45 && label.getLast? != some 45 &&
    label.all (fun byte => isAsciiAlphanumeric byte || byte == 45)

def validateDomain (domain : String) : Except WireError Unit :=
  let bytes := octets domain
  if bytes = [] ∨ 253 < bytes.length ∨ ¬ bytes.all (· < 128) then .error .domain
  else if (bytes.splitOn 46).all validLabel then .ok ()
  else .error .domain

def encodeHeader (kind : StreamKind) : List UInt8 :=
  magic ++ toBytes 4 wireVersion ++ [kind.code] ++ [0, 0, 0]

def parseHeader (input : List UInt8) : Except WireError StreamKind :=
  if input.length < headerLength then .error .incomplete
  else
    let header := input.take headerLength
    if header.take 4 ≠ magic then .error .invalidMagic
    else
      let version := ofBytes ((header.drop 4).take 4)
      if version ≠ wireVersion then .error (.version version)
      else if (header.drop 9).take 3 ≠ [0, 0, 0] then .error .reserved
      else StreamKind.tryFrom ((header.drop 8).headD 0)

def encodePolicy (family : String) : Except WireError (List UInt8) := do
  validateFamily family
  pure (encodeHeader .policy ++ toBytes 2 (octets family).length ++ octets family)

def parsePolicy (input : List UInt8) : Except WireError String := do
  let kind ← parseHeader input
  if kind ≠ .policy then throw .invalidKind
  let cursor : Cursor := ⟨input, headerLength⟩
  let (length, cursor) ← cursor.u16
  if ¬ (1 ≤ length ∧ length ≤ maxPolicyFamily) then throw .length
  let (bytes, cursor) ← cursor.bytes length
  let family ← fromUtf8 bytes
  if cursor.remaining ≠ 0 then throw .trailingBytes
  validateFamily family
  pure family

def encodeDestination : Destination → Except WireError (List UInt8)
  | .ipv4 address => .ok (1 :: address.toList)
  | .ipv6 address => .ok (2 :: address.toList)
  | .domain name => do
    validateDomain name
    pure (3 :: (toBytes 2 (octets name).length ++ octets name))

def encodeOpen (request : OpenRequest) : Except WireError (List UInt8) := do
  if request.kind ≠ .tcp ∧ request.kind ≠ .udp then throw .invalidKind
  if request.port = 0 then throw .port
  if maxMetadata < request.metadata.length then throw .length
  let destination ← encodeDestination request.destination
  let body := destination ++ toBytes 2 request.port.toNat ++
    toBytes 2 request.metadata.length ++ request.metadata
  if maxOpenBody < body.length then throw .length
  pure (encodeHeader request.kind ++ toBytes 2 body.length ++ body)

def parseDestination (cursor : Cursor) : Except WireError (Destination × Cursor) := do
  let (tag, cursor) ← cursor.u8
  if tag = 1 then
    let (address, cursor) ← cursor.array 4
    pure (.ipv4 address, cursor)
  else if tag = 2 then
    let (address, cursor) ← cursor.array 16
    pure (.ipv6 address, cursor)
  else if tag = 3 then
    let (length, cursor) ← cursor.u16
    let (bytes, cursor) ← cursor.bytes length
    let name ← fromUtf8 bytes
    validateDomain name
    pure (.domain name, cursor)
  else throw (.addressType tag)

def parseOpen (input : List UInt8) : Except WireError OpenRequest := do
  let kind ← parseHeader input
  if kind ≠ .tcp ∧ kind ≠ .udp then throw .invalidKind
  let cursor : Cursor := ⟨input, headerLength⟩
  let (bodyLength, cursor) ← cursor.u16
  if maxOpenBody < bodyLength then throw .length
  if cursor.remaining < bodyLength then throw .incomplete
  if bodyLength < cursor.remaining then throw .trailingBytes
  let bodyEnd := cursor.position + bodyLength
  let (destination, cursor) ← parseDestination cursor
  let (port, cursor) ← cursor.u16
  if port = 0 then throw .port
  let (metadataLength, cursor) ← cursor.u16
  if maxMetadata < metadataLength then throw .length
  let (metadata, cursor) ← cursor.bytes metadataLength
  if cursor.position ≠ bodyEnd then throw .trailingBytes
  pure ⟨kind, destination, UInt16.ofNat port, metadata⟩

def encodeOpenResponse (response : OpenResponse) : Except WireError (List UInt8) :=
  if maxReason < (octets response.reason).length then .error .length
  else .ok (response.status.code :: (toBytes 2 (octets response.reason).length ++ octets response.reason))

def parseOpenResponse (input : List UInt8) : Except WireError OpenResponse := do
  let cursor : Cursor := ⟨input, 0⟩
  let (tag, cursor) ← cursor.u8
  let status ← OpenStatus.tryFrom tag
  let (length, cursor) ← cursor.u16
  if maxReason < length then throw .length
  let (bytes, cursor) ← cursor.bytes length
  let reason ← fromUtf8 bytes
  if cursor.remaining ≠ 0 then throw .trailingBytes
  pure ⟨status, reason⟩

def encodeUdp (payload : List UInt8) : Except WireError (List UInt8) :=
  if maxUdpPayload < payload.length then .error .length
  else .ok (toBytes 2 payload.length ++ payload)

def parseUdp (input : List UInt8) : Except WireError (List UInt8) := do
  let cursor : Cursor := ⟨input, 0⟩
  let (length, cursor) ← cursor.u16
  if maxUdpPayload < length then throw .length
  let (payload, cursor) ← cursor.bytes length
  if cursor.remaining ≠ 0 then throw .trailingBytes
  pure payload

end Snolc.WireFormat
