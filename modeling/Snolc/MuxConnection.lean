import Snolc.MuxFrame
import Snolc.PollIo
import Snolc.SlotTable
import Snolc.WireFormat

set_option autoImplicit false

/-!
# The mux connection

One connection multiplexes streams over an ordered byte stream `T`. At most one
frame is being written and one is being read; control frames wait in a queue.
Wakers and the recycled buffers, which are emptied before every use, are not
part of the state.
-/
namespace Snolc.Mux
open PollIo SlotTable MuxFrame

inductive MuxError where
  | io (error : IoError)
  | wire (error : WireFormat.WireError)
  | closed
  | policyRequired
  | policyFamily
  | streamLimit
  | protocol
  deriving DecidableEq, Repr

structure StreamState where
  input : List (List UInt8) := []
  offset : ℕ := 0
  eof : Bool := false
  completedWrite : ℕ := 0
  deriving DecidableEq, Repr

def StreamState.advance (state : StreamState) (count : ℕ) : StreamState :=
  match state.input with
  | [] => state
  | front :: rest =>
    if state.offset + count = front.length then { state with offset := 0, input := rest }
    else { state with offset := state.offset + count }

structure PendingWrite where
  bytes : List UInt8
  offset : ℕ
  kind : FrameKind
  stream : StreamId
  accepted : ℕ
  deriving DecidableEq, Repr

structure PendingRead where
  kind : FrameKind
  stream : StreamId
  length : ℕ
  bytes : List UInt8
  wireConsumed : ℕ
  bufferOffset : ℕ
  deriving DecidableEq, Repr

structure Connection (T : Type) where
  io : Option T
  streams : Table StreamState
  inbound : List StreamId
  nextStream : StreamId
  splitSendSize : ℕ
  receiveLimit : ℕ
  receivedBytes : ℕ
  readHeader : List UInt8
  readHeaderOffset : ℕ
  readFrame : Option PendingRead
  write : Option PendingWrite
  controls : List (FrameKind × StreamId)
  closed : Bool

def usizeMax : ℕ := 2 ^ 64 - 1

def saturatingAdd (a b : ℕ) : ℕ := min (a + b) usizeMax

def overwrite (buffer : List UInt8) (offset : ℕ) (chunk : List UInt8) : List UInt8 :=
  buffer.take offset ++ chunk ++ buffer.drop (offset + chunk.length)

def resize (bytes : List UInt8) (length : ℕ) : List UInt8 :=
  bytes.take length ++ List.replicate (length - bytes.length) 0

def PendingWrite.ofFrame (f : Frame) (accepted : ℕ) : PendingWrite :=
  ⟨f.bytes, 0, f.kind, f.stream, accepted⟩

namespace PendingRead

/-- Size the buffer of a DATA frame to what was not read directly. -/
def prepare (frame : PendingRead) : PendingRead :=
  let remaining := frame.length - frame.wireConsumed
  if frame.kind = .frameData ∧ frame.bytes.length ≠ remaining then
    { frame with bytes := resize frame.bytes remaining }
  else frame

def receive (frame : PendingRead) (chunk : List UInt8) : PendingRead :=
  { frame with
    bytes := overwrite frame.bytes frame.bufferOffset chunk
    bufferOffset := frame.bufferOffset + chunk.length }

end PendingRead

namespace Connection
variable {T : Type}

def stream (c : Connection T) (id : StreamId) : Option StreamState := slot c.streams id.toNat

def modifyStream (c : Connection T) (id : StreamId) (f : StreamState → StreamState) : Connection T :=
  { c with streams := update c.streams id.toNat f }

def insertStream (c : Connection T) (id : StreamId) : Except MuxError (Connection T) :=
  if (c.stream id).isSome then .error .protocol
  else .ok { c with streams := put c.streams id.toNat {} }

def startQueuedControl (c : Connection T) : Connection T :=
  match c.write, c.controls with
  | none, (kind, stream) :: controls =>
    { c with controls := controls, write := some (.ofFrame (Frame.control kind stream) 0) }
  | _, _ => c

def completeWrite (c : Connection T) (write : PendingWrite) : Connection T :=
  let c := { c with write := none }
  if write.kind = .frameData ∧ write.accepted ≠ 0 then
    c.modifyStream write.stream (fun state => { state with completedWrite := write.accepted })
  else c

def clearCompleted (c : Connection T) (stream : StreamId) : Connection T :=
  c.modifyStream stream (fun state => { state with completedWrite := 0 })

/-- `insert_stream` errors reach the caller of `poll_drive` as invalid data. -/
def finishFrame (c : Connection T) (frame : PendingRead) : Except IoError (Connection T) :=
  match frame.kind with
  | .frameOpen =>
    match c.insertStream frame.stream with
    | .ok c => .ok { c with inbound := c.inbound ++ [frame.stream] }
    | .error _ => .error ⟨.invalidData, "yamux stream order is invalid"⟩
  | .frameData =>
    match c.stream frame.stream with
    | none => .error ⟨.invalidData, "unknown mux stream"⟩
    | some _ =>
      .ok ({ c with receivedBytes := c.receivedBytes + frame.bytes.length }.modifyStream frame.stream
        (fun state => { state with input := state.input ++ [frame.bytes] }))
  | .frameFin =>
    match c.stream frame.stream with
    | none => .error ⟨.invalidData, "unknown mux stream"⟩
    | some _ => .ok (c.modifyStream frame.stream (fun state => { state with eof := true }))

def receiveHeader (c : Connection T) (io : T) (chunk : List UInt8) : Connection T :=
  { c with
    io := some io
    readHeader := overwrite c.readHeader c.readHeaderOffset chunk
    readHeaderOffset := c.readHeaderOffset + chunk.length }

/-- Checks of a complete header. The length limits come before the kind. -/
def acceptHeader (c : Connection T) : IoPoll Unit × Connection T :=
  let header := Header.parse c.readHeader
  let c := { c with readHeaderOffset := 0 }
  if c.splitSendSize < header.length ∨
      c.receiveLimit < saturatingAdd c.receivedBytes header.length then
    (.ready (.error ⟨.invalidData, "mux receive limit exceeded"⟩), c)
  else
    match FrameKind.ofCode header.kind with
    | none => (.ready (.error ⟨.invalidData, "invalid mux frame"⟩), c)
    | some kind =>
      if kind ≠ .frameData ∧ header.length ≠ 0 then
        (.ready (.error ⟨.invalidData, "invalid mux frame"⟩), c)
      else
        (.ready (.ok ()), { c with readFrame := some ⟨kind, header.stream, header.length, [], 0, 0⟩ })

variable [AsyncIo T]

def pollFlushWrite (c : Connection T) : IoPoll Unit × Connection T :=
  match c.io with
  | none => (.ready (.error ⟨.notConnected, ""⟩), c)
  | some io =>
    match c.write with
    | none =>
      let flushed := AsyncIo.pollFlush io
      (flushed.1, { c with io := some flushed.2 })
    | some write =>
      let rest := write.bytes.drop write.offset
      match drain (rest.length + 1) io rest with
      | (.ready (.ok ()), io, _) =>
        let flushed := AsyncIo.pollFlush io
        (flushed.1, { c.completeWrite write with io := some flushed.2 })
      | (result, io, sent) =>
        (result, { c with io := some io, write := some { write with offset := write.offset + sent } })

def sendControl (c : Connection T) (kind : FrameKind) (stream : StreamId) :
    IoPoll Unit × Connection T :=
  let c := if c.write.isNone then { c with write := some (.ofFrame (Frame.control kind stream) 0) } else c
  c.pollFlushWrite

def pollControl (c : Connection T) (kind : FrameKind) (stream : StreamId) :
    IoPoll Unit × Connection T :=
  match c.write with
  | none => c.sendControl kind stream
  | some write =>
    if write.kind = kind ∧ write.stream = stream then c.pollFlushWrite
    else
      match c.pollFlushWrite with
      | (.ready (.ok ()), c) => c.sendControl kind stream
      | (result, c) => (result, c)

def flushAccepted (c : Connection T) (stream : StreamId) (accepted : ℕ) : IoPoll ℕ × Connection T :=
  match c.pollFlushWrite with
  | (.ready (.ok ()), c) => (.ready (.ok accepted), c.clearCompleted stream)
  | (.ready (.error e), c) => (.ready (.error e), c)
  | (.pending, c) => (.pending, c)

def startData (c : Connection T) (stream : StreamId) (input : List UInt8) : IoPoll ℕ × Connection T :=
  let length := min input.length c.splitSendSize
  { c with write := some (.ofFrame ⟨.frameData, stream, input.take length⟩ length) }.flushAccepted
    stream length

/-- The part of `poll_data` behind the bookkeeping of an earlier completion. -/
def writeData (c : Connection T) (stream : StreamId) (input : List UInt8) : IoPoll ℕ × Connection T :=
  match c.write with
  | none => c.startData stream input
  | some write =>
    if write.kind = .frameData ∧ write.stream = stream then c.flushAccepted stream write.accepted
    else
      match c.pollFlushWrite with
      | (.ready (.ok ()), c) => c.startData stream input
      | (.ready (.error e), c) => (.ready (.error e), c)
      | (.pending, c) => (.pending, c)

def pollData (c : Connection T) (stream : StreamId) (input : List UInt8) : IoPoll ℕ × Connection T :=
  if c.closed then (.ready (.error ⟨.brokenPipe, ""⟩), c)
  else if input = [] then (.ready (.ok 0), c)
  else
    let accepted := (c.stream stream).elim 0 StreamState.completedWrite
    let c := c.clearCompleted stream
    if accepted ≠ 0 then (.ready (.ok accepted), c)
    else c.startQueuedControl.writeData stream input

def pollPrepareFrame (c : Connection T) : IoPoll Unit × Connection T :=
  match c.readFrame with
  | some _ => (.ready (.ok ()), c)
  | none =>
    match c.io with
    | none => (.pending, { c with closed := true })
    | some io =>
      let want := muxHeaderBytes - c.readHeaderOffset
      match fill (want + 1) io want with
      | (.full, io, chunk) => (c.receiveHeader io chunk).acceptHeader
      | (.ended, io, chunk) => (.pending, { c.receiveHeader io chunk with closed := true })
      | (.failed e, io, chunk) => (.ready (.error e), c.receiveHeader io chunk)
      | (.pending, io, chunk) => (.pending, c.receiveHeader io chunk)

def pollFrameBody (c : Connection T) (frame : PendingRead) : IoPoll Unit × Connection T :=
  let frame := frame.prepare
  match c.io with
  | none => (.pending, { c with readFrame := some frame, closed := true })
  | some io =>
    let want := frame.bytes.length - frame.bufferOffset
    match fill (want + 1) io want with
    | (.full, io, chunk) =>
      let c := { c with io := some io, readFrame := none }
      match c.finishFrame (frame.receive chunk) with
      | .ok c => (.ready (.ok ()), c)
      | .error e => (.ready (.error e), c)
    | (.ended, io, chunk) =>
      (.ready (.error ⟨.unexpectedEof, "mux frame ended early"⟩),
        { c with io := some io, readFrame := some (frame.receive chunk) })
    | (.failed e, io, chunk) =>
      (.ready (.error e), { c with io := some io, readFrame := some (frame.receive chunk) })
    | (.pending, io, chunk) =>
      (.pending, { c with io := some io, readFrame := some (frame.receive chunk) })

/-- The write half of `poll_drive`: only an error stops it. -/
def driveWrite (c : Connection T) : IoPoll Unit × Connection T :=
  let c := c.startQueuedControl
  if c.write.isSome then c.pollFlushWrite else (.ready (.ok ()), c)

/-- The read half of `poll_drive`: at most one frame is finished. -/
def driveRead (c : Connection T) : IoPoll Unit × Connection T :=
  match c.pollPrepareFrame with
  | (.ready (.ok ()), c) =>
    match c.readFrame with
    | some frame => c.pollFrameBody frame
    | none => (.pending, c)
  | (result, c) => (result, c)

def pollDrive (c : Connection T) : IoPoll Unit × Connection T :=
  if c.closed then (.pending, c)
  else
    match c.driveWrite with
    | (.ready (.error e), c) => (.ready (.error e), c)
    | (_, c) => c.driveRead

def readDirect (c : Connection T) (frame : PendingRead) (room : ℕ) :
    IoPoll (List UInt8) × Connection T :=
  match c.io with
  | none => (.ready (.error ⟨.notConnected, ""⟩), c)
  | some io =>
    match AsyncIo.pollRead io (min room (frame.length - frame.wireConsumed)) with
    | (.ready (.ok []), io) => (.ready (.error ⟨.unexpectedEof, ""⟩), { c with io := some io })
    | (.ready (.ok bytes), io) =>
      let consumed := frame.wireConsumed + bytes.length
      (.ready (.ok bytes),
        { c with
          io := some io
          readFrame := if consumed = frame.length then none
            else some { frame with wireConsumed := consumed } })
    | (.ready (.error e), io) => (.ready (.error e), { c with io := some io })
    | (.pending, io) => (.pending, { c with io := some io })

def pollReadStream (c : Connection T) (stream : StreamId) (room : ℕ) :
    IoPoll (List UInt8) × Connection T :=
  match c.pollPrepareFrame with
  | (.ready (.error e), c) => (.ready (.error e), c)
  | (.pending, c) => (.pending, c)
  | (.ready (.ok ()), c) =>
    match c.readFrame with
    | none => (.pending, c)
    | some frame =>
      if frame.kind ≠ .frameData ∨ frame.stream ≠ stream ∨ frame.bytes ≠ [] ∨
          frame.length = frame.wireConsumed then
        match c.pollDrive with
        | (.ready (.error e), c) => (.ready (.error e), c)
        | (_, c) => (.pending, c)
      else c.readDirect frame room

/-- `MuxStream::poll_read`: the queue of the stream first, then the wire. -/
def pollRead (c : Connection T) (id : StreamId) (room : ℕ) : IoPoll (List UInt8) × Connection T :=
  if room = 0 then (.ready (.ok []), c)
  else
    match c.stream id with
    | none => (.ready (.error ⟨.notConnected, "mux stream is closed"⟩), c)
    | some state =>
      match state.input with
      | [] => if state.eof then (.ready (.ok []), c) else c.pollReadStream id room
      | front :: _ =>
        let count := min room (front.length - state.offset)
        let next := c.modifyStream id (fun state => state.advance count)
        if count ≠ 0 then
          (.ready (.ok ((front.drop state.offset).take count)),
            { next with receivedBytes := next.receivedBytes - count })
        else next.pollReadStream id room

end Connection

/-- A handle on one stream. The connection it shares is passed along. -/
structure MuxStream where
  id : StreamId
  writeClosed : Bool := false
  deriving DecidableEq, Repr

namespace MuxStream
variable {T : Type}

def drop (s : MuxStream) (c : Connection T) : Connection T :=
  if s.writeClosed ∨ c.closed then c
  else { c with controls := c.controls ++ [(.frameFin, s.id)] }

variable [AsyncIo T]

def pollClose (s : MuxStream) (c : Connection T) : IoPoll Unit × MuxStream × Connection T :=
  if s.writeClosed then (.ready (.ok ()), s, c)
  else
    match c.pollControl .frameFin s.id with
    | (.ready (.ok ()), c) => (.ready (.ok ()), { s with writeClosed := true }, c)
    | (result, c) => (result, s, c)

end MuxStream

/-- A stream together with its connection is a byte stream again. -/
structure StreamEnd (T : Type) where
  id : StreamId
  connection : Connection T

instance {T : Type} [AsyncIo T] : AsyncIo (StreamEnd T) where
  pollRead s room := let r := s.connection.pollRead s.id room; (r.1, { s with connection := r.2 })
  pollWrite s input := let r := s.connection.pollData s.id input; (r.1, { s with connection := r.2 })
  pollFlush s := let r := s.connection.pollFlushWrite; (r.1, { s with connection := r.2 })

end Snolc.Mux
