import Snolc.CoreIo
import Snolc.SdkDatagramPump

set_option autoImplicit false

/-!
# Streams and datagram ports across the module interface

The core keeps its streams and datagram ports in two tables. A callback looks up a
handle, polls the object behind it and writes the answer as a tag, a code and a count;
a module reads the three back. Null pointers do not arise: a buffer is a list.
-/
namespace Snolc.ModuleIo
open PollIo CoreIo
open Sdk (DatagramIo DatagramRecv)

/-! ## Results of the interface -/

def ioProgress : UInt32 := 0
def ioPending : UInt32 := 1
def ioEof : UInt32 := 2
def ioError : UInt32 := 3
def ioBufferTooSmall : UInt32 := 4

structure SnolIoResult where
  tag : UInt32
  code : UInt32
  count : ℕ
  deriving DecidableEq, Repr

namespace SnolIoResult

def progress (count : ℕ) : SnolIoResult := ⟨ioProgress, Status.ok.code, count⟩
def pending : SnolIoResult := ⟨ioPending, Status.ok.code, 0⟩
def eof : SnolIoResult := ⟨ioEof, Status.ok.code, 0⟩
def error (code : Status) : SnolIoResult := ⟨ioError, code.code, 0⟩
def bufferTooSmall (required : ℕ) : SnolIoResult := ⟨ioBufferTooSmall, Status.ok.code, required⟩

def ofIoResult : IoResult → SnolIoResult
  | .progress count => progress count
  | .pending => pending
  | .eof => eof
  | .error code => error code

end SnolIoResult

/-! ## The core -/

/-- A stream the core hands out. A read fills a buffer of the caller, and no count exceeds the buffer. -/
class ByteStream (T : Type) where
  pollRead : T → List UInt8 → IoPoll ℕ × List UInt8 × T
  pollWrite : T → List UInt8 → IoPoll ℕ × T
  pollFlush : T → IoPoll Unit × T
  pollClose : T → IoPoll Unit × T
  read_size : ∀ t output, (pollRead t output).2.1.length = output.length
  read_le : ∀ t output count, (pollRead t output).1 = .ready (.ok count) → count ≤ output.length
  write_le : ∀ t input count, (pollWrite t input).1 = .ready (.ok count) → count ≤ input.length

class DatagramPort (T : Type) extends DatagramIo T where
  recv_le : ∀ t output length, (pollRecvDatagram t output).1 = .ready (.ok (.datagram length)) →
    length ≤ output.length

/-- `STREAMS` and `DATAGRAMS`. -/
structure Objects (S D : Type) where
  streams : Handle → Option S
  datagrams : Handle → Option D

namespace Objects
variable {S D : Type}

def putStream (o : Objects S D) (handle : Handle) (io : S) : Objects S D :=
  { o with streams := Function.update o.streams handle (some io) }

def putDatagrams (o : Objects S D) (handle : Handle) (io : D) : Objects S D :=
  { o with datagrams := Function.update o.datagrams handle (some io) }

def readResult (length : ℕ) : IoPoll ℕ → SnolIoResult
  | .ready (.ok count) =>
    if count = 0 then .eof
    else if count ≤ length then .progress count
    else .error .internal
  | .ready (.error _) => .error .io
  | .pending => .pending

def actionResult : IoPoll Unit → SnolIoResult
  | .ready (.ok ()) => .progress 0
  | .ready (.error _) => .error .io
  | .pending => .pending

def recvResult (length : ℕ) : IoPoll DatagramRecv → SnolIoResult
  | .ready (.ok (.datagram count)) => if count ≤ length then .progress count else .error .internal
  | .ready (.ok (.bufferTooSmall required)) => .bufferTooSmall required
  | .ready (.ok .closed) => .eof
  | .ready (.error _) => .error .io
  | .pending => .pending

def sendResult (length : ℕ) : IoPoll Unit → SnolIoResult
  | .ready (.ok ()) => .progress length
  | .ready (.error _) => .error .io
  | .pending => .pending

section Callbacks
variable [ByteStream S] [DatagramIo D]

def read (o : Objects S D) (handle : Handle) (output : List UInt8) : SnolIoResult × List UInt8 × Objects S D :=
  match o.streams handle with
  | none => (.error .invalid, output, o)
  | some io =>
    let r := ByteStream.pollRead io output
    (readResult output.length r.1, r.2.1, o.putStream handle r.2.2)

def write (o : Objects S D) (handle : Handle) (input : List UInt8) : SnolIoResult × Objects S D :=
  match o.streams handle with
  | none => (.error .invalid, o)
  | some io =>
    let r := ByteStream.pollWrite io input
    (.ofIoResult (writeResult input.length r.1), o.putStream handle r.2)

def action (o : Objects S D) (handle : Handle) (function : S → IoPoll Unit × S) : SnolIoResult × Objects S D :=
  match o.streams handle with
  | none => (.error .invalid, o)
  | some io => (actionResult (function io).1, o.putStream handle (function io).2)

def flush (o : Objects S D) (handle : Handle) : SnolIoResult × Objects S D := o.action handle ByteStream.pollFlush

def shutdownWrite (o : Objects S D) (handle : Handle) : SnolIoResult × Objects S D :=
  o.action handle ByteStream.pollClose

def close (o : Objects S D) (handle : Handle) : UInt32 × Objects S D :=
  if (o.streams handle).isSome then
    (Status.ok.code, { o with streams := Function.update o.streams handle none })
  else (Status.invalid.code, o)

def recvDatagram (o : Objects S D) (handle : Handle) (output : List UInt8) :
    SnolIoResult × List UInt8 × Objects S D :=
  match o.datagrams handle with
  | none => (.error .invalid, output, o)
  | some io =>
    let r := DatagramIo.pollRecvDatagram io output
    (recvResult output.length r.1, r.2.1, o.putDatagrams handle r.2.2)

def sendDatagram (o : Objects S D) (handle : Handle) (input : List UInt8) : SnolIoResult × Objects S D :=
  match o.datagrams handle with
  | none => (.error .invalid, o)
  | some io =>
    let r := DatagramIo.pollSendDatagram io input
    (sendResult input.length r.1, o.putDatagrams handle r.2)

def closeDatagram (o : Objects S D) (handle : Handle) : UInt32 × Objects S D :=
  if (o.datagrams handle).isSome then
    (Status.ok.code, { o with datagrams := Function.update o.datagrams handle none })
  else (Status.invalid.code, o)

end Callbacks

end Objects

/-! ## Tables of callbacks -/

abbrev ReadFn (O : Type) := O → Handle → List UInt8 → SnolIoResult × List UInt8 × O
abbrev WriteFn (O : Type) := O → Handle → List UInt8 → SnolIoResult × O
abbrev IoActionFn (O : Type) := O → Handle → SnolIoResult × O
abbrev CloseFn (O : Type) := O → Handle → UInt32 × O

structure SnolByteIoV1 (O : Type) where
  structSize : UInt32
  reserved : UInt32
  read : Option (ReadFn O)
  write : Option (WriteFn O)
  flush : Option (IoActionFn O)
  shutdownWrite : Option (IoActionFn O)
  close : Option (CloseFn O)

structure SnolDatagramIoV1 (O : Type) where
  structSize : UInt32
  reserved : UInt32
  recvDatagram : Option (ReadFn O)
  sendDatagram : Option (WriteFn O)
  close : Option (CloseFn O)

def byteIoSize : UInt32 := 48
def datagramIoSize : UInt32 := 32

section
variable {S D : Type} [ByteStream S] [DatagramIo D]

def coreByteIo : SnolByteIoV1 (Objects S D) where
  structSize := byteIoSize
  reserved := 0
  read := some Objects.read
  write := some Objects.write
  flush := some Objects.flush
  shutdownWrite := some Objects.shutdownWrite
  close := some Objects.close

def coreDatagramIo : SnolDatagramIoV1 (Objects S D) where
  structSize := datagramIoSize
  reserved := 0
  recvDatagram := some Objects.recvDatagram
  sendDatagram := some Objects.sendDatagram
  close := some Objects.closeDatagram

end

/-! ## The module -/

inductive ForeignIoError where
  | table
  deriving DecidableEq, Repr

def statusError (status : UInt32) : IoError :=
  ⟨.other, "foreign module I/O failed with status " ++ toString status.toNat⟩

def invalidData (message : String) : IoError := ⟨.invalidData, message⟩

def mapIo (result : SnolIoResult) (limit : ℕ) (read : Bool) : IoPoll ℕ :=
  if result.tag = ioProgress ∧ result.code = Status.ok.code ∧ result.count ≤ limit then
    .ready (.ok result.count)
  else if result.tag = ioPending ∧ result.code = Status.ok.code ∧ result.count = 0 then .pending
  else if result.tag = ioEof ∧ read = true ∧ result.code = Status.ok.code ∧ result.count = 0 then .ready (.ok 0)
  else if result.tag = ioError ∧ result.count = 0 then .ready (.error (statusError result.code))
  else .ready (.error (invalidData "foreign module returned an invalid I/O result"))

def mapAction (result : SnolIoResult) : IoPoll Unit :=
  if result.tag = ioProgress ∧ result.code = Status.ok.code ∧ result.count = 0 then .ready (.ok ())
  else if result.tag = ioPending ∧ result.code = Status.ok.code ∧ result.count = 0 then .pending
  else if result.tag = ioError ∧ result.count = 0 then .ready (.error (statusError result.code))
  else .ready (.error (invalidData "foreign module returned an invalid I/O action result"))

def mapRecv (result : SnolIoResult) (limit : ℕ) : IoPoll DatagramRecv :=
  if result.tag = ioProgress ∧ result.code = Status.ok.code ∧ result.count ≤ limit then
    .ready (.ok (.datagram result.count))
  else if result.tag = ioBufferTooSmall ∧ result.code = Status.ok.code then
    .ready (.ok (.bufferTooSmall result.count))
  else if result.tag = ioPending ∧ result.code = Status.ok.code ∧ result.count = 0 then .pending
  else if result.tag = ioEof ∧ result.code = Status.ok.code ∧ result.count = 0 then .ready (.ok .closed)
  else if result.tag = ioError ∧ result.count = 0 then .ready (.error (statusError result.code))
  else .ready (.error (invalidData "foreign module returned an invalid datagram result"))

def mapSend (result : SnolIoResult) (length : ℕ) : IoPoll Unit :=
  if result.tag = ioProgress ∧ result.code = Status.ok.code ∧ result.count = length then .ready (.ok ())
  else if result.tag = ioPending ∧ result.code = Status.ok.code ∧ result.count = 0 then .pending
  else if result.tag = ioError ∧ result.count = 0 then .ready (.error (statusError result.code))
  else .ready (.error (invalidData "foreign module returned an invalid datagram result"))

structure ForeignByteIo (O : Type) where
  handle : Handle
  table : SnolByteIoV1 O
  closed : Bool

namespace ForeignByteIo
variable {O : Type}

def fromRaw (handle : Handle) (table : Option (SnolByteIoV1 O)) : Except ForeignIoError (ForeignByteIo O) :=
  match table with
  | none => .error .table
  | some value =>
    if handle = 0 ∨ value.structSize < byteIoSize ∨ value.reserved ≠ 0 ∨ value.read.isNone ∨ value.write.isNone ∨
        value.flush.isNone ∨ value.shutdownWrite.isNone ∨ value.close.isNone then .error .table
    else .ok ⟨handle, value, false⟩

/-- A table that lacks a callback stops the module. -/
def pollRead (f : ForeignByteIo O) (o : O) (output : List UInt8) : Option (IoPoll ℕ × List UInt8 × O) :=
  f.table.read.map fun read =>
    let r := read o f.handle output
    (mapIo r.1 output.length true, r.2.1, r.2.2)

def pollWrite (f : ForeignByteIo O) (o : O) (input : List UInt8) : Option (IoPoll ℕ × O) :=
  f.table.write.map fun write => let r := write o f.handle input; (mapIo r.1 input.length false, r.2)

def pollFlush (f : ForeignByteIo O) (o : O) : Option (IoPoll Unit × O) :=
  f.table.flush.map fun flush => let r := flush o f.handle; (mapAction r.1, r.2)

def pollShutdownWrite (f : ForeignByteIo O) (o : O) : Option (IoPoll Unit × O) :=
  f.table.shutdownWrite.map fun shutdown => let r := shutdown o f.handle; (mapAction r.1, r.2)

def close (f : ForeignByteIo O) (o : O) : Option (Except IoError Unit × ForeignByteIo O × O) :=
  if f.closed then some (.ok (), f, o)
  else
    f.table.close.map fun close =>
      let r := close o f.handle
      (if r.1 = Status.ok.code then .ok () else .error (statusError r.1), { f with closed := true }, r.2)

end ForeignByteIo

structure ForeignDatagramIo (O : Type) where
  handle : Handle
  table : SnolDatagramIoV1 O
  closed : Bool

namespace ForeignDatagramIo
variable {O : Type}

def fromRaw (handle : Handle) (table : Option (SnolDatagramIoV1 O)) :
    Except ForeignIoError (ForeignDatagramIo O) :=
  match table with
  | none => .error .table
  | some value =>
    if handle = 0 ∨ value.structSize < datagramIoSize ∨ value.reserved ≠ 0 ∨ value.recvDatagram.isNone ∨
        value.sendDatagram.isNone ∨ value.close.isNone then .error .table
    else .ok ⟨handle, value, false⟩

def pollRecvDatagram (f : ForeignDatagramIo O) (o : O) (output : List UInt8) :
    Option (IoPoll DatagramRecv × List UInt8 × O) :=
  f.table.recvDatagram.map fun recv =>
    let r := recv o f.handle output
    (mapRecv r.1 output.length, r.2.1, r.2.2)

def pollSendDatagram (f : ForeignDatagramIo O) (o : O) (datagram : List UInt8) : Option (IoPoll Unit × O) :=
  f.table.sendDatagram.map fun send => let r := send o f.handle datagram; (mapSend r.1 datagram.length, r.2)

def close (f : ForeignDatagramIo O) (o : O) : Option (Except IoError Unit × ForeignDatagramIo O × O) :=
  if f.closed then some (.ok (), f, o)
  else
    f.table.close.map fun close =>
      let r := close o f.handle
      (if r.1 = Status.ok.code then .ok () else .error (statusError r.1), { f with closed := true }, r.2)

end ForeignDatagramIo

end Snolc.ModuleIo
