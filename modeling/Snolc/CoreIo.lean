import Snolc.MuxConnection

set_option autoImplicit false

/-!
# Streams behind handles

Modules reach a mux stream through a numeric handle and the callbacks of the
core. A callback looks the handle up and turns the answer of the stream into a
result of the module interface. Null pointers do not arise: a buffer is a list.
-/
namespace Snolc.CoreIo
open PollIo MuxFrame Mux

inductive Status where
  | ok
  | unsupported
  | invalid
  | resource
  | io
  | internal
  | pending
  | denied
  deriving DecidableEq, Repr

def Status.code : Status → UInt32
  | ok => 0
  | unsupported => 1
  | invalid => 2
  | resource => 3
  | io => 4
  | internal => 5
  | pending => 6
  | denied => 7

inductive IoResult where
  | progress (count : ℕ)
  | pending
  | eof
  | error (code : Status)
  deriving DecidableEq, Repr

def writeResult (length : ℕ) : IoPoll ℕ → IoResult
  | .ready (.ok count) =>
    if count = 0 ∧ length ≠ 0 then .error .io
    else if count ≤ length then .progress count
    else .error .internal
  | .ready (.error _) => .error .io
  | .pending => .pending

/-- The `write` callback on a handle that stands for a stream of the connection. -/
def write {T : Type} [AsyncIo T] (streams : ℕ → Option StreamId) (c : Connection T) (handle : ℕ)
    (input : List UInt8) : IoResult × Connection T :=
  match streams handle with
  | none => (.error .invalid, c)
  | some id =>
    let r := c.pollData id input
    (writeResult input.length r.1, r.2)

abbrev Handle := UInt64

inductive CoreIoError where
  | limit
  | handle
  deriving DecidableEq, Repr

inductive Table where
  | streams
  | datagrams
  deriving DecidableEq, Repr

/-- The handles in use. Their numbers come from one counter, which wraps. -/
structure Registry where
  next : Handle := 1
  streams : List Handle := []
  datagrams : List Handle := []
  deriving DecidableEq, Repr

namespace Registry

def insert (r : Registry) (handle : Handle) : Table → Registry
  | .streams => { r with streams := r.streams.insert handle }
  | .datagrams => { r with datagrams := r.datagrams.insert handle }

def remove (r : Registry) (handle : Handle) : Table → Registry
  | .streams => { r with streams := r.streams.erase handle }
  | .datagrams => { r with datagrams := r.datagrams.erase handle }

def isRegistered (r : Registry) (handle : Handle) : Bool :=
  r.streams.contains handle || r.datagrams.contains handle

def register (r : Registry) (table : Table) (limit : ℕ) : Except CoreIoError Handle × Registry :=
  if limit = 0 then (.error .limit, r)
  else
    let handle := r.next
    let r := { r with next := handle + 1 }
    if handle = 0 then (.error .handle, r)
    else if limit ≤ saturatingAdd r.streams.length r.datagrams.length then (.error .limit, r)
    else (.ok handle, r.insert handle table)

end Registry

/-- The callback reports an internal error exactly for a count beyond the buffer. -/
theorem writeResult_internal (length : ℕ) (result : IoPoll ℕ) :
    writeResult length result = .error .internal ↔ length < writeCount result := by
  rcases result with (e | count) | _
  · simp [writeResult]
  · simp only [writeResult, writeCount_ok]
    split
    · rename_i h
      simp [h.1]
    · split <;> rename_i h
      · simp [h]
      · simp [Nat.lt_of_not_le h]
  · simp [writeResult]

end Snolc.CoreIo
