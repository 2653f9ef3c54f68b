import Snolc.AsyncTask
import Snolc.MuxConnection

set_option autoImplicit false

/-!
# The mux session and its operations

Every `async fn` of the session is the inductive type of its await points and a
poll function that runs from one await point to the next. A failed operation
drops the stream it opened or accepted, which queues a FIN, and gives back the
user stream it reserved.
-/
namespace Snolc.Mux
open PollIo MuxFrame AsyncTask WireFormat ByteOrder

inductive Mode where
  | client
  | server
  deriving DecidableEq, Repr

structure YamuxConfig where
  maxStreamsPerSession : ℕ
  receiveWindowBytes : ℕ
  splitSendSize : ℕ
  deriving DecidableEq, Repr

structure MuxSession (T : Type) where
  connection : Connection T
  role : Mode
  policyOpen : Bool
  userStreams : ℕ
  maxUserStreams : ℕ

/-! ## Frames at the start of a stream -/

def wireResult {α : Type} : Except WireError α → Except MuxError α
  | .ok a => .ok a
  | .error e => .error (.wire e)

def writeFrame (frame : Except WireError (List UInt8)) : Task MuxError Unit :=
  match frame with
  | .ok bytes => .writeAll bytes (.flush (.done (.ok ())))
  | .error e => .done (.error (.wire e))

def writePolicy (family : String) : Task MuxError Unit := writeFrame (encodePolicy family)

def writeOpen (request : OpenRequest) : Task MuxError Unit := writeFrame (encodeOpen request)

def writeOpenResponse (response : OpenResponse) : Task MuxError Unit :=
  writeFrame (encodeOpenResponse response)

def readPolicy : Task MuxError String :=
  .read (headerLength + 2) fun header =>
    match parseHeader (header.take headerLength) with
    | .error e => .done (.error (.wire e))
    | .ok kind =>
      if kind ≠ .policy then .done (.error .protocol)
      else
        let length := ofBytes (header.drop headerLength)
        if ¬ (1 ≤ length ∧ length ≤ maxPolicyFamily) then .done (.error (.wire .length))
        else .read length fun body => .done (wireResult (parsePolicy (header ++ body)))

def readOpen : Task MuxError OpenRequest :=
  .read (headerLength + 2) fun start =>
    let length := ofBytes (start.drop headerLength)
    if maxOpenBody < length then .done (.error (.wire .length))
    else .read length fun body => .done (wireResult (parseOpen (start ++ body)))

def readOpenResponse : Task MuxError OpenResponse :=
  .read 3 fun start =>
    let length := ofBytes (start.drop 1)
    if maxReason < length then .done (.error (.wire .length))
    else .read length fun body => .done (wireResult (parseOpenResponse (start ++ body)))

/-! ## Steps shared by the operations -/

/-- Where a polled operation is: finished, or waiting at an await point. -/
inductive Progress (σ ρ : Type) where
  | finished (result : Except MuxError ρ)
  | waiting (stage : σ)

namespace Connection
variable {T : Type}

def queueStream (c : Connection T) : Except MuxError MuxStream × Connection T :=
  let id := c.nextStream
  if 2 ^ 32 ≤ id.toNat + 2 then (.error .streamLimit, c)
  else
    let c := { c with nextStream := id + 2 }
    match c.insertStream id with
    | .ok c => (.ok { id }, c)
    | .error e => (.error e, c)

variable [AsyncIo T]

def pollAcceptStream (c : Connection T) : Poll (Except MuxError StreamId) × Connection T :=
  match c.inbound with
  | id :: inbound => (.ready (.ok id), { c with inbound })
  | [] =>
    match c.pollDrive with
    | (.ready (.error e), c) => (.ready (.error (.io e)), c)
    | (_, c) => if c.closed then (.ready (.error .closed), c) else (.pending, c)

def driveOperation {α : Type} (c : Connection T) (id : StreamId) (task : Task MuxError α) :
    Poll (Except MuxError α) × Task MuxError α × Connection T :=
  match task.poll MuxError.io (StreamEnd.mk id c) with
  | (.ready (.error e), task, s) => (.ready (.error e), task, s.connection)
  | (result, task, s) =>
    match s.connection.pollDrive with
    | (.ready (.error e), c) => (.ready (.error (.io e)), task, c)
    | (_, c) => (result, task, c)

end Connection

namespace MuxSession
variable {T : Type}

def new (io : T) (role : Mode) (config : YamuxConfig) : MuxSession T where
  connection :=
    { io := some io
      streams := []
      inbound := []
      nextStream := if role = .client then 1 else 2
      splitSendSize := config.splitSendSize
      receiveLimit := config.receiveWindowBytes
      receivedBytes := 0
      readHeader := List.replicate muxHeaderBytes 0
      readHeaderOffset := 0
      readFrame := none
      write := none
      controls := []
      closed := false }
  role := role
  policyOpen := false
  userStreams := 0
  maxUserStreams := config.maxStreamsPerSession - 1

def reserveUserStream (s : MuxSession T) : Except MuxError (MuxSession T) :=
  if s.maxUserStreams ≤ s.userStreams then .error .streamLimit
  else .ok { s with userStreams := s.userStreams + 1 }

/-- `release_flow` saturates at zero. -/
def releaseFlow (s : MuxSession T) : MuxSession T := { s with userStreams := s.userStreams - 1 }

def withConnection (s : MuxSession T) (c : Connection T) : MuxSession T := { s with connection := c }

def dropStream (s : MuxSession T) (id : StreamId) : MuxSession T :=
  s.withConnection (({ id } : MuxStream).drop s.connection)

def failStream {σ ρ : Type} (s : MuxSession T) (id : StreamId) (e : MuxError) :
    Progress σ ρ × MuxSession T :=
  (.finished (.error e), s.dropStream id)

/-- As `failStream`, for an operation that also reserved a user stream. -/
def failFlow {σ ρ : Type} (s : MuxSession T) (id : StreamId) (e : MuxError) :
    Progress σ ρ × MuxSession T :=
  ({ s with userStreams := s.userStreams - 1 } : MuxSession T).failStream id e

variable [AsyncIo T] {σ ρ α : Type}

def awaitControl (s : MuxSession T) (id : StreamId) (stage : σ)
    (failed : MuxSession T → MuxError → Progress σ ρ × MuxSession T)
    (next : MuxSession T → Progress σ ρ × MuxSession T) : Progress σ ρ × MuxSession T :=
  match s.connection.pollControl .frameOpen id with
  | (.ready (.ok ()), c) => next (s.withConnection c)
  | (.ready (.error e), c) => failed (s.withConnection c) (.io e)
  | (.pending, c) => (.waiting stage, s.withConnection c)

def awaitAccept (s : MuxSession T) (stage : σ)
    (failed : MuxSession T → MuxError → Progress σ ρ × MuxSession T)
    (next : MuxSession T → StreamId → Progress σ ρ × MuxSession T) : Progress σ ρ × MuxSession T :=
  match s.connection.pollAcceptStream with
  | (.ready (.ok id), c) => next (s.withConnection c) id
  | (.ready (.error e), c) => failed (s.withConnection c) e
  | (.pending, c) => (.waiting stage, s.withConnection c)

def awaitDrive (s : MuxSession T) (id : StreamId) (task : Task MuxError α)
    (stage : Task MuxError α → σ)
    (failed : MuxSession T → MuxError → Progress σ ρ × MuxSession T)
    (next : MuxSession T → α → Progress σ ρ × MuxSession T) : Progress σ ρ × MuxSession T :=
  match s.connection.driveOperation id task with
  | (.ready (.ok a), _, c) => next (s.withConnection c) a
  | (.ready (.error e), _, c) => failed (s.withConnection c) e
  | (.pending, task, c) => (.waiting (stage task), s.withConnection c)

end MuxSession

/-! ## `open_policy` -/

inductive OpenPolicy where
  | start
  | opening (id : StreamId)
  | writing (id : StreamId) (task : Task MuxError Unit)
  | reading (id : StreamId) (task : Task MuxError String)

namespace OpenPolicy
variable {T : Type} [AsyncIo T] (family : String)

def read (s : MuxSession T) (id : StreamId) (task : Task MuxError String) :
    Progress OpenPolicy MuxStream × MuxSession T :=
  s.awaitDrive id task (.reading id) (fun s e => s.failStream id e) fun s response =>
    if response ≠ family then s.failStream id .policyFamily
    else (.finished (.ok { id }), { s with policyOpen := true })

def write (s : MuxSession T) (id : StreamId) (task : Task MuxError Unit) :
    Progress OpenPolicy MuxStream × MuxSession T :=
  s.awaitDrive id task (.writing id) (fun s e => s.failStream id e) fun s _ =>
    read family s id readPolicy

def opened (s : MuxSession T) (id : StreamId) : Progress OpenPolicy MuxStream × MuxSession T :=
  s.awaitControl id (.opening id) (fun s e => s.failStream id e) fun s =>
    write family s id (writePolicy family)

def poll (s : MuxSession T) : OpenPolicy → Progress OpenPolicy MuxStream × MuxSession T
  | .start =>
    if s.role ≠ .client ∨ s.policyOpen then (.finished (.error .protocol), s)
    else
      match s.connection.queueStream with
      | (.error e, c) => (.finished (.error e), s.withConnection c)
      | (.ok stream, c) => opened family (s.withConnection c) stream.id
  | .opening id => opened family s id
  | .writing id task => write family s id task
  | .reading id task => read family s id task

end OpenPolicy

/-! ## `accept_policy` -/

inductive AcceptPolicy where
  | start
  | accepting
  | reading (id : StreamId) (task : Task MuxError String)
  | writing (id : StreamId) (task : Task MuxError Unit)

namespace AcceptPolicy
variable {T : Type} [AsyncIo T] (family : String)

def write (s : MuxSession T) (id : StreamId) (task : Task MuxError Unit) :
    Progress AcceptPolicy MuxStream × MuxSession T :=
  s.awaitDrive id task (.writing id) (fun s e => s.failStream id e) fun s _ =>
    (.finished (.ok { id }), { s with policyOpen := true })

def read (s : MuxSession T) (id : StreamId) (task : Task MuxError String) :
    Progress AcceptPolicy MuxStream × MuxSession T :=
  s.awaitDrive id task (.reading id) (fun s e => s.failStream id e) fun s request =>
    if request ≠ family then s.failStream id .policyFamily
    else write s id (writePolicy family)

def accept (s : MuxSession T) : Progress AcceptPolicy MuxStream × MuxSession T :=
  s.awaitAccept .accepting (fun s e => (.finished (.error e), s)) fun s id =>
    read family s id readPolicy

def poll (s : MuxSession T) : AcceptPolicy → Progress AcceptPolicy MuxStream × MuxSession T
  | .start =>
    if s.role ≠ .server ∨ s.policyOpen then (.finished (.error .protocol), s) else accept family s
  | .accepting => accept family s
  | .reading id task => read family s id task
  | .writing id task => write s id task

end AcceptPolicy

/-! ## `open_flow` and `open_flow_confirmed` -/

inductive OpenFlow where
  | start
  | opening (id : StreamId)
  | writing (id : StreamId) (task : Task MuxError Unit)
  | reading (id : StreamId) (task : Task MuxError OpenResponse)

structure OpenedFlow where
  stream : MuxStream
  response : Option OpenResponse

namespace OpenFlow
variable {T : Type} [AsyncIo T] (request : OpenRequest) (confirmed : Bool)

def read (s : MuxSession T) (id : StreamId) (task : Task MuxError OpenResponse) :
    Progress OpenFlow OpenedFlow × MuxSession T :=
  s.awaitDrive id task (.reading id) (fun s e => s.failFlow id e) fun s response =>
    (.finished (.ok ⟨{ id }, some response⟩), s)

def write (s : MuxSession T) (id : StreamId) (task : Task MuxError Unit) :
    Progress OpenFlow OpenedFlow × MuxSession T :=
  s.awaitDrive id task (.writing id) (fun s e => s.failFlow id e) fun s _ =>
    if confirmed then read s id readOpenResponse else (.finished (.ok ⟨{ id }, none⟩), s)

def opened (s : MuxSession T) (id : StreamId) : Progress OpenFlow OpenedFlow × MuxSession T :=
  s.awaitControl id (.opening id) (fun s e => s.failFlow id e) fun s =>
    write confirmed s id (writeOpen request)

def poll (s : MuxSession T) : OpenFlow → Progress OpenFlow OpenedFlow × MuxSession T
  | .start =>
    if s.role ≠ .client ∨ ¬ s.policyOpen then (.finished (.error .policyRequired), s)
    else
      match s.reserveUserStream with
      | .error e => (.finished (.error e), s)
      | .ok s =>
        match s.connection.queueStream with
        | (.error e, c) =>
          (.finished (.error e), { s.withConnection c with userStreams := s.userStreams - 1 })
        | (.ok stream, c) => opened request confirmed (s.withConnection c) stream.id
  | .opening id => opened request confirmed s id
  | .writing id task => write confirmed s id task
  | .reading id task => read s id task

end OpenFlow

/-! ## `accept_flow` -/

inductive AcceptFlow where
  | start
  | accepting
  | reading (id : StreamId) (task : Task MuxError OpenRequest)

namespace AcceptFlow
variable {T : Type} [AsyncIo T]

def read (s : MuxSession T) (id : StreamId) (task : Task MuxError OpenRequest) :
    Progress AcceptFlow (OpenRequest × MuxStream) × MuxSession T :=
  s.awaitDrive id task (.reading id) (fun s e => s.failFlow id e) fun s request =>
    (.finished (.ok (request, { id })), s)

def accept (s : MuxSession T) : Progress AcceptFlow (OpenRequest × MuxStream) × MuxSession T :=
  s.awaitAccept .accepting
    (fun s e => (.finished (.error e), { s with userStreams := s.userStreams - 1 }))
    fun s id => read s id readOpen

/-- The user stream is reserved before any OPEN has arrived. -/
def poll (s : MuxSession T) : AcceptFlow → Progress AcceptFlow (OpenRequest × MuxStream) × MuxSession T
  | .start =>
    if s.role ≠ .server ∨ ¬ s.policyOpen then (.finished (.error .policyRequired), s)
    else
      match s.reserveUserStream with
      | .error e => (.finished (.error e), s)
      | .ok s => accept s
  | .accepting => accept s
  | .reading id task => read s id task

end AcceptFlow

/-! ## `respond_flow` -/

inductive RespondFlow where
  | start (response : OpenResponse)
  | writing (task : Task MuxError Unit)

namespace RespondFlow
variable {T : Type} [AsyncIo T] (stream : MuxStream)

def write (s : MuxSession T) (task : Task MuxError Unit) : Progress RespondFlow Unit × MuxSession T :=
  s.awaitDrive stream.id task .writing (fun s e => (.finished (.error e), s)) fun s _ =>
    (.finished (.ok ()), s)

def poll (s : MuxSession T) : RespondFlow → Progress RespondFlow Unit × MuxSession T
  | .start response =>
    if s.role ≠ .server ∨ ¬ s.policyOpen then (.finished (.error .policyRequired), s)
    else write stream s (writeOpenResponse response)
  | .writing task => write stream s task

end RespondFlow

/-! ## Futures of `begin_open_flow_confirmed` -/

def openFlowTask (request : OpenRequest) : Task MuxError OpenResponse :=
  (writeOpen request).bind fun _ => readOpenResponse

namespace MuxSession
variable {T : Type}

/-- Queue the OPEN and hand out the stream with the task its future runs. -/
def beginOpenFlowConfirmed (s : MuxSession T) (request : OpenRequest) :
    Except MuxError (MuxStream × Task MuxError OpenResponse) × MuxSession T :=
  if s.role ≠ .client ∨ ¬ s.policyOpen then (.error .policyRequired, s)
  else
    match s.reserveUserStream with
    | .error e => (.error e, s)
    | .ok s =>
      match s.connection.queueStream with
      | (.error e, c) => (.error e, { s.withConnection c with userStreams := s.userStreams - 1 })
      | (.ok stream, c) =>
        (.ok (stream, openFlowTask request),
          s.withConnection { c with controls := c.controls ++ [(.frameOpen, stream.id)] })

variable [AsyncIo T]

def pollDrive (s : MuxSession T) : Poll (Except MuxError Unit) × MuxSession T :=
  match s.connection.pollDrive with
  | (.ready (.ok ()), c) => (.ready (.ok ()), s.withConnection c)
  | (.ready (.error e), c) => (.ready (.error (.io e)), s.withConnection c)
  | (.pending, c) =>
    if c.closed then (.ready (.error .closed), s.withConnection c) else (.pending, s.withConnection c)

end MuxSession
end Snolc.Mux
