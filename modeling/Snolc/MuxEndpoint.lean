import Snolc.MuxSession

set_option autoImplicit false

/-!
# An endpoint and the code that holds its streams

Every stream of a connection is held by at most one piece of code: a call of
`open_stream` that waits for its OPEN frame, a future of
`begin_open_flow_confirmed`, or the owner of a `MuxStream`. An action is one call
of one of them, or of the session. The session operations only combine these
calls, so a run of actions in any order covers every way to interleave them.
The histories record which ids were opened here, whose `open_stream` and whose
`poll_close` succeeded, which were dropped here, and which the peer announced and
ended.
-/
namespace Snolc.Mux
open PollIo MuxFrame AsyncTask WireFormat

inductive Owner where
  | free
  | opening
  | future (task : Task MuxError OpenResponse)
  | handle (writeClosed : Bool)

structure Endpoint (T : Type) where
  connection : Connection T
  owner : StreamId → Owner
  opened : StreamId → Bool
  openCompleted : StreamId → Bool
  closeCompleted : StreamId → Bool
  dropped : StreamId → Bool
  announced : StreamId → Bool
  ended : StreamId → Bool

inductive Action where
  | openStream
  | pollOpen (id : StreamId)
  | dropOpen (id : StreamId)
  | beginOpen (request : OpenRequest)
  | pollFuture (id : StreamId)
  | dropFuture (id : StreamId)
  | acceptStream
  | read (id : StreamId) (room : ℕ)
  | write (id : StreamId) (input : List UInt8)
  | flush (id : StreamId)
  | close (id : StreamId)
  | drop (id : StreamId)
  | drive

namespace Connection
variable {T : Type}

/-- What `begin_open_flow_confirmed` does to the connection. -/
def queueOpen (c : Connection T) : Except MuxError MuxStream × Connection T :=
  match c.queueStream with
  | (.ok stream, c) => (.ok stream, { c with controls := c.controls ++ [(.frameOpen, stream.id)] })
  | (.error e, c) => (.error e, c)

theorem beginOpenFlowConfirmed_connection (s : MuxSession T) (request : OpenRequest) :
    (s.beginOpenFlowConfirmed request).2.connection = s.connection ∨
    (s.beginOpenFlowConfirmed request).2.connection = s.connection.queueOpen.2 := by
  unfold MuxSession.beginOpenFlowConfirmed queueOpen
  split
  · exact .inl rfl
  · unfold MuxSession.reserveUserStream
    split
    · exact .inl rfl
    · rename_i s' hs
      have hconn : s'.connection = s.connection := by
        split at hs
        · cases hs
        · cases hs; rfl
      rw [hconn]
      right
      cases hq : s.connection.queueStream with
      | mk result c => cases result <;> rfl

end Connection

namespace Endpoint
variable {T : Type}

def setOwner (e : Endpoint T) (id : StreamId) (owner : Owner) : Endpoint T :=
  { e with owner := Function.update e.owner id owner }

def withConnection (e : Endpoint T) (c : Connection T) : Endpoint T := { e with connection := c }

section Fields
variable (e : Endpoint T) (c : Connection T) (id : StreamId) (owner : Owner)

@[simp] theorem withConnection_connection : (e.withConnection c).connection = c := rfl
@[simp] theorem withConnection_owner : (e.withConnection c).owner = e.owner := rfl
@[simp] theorem withConnection_opened : (e.withConnection c).opened = e.opened := rfl
@[simp] theorem withConnection_openCompleted : (e.withConnection c).openCompleted = e.openCompleted := rfl
@[simp] theorem withConnection_closeCompleted : (e.withConnection c).closeCompleted = e.closeCompleted := rfl
@[simp] theorem setOwner_connection : (e.setOwner id owner).connection = e.connection := rfl
@[simp] theorem setOwner_owner : (e.setOwner id owner).owner = Function.update e.owner id owner := rfl
@[simp] theorem setOwner_opened : (e.setOwner id owner).opened = e.opened := rfl
@[simp] theorem setOwner_openCompleted : (e.setOwner id owner).openCompleted = e.openCompleted := rfl

end Fields

def adopt (e : Endpoint T) (id : StreamId) (owner : Owner) : Endpoint T :=
  { e.setOwner id owner with opened := Function.update e.opened id true }

def giveUp (e : Endpoint T) (stream : MuxStream) : Endpoint T :=
  { (e.withConnection (stream.drop e.connection)).setOwner stream.id .free with
    dropped := Function.update e.dropped stream.id true }

/-- Enter the ids the peer has announced and ended into the histories. -/
def observe (e : Endpoint T) : Endpoint T :=
  { e with
    announced := fun id => e.announced id || e.connection.inbound.contains id
    ended := fun id => e.ended id || (e.connection.stream id).elim false StreamState.eof }

def openStream (e : Endpoint T) : Endpoint T :=
  match e.connection.queueStream with
  | (.ok stream, c) => (e.withConnection c).adopt stream.id .opening
  | (.error _, c) => e.withConnection c

def beginOpen (e : Endpoint T) (request : OpenRequest) : Endpoint T :=
  match e.connection.queueOpen with
  | (.ok stream, c) => (e.withConnection c).adopt stream.id (.future (openFlowTask request))
  | (.error _, c) => e.withConnection c

def dropOpen (e : Endpoint T) (id : StreamId) : Endpoint T :=
  match e.owner id with
  | .opening => e.giveUp { id }
  | _ => e

def dropFuture (e : Endpoint T) (id : StreamId) : Endpoint T :=
  match e.owner id with
  | .future _ => e.giveUp { id }
  | _ => e

def drop (e : Endpoint T) (id : StreamId) : Endpoint T :=
  match e.owner id with
  | .handle writeClosed => e.giveUp { id, writeClosed }
  | _ => e

/-- A finished future hands out its stream or drops it; a pending one keeps its task. -/
def settle (e : Endpoint T) (id : StreamId) (result : Poll (Except MuxError OpenResponse))
    (task : Task MuxError OpenResponse) : Endpoint T :=
  match result with
  | .ready (.ok _) => e.setOwner id (.handle false)
  | .ready (.error _) => e.giveUp { id }
  | .pending => e.setOwner id (.future task)

variable [AsyncIo T]

def pollOpen (e : Endpoint T) (id : StreamId) : Endpoint T :=
  match e.owner id with
  | .opening =>
    match e.connection.pollControl .frameOpen id with
    | (.ready (.ok ()), c) =>
      { (e.withConnection c).setOwner id (.handle false) with
        openCompleted := Function.update e.openCompleted id true }
    | (.ready (.error _), c) => (e.withConnection c).giveUp { id }
    | (.pending, c) => e.withConnection c
  | _ => e

def pollFuture (e : Endpoint T) (id : StreamId) : Endpoint T :=
  match e.owner id with
  | .future task =>
    let r := task.poll MuxError.io (StreamEnd.mk id e.connection)
    (e.withConnection r.2.2.connection).settle id r.1 r.2.1
  | _ => e

def acceptStream (e : Endpoint T) : Endpoint T :=
  match e.connection.pollAcceptStream with
  | (.ready (.ok id), c) => (e.withConnection c).setOwner id (.handle false)
  | (_, c) => e.withConnection c

def read (e : Endpoint T) (id : StreamId) (room : ℕ) : Endpoint T :=
  match e.owner id with
  | .handle _ => e.withConnection (e.connection.pollRead id room).2
  | _ => e

def write (e : Endpoint T) (id : StreamId) (input : List UInt8) : Endpoint T :=
  match e.owner id with
  | .handle _ => e.withConnection (e.connection.pollData id input).2
  | _ => e

def flush (e : Endpoint T) (id : StreamId) : Endpoint T :=
  match e.owner id with
  | .handle _ => e.withConnection e.connection.pollFlushWrite.2
  | _ => e

def close (e : Endpoint T) (id : StreamId) : Endpoint T :=
  match e.owner id with
  | .handle writeClosed =>
    let r := ({ id, writeClosed } : MuxStream).pollClose e.connection
    { (e.withConnection r.2.2).setOwner id (.handle r.2.1.writeClosed) with
      closeCompleted := Function.update e.closeCompleted id (e.closeCompleted id || r.2.1.writeClosed) }
  | _ => e

def act (e : Endpoint T) : Action → Endpoint T
  | .openStream => e.openStream
  | .pollOpen id => e.pollOpen id
  | .dropOpen id => e.dropOpen id
  | .beginOpen request => e.beginOpen request
  | .pollFuture id => e.pollFuture id
  | .dropFuture id => e.dropFuture id
  | .acceptStream => e.acceptStream
  | .read id room => e.read id room
  | .write id input => e.write id input
  | .flush id => e.flush id
  | .close id => e.close id
  | .drop id => e.drop id
  | .drive => e.withConnection e.connection.pollDrive.2

def step (e : Endpoint T) (action : Action) : Endpoint T := (e.act action).observe

def new (io : T) (role : Mode) (config : YamuxConfig) : Endpoint T where
  connection := (MuxSession.new io role config).connection
  owner _ := .free
  opened _ := false
  openCompleted _ := false
  closeCompleted _ := false
  dropped _ := false
  announced _ := false
  ended _ := false

end Endpoint
end Snolc.Mux
