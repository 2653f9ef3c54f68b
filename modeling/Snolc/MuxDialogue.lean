import Snolc.MuxEndpoint
import Snolc.MuxPolicy
import Snolc.MuxWords

set_option autoImplicit false

/-!
# Two parties that open flows

Both sides of a session at the granularity of polls: the client opens streams and
says a policy family or a request on each, the server accepts streams, reads what
they begin with and answers, and the holders of finished streams move any bytes.
Every piece of code that holds a stream polls in its own time, so a run of turns
covers every way to interleave the operations of the session. The user streams the
session counts and its policy flag only refuse some of these turns.
-/
namespace Snolc.Mux
open PollIo SlotTable MuxFrame AsyncTask WireFormat ByteFeed GuardedRuns ScriptedIo

/-- What the holder of a stream does with it: waits for the OPEN frame and will then say a word, says a word,
listens, holds a stream that was not answered yet, or has the stream for its own use. -/
inductive Use where
  | free
  | opening (word : Word) (reply : Option Ear)
  | saying (task : Task MuxError Unit) (reply : Option Ear)
  | hearing (ear : Ear) (task : Task MuxError ear.Result)
  | held
  | handle (writeClosed : Bool)

/-- One side, with the word that was begun and the word that was read on each stream. -/
structure Party (T : Type) where
  role : Mode
  connection : Connection T
  use : StreamId → Use
  said : StreamId → Option Word
  heard : StreamId → Option Word

inductive Turn where
  | openPolicy (family : String)
  | openFlow (request : OpenRequest) (confirmed : Bool)
  | beginOpenFlowConfirmed (request : OpenRequest)
  | pollOpen (id : StreamId)
  | acceptPolicy
  | acceptFlow
  | answerPolicy (id : StreamId) (family : String)
  | respondFlow (id : StreamId) (response : OpenResponse)
  | poll (id : StreamId)
  | read (id : StreamId) (room : ℕ)
  | write (id : StreamId) (input : List UInt8)
  | flush (id : StreamId)
  | close (id : StreamId)
  | drop (id : StreamId)
  | drive

def status {α : Type} : IoPoll α → Poll (Except MuxError Unit)
  | .ready (.ok _) => .ready (.ok ())
  | .ready (.error e) => .ready (.error (.io e))
  | .pending => .pending

theorem status_error {α : Type} {r : IoPoll α} (h : ∀ e, status r ≠ .ready (.error (.io e))) :
    ∀ e, r ≠ .ready (.error e) := by
  rintro e rfl
  exact h e rfl

namespace Party
variable {T : Type}

def new (io : T) (role : Mode) (config : YamuxConfig) : Party T where
  role := role
  connection := (MuxSession.new io role config).connection
  use _ := .free
  said _ := none
  heard _ := none

def withConnection (p : Party T) (c : Connection T) : Party T := { p with connection := c }

def setUse (p : Party T) (id : StreamId) (use : Use) : Party T := { p with use := Function.update p.use id use }

def say (p : Party T) (id : StreamId) (word : Word) (use : Use) : Party T :=
  { p.setUse id use with said := Function.update p.said id (some word) }

def hear (p : Party T) (id : StreamId) (word : Word) (use : Use) : Party T :=
  { p.setUse id use with heard := Function.update p.heard id (some word) }

def letGo (p : Party T) (stream : MuxStream) : Party T :=
  (p.withConnection (stream.drop p.connection)).setUse stream.id .free

def openStream (p : Party T) (word : Word) (reply : Option Ear) : Poll (Except MuxError Unit) × Party T :=
  if p.role ≠ .client then (.ready (.error .policyRequired), p)
  else
    match p.connection.queueStream with
    | (.ok stream, c) => (.ready (.ok ()), (p.withConnection c).setUse stream.id (.opening word reply))
    | (.error e, c) => (.ready (.error e), p.withConnection c)

def beginOpen (p : Party T) (request : OpenRequest) : Poll (Except MuxError Unit) × Party T :=
  if p.role ≠ .client then (.ready (.error .policyRequired), p)
  else
    match p.connection.queueOpen with
    | (.ok stream, c) =>
      (.ready (.ok ()),
        (p.withConnection c).say stream.id (.request request) (.hearing .response (openFlowTask request)))
    | (.error e, c) => (.ready (.error e), p.withConnection c)

def answer (p : Party T) (id : StreamId) (word : Word) : Party T :=
  p.say id word (.saying (writeFrame word.encode) none)

def answerPolicy (p : Party T) (id : StreamId) (family : String) : Poll (Except MuxError Unit) × Party T :=
  match p.use id, p.heard id with
  | .held, some (.policy request) =>
    if request ≠ family then (.ready (.error .policyFamily), p.letGo { id })
    else (.pending, p.answer id (.policy family))
  | _, _ => (.pending, p)

def respondFlow (p : Party T) (id : StreamId) (response : OpenResponse) : Poll (Except MuxError Unit) × Party T :=
  match p.use id, p.heard id with
  | .held, some (.request _) => (.pending, p.answer id (.response response))
  | _, _ => (.pending, p)

def drop (p : Party T) (id : StreamId) : Party T :=
  match p.use id with
  | .free => p
  | .handle writeClosed => p.letGo { id, writeClosed }
  | _ => p.letGo { id }

/-- What follows a word that was said: the reply, or the stream is for the caller. -/
def followed : Option Ear → Use
  | some ear => .hearing ear ear.reader
  | none => .handle false

def answered : Mode → Use
  | .client => .handle false
  | .server => .held

variable [AsyncIo T]

def pollOpen (p : Party T) (id : StreamId) : Poll (Except MuxError Unit) × Party T :=
  match p.use id with
  | .opening word reply =>
    match p.connection.pollControl .frameOpen id with
    | (.ready (.ok ()), c) =>
      (.ready (.ok ()), (p.withConnection c).say id word (.saying (writeFrame word.encode) reply))
    | (.ready (.error e), c) => (.ready (.error (.io e)), (p.withConnection c).letGo { id })
    | (.pending, c) => (.pending, p.withConnection c)
  | _ => (.pending, p)

def acceptStream (p : Party T) (ear : Ear) : Poll (Except MuxError Unit) × Party T :=
  if p.role ≠ .server then (.ready (.error .policyRequired), p)
  else
    match p.connection.pollAcceptStream with
    | (.ready (.ok id), c) => (.ready (.ok ()), (p.withConnection c).setUse id (.hearing ear ear.reader))
    | (.ready (.error e), c) => (.ready (.error e), p.withConnection c)
    | (.pending, c) => (.pending, p.withConnection c)

def poll (p : Party T) (id : StreamId) : Poll (Except MuxError Unit) × Party T :=
  match p.use id with
  | .saying task reply =>
    match task.poll MuxError.io (StreamEnd.mk id p.connection) with
    | (.ready (.ok ()), _, s) => (.ready (.ok ()), (p.withConnection s.connection).setUse id (followed reply))
    | (.ready (.error e), _, s) => (.ready (.error e), (p.withConnection s.connection).letGo { id })
    | (.pending, task, s) => (.pending, (p.withConnection s.connection).setUse id (.saying task reply))
  | .hearing ear task =>
    match task.poll MuxError.io (StreamEnd.mk id p.connection) with
    | (.ready (.ok a), _, s) =>
      (.ready (.ok ()), (p.withConnection s.connection).hear id (ear.word a) (answered p.role))
    | (.ready (.error e), _, s) => (.ready (.error e), (p.withConnection s.connection).letGo { id })
    | (.pending, task, s) => (.pending, (p.withConnection s.connection).setUse id (.hearing ear task))
  | _ => (.pending, p)

def read (p : Party T) (id : StreamId) (room : ℕ) : Poll (Except MuxError Unit) × Party T :=
  match p.use id with
  | .handle _ =>
    let r := p.connection.pollRead id room
    (status r.1, p.withConnection r.2)
  | _ => (.pending, p)

def write (p : Party T) (id : StreamId) (input : List UInt8) : Poll (Except MuxError Unit) × Party T :=
  match p.use id with
  | .handle _ =>
    let r := p.connection.pollData id input
    (status r.1, p.withConnection r.2)
  | _ => (.pending, p)

def flush (p : Party T) (id : StreamId) : Poll (Except MuxError Unit) × Party T :=
  match p.use id with
  | .handle _ =>
    let r := p.connection.pollFlushWrite
    (status r.1, p.withConnection r.2)
  | _ => (.pending, p)

def close (p : Party T) (id : StreamId) : Poll (Except MuxError Unit) × Party T :=
  match p.use id with
  | .handle writeClosed =>
    let r := ({ id, writeClosed } : MuxStream).pollClose p.connection
    (status r.1, (p.withConnection r.2.2).setUse id (.handle r.2.1.writeClosed))
  | _ => (.pending, p)

def act (p : Party T) : Turn → Poll (Except MuxError Unit) × Party T
  | .openPolicy family => p.openStream (.policy family) (some .policy)
  | .openFlow request confirmed => p.openStream (.request request) (if confirmed then some .response else none)
  | .beginOpenFlowConfirmed request => p.beginOpen request
  | .pollOpen id => p.pollOpen id
  | .acceptPolicy => p.acceptStream .policy
  | .acceptFlow => p.acceptStream .request
  | .answerPolicy id family => p.answerPolicy id family
  | .respondFlow id response => p.respondFlow id response
  | .poll id => p.poll id
  | .read id room => p.read id room
  | .write id input => p.write id input
  | .flush id => p.flush id
  | .close id => p.close id
  | .drop id => (.pending, p.drop id)
  | .drive => let r := p.connection.pollDrive; (status r.1, p.withConnection r.2)

def withIo (p : Party T) (io : T) : Party T :=
  p.withConnection { p.connection with io := p.connection.io.map (fun _ => io) }

end Party

structure Dialogue (T : Type) where
  client : Party T
  server : Party T

inductive DialogueStep (T : Type) where
  | client (io : T) (turn : Turn)
  | server (io : T) (turn : Turn)

namespace Dialogue
variable {T : Type}

def start (io₁ io₂ : T) (config₁ config₂ : YamuxConfig) : Dialogue T where
  client := .new io₁ .client config₁
  server := .new io₂ .server config₂

section Step
variable [AsyncIo T]

def outcome (h : Dialogue T) : DialogueStep T → Poll (Except MuxError Unit)
  | .client io turn => ((h.client.withIo io).act turn).1
  | .server io turn => ((h.server.withIo io).act turn).1

def step (h : Dialogue T) : DialogueStep T → Dialogue T
  | .client io turn => { h with client := ((h.client.withIo io).act turn).2 }
  | .server io turn => { h with server := ((h.server.withIo io).act turn).2 }

end Step

variable [TracedIo T]

/-- What each side took is the front of what the other one wrote. -/
def Joined (h : Dialogue T) : Prop :=
  h.client.connection.takenBytes <+: h.server.connection.sentBytes ∧
    h.server.connection.takenBytes <+: h.client.connection.sentBytes

def Continues (p : Party T) (io : T) : Prop :=
  TracedIo.received io = p.connection.takenBytes ∧ TracedIo.written io = p.connection.sentBytes

def Possible (h : Dialogue T) : DialogueStep T → Prop
  | .client io _ => Continues h.client io
  | .server io _ => Continues h.server io

/-- The pipe between the two sides is reliable, and no call has reported an I/O error. -/
structure Reliable (h : Dialogue T) (label : DialogueStep T) : Prop where
  possible : h.Possible label
  joined : (h.step label).Joined
  sound : ∀ e, h.outcome label ≠ .ready (.error (.io e))

end Dialogue
end Snolc.Mux
