import Snolc.ControlLink
import Snolc.PollIo
import Mathlib.Logic.Function.Iterate

set_option autoImplicit false

/-!
# Control requests in the engine

Requests come from the callers of the engine's handle, through its command queue, and from
the connections of the control socket. The engine looks up the module, keeps the request in
a queue and polls the module with it once in every round until it has an answer, which goes
back through the channel that came with the request. What modules answer is free.
-/
namespace Snolc.Control
open PollIo

inductive LoadError where
  | notCreated
  | missingFunction
  | unsupported
  | moduleStatus (status : UInt32)
  | outputLength
  deriving DecidableEq, Repr

inductive EngineError where
  | module (error : LoadError)
  | instanceNotFound (name : String)
  | commandQueue
  | stopped
  deriving DecidableEq, Repr

def LoadError.text : LoadError → String
  | .notCreated => "module instance is not created"
  | .missingFunction => "module omits a required function"
  | .unsupported => "module does not support this control request"
  | .moduleStatus status => "module returned status " ++ toString status.toNat
  | .outputLength => "module returned an invalid output length"

def EngineError.text : EngineError → String
  | .module error => error.text
  | .instanceNotFound name => "module instance " ++ name ++ " was not found"
  | .commandQueue => "command queue is full or closed"
  | .stopped => "engine stopped before acknowledging the command"

abbrev ControlResult := Except EngineError (List UInt8)

/-- What the connection at the other end of the channel makes of a result. -/
def answerOf : ControlResult → Answer
  | .ok payload => .ok payload
  | .error error => .failed error.text

/-- The other end of a oneshot channel: a call of `EngineHandle::control`, or a connection of the socket. -/
inductive ControlSender where
  | call (id : ℕ)
  | connection (id : ℕ)
  deriving DecidableEq, Repr

structure PendingControl where
  module : ℕ
  request : List UInt8
  maxResponse : ℕ
  response : ControlSender
  deriving DecidableEq, Repr

abbrev ModuleAnswer := Poll (Except LoadError (List UInt8))

/-- The modules as one state that answers `poll_control` of the module at an index. -/
class ControlModules (M : Type) where
  pollControl : M → ℕ → List UInt8 → ℕ → ModuleAnswer × M

/-- The part of the engine that deals with control requests. The rest is history: the rounds so
    far, the requests that were started and in which round, the polls, and what became of requests. -/
structure ControlEngine (M : Type) where
  instances : List String
  modules : M
  server : Option UnixControlServer
  pending : List PendingControl := []
  rounds : ℕ := 0
  started : List (PendingControl × ℕ) := []
  polls : List (PendingControl × ModuleAnswer) := []
  outcomes : List (ControlSender × ControlResult) := []

namespace ControlEngine
variable {M : Type}

def maxResponse (e : ControlEngine M) : ℕ :=
  match e.server with
  | none => 65536
  | some server => server.limit.bytes

def outcome (e : ControlEngine M) (response : ControlSender) (result : ControlResult) : ControlEngine M :=
  { e with outcomes := e.outcomes ++ [(response, result)] }

def withServer (e : ControlEngine M) (f : UnixControlServer → UnixControlServer) : ControlEngine M :=
  { e with server := e.server.map f }

/-- The sender of a channel is used; a connection of the socket keeps what it receives. -/
def send (e : ControlEngine M) (response : ControlSender) (result : ControlResult) : ControlEngine M :=
  match response with
  | .call _ => e.outcome response result
  | .connection id => (e.outcome response result).withServer fun server => server.answered id (answerOf result)

def startControl (e : ControlEngine M) (name : String) (request : List UInt8) (response : ControlSender) :
    Except EngineError Unit × ControlEngine M :=
  match e.instances.findIdx? (· == name) with
  | none => (.error (.instanceNotFound name), e)
  | some module =>
    let control : PendingControl := ⟨module, request, e.maxResponse, response⟩
    (.ok (), { e with pending := e.pending ++ [control], started := e.started ++ [(control, e.rounds)] })

variable [ControlModules M]

def pollFront (e : ControlEngine M) : ControlEngine M :=
  match e.pending with
  | [] => e
  | control :: rest =>
    let r := ControlModules.pollControl e.modules control.module control.request control.maxResponse
    let e : ControlEngine M := { e with pending := rest, modules := r.2, polls := e.polls ++ [(control, r.1)] }
    match r.1 with
    | .ready result => e.send control.response (result.mapError .module)
    | .pending => { e with pending := e.pending ++ [control] }

def pollControls (e : ControlEngine M) : ControlEngine M :=
  let e := pollFront^[e.pending.length] e
  { e with rounds := e.rounds + 1 }

omit [ControlModules M] in
def beginLocal (e : ControlEngine M) (r : LocalRequest) : ControlEngine M :=
  match e.startControl r.name r.request (.connection r.connection) with
  | (.ok (), e) => e.withServer fun server => server.waitFor r.connection
  | (.error error, e) =>
    (e.outcome (.connection r.connection) (.error error)).withServer fun server => server.reject r.connection error.text

/-- `poll_local_control`, with the streams waiting at the listener and what the polls of the
    connections meet; also what the socket handed out. -/
def pollLocalControl (e : ControlEngine M) (incoming : List Bool) (io : ℕ → StreamIo) :
    List LocalRequest × ControlEngine M :=
  match e.server with
  | none => ([], e.pollControls)
  | some server =>
    let polled := server.poll incoming io
    (polled.1, (polled.1.foldl beginLocal { e with server := some polled.2 }).pollControls)

end ControlEngine

structure ControlCommand where
  name : String
  request : List UInt8
  response : ControlSender
  deriving DecidableEq, Repr

/-- The engine behind its command queue. `asked` are all requests ever made, by the calls of the
    handle, which are numbered, and over the connections of the socket; `admitted` says which calls
    found the engine running and room in its queue. -/
structure ControlDesk (M : Type) where
  engine : ControlEngine M
  commands : List ControlCommand := []
  running : Bool := true
  calls : ℕ := 0
  admitted : List Bool := []
  asked : List ControlCommand := []

inductive DeskStep (M : Type) where
  | control (name : String) (request : List UInt8) (taken : Bool)
  | receive
  | pollLocal (incoming : List Bool) (io : ℕ → StreamIo)
  | elsewhere (modules : M → M)
  | leave

def UnixControlServer.bind (limit : Limit) (maxConnections : ℕ) : UnixControlServer := ⟨limit, maxConnections, 1, []⟩

namespace ControlDesk
variable {M : Type}

def new (instances : List String) (modules : M) (socket : Option (Limit × ℕ)) : ControlDesk M where
  engine :=
    { instances := instances
      modules := modules
      server := socket.map fun config => UnixControlServer.bind config.1 config.2 }

def control (d : ControlDesk M) (name : String) (request : List UInt8) (taken : Bool) : ControlDesk M :=
  let command : ControlCommand := ⟨name, request, .call d.calls⟩
  let asked : ControlDesk M :=
    { d with calls := d.calls + 1, admitted := d.admitted ++ [d.running && taken], asked := d.asked ++ [command] }
  if d.running && taken then { asked with commands := d.commands ++ [command] }
  else { asked with engine := d.engine.outcome (.call d.calls) (.error .commandQueue) }

def outstanding (d : ControlDesk M) : List ControlSender :=
  d.engine.pending.map PendingControl.response ++ d.commands.map ControlCommand.response

def leave (d : ControlDesk M) : ControlDesk M :=
  let engine := d.outstanding.foldl (fun e response => e.outcome response (.error .stopped)) d.engine
  { d with engine := { engine with pending := [], server := none }, commands := [], running := false }

variable [ControlModules M]

def receive (d : ControlDesk M) : ControlDesk M :=
  match d.commands with
  | [] => d
  | command :: commands =>
    let d : ControlDesk M := { d with commands }
    match d.engine.startControl command.name command.request command.response with
    | (.ok (), engine) => { d with engine := engine.pollControls }
    | (.error error, engine) => { d with engine := engine.send command.response (.error error) }

def command (r : LocalRequest) : ControlCommand := ⟨r.name, r.request, .connection r.connection⟩

def pollLocal (d : ControlDesk M) (incoming : List Bool) (io : ℕ → StreamIo) : ControlDesk M :=
  let polled := d.engine.pollLocalControl incoming io
  { d with engine := polled.2, asked := d.asked ++ polled.1.map command }

def step (d : ControlDesk M) : DeskStep M → ControlDesk M
  | .control name request taken => d.control name request taken
  | .receive => if d.running then d.receive else d
  | .pollLocal incoming io => if d.running then d.pollLocal incoming io else d
  | .elsewhere modules => { d with engine := { d.engine with modules := modules d.engine.modules } }
  | .leave => d.leave

end ControlDesk
end Snolc.Control
