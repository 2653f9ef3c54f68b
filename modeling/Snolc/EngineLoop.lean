import Snolc.EngineTunnel
import Snolc.CheckedSlice

set_option autoImplicit false

/-!
# The engine loop

`Engine::run_loop`: startup, the command loop with one poll of every tunnel per iteration,
and the shutdown of the modules. The outcomes of module calls are part of the labels of a
step; what modules do to the streams of a tunnel meanwhile is a change of its connection.
Atomics of the snapshot wrap at the machine word.
-/
namespace Snolc.Engine
open PollIo MuxFrame Mux CoreIo

inductive Lifecycle where
  | configured
  | starting
  | running
  | stopping
  | stopped
  | failed
  deriving DecidableEq, Repr

inductive PlatformEvent where
  | networkChanged
  | vpnPermissionRevoked
  deriving DecidableEq, Repr

inductive Event where
  | lifecycle (lifecycle : Lifecycle)
  | tunnel (name state : String)
  | tunnelError (name : String) (error : TunnelError)
  | moduleError (name message : String)
  | platform (event : PlatformEvent)
  deriving DecidableEq

structure Snapshot where
  lifecycle : Lifecycle := .configured
  sessions : ℕ := 0
  flows : ℕ := 0
  deriving DecidableEq, Repr

def fetchAdd (value count : ℕ) : ℕ := (value + count) % 2 ^ 64
def fetchSub (value count : ℕ) : ℕ := (value + (2 ^ 64 - count % 2 ^ 64)) % 2 ^ 64

inductive EngineError where
  | module (error : LoadError)
  | stack (error : StackError)
  | coreIo
  | resourceOverflow
  deriving DecidableEq

structure TunnelRuntime (T : Type) where
  name : String
  binding : TunnelBinding
  state : TunnelState T
  deadline : Option ℕ
  retryAt : Option ℕ

namespace TunnelState
variable {T : Type}

def isEstablished : TunnelState T → Bool
  | .established _ => true
  | _ => false

def isCarrier : TunnelState T → Bool
  | .carrier => true
  | _ => false

end TunnelState

namespace TunnelRuntime
variable {W T : Type}

def onHost (r : TunnelRuntime T) (host : Host W T) : Tunnel W T := ⟨host, r.state, r.deadline, r.retryAt⟩

def after (r : TunnelRuntime T) (t : Tunnel W T) : TunnelRuntime T :=
  { r with state := t.state, deadline := t.deadline, retryAt := t.retryAt }

def touch (f : Connection T → Connection T) (r : TunnelRuntime T) : TunnelRuntime T :=
  { r with state := r.state.touch f }

def flowCount (r : TunnelRuntime T) : ℕ :=
  match r.state with
  | .established session => session.active.length
  | _ => 0

variable [Modules W T]

def new (name : String) (b : TunnelBinding) (host : Host W T) : TunnelRuntime T × Host W T :=
  let t : Tunnel W T := ⟨host, .carrier, none, none⟩
  match b.role with
  | .client =>
    let now := t.call .instantNow
    (⟨name, b, now.2.state, some (now.1 + b.connectTimeout), none⟩, now.2.host)
  | .server => (⟨name, b, .carrier, none, none⟩, host)

end TunnelRuntime

structure Totals where
  established : ℕ := 0
  closed : ℕ := 0
  transitions : List (String × String) := []
  failures : List (String × TunnelError) := []

def TunnelUpdate.text : TunnelUpdate → Option String
  | .none => Option.none
  | .carrierReady => some "carrier-ready"
  | .isProtected => some "protected"
  | .policyOpen => some "policy-open"
  | .established => some "established"

def establishedBy : Except (TunnelError × Bool) TunnelUpdate → ℕ
  | .ok .established => 1
  | _ => 0

def closedBy : Except (TunnelError × Bool) TunnelUpdate → ℕ
  | .error (_, true) => 1
  | _ => 0

def Totals.add (totals : Totals) (name : String) (result : Except (TunnelError × Bool) TunnelUpdate) : Totals where
  established := totals.established + establishedBy result
  closed := totals.closed + closedBy result
  transitions := match result with
    | .ok update => totals.transitions ++ (update.text.map fun text => (name, text)).toList
    | .error _ => totals.transitions
  failures := match result with
    | .ok _ => totals.failures
    | .error (error, _) => totals.failures ++ [(name, error)]

structure Round (W T : Type) where
  host : Host W T
  tunnels : List (TunnelRuntime T)
  totals : Totals

/-- The tunnel at `i` is polled; the modules it calls may work on the streams of the others. -/
def Round.pollTunnel {W T : Type} [Modules W T] [AsyncIo T] (meanwhile : ℕ → ℕ → Connection T → Connection T)
    (round : Round W T) (i : ℕ) : Round W T :=
  match round.tunnels[i]? with
  | none => round
  | some r =>
    let (result, t) := (r.onHost round.host).poll r.binding
    { host := t.host
      tunnels := (round.tunnels.mapIdx fun j other => other.touch (meanwhile i j)).set i (r.after t)
      totals := round.totals.add r.name result }

inductive Phase where
  | configured
  | running
  | stopping (stopped : List Bool) (errors : List (String × String))
  | returned (result : Except EngineError Unit)
  deriving DecidableEq

/-- The modules by their instance names, and the tunnels; a vector has at most `isize::MAX` elements. -/
structure ValidatedConfig where
  modules : List String
  tunnels : List (String × TunnelBinding)
  bounded : tunnels.length < 2 ^ 63

/-- `shown` are the values the lifecycle of the snapshot has had. -/
structure RunLoop (W T : Type) where
  validated : ValidatedConfig
  host : Host W T
  snapshot : Snapshot := {}
  shown : List Lifecycle := [.configured]
  events : List Event := []
  tunnels : List (TunnelRuntime T) := []
  phase : Phase := .configured

inductive PacketPortAnswer where
  | attached
  | unsupported
  | failed (error : LoadError)

/-- The outcomes of a startup: of each module's creation, of the stack, and of each adapter's
    packet port, with the adapters in the order of their hash set. -/
structure Startup where
  create : ℕ → Except LoadError Unit
  stack : Except StackError Unit
  adapters : List ℕ
  attach : ℕ → PacketPortAnswer

inductive Received where
  | control
  | shutdown
  | platform (event : PlatformEvent)
  | closed
  | empty

/-- One turn of the command loop: what is received, what the stack, the modules and the local
    control do in it, and what happens to the other tunnels while one is polled. -/
structure Iteration (T : Type) where
  received : Received
  effect : Effect T
  touched : ℕ → Connection T → Connection T
  moduleErrors : List (String × String)
  meanwhile : ℕ → ℕ → Connection T → Connection T

inductive ModuleStop where
  | stopped
  | failed (message : String)
  | pending
  | pollFailed (message : String)

structure ShutdownRound where
  answer : ℕ → ModuleStop
  deadlinePassed : Bool

inductive LoopStep (T : Type) where
  | start (startup : Startup)
  | iterate (iteration : Iteration T)
  | windDown (round : ShutdownRound)

def createModules (startup : Startup) (count : ℕ) : Except LoadError Unit :=
  (List.range count).forM startup.create

def packetIoLimit (bindings : List (String × TunnelBinding)) (adapters : List ℕ) : Option ℕ :=
  CheckedSlice.checkedAdd ((bindings.map fun b => b.2.coreIoLimit).foldl max 0) adapters.length

/-- A port that no module takes over is unregistered again. -/
def attachPorts (attach : ℕ → PacketPortAnswer) (limit : ℕ) :
    Registry → List ℕ → Except EngineError Unit × Registry
  | registry, [] => (.ok (), registry)
  | registry, adapter :: adapters =>
    match registry.register .datagrams limit with
    | (.error _, registry) => (.error .coreIo, registry)
    | (.ok handle, registry) =>
      match attach adapter with
      | .attached => attachPorts attach limit registry adapters
      | .unsupported => attachPorts attach limit (registry.remove handle .datagrams) adapters
      | .failed error => (.error (.module error), registry.remove handle .datagrams)

namespace RunLoop
variable {W T : Type}

def store (e : RunLoop W T) (lifecycle : Lifecycle) : RunLoop W T :=
  { e with snapshot := { e.snapshot with lifecycle }, shown := e.shown ++ [lifecycle] }

def emit (e : RunLoop W T) (event : Event) : RunLoop W T :=
  let e := match event with
    | .lifecycle lifecycle => e.store lifecycle
    | _ => e
  { e with events := e.events ++ [event] }

def stop (e : RunLoop W T) : RunLoop W T :=
  let e := e.emit (.lifecycle .stopping)
  { e with
    tunnels := []
    snapshot := { e.snapshot with sessions := 0 }
    phase := .stopping (List.replicate e.validated.modules.length false) [] }

/-- One module in a round of the shutdown, with the errors collected so far. -/
def stopModule (e : RunLoop W T) (round : ShutdownRound) (state : List Bool × List (String × String)) (index : ℕ) :
    List Bool × List (String × String) :=
  if state.1.getD index true then state
  else
    match round.answer index with
    | .stopped => (state.1.set index true, state.2)
    | .failed message => (state.1.set index true, state.2 ++ [(e.validated.modules.getD index "", message)])
    | .pending => state
    | .pollFailed message => (state.1.set index true, state.2 ++ [(e.validated.modules.getD index "", message)])

def timedOut (e : RunLoop W T) (stopped : List Bool) : List (String × String) :=
  ((List.range stopped.length).filter fun index => !stopped.getD index true).map fun index =>
    (e.validated.modules.getD index "", "module shutdown timed out")

def emitErrors (e : RunLoop W T) (errors : List (String × String)) : RunLoop W T :=
  errors.foldl (fun e error => e.emit (.moduleError error.1 error.2)) e

def finish (e : RunLoop W T) (errors : List (String × String)) : RunLoop W T :=
  { (e.emitErrors errors).emit (.lifecycle .stopped) with phase := .returned (.ok ()) }

def windDown (e : RunLoop W T) (stopped : List Bool) (errors : List (String × String)) (round : ShutdownRound) :
    RunLoop W T :=
  let state := (List.range e.validated.modules.length).reverse.foldl (e.stopModule round) (stopped, errors)
  if state.1.all id then e.finish state.2
  else if round.deadlinePassed then e.finish (state.2 ++ e.timedOut state.1)
  else { e with phase := .stopping state.1 state.2 }

def raised (snapshot : Snapshot) (totals : Totals) : ℕ :=
  if totals.established ≠ 0 then fetchAdd snapshot.sessions totals.established else snapshot.sessions

def count (snapshot : Snapshot) (tunnels : List (TunnelRuntime T)) (totals : Totals) : Snapshot :=
  { snapshot with
    flows := (tunnels.map TunnelRuntime.flowCount).sum
    sessions :=
      if totals.closed ≠ 0 then fetchSub (raised snapshot totals) totals.closed else raised snapshot totals }

variable [Modules W T]

def newTunnels (host : Host W T) : List (String × TunnelBinding) → List (TunnelRuntime T) × Host W T
  | [] => ([], host)
  | (name, b) :: bindings =>
    let first := TunnelRuntime.new name b host
    let rest := newTunnels first.2 bindings
    (first.1 :: rest.1, rest.2)

def start (e : RunLoop W T) (startup : Startup) : RunLoop W T :=
  let e := e.emit (.lifecycle .starting)
  match createModules startup e.validated.modules.length with
  | .error error => { e.store .failed with phase := .returned (.error (.module error)) }
  | .ok () =>
    match startup.stack with
    | .error error => { e with phase := .returned (.error (.stack error)) }
    | .ok () =>
      match packetIoLimit e.validated.tunnels startup.adapters with
      | none => { e with phase := .returned (.error .resourceOverflow) }
      | some limit =>
        match attachPorts startup.attach limit e.host.registry startup.adapters with
        | (.error error, registry) =>
          { e with host := { e.host with registry }, phase := .returned (.error error) }
        | (.ok (), registry) =>
          let tunnels := newTunnels { e.host with registry } e.validated.tunnels
          { e.emit (.lifecycle .running) with tunnels := tunnels.1, host := tunnels.2, phase := .running }

def resetTunnels (host : Host W T) : List (TunnelRuntime T) → List (TunnelRuntime T) × Host W T
  | [] => ([], host)
  | r :: tunnels =>
    let t := (r.onHost host).reset r.binding
    let rest := resetTunnels t.host tunnels
    (r.after t :: rest.1, rest.2)

def networkChanged (e : RunLoop W T) : RunLoop W T :=
  let tunnels := resetTunnels e.host e.tunnels
  { e with
    tunnels := tunnels.1
    host := tunnels.2
    snapshot := { e.snapshot with sessions := 0, flows := 0 } }

variable [AsyncIo T]

def pollRound (meanwhile : ℕ → ℕ → Connection T → Connection T) (host : Host W T)
    (tunnels : List (TunnelRuntime T)) : Round W T :=
  (List.range tunnels.length).foldl (Round.pollTunnel meanwhile) ⟨host, tunnels, {}⟩

def pollTunnels (e : RunLoop W T) (meanwhile : ℕ → ℕ → Connection T → Connection T) : RunLoop W T :=
  let round := pollRound meanwhile e.host e.tunnels
  let e := { e with
    host := round.host
    tunnels := round.tunnels
    snapshot := count e.snapshot round.tunnels round.totals }
  let e := round.totals.transitions.foldl (fun e transition => e.emit (.tunnel transition.1 transition.2)) e
  round.totals.failures.foldl (fun e failure => e.emit (.tunnelError failure.1 failure.2)) e

def pollModules (e : RunLoop W T) (i : Iteration T) : RunLoop W T :=
  let e : RunLoop W T := { e with
    host := e.host.disturb i.effect
    tunnels := e.tunnels.mapIdx fun j r => r.touch (i.touched j) }
  e.emitErrors i.moduleErrors

def turn (e : RunLoop W T) (i : Iteration T) : RunLoop W T := (e.pollModules i).pollTunnels i.meanwhile

def receive (e : RunLoop W T) : Received → RunLoop W T × Bool
  | .control => (e, true)
  | .empty => (e, true)
  | .shutdown => (e.stop, false)
  | .closed => (e.stop, false)
  | .platform .networkChanged => ((e.emit (.platform .networkChanged)).networkChanged, true)
  | .platform .vpnPermissionRevoked => ((e.emit (.platform .vpnPermissionRevoked)).stop, false)

def iterate (e : RunLoop W T) (i : Iteration T) : RunLoop W T :=
  match e.receive i.received with
  | (e, true) => e.turn i
  | (e, false) => e

def step (e : RunLoop W T) : LoopStep T → RunLoop W T
  | .start startup =>
    match e.phase with
    | .configured => e.start startup
    | _ => e
  | .iterate i =>
    match e.phase with
    | .running => e.iterate i
    | _ => e
  | .windDown round =>
    match e.phase with
    | .stopping stopped errors => e.windDown stopped errors round
    | _ => e

end RunLoop
end Snolc.Engine
