import Snolc.EngineHost

set_option autoImplicit false

/-!
# An established session

The session owns the mux or has lent it to the future that accepts a flow or
answers one. One poll reaps closed flows and then takes one step: the client
finishes an opening, or takes a flow, has it admitted and opens it; the server
answers, admits, resolves and opens the flow at hand, or accepts the next one.
-/
namespace Snolc.Engine
open PollIo MuxFrame Mux AsyncTask WireFormat CoreIo

inductive SessionFlowError where
  | mux (error : MuxError)
  | loader (error : LoadError)
  | coreIo (error : CoreIoError)
  | stack (error : StackError)
  | state
  | operation
  deriving DecidableEq, Repr

structure TunnelBinding where
  role : Mode
  adapters : List ℕ
  carrier : ℕ
  protection : ℕ
  policy : ℕ
  policyFamily : String
  policyContext : List UInt8
  coreIoLimit : ℕ
  yamux : YamuxConfig
  connectTimeout : ℕ
  handshakeTimeout : ℕ

inductive PendingPorts where
  | direct
  | tcp
  | udp
  deriving DecidableEq, Repr

inductive ClientPolicyPort where
  | direct
  | tcp
  | packetTcp
  | packetUdp
  | udp
  deriving DecidableEq, Repr

structure PendingServerFlow where
  request : OpenRequest
  metadata : OwnedFlowMetadata
  stream : Option MuxStream
  operation : ℕ
  admitted : Bool
  adapterCursor : ℕ
  resolvedAddresses : Option (List IpAddr)
  resolvedCursor : ℕ
  resolutionComplete : Bool
  adapterFlow : Option (ℕ × UInt64)
  ports : Option PendingPorts
  responseSent : Bool
  accepted : Bool

structure ActiveServerFlow where
  adapterFlow : Option (ℕ × UInt64)
  muxHandle : Handle
  deriving DecidableEq, Repr

structure PendingClientFlow where
  request : OpenRequest
  metadata : OwnedFlowMetadata
  adapterFlow : Option (ℕ × UInt64)
  admitted : Bool
  policyPort : Option ClientPolicyPort

structure ClientOpening where
  stream : MuxStream
  task : Task MuxError OpenResponse
  pending : PendingClientFlow

structure EstablishedSession (T : Type) where
  mux : Option (MuxSession T)
  policySession : UInt64
  accepting : Option (AcceptFlow × MuxSession T)
  responding : Option (RespondFlow × MuxStream × MuxSession T)
  openings : List ClientOpening
  pending : Option PendingServerFlow
  clientPending : Option PendingClientFlow
  active : List ActiveServerFlow

namespace EstablishedSession
variable {T : Type}

def new (mux : MuxSession T) (policySession : UInt64) : EstablishedSession T where
  mux := some mux
  policySession := policySession
  accepting := none
  responding := none
  openings := []
  pending := none
  clientPending := none
  active := []

/-- Streams share the connection wherever the mux is. -/
def touch (s : EstablishedSession T) (f : Connection T → Connection T) : EstablishedSession T where
  mux := s.mux.map fun mux => mux.withConnection (f mux.connection)
  policySession := s.policySession
  accepting := s.accepting.map fun a => (a.1, a.2.withConnection (f a.2.connection))
  responding := s.responding.map fun r => (r.1, r.2.1, r.2.2.withConnection (f r.2.2.connection))
  openings := s.openings
  pending := s.pending
  clientPending := s.clientPending
  active := s.active

def release (s : EstablishedSession T) : EstablishedSession T :=
  { s with mux := s.mux.map MuxSession.releaseFlow }

end EstablishedSession

/-- A session with everything around it. -/
structure Live (W T : Type) where
  host : Host W T
  session : EstablishedSession T

abbrev Reply (W T α : Type) := Except SessionFlowError α × Live W T

def openError : LoadError → OpenStatus × String
  | .moduleStatus status =>
    if status = Status.denied.code then (.denied, "flow denied")
    else if status = Status.unsupported.code then (.unsupported, "flow unsupported")
    else if status = Status.resource.code then (.resourceLimit, "flow resource limit")
    else if status = Status.io.code then (.connectFailed, "endpoint connect failed")
    else if status = Status.invalid.code then (.protocolError, "invalid flow metadata")
    else (.internalError, "flow setup failed")
  | _ => (.internalError, "flow setup failed")

def abiStatus : OpenStatus → UInt32
  | .ok => Status.ok.code
  | .denied => Status.denied.code
  | .unsupported => Status.unsupported.code
  | .resourceLimit => Status.resource.code
  | .connectFailed => Status.io.code
  | .protocolError => Status.invalid.code
  | .internalError => Status.internal.code

namespace Live
variable {W T α : Type}

def modify (l : Live W T) (f : EstablishedSession T → EstablishedSession T) : Live W T :=
  { l with session := f l.session }

def note (l : Live W T) (occurrence : Occurrence T) : Live W T := { l with host := l.host.note occurrence }

def disturb (l : Live W T) (effect : Effect T) : Live W T :=
  ⟨l.host.disturb effect, l.session.touch effect.connection⟩

def withRegistry (l : Live W T) (registry : Registry) : Live W T :=
  { l with host := { l.host with registry } }

/-- Register an object, run `next` with its handle and take it out again when that fails. -/
def registering (l : Live W T) (table : Table) (limit : ℕ) (next : Handle → Live W T → Reply W T α) :
    Reply W T α :=
  match l.host.registry.register table limit with
  | (.error e, registry) => (.error (.coreIo e), l.withRegistry registry)
  | (.ok handle, registry) =>
    match next handle (l.withRegistry registry) with
    | (.ok a, l) => (.ok a, l)
    | (.error e, l) => (.error e, l.withRegistry (l.host.registry.remove handle table))

def setPending (l : Live W T) (pending : Option PendingServerFlow) : Live W T :=
  l.modify fun s => { s with pending }

def setClientPending (l : Live W T) (clientPending : Option PendingClientFlow) : Live W T :=
  l.modify fun s => { s with clientPending }

def activate (l : Live W T) (flow : ActiveServerFlow) : Live W T :=
  l.modify fun s => { s with active := s.active ++ [flow] }

def dropStream (l : Live W T) (stream : Option MuxStream) : Live W T :=
  match stream with
  | none => l
  | some stream => l.modify fun s => s.touch stream.drop

def startResponse (l : Live W T) (status : OpenStatus) (reason : String) : Reply W T Unit :=
  match l.session.pending with
  | none => (.error .state, l)
  | some pending =>
    let pending := { pending with accepted := decide (status = OpenStatus.ok) }
    match pending.stream with
    | none => (.error .state, l.setPending (some pending))
    | some stream =>
      let pending := { pending with stream := none }
      match l.session.mux with
      | none => (.error .state, l.setPending (some pending))
      | some mux =>
        (.ok (), l.modify fun s =>
          { s with
            mux := none
            pending := some pending
            responding := some (.start ⟨status, reason⟩, stream, mux) })

variable [Modules W T]

def call (l : Live W T) (call : ModuleCall) : call.Answer T × Live W T :=
  let r := Modules.answer l.host.modules call
  (r.1, (({ l with host := { l.host with modules := r.2.2 } } : Live W T).disturb r.2.1).note (.call call r.1))

/-- A call whose error ends the poll. -/
def attempt (r : Except LoadError Unit × Live W T) (next : Live W T → Reply W T α) : Reply W T α :=
  match r with
  | (.ok (), l) => next l
  | (.error e, l) => (.error (.loader e), l)

/-! ## Reaping -/

def closeFlows (l : Live W T) (closed : List (ℕ × UInt64)) : Live W T :=
  closed.foldl (fun l flow => (l.call (.adapterCloseFlow flow.1 flow.2)).2.modify EstablishedSession.release) l

def reapClosed (l : Live W T) : Live W T :=
  let registered := fun flow : ActiveServerFlow => l.host.registry.isRegistered flow.muxHandle
  let closed := (l.session.active.filter fun flow => !registered flow).filterMap ActiveServerFlow.adapterFlow
  let l := l.modify fun s => { s with active := s.active.filter registered }
  if l.session.mux.isSome then l.closeFlows closed else l

/-! ## The server -/

def attachPorts (b : TunnelBinding) (l : Live W T) (adapter : ℕ) (flow : UInt64) :
    PendingPorts → Reply W T Handle
  | .direct =>
    l.registering .streams b.coreIoLimit fun mux l =>
      attempt (l.call (.adapterAttachFlow adapter flow mux)) fun l => (.ok mux, l)
  | .tcp =>
    l.registering .streams b.coreIoLimit fun stack l =>
      l.registering .streams b.coreIoLimit fun policy l =>
        l.registering .streams b.coreIoLimit fun mux l =>
          attempt (l.call (.adapterAttachFlow adapter flow stack)) fun l =>
            attempt (l.call (.policyAttachFlow b.policy l.session.policySession policy mux)) fun l =>
              (.ok mux, l)
  | .udp =>
    l.registering .datagrams b.coreIoLimit fun stack l =>
      l.registering .datagrams b.coreIoLimit fun policy l =>
        l.registering .datagrams b.coreIoLimit fun mux l =>
          attempt (l.call (.adapterAttachDatagram adapter flow stack)) fun l =>
            attempt (l.call (.policyAttachDatagramFlow b.policy l.session.policySession policy mux)) fun l =>
              (.ok mux, l)

def attachPending (b : TunnelBinding) (l : Live W T) : Reply W T Unit :=
  match l.session.pending with
  | none => (.error .state, l)
  | some pending =>
    let l := l.setPending none
    match pending.adapterFlow, pending.ports, pending.stream with
    | some (adapter, flow), some ports, some _ =>
      match attachPorts b l adapter flow ports with
      | (.error e, l) => (.error e, l)
      | (.ok muxHandle, l) =>
        attempt (l.call (.adapterCompleteFlow adapter flow Status.ok.code [])) fun l =>
          (.ok (), l.activate ⟨some (adapter, flow), muxHandle⟩)
    | _, _, _ => (.error .state, l)

def rejectPending (l : Live W T) : Live W T :=
  match l.session.pending with
  | none => l
  | some pending =>
    let l := l.setPending none
    let l := match pending.adapterFlow with
      | some (adapter, flow) => (l.call (.adapterCloseFlow adapter flow)).2
      | none => l
    (l.modify EstablishedSession.release).dropStream pending.stream

def openPorts (b : TunnelBinding) (l : Live W T) (request : OpenRequest) :
    Except StackError PendingPorts × Live W T :=
  match request.kind with
  | .tcp =>
    if Modules.policyPassthroughTcp l.host.modules b.policy then (.ok .direct, l)
    else
      match l.call (.stackOpenTcp (.ofRequest request)) with
      | (.ok (), l) => (.ok .tcp, l)
      | (.error e, l) => (.error e, l)
  | .udp =>
    match l.call (.stackOpenUdp (.ofRequest request)) with
    | (.ok (), l) => (.ok .udp, l)
    | (.error e, l) => (.error e, l)
  | .policy => (.error .metadata, l)

/-- The last part of `poll_pending`: the adapter opens the flow. -/
def pendingOpen (b : TunnelBinding) (l : Live W T) (pending : PendingServerFlow) (adapter : ℕ) :
    Reply W T Unit :=
  match l.call (.adapterOpen adapter pending.operation pending.metadata) with
  | (.ready (.ok flow), l) =>
    let pending := { pending with adapterFlow := some (adapter, flow) }
    match openPorts b (l.setPending (some pending)) pending.request with
    | (.ok ports, l) => (l.setPending (some { pending with ports := some ports })).startResponse .ok ""
    | (.error _, l) => l.startResponse .resourceLimit "stack flow budget exhausted"
  | (.ready (.error e), l) =>
    if e = .moduleStatus Status.unsupported.code ∧ pending.adapterCursor + 1 < b.adapters.length then
      (.ok (), l.setPending (some
        { pending with
          adapterCursor := pending.adapterCursor + 1
          resolvedAddresses := none
          resolvedCursor := 0
          resolutionComplete := false }))
    else l.startResponse (openError e).1 (openError e).2
  | (.pending, l) => (.ok (), l)

/-- Admit the next resolved address, one for each poll. -/
def pendingAdmitResolved (b : TunnelBinding) (l : Live W T) (pending : PendingServerFlow) (adapter : ℕ)
    (addresses : List IpAddr) : Reply W T Unit :=
  match addresses[pending.resolvedCursor]? with
  | none => advance l pending
  | some address =>
    match l.call (.policyAdmitResolved b.policy l.session.policySession (pending.metadata.resolved address)) with
    | (.ready (.ok ()), l) => advance l { pending with resolvedCursor := pending.resolvedCursor + 1 }
    | (.ready (.error e), l) => l.startResponse (openError e).1 (openError e).2
    | (.pending, l) => (.ok (), l)
where
  advance (l : Live W T) (pending : PendingServerFlow) : Reply W T Unit :=
    if addresses.length ≤ pending.resolvedCursor then
      let pending := { pending with resolutionComplete := true }
      pendingOpen b (l.setPending (some pending)) pending adapter
    else (.ok (), l.setPending (some pending))

def pendingResolve (b : TunnelBinding) (l : Live W T) (pending : PendingServerFlow) (adapter : ℕ) :
    Reply W T Unit :=
  if pending.resolutionComplete then pendingOpen b l pending adapter
  else
    match pending.resolvedAddresses with
    | some addresses => pendingAdmitResolved b l pending adapter addresses
    | none =>
      match l.call (.adapterResolve adapter pending.operation pending.metadata) with
      | (.ready (.ok (some addresses)), l) =>
        let pending := { pending with resolvedAddresses := some addresses }
        pendingAdmitResolved b (l.setPending (some pending)) pending adapter addresses
      | (.ready (.ok none), l) =>
        let pending := { pending with resolutionComplete := true }
        pendingOpen b (l.setPending (some pending)) pending adapter
      | (.ready (.error e), l) => l.startResponse (openError e).1 (openError e).2
      | (.pending, l) => (.ok (), l)

def pendingAdapter (b : TunnelBinding) (l : Live W T) (pending : PendingServerFlow) : Reply W T Unit :=
  match b.adapters[pending.adapterCursor]? with
  | none => l.startResponse .unsupported "no adapter accepted the flow"
  | some adapter => pendingResolve b l pending adapter

def pollPending (b : TunnelBinding) (l : Live W T) : Reply W T Unit :=
  match l.session.pending with
  | none => (.error .state, l)
  | some pending =>
    if pending.responseSent then attachPending b l
    else if pending.admitted then pendingAdapter b l pending
    else
      match l.call (.policyAdmitFlow b.policy l.session.policySession pending.metadata) with
      | (.ready (.ok ()), l) =>
        let pending := { pending with admitted := true }
        pendingAdapter b (l.setPending (some pending)) pending
      | (.ready (.error e), l) => l.startResponse (openError e).1 (openError e).2
      | (.pending, l) => (.ok (), l)

variable [AsyncIo T]

def pollResponding (b : TunnelBinding) (l : Live W T) (stage : RespondFlow) (stream : MuxStream)
    (mux : MuxSession T) : Reply W T Unit :=
  match stage.poll stream mux with
  | (.waiting stage, mux) => (.ok (), l.modify fun s => { s with responding := some (stage, stream, mux) })
  | (.finished result, mux) =>
    let l := l.modify fun s => { s with responding := none, mux := some mux }
    match result with
    | .error e => (.error (.mux e), l)
    | .ok () =>
      match l.session.pending with
      | none => (.error .state, l)
      | some pending =>
        let l := l.setPending (some { pending with stream := some stream, responseSent := true })
        if pending.accepted then pollPending b l else (.ok (), l.rejectPending)

def pollAccepting (b : TunnelBinding) (l : Live W T) (stage : AcceptFlow) (mux : MuxSession T) :
    Reply W T Unit :=
  match stage.poll mux with
  | (.waiting stage, mux) => (.ok (), l.modify fun s => { s with accepting := some (stage, mux) })
  | (.finished result, mux) =>
    let l := l.modify fun s => { s with accepting := none, mux := some mux }
    match result with
    | .error e => (.error (.mux e), l)
    | .ok (request, stream) =>
      match l.host.nextOperation with
      | (none, host) => (.error .operation, { l with host })
      | (some operation, host) =>
        let l : Live W T := { l with host := host.note (.serverFlow operation request) }
        pollPending b (l.setPending (some
          { request
            metadata := .fromRequest request
            stream := some stream
            operation
            admitted := false
            adapterCursor := 0
            resolvedAddresses := none
            resolvedCursor := 0
            resolutionComplete := false
            adapterFlow := none
            ports := none
            responseSent := false
            accepted := false }))

def pollServer (b : TunnelBinding) (l : Live W T) : Reply W T Unit :=
  match l.session.responding with
  | some (stage, stream, mux) => pollResponding b l stage stream mux
  | none =>
    if l.session.pending.isSome then pollPending b l
    else
      match l.session.accepting with
      | some (stage, mux) => pollAccepting b l stage mux
      | none =>
        match l.session.mux with
        | none => (.error .state, l)
        | some mux => (.ok (), l.modify fun s => { s with mux := none, accepting := some (.start, mux) })

/-! ## The client -/

/-- `Vec::swap_remove`: the last element takes the place of the removed one. -/
def swapRemove {β : Type} (items : List β) (index : ℕ) : List β :=
  match items.getLast? with
  | none => []
  | some last => (items.set index last).dropLast

def pollOpenings (c : Connection T) :
    List ClientOpening → Option (ℕ × ClientOpening × Except MuxError OpenResponse) × List ClientOpening × Connection T
  | [] => (none, [], c)
  | opening :: rest =>
    match opening.task.poll MuxError.io (StreamEnd.mk opening.stream.id c) with
    | (.ready result, task, s) =>
      (some (0, opening, result), { opening with task } :: rest, s.connection)
    | (.pending, task, s) =>
      let r := pollOpenings s.connection rest
      (r.1.map fun found => (found.1 + 1, found.2), { opening with task } :: r.2.1, r.2.2)

/-- Register what is left to attach for an opened flow and attach it. -/
def attachOpened (b : TunnelBinding) (l : Live W T) (pending : PendingClientFlow) :
    ClientPolicyPort → Reply W T Handle
  | .tcp | .packetTcp =>
    l.registering .streams b.coreIoLimit fun policy l =>
      l.registering .streams b.coreIoLimit fun mux l =>
        attempt (l.call (.policyAttachFlow b.policy l.session.policySession policy mux)) fun l => (.ok mux, l)
  | .direct =>
    match pending.adapterFlow with
    | none => (.error .state, l)
    | some (adapter, flow) =>
      l.registering .streams b.coreIoLimit fun mux l =>
        attempt (l.call (.adapterAttachFlow adapter flow mux)) fun l => (.ok mux, l)
  | .udp | .packetUdp =>
    l.registering .datagrams b.coreIoLimit fun policy l =>
      l.registering .datagrams b.coreIoLimit fun mux l =>
        attempt (l.call (.policyAttachDatagramFlow b.policy l.session.policySession policy mux)) fun l =>
          (.ok mux, l)

/-- Tell the adapter of a flow, if it has one, how the flow ended up. -/
def completeFlow (l : Live W T) (pending : PendingClientFlow) (status : UInt32) (reason : List UInt8) :
    Except LoadError Unit × Live W T :=
  match pending.adapterFlow with
  | none => (.ok (), l)
  | some (adapter, flow) => l.call (.adapterCompleteFlow adapter flow status reason)

def finishOpening (b : TunnelBinding) (l : Live W T) (opening : ClientOpening) :
    Except MuxError OpenResponse → Reply W T Unit
  | .ok response =>
    if response.status = .ok then
      match opening.pending.policyPort with
      | none => (.error .state, l)
      | some port =>
        match attachOpened b l opening.pending port with
        | (.error e, l) => (.error e, l)
        | (.ok muxHandle, l) =>
          attempt (l.completeFlow opening.pending Status.ok.code []) fun l =>
            (.ok (), l.activate ⟨opening.pending.adapterFlow, muxHandle⟩)
    else
      attempt (l.completeFlow opening.pending (abiStatus response.status) (octets response.reason)) fun l =>
        (.ok (), (l.modify EstablishedSession.release).dropStream (some opening.stream))
  | .error e =>
    (.error (.mux e), (l.completeFlow opening.pending Status.io.code (octets "tunnel stream failed")).2)

def pendingClientFlow (request : OpenRequest) (adapterFlow : Option (ℕ × UInt64))
    (policyPort : Option ClientPolicyPort) : PendingClientFlow where
  request := request
  metadata := .fromRequest request
  adapterFlow := adapterFlow
  admitted := false
  policyPort := policyPort

def takeFlow (l : Live W T) (pending : PendingClientFlow) : Live W T :=
  (l.note (.clientFlow pending.request)).setClientPending (some pending)

def packetRequest (kind : StreamKind) (metadata : FlowMetadata) : OpenRequest :=
  ⟨kind, metadata.destination, metadata.port, metadata.opaqueBytes⟩

def supportsPackets (b : TunnelBinding) (l : Live W T) : Bool :=
  b.adapters.any fun adapter => Modules.supportsPacketPort l.host.modules adapter

def acceptPacketTcp (b : TunnelBinding) (l : Live W T) : Reply W T Unit :=
  if l.session.clientPending.isNone ∧ supportsPackets b l then
    match l.call .stackAcceptPacketTcp with
    | (.ok (some metadata), l) =>
      (.ok (), l.takeFlow (pendingClientFlow (packetRequest .tcp metadata) none (some .packetTcp)))
    | (.ok none, l) => (.ok (), l)
    | (.error e, l) => (.error (.stack e), l)
  else (.ok (), l)

def acceptPacketUdp (b : TunnelBinding) (l : Live W T) : Reply W T Unit :=
  if l.session.clientPending.isNone ∧ supportsPackets b l then
    match l.call .stackAcceptPacketUdp with
    | (.ok (some metadata), l) =>
      (.ok (), l.takeFlow (pendingClientFlow (packetRequest .udp metadata) none (some .packetUdp)))
    | (.ok none, l) => (.ok (), l)
    | (.error e, l) => (.error (.stack e), l)
  else (.ok (), l)

def acceptAdapter (l : Live W T) : List ℕ → Reply W T Unit
  | [] => (.ok (), l)
  | adapter :: rest =>
    match l.call (.adapterAccept adapter) with
    | (.ready (.ok (flow, request)), l) =>
      (.ok (), l.takeFlow (pendingClientFlow request (some (adapter, flow)) none))
    | (.ready (.error e), l) =>
      if e = .moduleStatus Status.unsupported.code then acceptAdapter l rest else (.error (.loader e), l)
    | (.pending, l) => acceptAdapter l rest

def clientPort (b : TunnelBinding) (l : Live W T) (pending : PendingClientFlow) :
    Reply W T ClientPolicyPort :=
  match pending.adapterFlow with
  | none => (.error .state, l)
  | some (adapter, flow) =>
    match pending.request.kind with
    | .tcp =>
      if Modules.policyPassthroughTcp l.host.modules b.policy then (.ok .direct, l)
      else
        match l.call (.stackOpenTcp (.ofRequest pending.request)) with
        | (.error e, l) => (.error (.stack e), l)
        | (.ok (), l) =>
          l.registering .streams b.coreIoLimit fun stack l =>
            attempt (l.call (.adapterAttachFlow adapter flow stack)) fun l => (.ok .tcp, l)
    | .udp =>
      match l.call (.stackOpenUdp (.ofRequest pending.request)) with
      | (.error e, l) => (.error (.stack e), l)
      | (.ok (), l) =>
        l.registering .datagrams b.coreIoLimit fun stack l =>
          attempt (l.call (.adapterAttachDatagram adapter flow stack)) fun l => (.ok .udp, l)
    | .policy => (.error .state, l)

/-- The end of `poll_client`: the flow at hand is opened on the mux. -/
def beginOpening (l : Live W T) (pending : PendingClientFlow) : Reply W T Unit :=
  let l := l.setClientPending none
  match l.session.mux with
  | none => (.error .state, l)
  | some mux =>
    let l := l.note (.beginOpen pending.request)
    match mux.beginOpenFlowConfirmed pending.request with
    | (.error e, mux) => (.error (.mux e), l.modify fun s => { s with mux := some mux })
    | (.ok (stream, task), mux) =>
      (.ok (), l.modify fun s =>
        { s with mux := some mux, openings := s.openings ++ [⟨stream, task, pending⟩] })

def openClient (b : TunnelBinding) (l : Live W T) (pending : PendingClientFlow) : Reply W T Unit :=
  match pending.policyPort with
  | some _ => l.beginOpening pending
  | none =>
    match clientPort b l pending with
    | (.error e, l) => (.error e, l)
    | (.ok port, l) => l.beginOpening { pending with policyPort := some port }

def admitClient (b : TunnelBinding) (l : Live W T) : Reply W T Unit :=
  match l.session.clientPending with
  | none =>
    match l.session.mux with
    | none => (.ok (), l)
    | some mux =>
      match mux.pollDrive with
      | (.ready (.error e), mux) => (.error (.mux e), l.modify fun s => { s with mux := some mux })
      | (_, mux) => (.ok (), l.modify fun s => { s with mux := some mux })
  | some pending =>
    if pending.admitted then openClient b l pending
    else
      match l.call (.policyAdmitFlow b.policy l.session.policySession pending.metadata) with
      | (.ready (.ok ()), l) =>
        let pending := { pending with admitted := true }
        openClient b (l.setClientPending (some pending)) pending
      | (.ready (.error e), l) =>
        attempt (l.completeFlow pending (abiStatus (openError e).1) (octets (openError e).2)) fun l =>
          (.ok (), l.setClientPending none)
      | (.pending, l) => (.ok (), l)

def acceptClient (b : TunnelBinding) (l : Live W T) : Reply W T Unit :=
  match acceptPacketTcp b l with
  | (.error e, l) => (.error e, l)
  | (.ok (), l) =>
    match acceptPacketUdp b l with
    | (.error e, l) => (.error e, l)
    | (.ok (), l) => if l.session.clientPending.isNone then acceptAdapter l b.adapters else (.ok (), l)

def pollClient (b : TunnelBinding) (l : Live W T) : Reply W T Unit :=
  match l.session.mux with
  | none =>
    match acceptClient b l with
    | (.error e, l) => (.error e, l)
    | (.ok (), l) => admitClient b l
  | some mux =>
    match pollOpenings mux.connection l.session.openings with
    | (found, openings, c) =>
      let l := l.modify fun s => { s with mux := some (mux.withConnection c), openings }
      match found with
      | some (index, opening, result) =>
        finishOpening b (l.modify fun s => { s with openings := swapRemove s.openings index }) opening result
      | none =>
        match acceptClient b l with
        | (.error e, l) => (.error e, l)
        | (.ok (), l) => admitClient b l

def poll (b : TunnelBinding) (l : Live W T) : Reply W T Unit :=
  match b.role with
  | .client => pollClient b l.reapClosed
  | .server => pollServer b l.reapClosed

end Live
end Snolc.Engine
