import Snolc.GuardedRuns
import Snolc.HandleTable
import Snolc.KeyedList
import Snolc.SlotTable
import Snolc.StackPackets

set_option autoImplicit false

/-!
# The stack bridge

`StackBridge` with its flow tables, socket set, port pool and device. smoltcp is a
parameter: it may change the contents of the sockets and answer with packets, and it
neither adds nor removes a socket. `none` is an abort of the source: a counter below
zero, an index out of range, a socket handle that names no socket of its kind.
-/
namespace Snolc.Stack
open ByteOrder CheckedSlice Handles
open Engine (IpAddr FlowMetadata StackError)

inductive TcpState where
  | closed
  | listen
  | synSent
  | synReceived
  | established
  | finWait1
  | finWait2
  | closeWait
  | closing
  | lastAck
  | timeWait
  deriving DecidableEq, Repr

structure TcpSocket (T : Type) where
  state : TcpState
  rest : T

structure UdpSocket (U : Type) where
  rx : List (List UInt8 × IpEndpoint)
  rest : U

inductive Socket (T U : Type) where
  | tcp (socket : TcpSocket T)
  | udp (socket : UdpSocket U)

/-! ## The socket set -/

abbrev SocketSet (T U : Type) := SlotTable.Table (Socket T U)

namespace SocketSet

variable {T U : Type}

/-- The first vacant index is taken again. -/
def add (set : SocketSet T U) (socket : Socket T U) : SocketSet T U × ℕ :=
  match set.findIdx? Option.isNone with
  | some index => (set.set index (some socket), index)
  | none => (set ++ [some socket], set.length)

def remove (set : SocketSet T U) (index : ℕ) : Option (SocketSet T U) :=
  match SlotTable.slot set index with
  | none => none
  | some _ => some (set.set index none)

def tcpAt (set : SocketSet T U) (index : ℕ) : Option (TcpSocket T) :=
  match SlotTable.slot set index with
  | some (.tcp socket) => some socket
  | _ => none

def udpAt (set : SocketSet T U) (index : ℕ) : Option (UdpSocket U) :=
  match SlotTable.slot set index with
  | some (.udp socket) => some socket
  | _ => none

def setTcp (set : SocketSet T U) (index : ℕ) (socket : TcpSocket T) : SocketSet T U :=
  set.set index (some (.tcp socket))

def setUdp (set : SocketSet T U) (index : ℕ) (socket : UdpSocket U) : SocketSet T U :=
  set.set index (some (.udp socket))

end SocketSet

/-! ## smoltcp -/

structure ListenEndpoint where
  addr : Option IpAddr
  port : UInt16
  deriving DecidableEq, Repr

def IpEndpoint.listen (endpoint : IpEndpoint) : ListenEndpoint := ⟨some endpoint.addr, endpoint.port⟩

structure StackConfig where
  tcpSocketRxBytes : ℕ
  tcpSocketTxBytes : ℕ
  udpSocketRxBytes : ℕ
  udpSocketTxBytes : ℕ
  packetQueueBytes : ℕ
  maxUdpPayloadBytes : ℕ
  reassemblySlots : ℕ
  reassemblyTimeoutMs : ℕ

/-- What handling a packet or a tick does to the interface and to each socket. -/
structure Reaction (W T U : Type) where
  world : W
  tcp : ℕ → TcpSocket T → TcpSocket T
  udp : ℕ → UdpSocket U → UdpSocket U

def Reaction.apply {W T U : Type} (r : Reaction W T U) (set : SocketSet T U) : SocketSet T U :=
  set.mapIdx fun index entry => entry.map fun socket =>
    match socket with
    | .tcp socket => .tcp (r.tcp index socket)
    | .udp socket => .udp (r.udp index socket)

/-- The interface of smoltcp as the bridge uses it, and the order of hash maps. -/
structure Smoltcp (W T U : Type) where
  start : StackConfig → Option W
  newTcp : StackConfig → T
  newUdp : StackConfig → U
  listen : T → ListenEndpoint → Except String T
  connect : W → T → IpEndpoint → ℕ → W × Except String T
  bind : U → ListenEndpoint → Option U
  pollMaintenance : W → W
  ingress : W → SocketSet T U → List UInt8 → Reaction W T U × Option (List UInt8)
  egress : W → Bool → SocketSet T U → Reaction W T U × List (List UInt8)
  handleOrder : W → List Handle → List Handle
  handleOrder_perm : ∀ w handles, (handleOrder w handles).Perm handles
  endpointOrder : W → List IpEndpoint → List IpEndpoint
  endpointOrder_perm : ∀ w endpoints, (endpointOrder w endpoints).Perm endpoints

/-! ## Ports -/

def firstDynamicPort : ℕ := 1024

structure PortPool where
  available : List ℕ
  allocated : List Bool

namespace PortPool

def new : PortPool := ⟨List.range' firstDynamicPort (65536 - firstDynamicPort), List.replicate 65536 false⟩

def allocate (pool : PortPool) : Option (Except StackError (PortPool × ℕ)) :=
  match pool.available with
  | [] => some (.error .portLimit)
  | port :: available => do
    let allocated ← setAt pool.allocated port true
    return .ok (⟨available, allocated⟩, port)

def release (pool : PortPool) (port : ℕ) : Option (Except StackError PortPool) :=
  if port < firstDynamicPort then some (.error .stale)
  else
    match pool.allocated[port]? with
    | none => none
    | some false => some (.error .stale)
    | some true => do
      let allocated ← setAt pool.allocated port false
      return .ok ⟨pool.available ++ [port], allocated⟩

end PortPool

/-! ## Flows -/

/-- A flow between two sockets of the loopback interface, TCP or UDP. -/
structure PairFlow where
  adapter : ℕ
  policy : ℕ
  adapterPort : ℕ
  policyPort : ℕ
  metadata : FlowMetadata
  managedBytes : ℕ

structure PacketTcpFlow where
  socket : ℕ
  tuple : PacketTcpTuple
  metadata : FlowMetadata
  managedBytes : ℕ
  queued : Bool

structure PacketUdpGroup where
  socket : ℕ
  managedBytes : ℕ
  flows : ℕ

structure PacketUdpFlow where
  tuple : PacketUdpTuple
  metadata : FlowMetadata
  incoming : Option (List UInt8)

structure StackBridge (W T U : Type) where
  interface : W
  device : BoundedDevice
  sockets : SocketSet T U
  tcpFlows : HandleTable PairFlow
  udpFlows : HandleTable PairFlow
  packetTcpFlows : HandleTable PacketTcpFlow
  packetTcpByTuple : List (PacketTcpTuple × Handle)
  pendingPacketTcp : List Handle
  packetUdpGroups : List (IpEndpoint × PacketUdpGroup)
  packetUdpFlows : HandleTable PacketUdpFlow
  packetUdpByTuple : List (PacketUdpTuple × Handle)
  pendingPacketUdp : List Handle
  ports : PortPool
  config : StackConfig
  managedBytes : ℕ
  maxManagedBytes : ℕ
  maxIngressPacketsPerTick : ℕ
  ipv6Reassembly : Ipv6Reassembly

def endpointDestination : IpAddr → WireFormat.Destination
  | .v4 address => .ipv4 address
  | .v6 address => .ipv6 address

def packetMetadata (destination : IpEndpoint) : FlowMetadata :=
  ⟨endpointDestination destination.addr, destination.port, []⟩

def invalidMetadata (metadata : FlowMetadata) : Bool :=
  decide (metadata.port = 0) || decide (WireFormat.maxMetadata < metadata.opaqueBytes.length)

def reassemblyManagedBytes (config : StackConfig) : Option ℕ := do
  let slot ← checkedAdd maxIpv6PacketBytes reassemblyBlocks
  let slots ← checkedMul slot config.reassemblySlots
  let smoltcp ← checkedMul config.reassemblySlots 65536
  let bytes ← checkedAdd slots smoltcp
  checkedAdd bytes config.packetQueueBytes

namespace StackBridge

variable {W T U : Type}

def new (env : Smoltcp W T U) (config : StackConfig)
    (maxFlows maxManagedBytes maxIngressPacketsPerTick : ℕ) :
    Except StackError (StackBridge W T U) :=
  match reassemblyManagedBytes config with
  | none => .error .resource
  | some managedBytes =>
    if maxManagedBytes < managedBytes then .error .resource
    else
      match env.start config with
      | none => .error .resource
      | some interface => .ok {
          interface := interface
          device := BoundedDevice.new config.packetQueueBytes
          sockets := []
          tcpFlows := HandleTable.new maxFlows
          udpFlows := HandleTable.new maxFlows
          packetTcpFlows := HandleTable.new maxFlows
          packetTcpByTuple := []
          pendingPacketTcp := []
          packetUdpGroups := []
          packetUdpFlows := HandleTable.new maxFlows
          packetUdpByTuple := []
          pendingPacketUdp := []
          ports := PortPool.new
          config := config
          managedBytes := managedBytes
          maxManagedBytes := maxManagedBytes
          maxIngressPacketsPerTick := maxIngressPacketsPerTick
          ipv6Reassembly := Ipv6Reassembly.new config.reassemblySlots config.reassemblyTimeoutMs }

def reserve (s : StackBridge W T U) (bytes : ℕ) : Except StackError (StackBridge W T U) :=
  match checkedAdd s.managedBytes bytes with
  | none => .error .resource
  | some next =>
    if s.maxManagedBytes < next then .error .resource else .ok { s with managedBytes := next }

def release (s : StackBridge W T U) (bytes : ℕ) : Option (StackBridge W T U) :=
  if bytes ≤ s.managedBytes then some { s with managedBytes := s.managedBytes - bytes } else none

def removeSocket (s : StackBridge W T U) (index : ℕ) : Option (StackBridge W T U) := do
  let sockets ← s.sockets.remove index
  return { s with sockets := sockets }

def releasePort (s : StackBridge W T U) (port : ℕ) :
    Option (StackBridge W T U × Except StackError Unit) := do
  match ← s.ports.release port with
  | .error error => return (s, .error error)
  | .ok ports => return ({ s with ports := ports }, .ok ())

def cleanupSockets (s : StackBridge W T U) (adapter policy adapterPort policyPort bytes : ℕ) :
    Option (StackBridge W T U) := do
  let s ← s.removeSocket adapter
  let s ← s.removeSocket policy
  let (s, _) ← s.releasePort adapterPort
  let (s, _) ← s.releasePort policyPort
  s.release bytes

def reservePair (s : StackBridge W T U) (bytes : ℕ) :
    Option (StackBridge W T U × Except StackError (ℕ × ℕ)) :=
  match s.reserve bytes with
  | .error error => some (s, .error error)
  | .ok s => do
    match ← s.ports.allocate with
    | .error error => return (← s.release bytes, .error error)
    | .ok (ports, adapterPort) =>
      let s := { s with ports := ports }
      match ← s.ports.allocate with
      | .error error =>
        match ← s.releasePort adapterPort with
        | (s, .error failure) => return (s, .error failure)
        | (s, .ok ()) => return (← s.release bytes, .error error)
      | .ok (ports, policyPort) => return ({ s with ports := ports }, .ok (adapterPort, policyPort))

/-! ## Packets of the packet port -/

/-- What `newSyn` and `newDatagram` have in common: what `parse` makes of the packet in front, if that is
external and not known. -/
def frontTuple {τ : Type} (s : StackBridge W T U) (parse : List UInt8 → Option τ) (known : τ → Bool) : Option τ :=
  match s.device.ingress with
  | [] => none
  | packet :: _ =>
    if packet.external = false then none
    else
      match parse packet.bytes with
      | none => none
      | some tuple => if known tuple then none else some tuple

/-- What `preparePacketTcp` and `preparePacketUdp` have in common: a socket is opened once the budget has room for
its two buffers. -/
def prepareTuple {τ : Type} (s : StackBridge W T U) (rx tx : ℕ)
    (opened : StackBridge W T U → τ → ℕ → Option (StackBridge W T U × Except StackError Unit)) :
    Option τ → Option (StackBridge W T U × Except StackError Unit)
  | none => some (s, .ok ())
  | some tuple =>
    match checkedAdd rx tx with
    | none => some (s, .error .resource)
    | some managedBytes =>
      match s.reserve managedBytes with
      | .error error => some (s, .error error)
      | .ok s => opened s tuple managedBytes

/-- The tuple for which `prepare_packet_tcp` opens a flow: the packet in front is an external
SYN of no flow yet. -/
def newSyn (s : StackBridge W T U) : Option PacketTcpTuple :=
  match s.device.ingress with
  | [] => none
  | packet :: _ =>
    if packet.external = false then none
    else
      match tcpSynTuple packet.bytes with
      | none => none
      | some tuple => if (KeyedList.get s.packetTcpByTuple tuple).isSome then none else some tuple

def openPacketTcp (env : Smoltcp W T U) (s : StackBridge W T U) (tuple : PacketTcpTuple)
    (managedBytes : ℕ) : Option (StackBridge W T U × Except StackError Unit) := do
  let (sockets, socket) := s.sockets.add (.tcp ⟨.closed, env.newTcp s.config⟩)
  let s := { s with sockets := sockets }
  let fresh ← s.sockets.tcpAt socket
  match env.listen fresh.rest tuple.destination.listen with
  | .error message =>
    let s ← s.removeSocket socket
    return (← s.release managedBytes, .error (.tcp message))
  | .ok rest =>
    let s := { s with sockets := s.sockets.setTcp socket ⟨.listen, rest⟩ }
    match ← s.packetTcpFlows.insert
        ⟨socket, tuple, packetMetadata tuple.destination, managedBytes, false⟩ with
    | .error _ =>
      let s ← s.removeSocket socket
      return (← s.release managedBytes, .error .flowLimit)
    | .ok (flows, handle) =>
      return ({ s with
        packetTcpFlows := flows
        packetTcpByTuple := KeyedList.insert s.packetTcpByTuple tuple handle }, .ok ())

def preparePacketTcp (env : Smoltcp W T U) (s : StackBridge W T U) :
    Option (StackBridge W T U × Except StackError Unit) :=
  match s.newSyn with
  | none => some (s, .ok ())
  | some tuple =>
    match checkedAdd s.config.tcpSocketRxBytes s.config.tcpSocketTxBytes with
    | none => some (s, .error .resource)
    | some managedBytes =>
      match s.reserve managedBytes with
      | .error error => some (s, .error error)
      | .ok s => s.openPacketTcp env tuple managedBytes

/-- The tuple for which `prepare_packet_udp` opens a group: the packet in front is an external
UDP packet to a destination of no group yet. -/
def newDatagram (s : StackBridge W T U) : Option PacketUdpTuple :=
  match s.device.ingress with
  | [] => none
  | packet :: _ =>
    if packet.external = false then none
    else
      match udpTuple packet.bytes with
      | none => none
      | some tuple =>
        if (KeyedList.get s.packetUdpGroups tuple.destination).isSome then none else some tuple

def openPacketUdp (env : Smoltcp W T U) (s : StackBridge W T U) (tuple : PacketUdpTuple)
    (managedBytes : ℕ) : Option (StackBridge W T U × Except StackError Unit) := do
  let (sockets, socket) := s.sockets.add (.udp ⟨[], env.newUdp s.config⟩)
  let s := { s with sockets := sockets }
  let fresh ← s.sockets.udpAt socket
  match env.bind fresh.rest tuple.destination.listen with
  | none =>
    let s ← s.removeSocket socket
    return (← s.release managedBytes, .error .udp)
  | some rest =>
    let s := { s with sockets := s.sockets.setUdp socket ⟨fresh.rx, rest⟩ }
    return ({ s with
      packetUdpGroups := KeyedList.insert s.packetUdpGroups tuple.destination
        ⟨socket, managedBytes, 0⟩ }, .ok ())

def preparePacketUdp (env : Smoltcp W T U) (s : StackBridge W T U) :
    Option (StackBridge W T U × Except StackError Unit) :=
  match s.newDatagram with
  | none => some (s, .ok ())
  | some tuple =>
    match checkedAdd s.config.udpSocketRxBytes s.config.udpSocketTxBytes with
    | none => some (s, .error .resource)
    | some managedBytes =>
      match s.reserve managedBytes with
      | .error error => some (s, .error error)
      | .ok s => s.openPacketUdp env tuple managedBytes

theorem newSyn_eq (s : StackBridge W T U) :
    s.newSyn = s.frontTuple tcpSynTuple fun tuple => (KeyedList.get s.packetTcpByTuple tuple).isSome := by
  unfold newSyn frontTuple
  cases s.device.ingress with
  | nil => rfl
  | cons packet rest =>
    dsimp only
    cases tcpSynTuple packet.bytes <;> rfl

theorem newDatagram_eq (s : StackBridge W T U) : s.newDatagram =
    s.frontTuple udpTuple fun tuple => (KeyedList.get s.packetUdpGroups tuple.destination).isSome := by
  unfold newDatagram frontTuple
  cases s.device.ingress with
  | nil => rfl
  | cons packet rest =>
    dsimp only
    cases udpTuple packet.bytes <;> rfl

theorem preparePacketTcp_eq (env : Smoltcp W T U) (s : StackBridge W T U) : s.preparePacketTcp env =
    s.prepareTuple s.config.tcpSocketRxBytes s.config.tcpSocketTxBytes (openPacketTcp env) s.newSyn := by
  unfold preparePacketTcp
  cases s.newSyn <;> rfl

theorem preparePacketUdp_eq (env : Smoltcp W T U) (s : StackBridge W T U) : s.preparePacketUdp env =
    s.prepareTuple s.config.udpSocketRxBytes s.config.udpSocketTxBytes (openPacketUdp env) s.newDatagram := by
  unfold preparePacketUdp
  cases s.newDatagram <;> rfl

/-- One turn of the loop of `queue_established_packet_tcp`. -/
def queueEstablished (s : StackBridge W T U) (handle : Handle) : Option (StackBridge W T U) :=
  match s.packetTcpFlows.get handle with
  | none => some s
  | some flow =>
    if flow.queued then some s
    else do
      let socket ← s.sockets.tcpAt flow.socket
      if socket.state = .established then
        return { s with
          packetTcpFlows := s.packetTcpFlows.modify handle fun flow => { flow with queued := true }
          pendingPacketTcp := s.pendingPacketTcp ++ [handle] }
      return s

def queueEstablishedPacketTcp (env : Smoltcp W T U) (s : StackBridge W T U) :
    Option (StackBridge W T U) :=
  (env.handleOrder s.interface (s.packetTcpByTuple.map Prod.snd)).foldlM queueEstablished s

def closePacketTcp (s : StackBridge W T U) (handle : Handle) :
    Option (StackBridge W T U × Except StackError Unit) :=
  match s.packetTcpFlows.remove handle with
  | none => some (s, .error .stale)
  | some (flows, flow) => do
    let s := { s with
      packetTcpFlows := flows
      packetTcpByTuple := KeyedList.remove s.packetTcpByTuple flow.tuple
      pendingPacketTcp := s.pendingPacketTcp.filter fun pending => decide (pending ≠ handle) }
    let s ← s.removeSocket flow.socket
    return (← s.release flow.managedBytes, .ok ())

/-- One turn of the inner loop of `drain_packet_udp`; `none` inside is a `break`. -/
def drainOne (s : StackBridge W T U) (destination : IpEndpoint) :
    Option (StackBridge W T U × Bool) :=
  match KeyedList.get s.packetUdpGroups destination with
  | none => some (s, false)
  | some group => do
    let socket ← s.sockets.udpAt group.socket
    match socket.rx with
    | [] => return (s, false)
    | (payload, source) :: rx =>
      let tuple : PacketUdpTuple := ⟨source, destination⟩
      let known := KeyedList.get s.packetUdpByTuple tuple
      if (known.bind fun handle => (s.packetUdpFlows.get handle).bind (·.incoming)).isSome then
        return (s, false)
      match s.reserve payload.length with
      | .error _ => return (s, false)
      | .ok s =>
        let s := { s with sockets := s.sockets.setUdp group.socket ⟨rx, socket.rest⟩ }
        match known with
        | some handle =>
          match s.packetUdpFlows.get handle with
          | some _ =>
            return ({ s with
              packetUdpFlows := s.packetUdpFlows.modify handle fun flow =>
                { flow with incoming := some payload } }, true)
          | none => return (← s.release payload.length, true)
        | none =>
          match ← s.packetUdpFlows.insert ⟨tuple, packetMetadata destination, some payload⟩ with
          | .error _ => return (← s.release payload.length, false)
          | .ok (flows, handle) =>
            return ({ s with
              packetUdpFlows := flows
              packetUdpByTuple := KeyedList.insert s.packetUdpByTuple tuple handle
              packetUdpGroups := KeyedList.modify s.packetUdpGroups destination fun group =>
                { group with flows := group.flows + 1 }
              pendingPacketUdp := s.pendingPacketUdp ++ [handle] }, true)

def waiting (s : StackBridge W T U) (destination : IpEndpoint) : List (List UInt8 × IpEndpoint) :=
  match KeyedList.get s.packetUdpGroups destination with
  | none => []
  | some group =>
    match s.sockets.udpAt group.socket with
    | none => []
    | some socket => socket.rx

/-- The inner loop, with a turn for every datagram received and one to find none left. -/
def drainGroup (s : StackBridge W T U) (destination : IpEndpoint) : Option (StackBridge W T U) :=
  GuardedRuns.loop (fun s => s.drainOne destination) ((s.waiting destination).length + 1) s

def drainPacketUdp (env : Smoltcp W T U) (s : StackBridge W T U) : Option (StackBridge W T U) :=
  (env.endpointOrder s.interface (s.packetUdpGroups.map Prod.fst)).foldlM drainGroup s

def releaseIncoming (s : StackBridge W T U) : Option (List UInt8) → Option (StackBridge W T U)
  | none => some s
  | some packet => s.release packet.length

def closePacketUdp (s : StackBridge W T U) (handle : Handle) :
    Option (StackBridge W T U × Except StackError Unit) :=
  match s.packetUdpFlows.remove handle with
  | none => some (s, .error .stale)
  | some (flows, flow) => do
    let s ← { s with packetUdpFlows := flows }.releaseIncoming flow.incoming
    let s := { s with
      packetUdpByTuple := KeyedList.remove s.packetUdpByTuple flow.tuple
      pendingPacketUdp := s.pendingPacketUdp.filter fun pending => decide (pending ≠ handle) }
    match KeyedList.get s.packetUdpGroups flow.tuple.destination with
    | none => return (s, .ok ())
    | some group =>
      if group.flows - 1 = 0 then
        let s := { s with
          packetUdpGroups := KeyedList.remove s.packetUdpGroups flow.tuple.destination }
        let s ← s.removeSocket group.socket
        return (← s.release group.managedBytes, .ok ())
      return ({ s with
        packetUdpGroups := KeyedList.modify s.packetUdpGroups flow.tuple.destination fun group =>
          { group with flows := group.flows - 1 } }, .ok ())

/-! ## The tick -/

def dropFront (s : StackBridge W T U) : Option (StackBridge W T U) := do
  let (device, _) ← s.device.popIngress
  return { s with device := device }

/-- `poll_ingress_single`; false when the device had no packet. -/
def pollIngressSingle (env : Smoltcp W T U) (s : StackBridge W T U) :
    Option (StackBridge W T U × Bool) := do
  let (device, packet) ← s.device.receive
  match packet with
  | none => return ({ s with device := device }, false)
  | some packet =>
    let (reaction, reply) := env.ingress s.interface s.sockets packet.bytes
    return ({ s with
      interface := reaction.world
      sockets := reaction.apply s.sockets
      device := reply.elim device device.consume }, true)

/-- Both preparations of the packet in front; false where the turn ends there. -/
def prepareTurn (env : Smoltcp W T U) (s : StackBridge W T U) :
    Option (StackBridge W T U × Bool) := do
  let (s, prepared) ← s.preparePacketTcp env
  let s ← match prepared with
    | .error _ => s.dropFront
    | .ok () => some s
  match ← s.preparePacketUdp env with
  | (s, .error _) => return (← s.dropFront, false)
  | (s, .ok ()) => return (s, true)

def ingressTurn (env : Smoltcp W T U) (s : StackBridge W T U) :
    Option (StackBridge W T U × Bool) := do
  match ← s.prepareTurn env with
  | (s, false) => return (s, true)
  | (s, true) => s.pollIngressSingle env

def ingressLoop (env : Smoltcp W T U) (turns : ℕ) (s : StackBridge W T U) :
    Option (StackBridge W T U) :=
  GuardedRuns.loop (ingressTurn env) turns s

def pollEgress (env : Smoltcp W T U) (s : StackBridge W T U) : StackBridge W T U :=
  let (reaction, sent) := env.egress s.interface s.device.stopped s.sockets
  { s with
    interface := reaction.world
    sockets := reaction.apply s.sockets
    device := if s.device.stopped then s.device else sent.foldl BoundedDevice.consume s.device }

def poll (env : Smoltcp W T U) (s : StackBridge W T U) : Option (StackBridge W T U) := do
  let s := { s with interface := env.pollMaintenance s.interface }
  let s ← ingressLoop env s.maxIngressPacketsPerTick s
  let s ← s.queueEstablishedPacketTcp env
  let s ← s.drainPacketUdp env
  return s.pollEgress env

end StackBridge
end Snolc.Stack
