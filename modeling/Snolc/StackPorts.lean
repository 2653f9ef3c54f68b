import Snolc.StackBridge

set_option autoImplicit false

/-!
# Flows and ports of the shared bridge

Opening and closing of stream flows, the sends and receives of the ports, and the
accepting of packet flows. An accepted packet flow is owned by a lease, and dropping
the lease closes it.
-/
namespace Snolc.Stack
open CheckedSlice Handles
open Engine (FlowMetadata StackError IpAddr)

inductive Side where
  | adapter
  | policy
  deriving DecidableEq, Repr

def Side.other : Side → Side
  | .adapter => .policy
  | .policy => .adapter

def PairFlow.socket (flow : PairFlow) : Side → ℕ
  | .adapter => flow.adapter
  | .policy => flow.policy

def PairFlow.port (flow : PairFlow) : Side → ℕ
  | .adapter => flow.adapterPort
  | .policy => flow.policyPort

def loopback : IpAddr := .v4 (Vector.mk #[127, 0, 0, 1] rfl)

namespace StackBridge

variable {W T U : Type}

def pollTimes (env : Smoltcp W T U) : ℕ → StackBridge W T U → Option (StackBridge W T U)
  | 0, s => some s
  | n + 1, s => do pollTimes env n (← s.poll env)

def connectPair (env : Smoltcp W T U) (s : StackBridge W T U)
    (adapter policy adapterPort policyPort : ℕ) :
    Option (StackBridge W T U × Except StackError Unit) := do
  let server ← s.sockets.tcpAt policy
  match env.listen server.rest ⟨none, UInt16.ofNat policyPort⟩ with
  | .error message => return (s, .error (.tcp message))
  | .ok rest =>
    let s := { s with sockets := s.sockets.setTcp policy ⟨.listen, rest⟩ }
    let client ← s.sockets.tcpAt adapter
    let (interface, connected) := env.connect s.interface client.rest
      ⟨loopback, UInt16.ofNat policyPort⟩ adapterPort
    let s := { s with interface := interface }
    match connected with
    | .error message => return (s, .error (.tcp message))
    | .ok rest => return ({ s with sockets := s.sockets.setTcp adapter ⟨.synSent, rest⟩ }, .ok ())

/-- `open_tcp` from the connecting of the two sockets to the insertion of the flow. -/
def joinTcp (env : Smoltcp W T U) (s : StackBridge W T U) (flow : PairFlow) :
    Option (StackBridge W T U × Except StackError Handle) := do
  match ← s.connectPair env flow.adapter flow.policy flow.adapterPort flow.policyPort with
  | (s, .error error) =>
    return (← s.cleanupSockets flow.adapter flow.policy flow.adapterPort flow.policyPort
      flow.managedBytes, .error error)
  | (s, .ok ()) =>
    match ← s.tcpFlows.insert flow with
    | .error _ =>
      return (← s.cleanupSockets flow.adapter flow.policy flow.adapterPort flow.policyPort
        flow.managedBytes, .error .flowLimit)
    | .ok (flows, handle) => return ({ s with tcpFlows := flows }, .ok handle)

/-- `open_tcp` up to the ticks that let the two sockets connect. -/
def startTcp (env : Smoltcp W T U) (s : StackBridge W T U) (metadata : FlowMetadata) :
    Option (StackBridge W T U × Except StackError Handle) :=
  if invalidMetadata metadata then some (s, .error .metadata)
  else
    match (checkedAdd s.config.tcpSocketRxBytes s.config.tcpSocketTxBytes).bind
        (checkedMul · 2) with
    | none => some (s, .error .resource)
    | some managedBytes => do
      match ← s.reservePair managedBytes with
      | (s, .error error) => return (s, .error error)
      | (s, .ok (adapterPort, policyPort)) =>
        let (sockets, policy) := s.sockets.add (.tcp ⟨.closed, env.newTcp s.config⟩)
        let (sockets, adapter) := SocketSet.add sockets (.tcp ⟨.closed, env.newTcp s.config⟩)
        joinTcp env { s with sockets := sockets }
          ⟨adapter, policy, adapterPort, policyPort, metadata, managedBytes⟩

def openTcp (env : Smoltcp W T U) (s : StackBridge W T U) (metadata : FlowMetadata) :
    Option (StackBridge W T U × Except StackError Handle) := do
  match ← s.startTcp env metadata with
  | (s, .error error) => return (s, .error error)
  | (s, .ok handle) => return (← pollTimes env 8 s, .ok handle)

def bindPair (env : Smoltcp W T U) (s : StackBridge W T U)
    (adapter policy adapterPort policyPort : ℕ) : Option (StackBridge W T U × Bool) := do
  let first ← s.sockets.udpAt adapter
  match env.bind first.rest ⟨none, UInt16.ofNat adapterPort⟩ with
  | none => return (s, false)
  | some rest =>
    let s := { s with sockets := s.sockets.setUdp adapter ⟨first.rx, rest⟩ }
    let second ← s.sockets.udpAt policy
    match env.bind second.rest ⟨none, UInt16.ofNat policyPort⟩ with
    | none => return (s, false)
    | some rest => return ({ s with sockets := s.sockets.setUdp policy ⟨second.rx, rest⟩ }, true)

def joinUdp (env : Smoltcp W T U) (s : StackBridge W T U) (flow : PairFlow) :
    Option (StackBridge W T U × Except StackError Handle) := do
  match ← s.bindPair env flow.adapter flow.policy flow.adapterPort flow.policyPort with
  | (s, false) =>
    return (← s.cleanupSockets flow.adapter flow.policy flow.adapterPort flow.policyPort
      flow.managedBytes, .error .udp)
  | (s, true) =>
    match ← s.udpFlows.insert flow with
    | .error _ =>
      return (← s.cleanupSockets flow.adapter flow.policy flow.adapterPort flow.policyPort
        flow.managedBytes, .error .flowLimit)
    | .ok (flows, handle) => return ({ s with udpFlows := flows }, .ok handle)

def openUdp (env : Smoltcp W T U) (s : StackBridge W T U) (metadata : FlowMetadata) :
    Option (StackBridge W T U × Except StackError Handle) :=
  if invalidMetadata metadata then some (s, .error .metadata)
  else
    match (checkedAdd s.config.udpSocketRxBytes s.config.udpSocketTxBytes).bind
        (checkedMul · 2) with
    | none => some (s, .error .resource)
    | some managedBytes => do
      match ← s.reservePair managedBytes with
      | (s, .error error) => return (s, .error error)
      | (s, .ok (adapterPort, policyPort)) =>
        let (sockets, adapter) := s.sockets.add (.udp ⟨[], env.newUdp s.config⟩)
        let (sockets, policy) := SocketSet.add sockets (.udp ⟨[], env.newUdp s.config⟩)
        joinUdp env { s with sockets := sockets }
          ⟨adapter, policy, adapterPort, policyPort, metadata, managedBytes⟩

/-- What `startTcp` and `openUdp` have in common: a flow is opened once the budget has room for both of its sockets
and there are two ports for them. -/
def openPair (s : StackBridge W T U) (metadata : FlowMetadata) (rx tx : ℕ)
    (opened : StackBridge W T U → ℕ → ℕ → ℕ → Option (StackBridge W T U × Except StackError Handle)) :
    Option (StackBridge W T U × Except StackError Handle) :=
  if invalidMetadata metadata then some (s, .error .metadata)
  else
    match (checkedAdd rx tx).bind (checkedMul · 2) with
    | none => some (s, .error .resource)
    | some managedBytes => do
      match ← s.reservePair managedBytes with
      | (s, .error error) => return (s, .error error)
      | (s, .ok (adapterPort, policyPort)) => opened s adapterPort policyPort managedBytes

def openedTcp (env : Smoltcp W T U) (metadata : FlowMetadata) (s : StackBridge W T U)
    (adapterPort policyPort managedBytes : ℕ) : Option (StackBridge W T U × Except StackError Handle) :=
  let (sockets, policy) := s.sockets.add (.tcp ⟨.closed, env.newTcp s.config⟩)
  let (sockets, adapter) := SocketSet.add sockets (.tcp ⟨.closed, env.newTcp s.config⟩)
  joinTcp env { s with sockets := sockets } ⟨adapter, policy, adapterPort, policyPort, metadata, managedBytes⟩

def openedUdp (env : Smoltcp W T U) (metadata : FlowMetadata) (s : StackBridge W T U)
    (adapterPort policyPort managedBytes : ℕ) : Option (StackBridge W T U × Except StackError Handle) :=
  let (sockets, adapter) := s.sockets.add (.udp ⟨[], env.newUdp s.config⟩)
  let (sockets, policy) := SocketSet.add sockets (.udp ⟨[], env.newUdp s.config⟩)
  joinUdp env { s with sockets := sockets } ⟨adapter, policy, adapterPort, policyPort, metadata, managedBytes⟩

theorem startTcp_eq (env : Smoltcp W T U) (s : StackBridge W T U) (metadata : FlowMetadata) :
    s.startTcp env metadata =
      s.openPair metadata s.config.tcpSocketRxBytes s.config.tcpSocketTxBytes (openedTcp env metadata) := rfl

theorem openUdp_eq (env : Smoltcp W T U) (s : StackBridge W T U) (metadata : FlowMetadata) :
    s.openUdp env metadata =
      s.openPair metadata s.config.udpSocketRxBytes s.config.udpSocketTxBytes (openedUdp env metadata) := rfl

def releaseFlow (s : StackBridge W T U) (flow : PairFlow) :
    Option (StackBridge W T U × Except StackError Unit) := do
  let s ← s.removeSocket flow.adapter
  let s ← s.removeSocket flow.policy
  match ← s.releasePort flow.adapterPort with
  | (s, .error error) => return (s, .error error)
  | (s, .ok ()) =>
    match ← s.releasePort flow.policyPort with
    | (s, .error error) => return (s, .error error)
    | (s, .ok ()) => return (← s.release flow.managedBytes, .ok ())

def closeTcp (s : StackBridge W T U) (handle : Handle) :
    Option (StackBridge W T U × Except StackError Unit) :=
  match s.tcpFlows.remove handle with
  | none => some (s, .error .stale)
  | some (flows, flow) => { s with tcpFlows := flows }.releaseFlow flow

def closeUdp (s : StackBridge W T U) (handle : Handle) :
    Option (StackBridge W T U × Except StackError Unit) :=
  match s.udpFlows.remove handle with
  | none => some (s, .error .stale)
  | some (flows, flow) => { s with udpFlows := flows }.releaseFlow flow

def withTcpSocket (s : StackBridge W T U) (handle : Handle) (side : Side)
    (call : TcpSocket T → TcpSocket T) : Option (StackBridge W T U) :=
  match s.tcpFlows.get handle with
  | none => some s
  | some flow => do
    let socket ← s.sockets.tcpAt (flow.socket side)
    return { s with sockets := s.sockets.setTcp (flow.socket side) (call socket) }

def withUdpSocket (s : StackBridge W T U) (handle : Handle) (side : Side)
    (call : UdpSocket U → UdpSocket U) : Option (StackBridge W T U) :=
  match s.udpFlows.get handle with
  | none => some s
  | some flow => do
    let socket ← s.sockets.udpAt (flow.socket side)
    return { s with sockets := s.sockets.setUdp (flow.socket side) (call socket) }

def withPacketTcpSocket (s : StackBridge W T U) (handle : Handle)
    (call : TcpSocket T → TcpSocket T) : Option (StackBridge W T U) :=
  match s.packetTcpFlows.get handle with
  | none => some s
  | some flow => do
    let socket ← s.sockets.tcpAt flow.socket
    return { s with sockets := s.sockets.setTcp flow.socket (call socket) }

/-- `PacketUdpPort::poll_send_datagram`: the datagram goes into the socket of the group. -/
def packetUdpSend (s : StackBridge W T U) (handle : Handle) (length : ℕ) (call : U → U) :
    Option (StackBridge W T U) :=
  if s.config.maxUdpPayloadBytes < length then some s
  else
    match s.packetUdpFlows.get handle with
    | none => some s
    | some flow =>
      match KeyedList.get s.packetUdpGroups flow.tuple.destination with
      | none => some s
      | some group => do
        let socket ← s.sockets.udpAt group.socket
        return { s with sockets := s.sockets.setUdp group.socket ⟨socket.rx, call socket.rest⟩ }

inductive DatagramRecv where
  | datagram (length : ℕ)
  | bufferTooSmall (required : ℕ)
  | closed
  | pending
  deriving DecidableEq, Repr

/-- `PacketUdpPort::poll_recv_datagram` into a buffer of the given length. -/
def packetUdpRecv (s : StackBridge W T U) (handle : Handle) (length : ℕ) :
    Option (StackBridge W T U × DatagramRecv) :=
  match s.packetUdpFlows.get handle with
  | none => some (s, .closed)
  | some flow =>
    match flow.incoming with
    | none => some (s, .pending)
    | some packet =>
      if length < packet.length then some (s, .bufferTooSmall packet.length)
      else do
        let s := { s with
          packetUdpFlows := s.packetUdpFlows.modify handle fun flow =>
            { flow with incoming := none } }
        return (← s.release packet.length, .datagram packet.length)

def packetRecv (s : StackBridge W T U) (length : ℕ) : Option (StackBridge W T U × DatagramRecv) :=
  match s.device.egress with
  | [] => some (s, .pending)
  | packet :: egress =>
    if length < packet.length then some (s, .bufferTooSmall packet.length)
    else do
      let device ← { s.device with egress := egress }.spend packet.length
      return ({ s with device := device }, .datagram packet.length)

inductive SendResult where
  | sent
  | invalidInput
  | pending
  deriving DecidableEq, Repr

def packetSend (s : StackBridge W T U) (packet : List UInt8) (nowMs : ℕ) :
    Option (StackBridge W T U × SendResult) :=
  if packet.isEmpty || decide (maxIpv6PacketBytes < packet.length) || !validIpPacket packet then
    some (s, .invalidInput)
  else do
    let available := s.device.byteLimit - s.device.bytes
    let (ipv6Reassembly, outcome) ← s.ipv6Reassembly.ingest packet nowMs available
    let s := { s with ipv6Reassembly := ipv6Reassembly }
    match outcome with
    | .pending => return (s, .pending)
    | .buffered => return (s, .sent)
    | .dropped => return (s, .sent)
    | .packet packet =>
      if available < packet.length then return (s, .pending)
      return ({ s with
        device := { s.device with
          bytes := s.device.bytes + packet.length
          ingress := s.device.ingress ++ [⟨packet, true⟩] } }, .sent)

end StackBridge

structure SharedStackBridge (W T U : Type) where
  inner : StackBridge W T U
  packetTcpLeases : List Handle
  packetUdpLeases : List Handle

namespace SharedStackBridge

variable {W T U : Type}

def acceptPacketTcp (s : SharedStackBridge W T U) :
    SharedStackBridge W T U × Except StackError (Option (FlowMetadata × Handle)) :=
  match s.inner.pendingPacketTcp with
  | [] => (s, .ok none)
  | handle :: rest =>
    let s := { s with inner := { s.inner with pendingPacketTcp := rest } }
    match s.inner.packetTcpFlows.get handle with
    | none => (s, .error .stale)
    | some flow =>
      ({ s with packetTcpLeases := handle :: s.packetTcpLeases }, .ok (some (flow.metadata, handle)))

def acceptPacketUdp (s : SharedStackBridge W T U) :
    SharedStackBridge W T U × Except StackError (Option (FlowMetadata × Handle)) :=
  match s.inner.pendingPacketUdp with
  | [] => (s, .ok none)
  | handle :: rest =>
    let s := { s with inner := { s.inner with pendingPacketUdp := rest } }
    match s.inner.packetUdpFlows.get handle with
    | none => (s, .error .stale)
    | some flow =>
      ({ s with packetUdpLeases := handle :: s.packetUdpLeases }, .ok (some (flow.metadata, handle)))

def dropPacketTcp (s : SharedStackBridge W T U) (handle : Handle) :
    Option (SharedStackBridge W T U) :=
  if handle ∈ s.packetTcpLeases then do
    let (inner, _) ← s.inner.closePacketTcp handle
    return { s with inner := inner, packetTcpLeases := s.packetTcpLeases.erase handle }
  else some s

def dropPacketUdp (s : SharedStackBridge W T U) (handle : Handle) :
    Option (SharedStackBridge W T U) :=
  if handle ∈ s.packetUdpLeases then do
    let (inner, _) ← s.inner.closePacketUdp handle
    return { s with inner := inner, packetUdpLeases := s.packetUdpLeases.erase handle }
  else some s

end SharedStackBridge

inductive StackCall (T U : Type) where
  | openTcp (metadata : FlowMetadata)
  | openUdp (metadata : FlowMetadata)
  | closeTcp (handle : Handle)
  | closeUdp (handle : Handle)
  | poll
  | packetSend (packet : List UInt8) (nowMs : ℕ)
  | packetRecv (length : ℕ)
  | acceptPacketTcp
  | acceptPacketUdp
  | dropPacketTcp (handle : Handle)
  | dropPacketUdp (handle : Handle)
  | packetUdpRecv (handle : Handle) (length : ℕ)
  | packetUdpSend (handle : Handle) (length : ℕ) (call : U → U)
  | tcpSocket (handle : Handle) (side : Side) (call : TcpSocket T → TcpSocket T)
  | udpSocket (handle : Handle) (side : Side) (call : UdpSocket U → UdpSocket U)
  | packetTcpSocket (handle : Handle) (call : TcpSocket T → TcpSocket T)
  | stopDevice
  | startDevice

namespace SharedStackBridge

variable {W T U : Type}

def onInner (s : SharedStackBridge W T U) (inner : Option (StackBridge W T U)) :
    Option (SharedStackBridge W T U) :=
  inner.map fun inner => { s with inner := inner }

/-- A call of the port that owns a lease. -/
def onLease (s : SharedStackBridge W T U) (leases : List Handle) (handle : Handle)
    (inner : Option (StackBridge W T U)) : Option (SharedStackBridge W T U) :=
  if handle ∈ leases then s.onInner inner else some s

def step (env : Smoltcp W T U) (s : SharedStackBridge W T U) :
    StackCall T U → Option (SharedStackBridge W T U)
  | .openTcp metadata => s.onInner ((s.inner.openTcp env metadata).map Prod.fst)
  | .openUdp metadata => s.onInner ((s.inner.openUdp env metadata).map Prod.fst)
  | .closeTcp handle => s.onInner ((s.inner.closeTcp handle).map Prod.fst)
  | .closeUdp handle => s.onInner ((s.inner.closeUdp handle).map Prod.fst)
  | .poll => s.onInner (s.inner.poll env)
  | .packetSend packet nowMs => s.onInner ((s.inner.packetSend packet nowMs).map Prod.fst)
  | .packetRecv length => s.onInner ((s.inner.packetRecv length).map Prod.fst)
  | .acceptPacketTcp => some s.acceptPacketTcp.1
  | .acceptPacketUdp => some s.acceptPacketUdp.1
  | .dropPacketTcp handle => s.dropPacketTcp handle
  | .dropPacketUdp handle => s.dropPacketUdp handle
  | .packetUdpRecv handle length =>
    s.onLease s.packetUdpLeases handle ((s.inner.packetUdpRecv handle length).map Prod.fst)
  | .packetUdpSend handle length call =>
    s.onLease s.packetUdpLeases handle (s.inner.packetUdpSend handle length call)
  | .tcpSocket handle side call => s.onInner (s.inner.withTcpSocket handle side call)
  | .udpSocket handle side call => s.onInner (s.inner.withUdpSocket handle side call)
  | .packetTcpSocket handle call =>
    s.onLease s.packetTcpLeases handle (s.inner.withPacketTcpSocket handle call)
  | .stopDevice => some { s with inner := { s.inner with
      device := { s.inner.device with stopped := true } } }
  | .startDevice => some { s with inner := { s.inner with
      device := { s.inner.device with stopped := false } } }

def run (env : Smoltcp W T U) (s : SharedStackBridge W T U) (calls : List (StackCall T U)) :
    Option (SharedStackBridge W T U) :=
  calls.foldlM (step env) s

end SharedStackBridge
end Snolc.Stack
