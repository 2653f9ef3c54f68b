import Snolc.StackAccounts
import Snolc.StackFrames

set_option autoImplicit false

namespace Snolc.Stack
open GuardedRuns Handles PollIo
open Engine (IpAddr StackError)
open scoped List

variable {W T U : Type} {env : Smoltcp W T U}

/-- What the bridge relies on of the UDP part of smoltcp. `completes` is the datagram that a packet makes whole, with
its destination; `mixes` says that fragments of different datagrams are put together for it; `onWay` are the datagrams
that smoltcp has sent to itself and not yet taken in, as they stand in the interface and in the queue of the device. -/
structure UdpService (env : Smoltcp W T U) where
  bound : U → Option ListenEndpoint
  queued : U → List (List UInt8 × IpEndpoint)
  sendSlice : U → List UInt8 → IpEndpoint → Option U
  completes : W → List UInt8 → Option (List UInt8 × IpEndpoint)
  mixes : W → List UInt8 → Bool
  onWay : W → List QueuedPacket → List (List UInt8 × IpEndpoint)

def looped : IpAddr → Bool
  | .v4 address => address.toList.head? == some 127
  | .v6 address => address.toList == [0, 0, 0, 0, 0, 0, 0, 0, 0, 0, 0, 0, 0, 0, 0, 1]

/-- Without an address a socket takes what comes to its port. -/
def boundTo (bound : U → Option ListenEndpoint) (destination : IpEndpoint) : Option (Socket T U) → Bool
  | some (.udp socket) =>
    match bound socket.rest with
    | none => false
    | some endpoint => endpoint.port == destination.port && endpoint.addr.all (· == destination.addr)
  | _ => false

namespace UdpService

variable (net : UdpService env)

/-- The first socket of the set that is bound to the destination. -/
def receiver (set : SocketSet T U) (destination : IpEndpoint) : Option ℕ := set.findIdx? (boundTo net.bound destination)

/-- What the socket at an index hands over for sending. -/
def departed (r : Reaction W T U) (set : SocketSet T U) (index : ℕ) : List (List UInt8 × IpEndpoint) :=
  match set.udpAt index with
  | none => []
  | some socket =>
    (net.queued socket.rest).take
      ((net.queued socket.rest).length - (net.queued (r.udp index socket).rest).length)

/-- smoltcp makes up no datagram and sends none twice; an incoming one goes to the first socket bound to its
destination. -/
structure Documented : Prop where
  binds : ∀ config endpoint u, env.bind (env.newUdp config) endpoint = some u →
    net.bound u = some endpoint ∧ net.queued u = []
  sends : ∀ u datagram endpoint u', net.sendSlice u datagram endpoint = some u' →
    net.bound u' = net.bound u ∧ net.queued u' = net.queued u ++ [(datagram, endpoint)]
  maintains : ∀ w queue, net.onWay (env.pollMaintenance w) queue <+~ net.onWay w queue
  connects : ∀ w rest endpoint port queue, net.onWay (env.connect w rest endpoint port).1 queue <+~ net.onWay w queue
  drops : ∀ w packet queue, net.onWay w queue <+~ net.onWay w (packet :: queue)
  brings : ∀ w queue bytes, net.onWay w (queue ++ [⟨bytes, true⟩]) <+~ net.onWay w queue
  keeps : ∀ w set bytes index socket, set.udpAt index = some socket →
    net.bound ((env.ingress w set bytes).1.udp index socket).rest = net.bound socket.rest ∧
      net.queued ((env.ingress w set bytes).1.udp index socket).rest = net.queued socket.rest
  delivers : ∀ w set bytes index socket, set.udpAt index = some socket →
    ((env.ingress w set bytes).1.udp index socket).rx = socket.rx ∨
      ∃ payload destination source, net.completes w bytes = some (payload, destination) ∧
        net.receiver set destination = some index ∧
        ((env.ingress w set bytes).1.udp index socket).rx = socket.rx ++ [(payload, source)]
  takes : ∀ w set packet (device : BoundedDevice), net.mixes w packet.bytes = false →
    (if packet.external then [] else (net.completes w packet.bytes).toList) ++
        net.onWay (env.ingress w set packet.bytes).1.world
          ((env.ingress w set packet.bytes).2.elim device device.consume).ingress <+~
      net.onWay w (packet :: device.ingress)
  transmits : ∀ w stopped set index socket, set.udpAt index = some socket →
    net.bound ((env.egress w stopped set).1.udp index socket).rest = net.bound socket.rest ∧
      ((env.egress w stopped set).1.udp index socket).rx = socket.rx ∧
      net.queued ((env.egress w stopped set).1.udp index socket).rest <:+ net.queued socket.rest
  departs : ∀ w set (device : BoundedDevice), device.stopped = false →
    net.onWay (env.egress w false set).1.world
        ((env.egress w false set).2.foldl BoundedDevice.consume device).ingress <+~
      net.onWay w device.ingress ++
        ((List.range set.length).flatMap (net.departed (env.egress w false set).1 set)).filter (looped ·.2.addr)
  rests : ∀ w set queue, net.onWay (env.egress w true set).1.world queue <+~ net.onWay w queue

end UdpService

def PairFlow.endpoint (flow : PairFlow) (side : Side) : IpEndpoint := ⟨loopback, UInt16.ofNat (flow.port side)⟩

/-- With the bytes that are copied into the buffer. -/
inductive DatagramRead where
  | empty
  | datagram (payload : List UInt8)
  | bufferTooSmall (required : ℕ)
  deriving DecidableEq, Repr

namespace StackBridge

/-- `udp_send_adapter` and `udp_send_policy`. -/
def udpSend (net : UdpService env) (s : StackBridge W T U) (handle : Handle) (side : Side) (data : List UInt8) :
    Option (StackBridge W T U × Except StackError Unit) :=
  match s.udpFlows.get handle with
  | none => some (s, .error .stale)
  | some flow => do
    let socket ← s.sockets.udpAt (flow.socket side)
    match net.sendSlice socket.rest data (flow.endpoint side.other) with
    | none => return (s, .error .udp)
    | some rest =>
      return ({ s with sockets := s.sockets.setUdp (flow.socket side) ⟨socket.rx, rest⟩ }, .ok ())

def recvUdp (socket : UdpSocket U) (length : ℕ) : UdpSocket U × DatagramRead :=
  match socket.rx with
  | [] => (socket, .empty)
  | (payload, _) :: rx =>
    if length < payload.length then (socket, .bufferTooSmall payload.length)
    else (⟨rx, socket.rest⟩, .datagram payload)

/-- `udp_recv_adapter` and `udp_recv_policy`. -/
def udpRecv (s : StackBridge W T U) (handle : Handle) (side : Side) (length : ℕ) :
    Option (StackBridge W T U × Except StackError DatagramRead) :=
  match s.udpFlows.get handle with
  | none => some (s, .error .stale)
  | some flow => do
    let socket ← s.sockets.udpAt (flow.socket side)
    let (socket, read) := recvUdp socket length
    return ({ s with sockets := s.sockets.setUdp (flow.socket side) socket }, .ok read)

/-- `UdpDatagramPort::poll_send_datagram`. -/
def pollSendDatagram (net : UdpService env) (s : StackBridge W T U) (handle : Handle) (side : Side)
    (datagram : List UInt8) : Option (StackBridge W T U × IoPoll Unit) :=
  if WireFormat.maxUdpPayload < datagram.length then
    some (s, .ready (.error ⟨.invalidInput, "UDP payload exceeds wire limit"⟩))
  else do
    match ← s.udpSend net handle side datagram with
    | (s, .ok ()) => return (s, .ready (.ok ()))
    | (s, .error .udp) => return (s, .pending)
    | (s, .error _) => return (s, .ready (.error ⟨.other, "flow handle is stale"⟩))

/-- `UdpDatagramPort::poll_recv_datagram`. -/
def pollRecvDatagram (s : StackBridge W T U) (handle : Handle) (side : Side) (length : ℕ) :
    Option (StackBridge W T U × IoPoll DatagramRead) := do
  match ← s.udpRecv handle side length with
  | (s, .ok .empty) => return (s, .pending)
  | (s, .ok read) => return (s, .ready (.ok read))
  | (s, .error _) => return (s, .ready (.error ⟨.other, "flow handle is stale"⟩))

/-- `PacketUdpPort::poll_send_datagram`, towards the source of its flow. -/
def packetReply (net : UdpService env) (s : StackBridge W T U) (handle : Handle) (datagram : List UInt8) :
    Option (StackBridge W T U) :=
  match s.packetUdpFlows.get handle with
  | none => some s
  | some flow =>
    s.packetUdpSend handle datagram.length fun u => (net.sendSlice u datagram flow.tuple.source).getD u

end StackBridge
end Snolc.Stack
