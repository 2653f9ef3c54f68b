import Snolc.StackUdpPorts

set_option autoImplicit false

namespace Snolc.Stack
open GuardedRuns Handles PollIo
open scoped List

variable {W T U : Type} {env : Smoltcp W T U}

namespace StackBridge

def streamSockets (s : StackBridge W T U) : List ℕ := gathered PairFlow.sockets s.udpFlows

def streamPorts (s : StackBridge W T U) : List ℕ := gathered PairFlow.ports s.udpFlows

/-- A packet from outside that smoltcp takes in brings no datagram for the socket of a stream flow, and it puts no
datagram together out of fragments of different ones. -/
def TakesApart (net : UdpService env) (s : StackBridge W T U) : Prop :=
  ∀ packet ∈ s.device.ingress.head?.toList, s.device.stopped = true ∨
    net.mixes s.interface packet.bytes = false ∧
      (packet.external = true → ∀ d ∈ (net.completes s.interface packet.bytes).toList,
        ∀ i ∈ (net.receiver s.sockets d.2).toList, i ∉ s.streamSockets)

/-- No socket but those of stream flows has a datagram to send to the port of one. -/
def SendsApart (net : UdpService env) (s : StackBridge W T U) : Prop :=
  s.device.stopped = true ∨ ∀ i ∈ List.range s.sockets.length, i ∉ s.streamSockets →
    ∀ socket ∈ (s.sockets.udpAt i).toList, ∀ d ∈ net.queued socket.rest,
      looped d.2.addr = true → d.2.port.toNat ∉ s.streamPorts

instance (net : UdpService env) (s : StackBridge W T U) : Decidable (s.TakesApart net) :=
  inferInstanceAs (Decidable (∀ packet ∈ s.device.ingress.head?.toList, _))

instance (net : UdpService env) (s : StackBridge W T U) : Decidable (s.SendsApart net) :=
  inferInstanceAs (Decidable (_ ∨ _))

/-- No datagram is on its way to one of the two ports that a flow opened now would have. -/
def PortsFree (net : UdpService env) (s : StackBridge W T U) : Prop :=
  ∀ d ∈ net.onWay s.interface s.device.ingress, d.2.port.toNat ∉ s.ports.available.take 2

instance (net : UdpService env) (s : StackBridge W T U) : Decidable (s.PortsFree net) :=
  inferInstanceAs (Decidable (∀ d ∈ _, _))

end StackBridge

def tickApart (net : UdpService env) : TickGuard W T U where
  ingress s := s.TakesApart net
  drain _ _ := True
  egress s := s.SendsApart net

/-- The bridge, with what was sent and received on the ports of its UDP stream flows. -/
structure StackTraffic (W T U : Type) where
  stack : SharedStackBridge W T U
  sent : Handle × Side → List (List UInt8) := fun _ => []
  received : Handle × Side → List (List UInt8) := fun _ => []

/-- The calls of the UDP ports, and the others. -/
inductive PortCall (T U : Type) where
  | openUdp (metadata : Engine.FlowMetadata)
  | send (handle : Handle) (side : Side) (datagram : List UInt8)
  | recv (handle : Handle) (side : Side) (length : ℕ)
  | reply (handle : Handle) (datagram : List UInt8)
  | stack (call : StackCall T U)

/-- The calls that `PortCall` has of its own. -/
def StackCall.ported : StackCall T U → Bool
  | .openUdp _ | .udpSocket _ _ _ | .packetUdpSend _ _ _ => true
  | _ => false

instance (net : UdpService env) (s : StackBridge W T U) : Decidable ((tickApart net).ingress s) :=
  inferInstanceAs (Decidable (s.TakesApart net))

instance (net : UdpService env) (s : StackBridge W T U) (destination : IpEndpoint) :
    Decidable ((tickApart net).drain s destination) :=
  isTrue trivial

instance (net : UdpService env) (s : StackBridge W T U) : Decidable ((tickApart net).egress s) :=
  inferInstanceAs (Decidable (s.SendsApart net))

namespace StackTraffic

def withInner (l : StackTraffic W T U) (inner : StackBridge W T U) : StackTraffic W T U :=
  { l with stack := { l.stack with inner := inner } }

def accepted (datagram : List UInt8) : IoPoll Unit → List (List UInt8)
  | .ready (.ok ()) => [datagram]
  | _ => []

def taken : IoPoll DatagramRead → List (List UInt8)
  | .ready (.ok (.datagram payload)) => [payload]
  | _ => []

def send (net : UdpService env) (l : StackTraffic W T U) (handle : Handle) (side : Side) (datagram : List UInt8) :
    Option (StackTraffic W T U) := do
  let (inner, result) ← l.stack.inner.pollSendDatagram net handle side datagram
  return { l.withInner inner with
    sent := Function.update l.sent (handle, side) (l.sent (handle, side) ++ accepted datagram result) }

def recv (l : StackTraffic W T U) (handle : Handle) (side : Side) (length : ℕ) : Option (StackTraffic W T U) := do
  let (inner, result) ← l.stack.inner.pollRecvDatagram handle side length
  return { l.withInner inner with
    received := Function.update l.received (handle, side) (l.received (handle, side) ++ taken result) }

/-- A new flow starts with nothing sent and nothing received. -/
def fresh (log : Handle × Side → List (List UInt8)) :
    Except Engine.StackError Handle → Handle × Side → List (List UInt8)
  | .error _ => log
  | .ok handle => fun key => if key.1 = handle then [] else log key

def openUdp (env : Smoltcp W T U) (l : StackTraffic W T U) (metadata : Engine.FlowMetadata) :
    Option (StackTraffic W T U) := do
  let (inner, opened) ← l.stack.inner.openUdp env metadata
  return { l.withInner inner with sent := fresh l.sent opened, received := fresh l.received opened }

/-- Through the port of an accepted packet flow. -/
def reply (net : UdpService env) (l : StackTraffic W T U) (handle : Handle) (datagram : List UInt8) :
    Option (StackTraffic W T U) :=
  if handle ∈ l.stack.packetUdpLeases then (l.stack.inner.packetReply net handle datagram).map l.withInner
  else some l

def step (net : UdpService env) (l : StackTraffic W T U) : PortCall T U → Option (StackTraffic W T U)
  | .openUdp metadata => l.openUdp env metadata
  | .send handle side datagram => l.send net handle side datagram
  | .recv handle side length => l.recv handle side length
  | .reply handle datagram => l.reply net handle datagram
  | .stack call => if call.ported then some l else (l.stack.step env call).map fun stack => { l with stack := stack }

def run (net : UdpService env) (l : StackTraffic W T U) (calls : List (PortCall T U)) : Option (StackTraffic W T U) :=
  calls.foldlM (step net) l

def Apart (net : UdpService env) (l : StackTraffic W T U) : PortCall T U → Prop
  | .openUdp _ => l.stack.inner.PortsFree net
  | .stack call => call.ported = true ∨ CallGuard env (tickApart net) l.stack call
  | .send _ _ _ | .recv _ _ _ | .reply _ _ => True

instance (net : UdpService env) (l : StackTraffic W T U) (call : PortCall T U) : Decidable (l.Apart net call) :=
  match call with
  | .openUdp _ => inferInstanceAs (Decidable (l.stack.inner.PortsFree net))
  | .stack call => inferInstanceAs (Decidable (call.ported = true ∨ CallGuard env (tickApart net) l.stack call))
  | .send _ _ _ | .recv _ _ _ | .reply _ _ => isTrue trivial

/-- Each datagram that a port received was sent through the other port of its flow, each at most once. -/
def Isolated (l : StackTraffic W T U) : Prop :=
  ∀ handle side, l.received (handle, side.other) <+~ l.sent (handle, side)

end StackTraffic
end Snolc.Stack
