import Snolc.CoreIo
import Snolc.MuxSession

set_option autoImplicit false

/-!
# What an engine session calls

A session reaches the outside through calls of its modules and of the network
stack. Every answer is free: the modules are a state that answers each call, and
during a call, as between two polls, they may read and write streams, close
handles and take operation numbers. The host keeps the history of all calls with
their answers, and of the flows the session took up in between.
-/
namespace Snolc.Engine
open PollIo MuxFrame Mux WireFormat CoreIo

inductive IpAddr where
  | v4 (octets : Vector UInt8 4)
  | v6 (octets : Vector UInt8 16)
  deriving DecidableEq, Repr

structure OwnedFlowMetadata where
  kind : UInt32
  addressType : UInt32
  address : List UInt8
  port : UInt16
  opaqueBytes : List UInt8
  deriving DecidableEq, Repr

def flowTcp : UInt32 := 1
def flowUdp : UInt32 := 2
def addressIpv4 : UInt32 := 1
def addressIpv6 : UInt32 := 2
def addressDomain : UInt32 := 3

namespace OwnedFlowMetadata

def fromRequest (request : OpenRequest) : OwnedFlowMetadata where
  kind := match request.kind with
    | .tcp => flowTcp
    | .udp => flowUdp
    | .policy => 0
  addressType := match request.destination with
    | .ipv4 _ => addressIpv4
    | .ipv6 _ => addressIpv6
    | .domain _ => addressDomain
  address := match request.destination with
    | .ipv4 address => address.toList
    | .ipv6 address => address.toList
    | .domain name => octets name
  port := request.port
  opaqueBytes := request.metadata

def resolved (metadata : OwnedFlowMetadata) : IpAddr → OwnedFlowMetadata
  | .v4 address => { metadata with addressType := addressIpv4, address := address.toList }
  | .v6 address => { metadata with addressType := addressIpv6, address := address.toList }

end OwnedFlowMetadata

structure FlowMetadata where
  destination : Destination
  port : UInt16
  opaqueBytes : List UInt8
  deriving DecidableEq, Repr

def FlowMetadata.ofRequest (request : OpenRequest) : FlowMetadata :=
  ⟨request.destination, request.port, request.metadata⟩

inductive LoadError where
  | moduleStatus (status : UInt32)
  | notCreated
  | classTable (cls : UInt32)
  | missingFunction
  | invalidHandle
  | flowMetadata
  | byteIo
  deriving DecidableEq, Repr

inductive StackError where
  | resource
  | flowLimit
  | portLimit
  | stale
  | metadata
  | tcp (message : String)
  | udp
  | stopped
  deriving DecidableEq, Repr

inductive ModuleCall where
  | instantNow
  | carrierConnect (carrier : ℕ)
  | carrierAccept (carrier : ℕ)
  | protectionWrap (protection : ℕ) (role : Mode)
  | policyAttachSession (policy : ℕ) (stream : Handle) (context : List UInt8)
  | policyAdmitFlow (policy : ℕ) (session : UInt64) (metadata : OwnedFlowMetadata)
  | policyAdmitResolved (policy : ℕ) (session : UInt64) (metadata : OwnedFlowMetadata)
  | policyAttachFlow (policy : ℕ) (session : UInt64) (stack mux : Handle)
  | policyAttachDatagramFlow (policy : ℕ) (session : UInt64) (stack mux : Handle)
  | adapterAccept (adapter : ℕ)
  | adapterResolve (adapter : ℕ) (operation : ℕ) (metadata : OwnedFlowMetadata)
  | adapterOpen (adapter : ℕ) (operation : ℕ) (metadata : OwnedFlowMetadata)
  | adapterAttachFlow (adapter : ℕ) (flow : UInt64) (stack : Handle)
  | adapterAttachDatagram (adapter : ℕ) (flow : UInt64) (stack : Handle)
  | adapterCompleteFlow (adapter : ℕ) (flow : UInt64) (status : UInt32) (reason : List UInt8)
  | adapterCloseFlow (adapter : ℕ) (flow : UInt64)
  | stackAcceptPacketTcp
  | stackAcceptPacketUdp
  | stackOpenTcp (metadata : FlowMetadata)
  | stackOpenUdp (metadata : FlowMetadata)
  deriving DecidableEq, Repr

/-- `T` is the byte stream a carrier or a protection hands out. -/
@[reducible] def ModuleCall.Answer (T : Type) : ModuleCall → Type
  | .instantNow => ℕ
  | .carrierConnect _ | .carrierAccept _ | .protectionWrap _ _ => Poll (Except LoadError T)
  | .policyAttachSession _ _ _ => Poll (Except LoadError UInt64)
  | .policyAdmitFlow _ _ _ | .policyAdmitResolved _ _ _ => Poll (Except LoadError Unit)
  | .policyAttachFlow _ _ _ _ | .policyAttachDatagramFlow _ _ _ _ => Except LoadError Unit
  | .adapterAccept _ => Poll (Except LoadError (UInt64 × OpenRequest))
  | .adapterResolve _ _ _ => Poll (Except LoadError (Option (List IpAddr)))
  | .adapterOpen _ _ _ => Poll (Except LoadError UInt64)
  | .adapterAttachFlow _ _ _ | .adapterAttachDatagram _ _ _ => Except LoadError Unit
  | .adapterCompleteFlow _ _ _ _ | .adapterCloseFlow _ _ => Except LoadError Unit
  | .stackAcceptPacketTcp | .stackAcceptPacketUdp => Except StackError (Option FlowMetadata)
  | .stackOpenTcp _ | .stackOpenUdp _ => Except StackError Unit

/-- What modules, other sessions and other threads do besides answering. -/
structure Effect (T : Type) where
  registry : Registry → Registry := id
  connection : Connection T → Connection T := id
  operations : ℕ := 0

class Modules (W : Type) (T : outParam Type) where
  answer : W → (call : ModuleCall) → call.Answer T × Effect T × W
  supportsPacketPort : W → ℕ → Bool
  protectionPassthrough : W → ℕ → Bool
  policyPassthroughTcp : W → ℕ → Bool

inductive Occurrence (T : Type) where
  | call (call : ModuleCall) (answer : call.Answer T)
  | serverFlow (operation : ℕ) (request : OpenRequest)
  | clientFlow (request : OpenRequest)
  | beginOpen (request : OpenRequest)
  | reset

structure Host (W T : Type) where
  modules : W
  registry : Registry
  operationNext : ℕ
  trace : List (Occurrence T)

namespace Host
variable {W T : Type}

def note (h : Host W T) (occurrence : Occurrence T) : Host W T :=
  { h with trace := h.trace ++ [occurrence] }

def disturb (h : Host W T) (effect : Effect T) : Host W T :=
  { h with
    registry := effect.registry h.registry
    operationNext := min (h.operationNext + effect.operations) (2 ^ 64 - 1) }

/-- `next_operation`: numbers are not used twice. -/
def nextOperation (h : Host W T) : Option ℕ × Host W T :=
  if 2 ^ 64 ≤ h.operationNext + 1 then (none, h)
  else (some h.operationNext, { h with operationNext := h.operationNext + 1 })

theorem nextOperation_trace (h : Host W T) : h.nextOperation.2.trace = h.trace := by
  unfold nextOperation
  split <;> rfl

end Host
end Snolc.Engine
