import Snolc.EngineSession

set_option autoImplicit false

/-!
# A tunnel and its stages

A tunnel goes from the carrier through protection, the mux handshake and the
attachment of the policy to an established session. Every stage but the last has
a deadline, and every failure starts over at the carrier. Instants and durations
are milliseconds.
-/
namespace Snolc.Engine
open PollIo MuxFrame Mux WireFormat CoreIo

inductive Handshake where
  | client (stage : OpenPolicy)
  | server (stage : AcceptPolicy)

inductive TunnelState (T : Type) where
  | carrier
  | protection (lower : Option T)
  | handshake (stage : Handshake) (mux : MuxSession T)
  | policyAttach (mux : Option (MuxSession T)) (stream : Option Handle)
  | established (session : EstablishedSession T)

inductive TunnelUpdate where
  | none
  | carrierReady
  | isProtected
  | policyOpen
  | established
  deriving DecidableEq, Repr

inductive TunnelError where
  | message (text : String)
  | loader (error : LoadError)
  | mux (error : MuxError)
  | coreIo (error : CoreIoError)
  | session (error : SessionFlowError)
  deriving DecidableEq, Repr

structure Tunnel (W T : Type) where
  host : Host W T
  state : TunnelState T
  deadline : Option ℕ
  retryAt : Option ℕ

abbrev TunnelReply (W T : Type) := Except (TunnelError × Bool) TunnelUpdate × Tunnel W T

namespace TunnelState
variable {T : Type}

def stage : TunnelState T → String
  | .carrier => "carrier"
  | .protection _ => "protection"
  | .handshake _ _ => "yamux policy handshake"
  | .policyAttach _ _ => "policy attach"
  | .established _ => "established"

def touch (f : Connection T → Connection T) : TunnelState T → TunnelState T
  | .carrier => .carrier
  | .protection lower => .protection lower
  | .handshake stage mux => .handshake stage (mux.withConnection (f mux.connection))
  | .policyAttach mux stream =>
    .policyAttach (mux.map fun mux => mux.withConnection (f mux.connection)) stream
  | .established session => .established (session.touch f)

/-- The handle that goes out of use with a state that is dropped. -/
def held : TunnelState T → Option Handle
  | .policyAttach _ stream => stream
  | _ => none

end TunnelState

namespace Handshake
variable {T : Type} [AsyncIo T]

def start : Mode → Handshake
  | .client => .client .start
  | .server => .server .start

def poll (family : String) (mux : MuxSession T) : Handshake → Progress Handshake MuxStream × MuxSession T
  | .client stage =>
    match stage.poll family mux with
    | (.finished result, mux) => (.finished result, mux)
    | (.waiting stage, mux) => (.waiting (.client stage), mux)
  | .server stage =>
    match stage.poll family mux with
    | (.finished result, mux) => (.finished result, mux)
    | (.waiting stage, mux) => (.waiting (.server stage), mux)

end Handshake

namespace Tunnel
variable {W T : Type}

def disturb (t : Tunnel W T) (effect : Effect T) : Tunnel W T :=
  { t with host := t.host.disturb effect, state := t.state.touch effect.connection }

variable [Modules W T]

def call (t : Tunnel W T) (call : ModuleCall) : call.Answer T × Tunnel W T :=
  let r := Modules.answer t.host.modules call
  let t := ({ t with host := { t.host with modules := r.2.2 } } : Tunnel W T).disturb r.2.1
  (r.1, { t with host := t.host.note (.call call r.1) })

def new (b : TunnelBinding) (modules : W) (registry : Registry) : Tunnel W T :=
  let t : Tunnel W T := ⟨⟨modules, registry, 1, []⟩, .carrier, none, none⟩
  match b.role with
  | .client =>
    let now := t.call .instantNow
    { now.2 with deadline := some (now.1 + b.connectTimeout) }
  | .server => t

def reset (b : TunnelBinding) (t : Tunnel W T) : Tunnel W T :=
  let registry := t.state.held.elim t.host.registry fun handle => t.host.registry.remove handle .streams
  let t : Tunnel W T :=
    { t with host := { t.host with registry }.note .reset, state := .carrier, retryAt := none }
  match b.role with
  | .client =>
    let now := t.call .instantNow
    { now.2 with deadline := some (now.1 + b.connectTimeout) }
  | .server => { t with deadline := none }

def fail (b : TunnelBinding) (t : Tunnel W T) (error : TunnelError) (wasEstablished : Bool) : TunnelReply W T :=
  let t := t.reset b
  match b.role with
  | .client =>
    let now := t.call .instantNow
    (.error (error, wasEstablished), { now.2 with retryAt := some (now.1 + 10) })
  | .server => (.error (error, wasEstablished), t)

/-- Whether an instant has passed; without one the clock is not read. -/
def reached (t : Tunnel W T) (instant : Option ℕ) : Bool × Tunnel W T :=
  match instant with
  | none => (false, t)
  | some instant =>
    let now := t.call .instantNow
    (decide (instant ≤ now.1), now.2)

def pollCarrier (b : TunnelBinding) (t : Tunnel W T) : TunnelReply W T :=
  let retry := t.reached t.retryAt
  if t.retryAt.isSome ∧ ¬ retry.1 then (.ok .none, retry.2)
  else
    let answer : Poll (Except LoadError T) × Tunnel W T := match b.role with
      | .client => retry.2.call (.carrierConnect b.carrier)
      | .server => retry.2.call (.carrierAccept b.carrier)
    match answer with
    | (.ready (.ok io), t) =>
      let now := ({ t with retryAt := none, state := .protection (some io) } : Tunnel W T).call .instantNow
      (.ok .carrierReady, { now.2 with deadline := some (now.1 + b.handshakeTimeout) })
    | (.ready (.error e), t) => t.fail b (.loader e) false
    | (.pending, t) => (.ok .none, t)

def startHandshake (b : TunnelBinding) (t : Tunnel W T) (io : T) : TunnelReply W T :=
  (.ok .isProtected, { t with state := .handshake (.start b.role) (MuxSession.new io b.role b.yamux) })

def pollProtection (b : TunnelBinding) (t : Tunnel W T) (lower : Option T) : TunnelReply W T :=
  if Modules.protectionPassthrough t.host.modules b.protection then
    match lower with
    | none => t.fail b (.message "carrier stream is unavailable") false
    | some io => t.startHandshake b io
  else
    match t.call (.protectionWrap b.protection b.role) with
    | (.ready (.ok io), t) => t.startHandshake b io
    | (.ready (.error e), t) => t.fail b (.loader e) false
    | (.pending, t) => (.ok .none, t)

def pollPolicyAttach (b : TunnelBinding) (t : Tunnel W T) (stream : Option Handle) : TunnelReply W T :=
  match stream with
  | none => t.fail b (.message "policy stream is unavailable") false
  | some handle =>
    match t.call (.policyAttachSession b.policy handle b.policyContext) with
    | (.ready (.ok policySession), t) =>
      match t.state with
      | .policyAttach (some mux) _ =>
        (.ok .established, { t with state := .established (.new mux policySession), deadline := none })
      | _ =>
        let t : Tunnel W T := { t with state := .policyAttach none none }
        t.fail b (.message "yamux session is unavailable") false
    | (.ready (.error e), t) => t.fail b (.loader e) false
    | (.pending, t) => (.ok .none, t)

variable [AsyncIo T]

def pollHandshake (b : TunnelBinding) (t : Tunnel W T) (stage : Handshake) (mux : MuxSession T) :
    TunnelReply W T :=
  match stage.poll b.policyFamily mux with
  | (.waiting stage, mux) => (.ok .none, { t with state := .handshake stage mux })
  | (.finished (.error e), mux) => ({ t with state := .handshake stage mux } : Tunnel W T).fail b (.mux e) false
  | (.finished (.ok _), mux) =>
    match t.host.registry.register .streams b.coreIoLimit with
    | (.error e, registry) =>
      ({ t with host := { t.host with registry } } : Tunnel W T).fail b (.coreIo e) false
    | (.ok handle, registry) =>
      (.ok .policyOpen,
        { t with host := { t.host with registry }, state := .policyAttach (some mux) (some handle) })

def pollEstablished (b : TunnelBinding) (t : Tunnel W T) (session : EstablishedSession T) : TunnelReply W T :=
  match Live.poll b ⟨t.host, session⟩ with
  | (.ok (), l) => (.ok .none, { t with host := l.host, state := .established l.session })
  | (.error e, l) =>
    ({ t with host := l.host, state := .established l.session } : Tunnel W T).fail b (.session e) true

def poll (b : TunnelBinding) (t : Tunnel W T) : TunnelReply W T :=
  let expired := t.reached t.deadline
  if expired.1 then
    (.error (.message ("tunnel establishment timed out during " ++ expired.2.state.stage), false),
      expired.2.reset b)
  else
    match expired.2.state with
    | .carrier => expired.2.pollCarrier b
    | .protection lower => expired.2.pollProtection b lower
    | .handshake stage mux => expired.2.pollHandshake b stage mux
    | .policyAttach _ stream => expired.2.pollPolicyAttach b stream
    | .established session => expired.2.pollEstablished b session

end Tunnel
end Snolc.Engine
