import Snolc.EngineClientFlows
import Snolc.ScriptedIo

set_option autoImplicit false

namespace Snolc.Engine
open PollIo MuxFrame Mux AsyncTask WireFormat CoreIo ScriptedIo

section Scope
variable {W T : Type}

/-- The failed flow is reported to its adapter, and everything else goes on. -/
structure Contained [Modules W T] (l : Live W T) (r : Reply W T Unit) : Prop where
  returns : r.1 = .ok ()
  told : ∃ adapter flow status reason answer, status ≠ Status.ok.code ∧
    Occurrence.call (.adapterCompleteFlow adapter flow status reason) answer ∈ l.since r.2
  active : ∀ flow ∈ l.reapClosed.session.active, flow ∈ r.2.session.active
  openings : ∃ failed : MuxStream, ∀ opening ∈ l.session.openings, opening.stream ≠ failed →
    ∃ kept ∈ r.2.session.openings, kept.stream = opening.stream

variable [Modules W T] [AsyncIo T]

def MuxRefuses (b : TunnelBinding) (l : Live W T) : Prop :=
  ∃ (l' : Live W T) (pending : PendingClientFlow) (mux : MuxSession T),
    Live.poll b l = l'.beginOpening pending ∧ l'.session.mux = some mux ∧
    (mux.beginOpenFlowConfirmed pending.request).1 = .error .streamLimit

/-- In this poll something fails that concerns only the flow being set up. -/
def FlowFails (b : TunnelBinding) (l : Live W T) : Prop :=
  (∃ o ∈ l.since (Live.poll b l).2, o.FlowFailure) ∨ MuxRefuses b l

def FlowScoped (b : TunnelBinding) (l : Live W T) : Prop := FlowFails b l → Contained l (Live.poll b l)

omit [Modules W T] [AsyncIo T] in
theorem beginOpening_refused {l : Live W T} {pending : PendingClientFlow} {mux : MuxSession T} {e : MuxError}
    (hm : l.session.mux = some mux) (h : (mux.beginOpenFlowConfirmed pending.request).1 = .error e) :
    (l.beginOpening pending).1 = .error (.mux e) := by
  have hmux : (l.setClientPending none).session.mux = some mux := hm
  unfold Live.beginOpening
  dsimp only
  rw [hmux]
  dsimp only
  split <;> rename_i heq <;> rw [heq] at h
  · cases h
    rfl
  · cases h

theorem FlowFails.error {b : TunnelBinding} (hb : b.role = .client) {l : Live W T} (h : FlowFails b l) :
    (Live.poll b l).1 ≠ .ok () := by
  intro hok
  rcases h with ⟨o, ho, hfail⟩ | ⟨l', pending, mux, hpoll, hmux, hrefused⟩
  · exact (poll_went hb hok).fine o ho hfail
  · rw [hpoll, beginOpening_refused hmux hrefused] at hok
    cases hok

/-- At every state of a client a poll contains the failures of single flows exactly when it
    meets none: no such failure is ever contained. -/
theorem flow_failures_scoped_iff {b : TunnelBinding} (hb : b.role = .client) (l : Live W T) :
    FlowScoped b l ↔ ¬ FlowFails b l :=
  ⟨fun h hf => hf.error hb (h hf).returns, fun h hf => absurd hf h⟩

end Scope

structure FixedModules where
  carrier : Poll (Except LoadError Script) := .pending
  attachSession : Poll (Except LoadError UInt64) := .pending
  accept : Poll (Except LoadError (UInt64 × OpenRequest)) := .pending
  stack : Except StackError Unit := .ok ()
  attachAdapter : Except LoadError Unit := .ok ()
  attachPolicy : Except LoadError Unit := .ok ()
  complete : Except LoadError Unit := .ok ()

def FixedModules.answer (w : FixedModules) : (call : ModuleCall) → call.Answer Script
  | .instantNow => 0
  | .carrierConnect _ | .carrierAccept _ | .protectionWrap _ _ => w.carrier
  | .policyAttachSession _ _ _ => w.attachSession
  | .policyAdmitFlow _ _ _ | .policyAdmitResolved _ _ _ => .ready (.ok ())
  | .policyAttachFlow _ _ _ _ | .policyAttachDatagramFlow _ _ _ _ => w.attachPolicy
  | .adapterAccept _ => w.accept
  | .adapterResolve _ _ _ => .ready (.ok none)
  | .adapterOpen _ _ _ => .ready (.ok 7)
  | .adapterAttachFlow _ _ _ | .adapterAttachDatagram _ _ _ => w.attachAdapter
  | .adapterCompleteFlow _ _ _ _ => w.complete
  | .adapterCloseFlow _ _ => .ok ()
  | .stackAcceptPacketTcp | .stackAcceptPacketUdp => .ok none
  | .stackOpenTcp _ | .stackOpenUdp _ => w.stack

instance : Modules FixedModules Script where
  answer w call := (w.answer call, {}, w)
  supportsPacketPort _ _ := false
  protectionPassthrough _ _ := true
  policyPassthroughTcp _ _ := false

def sampleBinding (role : Mode) : TunnelBinding where
  role := role
  adapters := [0]
  carrier := 1
  protection := 2
  policy := 3
  policyFamily := "local"
  policyContext := []
  coreIoLimit := 64
  yamux := ⟨16, 4194304, 16384⟩
  connectTimeout := 1000
  handshakeTimeout := 1000

def sampleMux (role : Mode) : MuxSession Script :=
  { MuxSession.new ({} : Script) role ⟨16, 4194304, 16384⟩ with policyOpen := true }

def sampleLive (role : Mode) (modules : FixedModules) : Live FixedModules Script :=
  ⟨⟨modules, {}, 1, []⟩, .new (sampleMux role) 1⟩

def sampleRequest : OpenRequest := ⟨.tcp, .domain "a", 80, []⟩

/-- An adapter hands over a flow, and the poll sets it up. -/
def acceptedFlow : Live FixedModules Script :=
  sampleLive .client { accept := .ready (.ok (7, sampleRequest)) }

theorem set_up_scoped : (Live.poll (sampleBinding .client) acceptedFlow).2.session.openings.length = 1 ∧
    FlowScoped (sampleBinding .client) acceptedFlow :=
  ⟨rfl, (flow_failures_scoped_iff rfl _).mpr fun hf => hf.error rfl rfl⟩

def exhaustedStack : Live FixedModules Script :=
  sampleLive .client { accept := .ready (.ok (7, sampleRequest)), stack := .error .resource }

theorem exhausted_stack_unscoped : ¬ FlowScoped (sampleBinding .client) exhaustedStack := by
  intro h
  have hfails : FlowFails (sampleBinding .client) exhaustedStack := by
    refine .inl ⟨.call (.stackOpenTcp (.ofRequest sampleRequest)) (.error .resource), ?_, trivial⟩
    exact List.mem_of_getElem? (i := 3) rfl
  exact hfails.error rfl (h hfails).returns

end Snolc.Engine
