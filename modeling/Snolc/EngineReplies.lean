import Snolc.EngineFrame

set_option autoImplicit false

namespace Snolc.Engine
open PollIo MuxFrame Mux AsyncTask WireFormat CoreIo

def ModuleCall.attaches : ModuleCall → Bool
  | .policyAttachFlow _ _ _ _ | .policyAttachDatagramFlow _ _ _ _ => true
  | .adapterAttachFlow _ _ _ | .adapterAttachDatagram _ _ _ => true
  | _ => false

def ModuleCall.movesFlow : ModuleCall → Bool
  | .adapterAccept _ => true
  | .adapterCompleteFlow _ _ _ _ => true
  | _ => false

def Occurrence.isCall {T : Type} : Occurrence T → Bool
  | .call _ _ => true
  | _ => false

structure Plain {W T : Type} [Modules W T] (I : Live W T → Prop) : Prop where
  call : ∀ l c, c.attaches = false → I l → I (l.call c).2
  session : ∀ l s, I l → I ⟨l.host, s⟩
  note : ∀ l o, o.isCall = false → I l → I (l.note o)
  operation : ∀ l, I l → I { l with host := l.host.nextOperation.2 }

namespace Plain
variable {W T : Type} [Modules W T] {I : Live W T → Prop} {l : Live W T}

theorem dropStream (hI : Plain I) (h : I l) (stream : Option MuxStream) : I (l.dropStream stream) := by
  unfold Live.dropStream
  split
  · exact h
  · exact hI.session _ _ h

theorem startResponse (hI : Plain I) (h : I l) (status : OpenStatus) (reason : String) :
    I (l.startResponse status reason).2 := by
  unfold Live.startResponse
  split
  · exact h
  · dsimp only
    split
    · exact hI.session _ _ h
    · split
      · exact hI.session _ _ h
      · exact hI.session _ _ h

theorem closeFlows (hI : Plain I) (closed : List (ℕ × UInt64)) (h : I l) : I (l.closeFlows closed) := by
  induction closed generalizing l with
  | nil => exact h
  | cons flow rest ih => exact ih (hI.session _ _ (hI.call _ _ rfl h))

theorem reapClosed (hI : Plain I) (h : I l) : I l.reapClosed := by
  unfold Live.reapClosed
  dsimp only
  split
  · exact hI.closeFlows _ (hI.session _ _ h)
  · exact hI.session _ _ h

theorem rejectPending (hI : Plain I) (h : I l) : I l.rejectPending := by
  unfold Live.rejectPending
  split
  · exact h
  · dsimp only
    apply hI.dropStream
    apply hI.session
    split
    · exact hI.call _ _ rfl (hI.session _ _ h)
    · exact hI.session _ _ h

theorem openPorts (hI : Plain I) (b : TunnelBinding) (h : I l) (request : OpenRequest) :
    I (Live.openPorts b l request).2 := by
  have htcp := hI.call l (.stackOpenTcp (.ofRequest request)) rfl h
  have hudp := hI.call l (.stackOpenUdp (.ofRequest request)) rfl h
  unfold Live.openPorts
  split
  · split
    · exact h
    · split <;> rename_i heq <;> rw [heq] at htcp <;> exact htcp
  · split <;> rename_i heq <;> rw [heq] at hudp <;> exact hudp
  · exact h

theorem pendingOpen (hI : Plain I) (b : TunnelBinding) (h : I l) (pending : PendingServerFlow) (adapter : ℕ) :
    I (Live.pendingOpen b l pending adapter).2 := by
  have hopen := hI.call l (.adapterOpen adapter pending.operation pending.metadata) rfl h
  unfold Live.pendingOpen
  split <;> rename_i heq <;> rw [heq] at hopen
  · rename_i flow l₁
    have hports := hI.openPorts b
      (l := l₁.setPending (some { pending with adapterFlow := some (adapter, flow) })) (hI.session _ _ hopen)
      pending.request
    dsimp only
    split <;> rename_i hp <;> rw [hp] at hports
    · exact hI.startResponse (hI.session _ _ hports) _ _
    · exact hI.startResponse hports _ _
  · split
    · exact hI.session _ _ hopen
    · exact hI.startResponse hopen _ _
  · exact hopen

theorem advance (hI : Plain I) (b : TunnelBinding) (h : I l) (adapter : ℕ) (addresses : List IpAddr)
    (pending : PendingServerFlow) : I (Live.pendingAdmitResolved.advance b adapter addresses l pending).2 := by
  unfold Live.pendingAdmitResolved.advance
  split
  · exact hI.pendingOpen b (hI.session _ _ h) _ _
  · exact hI.session _ _ h

theorem pendingAdmitResolved (hI : Plain I) (b : TunnelBinding) (h : I l) (pending : PendingServerFlow)
    (adapter : ℕ) (addresses : List IpAddr) : I (Live.pendingAdmitResolved b l pending adapter addresses).2 := by
  unfold Live.pendingAdmitResolved
  split
  · exact hI.advance b h _ _ _
  · rename_i address _
    have hcall := hI.call l
      (.policyAdmitResolved b.policy l.session.policySession (pending.metadata.resolved address)) rfl h
    split <;> rename_i heq <;> rw [heq] at hcall
    · exact hI.advance b hcall _ _ _
    · exact hI.startResponse hcall _ _
    · exact hcall

theorem pendingResolve (hI : Plain I) (b : TunnelBinding) (h : I l) (pending : PendingServerFlow) (adapter : ℕ) :
    I (Live.pendingResolve b l pending adapter).2 := by
  have hcall := hI.call l (.adapterResolve adapter pending.operation pending.metadata) rfl h
  unfold Live.pendingResolve
  split
  · exact hI.pendingOpen b h _ _
  · split
    · exact hI.pendingAdmitResolved b h _ _ _
    · split <;> rename_i heq <;> rw [heq] at hcall
      · exact hI.pendingAdmitResolved b (hI.session _ _ hcall) _ _ _
      · exact hI.pendingOpen b (hI.session _ _ hcall) _ _
      · exact hI.startResponse hcall _ _
      · exact hcall

theorem pendingAdapter (hI : Plain I) (b : TunnelBinding) (h : I l) (pending : PendingServerFlow) :
    I (Live.pendingAdapter b l pending).2 := by
  unfold Live.pendingAdapter
  split
  · exact hI.startResponse h _ _
  · exact hI.pendingResolve b h _ _

theorem completeFlow (hI : Plain I) (h : I l) (pending : PendingClientFlow) (status : UInt32)
    (reason : List UInt8) : I (l.completeFlow pending status reason).2 := by
  unfold Live.completeFlow
  split
  · exact h
  · exact hI.call _ _ rfl h

theorem takeFlow (hI : Plain I) (h : I l) (pending : PendingClientFlow) : I (l.takeFlow pending) :=
  hI.session _ _ (hI.note _ _ rfl h)

theorem acceptPacketTcp (hI : Plain I) (b : TunnelBinding) (h : I l) : I (Live.acceptPacketTcp b l).2 := by
  have hcall := hI.call l .stackAcceptPacketTcp rfl h
  unfold Live.acceptPacketTcp
  split
  · split <;> rename_i heq <;> rw [heq] at hcall
    · exact hI.takeFlow hcall _
    · exact hcall
    · exact hcall
  · exact h

theorem acceptPacketUdp (hI : Plain I) (b : TunnelBinding) (h : I l) : I (Live.acceptPacketUdp b l).2 := by
  have hcall := hI.call l .stackAcceptPacketUdp rfl h
  unfold Live.acceptPacketUdp
  split
  · split <;> rename_i heq <;> rw [heq] at hcall
    · exact hI.takeFlow hcall _
    · exact hcall
    · exact hcall
  · exact h

theorem acceptAdapter (hI : Plain I) (adapters : List ℕ) (h : I l) : I (l.acceptAdapter adapters).2 := by
  induction adapters generalizing l with
  | nil => exact h
  | cons adapter rest ih =>
    have hcall := hI.call l (.adapterAccept adapter) rfl h
    unfold Live.acceptAdapter
    split <;> rename_i heq <;> rw [heq] at hcall
    · exact hI.takeFlow hcall _
    · split
      · exact ih hcall
      · exact hcall
    · exact ih hcall

theorem acceptClient (hI : Plain I) (b : TunnelBinding) (h : I l) : I (Live.acceptClient b l).2 := by
  have htcp := hI.acceptPacketTcp b h
  unfold Live.acceptClient
  split <;> rename_i heq <;> rw [heq] at htcp
  · exact htcp
  · have hudp := hI.acceptPacketUdp b htcp
    split <;> rename_i heq <;> rw [heq] at hudp
    · exact hudp
    · split
      · exact hI.acceptAdapter _ hudp
      · exact hudp

theorem beginOpening (hI : Plain I) (h : I l) (pending : PendingClientFlow) : I (l.beginOpening pending).2 := by
  unfold Live.beginOpening
  dsimp only
  split
  · exact hI.session _ _ h
  · have hnote : I ((l.setClientPending none).note (.beginOpen pending.request)) :=
      hI.note _ _ rfl (hI.session _ _ h)
    split
    · exact hI.session _ _ hnote
    · exact hI.session _ _ hnote

end Plain

/-- `I` holds until a poll comes to attach the handles of a flow, and `J` from then on. -/
structure Phased {W T : Type} [Modules W T] (I J : Live W T → Prop) : Prop where
  before : Plain I
  after : Plain J
  weaken : ∀ l, I l → J l
  ports : ∀ b l adapter flow ports, I l → J (Live.attachPorts b l adapter flow ports).2
  opened : ∀ b l pending port, I l → J (Live.attachOpened b l pending port).2
  client : ∀ b l pending, I l → J (Live.clientPort b l pending).2

/-- A property that calls keep as long as they move no flow, and that setting up the ports of a flow keeps. -/
structure PortSafe {W T : Type} [Modules W T] (I : Live W T → Prop) : Prop where
  call : ∀ l c, c.movesFlow = false → I l → I (l.call c).2
  registry : ∀ l r, I l → I (l.withRegistry r)

namespace PortSafe
variable {W T : Type} [Modules W T] {I : Live W T → Prop} {l : Live W T} {α : Type}

theorem registering (hI : PortSafe I) (h : I l) {table : Table} {limit : ℕ} {next : Handle → Live W T → Reply W T α}
    (hnext : ∀ handle l, I l → I (next handle l).2) : I (l.registering table limit next).2 := by
  unfold Live.registering
  split
  · exact hI.registry _ _ h
  · rename_i handle registry _
    have hn := hnext handle _ (hI.registry l registry h)
    split <;> rename_i heq <;> rw [heq] at hn
    · exact hn
    · exact hI.registry _ _ hn

omit [Modules W T] in
theorem attempt {r : Except LoadError Unit × Live W T} (h : I r.2) {next : Live W T → Reply W T α}
    (hnext : ∀ l, I l → I (next l).2) : I (Live.attempt r next).2 := by
  unfold Live.attempt
  split
  · exact hnext _ h
  · exact h

theorem attachPorts (hI : PortSafe I) (b : TunnelBinding) (h : I l) (adapter : ℕ) (flow : UInt64)
    (ports : PendingPorts) : I (Live.attachPorts b l adapter flow ports).2 := by
  cases ports with
  | direct =>
    exact hI.registering h fun _ _ h => attempt (hI.call _ _ rfl h) fun _ h => h
  | tcp | udp =>
    exact hI.registering h fun _ _ h => hI.registering h fun _ _ h => hI.registering h fun _ _ h =>
      attempt (hI.call _ _ rfl h) fun _ h => attempt (hI.call _ _ rfl h) fun _ h => h

theorem attachOpened (hI : PortSafe I) (b : TunnelBinding) (h : I l) (pending : PendingClientFlow)
    (port : ClientPolicyPort) : I (Live.attachOpened b l pending port).2 := by
  cases port with
  | direct =>
    simp only [Live.attachOpened]
    split
    · exact h
    · exact hI.registering h fun _ _ h => attempt (hI.call _ _ rfl h) fun _ h => h
  | tcp | packetTcp | udp | packetUdp =>
    exact hI.registering h fun _ _ h => hI.registering h fun _ _ h => attempt (hI.call _ _ rfl h) fun _ h => h

theorem clientPort (hI : PortSafe I) (b : TunnelBinding) (h : I l) (pending : PendingClientFlow) :
    I (Live.clientPort b l pending).2 := by
  have htcp := hI.call l (.stackOpenTcp (.ofRequest pending.request)) rfl h
  have hudp := hI.call l (.stackOpenUdp (.ofRequest pending.request)) rfl h
  unfold Live.clientPort
  split
  · exact h
  · split
    · split
      · exact h
      · split <;> rename_i heq <;> rw [heq] at htcp
        · exact htcp
        · exact hI.registering htcp fun _ _ h => attempt (hI.call _ _ rfl h) fun _ h => h
    · split <;> rename_i heq <;> rw [heq] at hudp
      · exact hudp
      · exact hI.registering hudp fun _ _ h => attempt (hI.call _ _ rfl h) fun _ h => h
    · exact h

end PortSafe

structure Steady {W T : Type} [Modules W T] (I : Live W T → Prop) : Prop extends Plain I where
  anyCall : ∀ l c, I l → I (l.call c).2
  registry : ∀ l r, I l → I (l.withRegistry r)

namespace Steady
variable {W T : Type} [Modules W T] {I : Live W T → Prop}

theorem portSafe (hI : Steady I) : PortSafe I := ⟨fun l c _ => hI.anyCall l c, hI.registry⟩

end Steady

namespace Phased
variable {W T : Type} [Modules W T] {I J : Live W T → Prop} {l : Live W T}

theorem attachPending (hI : Phased I J) (b : TunnelBinding) (h : I l) : J (Live.attachPending b l).2 := by
  unfold Live.attachPending
  split
  · exact hI.weaken _ h
  · dsimp only
    split
    · rename_i adapter flow ports _ _ _ _
      have hports := hI.ports b (l.setPending none) adapter flow ports (hI.before.session _ _ h)
      split <;> rename_i heq <;> rw [heq] at hports
      · exact hports
      · exact PortSafe.attempt (hI.after.call _ _ rfl hports) fun _ h => hI.after.session _ _ h
    · exact hI.after.session _ _ (hI.weaken _ h)

theorem pollPending (hI : Phased I J) (b : TunnelBinding) (h : I l) : J (Live.pollPending b l).2 := by
  unfold Live.pollPending
  split
  · exact hI.weaken _ h
  · rename_i pending _
    have hcall := hI.before.call l (.policyAdmitFlow b.policy l.session.policySession pending.metadata) rfl h
    split
    · exact hI.attachPending b h
    · apply hI.weaken
      split
      · exact hI.before.pendingAdapter b h _
      · split <;> rename_i heq <;> rw [heq] at hcall
        · exact hI.before.pendingAdapter b (hI.before.session _ _ hcall) _
        · exact hI.before.startResponse hcall _ _
        · exact hcall

theorem finishOpening (hI : Phased I J) (b : TunnelBinding) (h : I l) (opening : ClientOpening)
    (result : Except MuxError OpenResponse) : J (Live.finishOpening b l opening result).2 := by
  cases result with
  | error e => exact hI.weaken _ (hI.before.completeFlow h _ _ _)
  | ok response =>
    simp only [Live.finishOpening]
    split
    · split
      · exact hI.weaken _ h
      · rename_i port _
        have hattach := hI.opened b l opening.pending port h
        split <;> rename_i heq <;> rw [heq] at hattach
        · exact hattach
        · exact PortSafe.attempt (hI.after.completeFlow hattach _ _ _) fun _ h => hI.after.session _ _ h
    · refine PortSafe.attempt (hI.after.completeFlow (hI.weaken _ h) _ _ _) fun l h => ?_
      have hreleased : J (l.modify EstablishedSession.release) := hI.after.session _ _ h
      exact hI.after.dropStream hreleased (some opening.stream)

theorem openClient (hI : Phased I J) (b : TunnelBinding) (h : I l) (pending : PendingClientFlow) :
    J (Live.openClient b l pending).2 := by
  have hport := hI.client b l pending h
  unfold Live.openClient
  split
  · exact hI.weaken _ (hI.before.beginOpening h _)
  · split <;> rename_i heq <;> rw [heq] at hport
    · exact hport
    · exact hI.after.beginOpening hport _

variable [AsyncIo T]

theorem pollResponding (hI : Phased I J) (b : TunnelBinding) (h : I l) (stage : RespondFlow) (stream : MuxStream)
    (mux : MuxSession T) : J (Live.pollResponding b l stage stream mux).2 := by
  unfold Live.pollResponding
  split
  · exact hI.weaken _ (hI.before.session _ _ h)
  · rename_i result mux' _
    have hmux : I (l.modify fun s => { s with responding := none, mux := some mux' }) := hI.before.session _ _ h
    dsimp only
    split
    · exact hI.weaken _ hmux
    · split
      · exact hI.weaken _ hmux
      · rename_i pending _
        have hsent : I ((l.modify fun s => { s with responding := none, mux := some mux' }).setPending
            (some { pending with stream := some stream, responseSent := true })) := hI.before.session _ _ hmux
        split
        · exact hI.pollPending b hsent
        · exact hI.weaken _ (hI.before.rejectPending hsent)

theorem pollAccepting (hI : Phased I J) (b : TunnelBinding) (h : I l) (stage : AcceptFlow) (mux : MuxSession T) :
    J (Live.pollAccepting b l stage mux).2 := by
  unfold Live.pollAccepting
  split
  · exact hI.weaken _ (hI.before.session _ _ h)
  · rename_i result mux' _
    have hmux : I (l.modify fun s => { s with accepting := none, mux := some mux' }) := hI.before.session _ _ h
    dsimp only
    split
    · exact hI.weaken _ hmux
    · have hop := hI.before.operation _ hmux
      split <;> rename_i heq <;> rw [heq] at hop
      · exact hI.weaken _ hop
      · exact hI.pollPending b (hI.before.session _ _ (hI.before.note _ _ rfl hop))

theorem pollServer (hI : Phased I J) (b : TunnelBinding) (h : I l) : J (Live.pollServer b l).2 := by
  unfold Live.pollServer
  split
  · exact hI.pollResponding b h _ _ _
  · split
    · exact hI.pollPending b h
    · split
      · exact hI.pollAccepting b h _ _
      · apply hI.weaken
        split
        · exact h
        · exact hI.before.session _ _ h

theorem admitClient (hI : Phased I J) (b : TunnelBinding) (h : I l) : J (Live.admitClient b l).2 := by
  unfold Live.admitClient
  split
  · apply hI.weaken
    split
    · exact h
    · split
      · exact hI.before.session _ _ h
      · exact hI.before.session _ _ h
  · rename_i pending _
    have hcall := hI.before.call l (.policyAdmitFlow b.policy l.session.policySession pending.metadata) rfl h
    split
    · exact hI.openClient b h _
    · split <;> rename_i heq <;> rw [heq] at hcall
      · exact hI.openClient b (hI.before.session _ _ hcall) _
      · exact hI.weaken _ (PortSafe.attempt (hI.before.completeFlow hcall _ _ _) fun _ h => hI.before.session _ _ h)
      · exact hI.weaken _ hcall

theorem nextFlow (hI : Phased I J) (b : TunnelBinding) (h : I l) : J (match Live.acceptClient b l with
    | (.error e, l) => ((.error e, l) : Reply W T Unit)
    | (.ok (), l) => Live.admitClient b l).2 := by
  have haccept := hI.before.acceptClient b h
  split <;> rename_i heq <;> rw [heq] at haccept
  · exact hI.weaken _ haccept
  · exact hI.admitClient b haccept

theorem pollClient (hI : Phased I J) (b : TunnelBinding) (h : I l) : J (Live.pollClient b l).2 := by
  unfold Live.pollClient
  split
  · exact hI.nextFlow b h
  · dsimp only
    split
    · exact hI.finishOpening b (hI.before.session _ _ (hI.before.session _ _ h)) _ _
    · exact hI.nextFlow b (hI.before.session _ _ h)

/-- The rule for a whole poll. -/
theorem poll (hI : Phased I J) (b : TunnelBinding) (h : I l) : J (Live.poll b l).2 := by
  unfold Live.poll
  split
  · exact hI.pollClient b (hI.before.reapClosed h)
  · exact hI.pollServer b (hI.before.reapClosed h)

end Phased

namespace Live
variable {W T : Type}

def since (l l' : Live W T) : List (Occurrence T) := l'.host.trace.drop l.host.trace.length

def Grows (l l' : Live W T) : Prop := l'.host.trace = l.host.trace ++ l.since l'

theorem grows_of_append {l l' : Live W T} (more : List (Occurrence T)) (h : l'.host.trace = l.host.trace ++ more) :
    Grows l l' ∧ l.since l' = more := by
  have hs : l.since l' = more := by
    unfold since
    rw [h, List.drop_left]
  exact ⟨by rw [Grows, hs, h], hs⟩

variable [Modules W T]

end Live
end Snolc.Engine
