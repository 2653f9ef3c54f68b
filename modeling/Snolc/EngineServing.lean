import Snolc.EngineFlowRelease

set_option autoImplicit false

namespace Snolc.Engine
open PollIo MuxFrame Mux AsyncTask WireFormat CoreIo GuardedRuns

section Occurrences
variable {W T : Type}

namespace Occurrence

def accepted : Occurrence T → Option (ℕ × OpenRequest)
  | .serverFlow operation request => some (operation, request)
  | _ => none

def opens : Occurrence T → Option (ℕ × ℕ × UInt64)
  | .call (.adapterOpen adapter operation _) (.ready (.ok flow)) => some (operation, adapter, flow)
  | _ => none

def attaches : Occurrence T → Option (ℕ × UInt64)
  | .call (.adapterAttachFlow adapter flow _) _ => some (adapter, flow)
  | .call (.adapterAttachDatagram adapter flow _) _ => some (adapter, flow)
  | _ => none

def Quiet (o : Occurrence T) : Prop := o.accepted = none ∧ o.attaches = none

def Aside (o : Occurrence T) : Prop := o.Quiet ∧ o.opens = none

end Occurrence

def PendingServerFlow.named (p : PendingServerFlow) : ℕ × OpenRequest := (p.operation, p.request)

def PendingServerFlow.opened (p : PendingServerFlow) : List (ℕ × ℕ × UInt64) :=
  p.adapterFlow.toList.map fun flow => (p.operation, flow)

/-- How the ports of a flow were obtained. -/
def Obtained [Modules W T] (b : TunnelBinding) (modules : W) (request : OpenRequest) (since : List (Occurrence T)) :
    PendingPorts → Prop
  | .direct => request.kind = .tcp ∧ Modules.policyPassthroughTcp modules b.policy = true
  | .tcp => request.kind = .tcp ∧ .call (.stackOpenTcp (.ofRequest request)) (.ok ()) ∈ since
  | .udp => request.kind = .udp ∧ .call (.stackOpenUdp (.ofRequest request)) (.ok ()) ∈ since

/-- What has happened since the flow `p` was accepted bears out the response. -/
structure Backed [Modules W T] (b : TunnelBinding) (p : PendingServerFlow) (response : OpenResponse) (modules : W)
    (since : List (Occurrence T)) : Prop where
  quiet : ∀ o ∈ since, o.Quiet
  opened : since.filterMap Occurrence.opens = p.opened
  ok : response.status = .ok → ∃ flow ports, p.adapterFlow = some flow ∧ p.ports = some ports ∧
    Obtained b modules p.request since ports

theorem filterMap_eq_nil {α : Type} {f : Occurrence T → Option α} {events : List (Occurrence T)}
    (h : ∀ o ∈ events, f o = none) : events.filterMap f = [] :=
  List.filterMap_eq_nil_iff.mpr h

theorem quiet_append {xs ys : List (Occurrence T)} (hx : ∀ o ∈ xs, o.Quiet) (hy : ∀ o ∈ ys, o.Quiet) :
    ∀ o ∈ xs ++ ys, o.Quiet := by
  intro o ho
  rcases List.mem_append.mp ho with ho | ho
  · exact hx o ho
  · exact hy o ho

theorem aside_singleton {o : Occurrence T} (h : o.Aside) : ∀ x ∈ [o], x.Aside := by
  intro x hx
  rw [List.mem_singleton.mp hx]
  exact h

theorem Obtained.later [Modules W T] {b : TunnelBinding} {modules : W} {request : OpenRequest}
    {since : List (Occurrence T)} {ports : PendingPorts} (h : Obtained b modules request since ports)
    (before : List (Occurrence T)) : Obtained b modules request (before ++ since) ports := by
  cases ports with
  | direct => exact h
  | tcp => exact ⟨h.1, List.mem_append_right _ h.2⟩
  | udp => exact ⟨h.1, List.mem_append_right _ h.2⟩

end Occurrences

theorem openError_ne_ok (e : LoadError) : (openError e).1 ≠ .ok := by
  cases e with
  | moduleStatus status =>
    unfold openError
    dsimp only
    split_ifs <;> simp
  | _ => simp [openError]

section Work
variable {W T : Type}

structure AtWork (base : List (Occurrence T)) (active : List ActiveServerFlow) (stream : MuxStream) (l : Live W T)
    (p : PendingServerFlow) : Prop where
  pending : l.session.pending = some p
  responding : l.session.responding = none
  active : l.session.active = active
  stream : p.stream = some stream
  unsent : p.responseSent = false
  unopened : p.adapterFlow = none
  past : ∃ since, l.host.trace = base ++ since ∧ ∀ o ∈ since, o.Aside

structure Asked [Modules W T] (b : TunnelBinding) (base : List (Occurrence T)) (active : List ActiveServerFlow)
    (stream : MuxStream) (l : Live W T) (p : PendingServerFlow) (response : OpenResponse) : Prop where
  pending : l.session.pending = some p
  responding : ∃ mux, l.session.responding = some (.start response, stream, mux)
  active : l.session.active = active
  unsent : p.responseSent = false
  accepted : p.accepted = decide (response.status = .ok)
  past : ∃ since, l.host.trace = base ++ since ∧ Backed b p response l.host.modules since

/-- A poll that returns has the flow still at work, or asked for its answer. -/
def Turned [Modules W T] (b : TunnelBinding) (base : List (Occurrence T)) (active : List ActiveServerFlow)
    (stream : MuxStream) (named : ℕ × OpenRequest) (r : Reply W T Unit) : Prop :=
  r.1 = .ok () → ∃ p : PendingServerFlow, p.named = named ∧
    (AtWork base active stream r.2 p ∨ ∃ response, Asked b base active stream r.2 p response)

variable {b : TunnelBinding} {base : List (Occurrence T)} {active : List ActiveServerFlow} {l : Live W T}
  {p : PendingServerFlow} {stream : MuxStream} {named : ℕ × OpenRequest}

theorem AtWork.setPending (h : AtWork base active stream l p) (p' : PendingServerFlow) (hstream : p'.stream = p.stream)
    (hsent : p'.responseSent = false) (hflow : p'.adapterFlow = none) :
    AtWork base active stream (l.setPending (some p')) p' :=
  ⟨rfl, h.responding, h.active, hstream.trans h.stream, hsent, hflow, h.past⟩

variable [Modules W T]

theorem AtWork.turned (h : AtWork base active stream l p) (hn : p.named = named) :
    Turned b base active stream named (.ok (), l) :=
  fun _ => ⟨p, hn, .inl h⟩

theorem AtWork.call (h : AtWork base active stream l p) (c : ModuleCall) (hc : (Occurrence.call c (l.call c).1).Aside) :
    AtWork base active stream (l.call c).2 p := by
  obtain ⟨since, ht, haside⟩ := h.past
  obtain ⟨f, hs⟩ := l.call_session c
  refine ⟨by rw [hs]; exact h.pending, ?_, by rw [hs]; exact h.active, h.stream, h.unsent, h.unopened,
    since ++ [.call c (l.call c).1], ?_, ?_⟩
  · rw [hs, EstablishedSession.touch, h.responding]
    rfl
  · rw [l.call_trace, ht, List.append_assoc]
  · intro o ho
    rcases List.mem_append.mp ho with ho | ho
    · exact haside o ho
    · exact aside_singleton hc o ho

theorem startResponse_turned {status : OpenStatus} {reason : String} {since : List (Occurrence T)}
    (hp : l.session.pending = some p) (hn : p.named = named) (hactive : l.session.active = active)
    (hstream : p.stream = some stream) (hsent : p.responseSent = false) (ht : l.host.trace = base ++ since)
    (hbacked : Backed b p ⟨status, reason⟩ l.host.modules since) :
    Turned b base active stream named (l.startResponse status reason) := by
  unfold Live.startResponse
  rw [hp]
  dsimp only
  split
  · exact fun hok => by cases hok
  · rename_i stream' hsome
    cases hstream.symm.trans hsome
    split
    · exact fun hok => by cases hok
    · rename_i mux _
      exact fun _ => ⟨{ p with accepted := decide (status = .ok), stream := none }, hn, .inr ⟨⟨status, reason⟩,
        rfl, ⟨mux, rfl⟩, hactive, hsent, rfl, since, ht, hbacked.quiet, hbacked.opened, hbacked.ok⟩⟩

theorem AtWork.refuse (h : AtWork base active stream l p) (hn : p.named = named) {status : OpenStatus}
    (hstatus : status ≠ .ok) (reason : String) : Turned b base active stream named (l.startResponse status reason) := by
  obtain ⟨since, ht, haside⟩ := h.past
  refine startResponse_turned h.pending hn h.active h.stream h.unsent ht
    ⟨fun o ho => (haside o ho).1, ?_, fun hok => absurd hok hstatus⟩
  rw [filterMap_eq_nil fun o ho => (haside o ho).2, PendingServerFlow.opened, h.unopened]
  rfl

theorem openPorts_obtained (b : TunnelBinding) (l : Live W T) (request : OpenRequest) :
    ∃ more, (Live.openPorts b l request).2.host.trace = l.host.trace ++ more ∧ (∀ o ∈ more, o.Aside) ∧
      ∀ ports, (Live.openPorts b l request).1 = .ok ports →
        Obtained b (Live.openPorts b l request).2.host.modules request more ports := by
  unfold Live.openPorts
  split
  · rename_i hkind
    split
    · rename_i hpass
      refine ⟨[], (List.append_nil _).symm, by simp, fun ports hports => ?_⟩
      cases hports
      exact ⟨hkind, hpass⟩
    · have htrace := l.call_trace (.stackOpenTcp (.ofRequest request))
      split <;> rename_i heq <;> rw [heq] at htrace
      · refine ⟨_, htrace, aside_singleton ⟨⟨rfl, rfl⟩, rfl⟩, fun ports hports => ?_⟩
        cases hports
        exact ⟨hkind, List.mem_singleton.mpr rfl⟩
      · exact ⟨_, htrace, aside_singleton ⟨⟨rfl, rfl⟩, rfl⟩, by simp⟩
  · rename_i hkind
    have htrace := l.call_trace (.stackOpenUdp (.ofRequest request))
    split <;> rename_i heq <;> rw [heq] at htrace
    · refine ⟨_, htrace, aside_singleton ⟨⟨rfl, rfl⟩, rfl⟩, fun ports hports => ?_⟩
      cases hports
      exact ⟨hkind, List.mem_singleton.mpr rfl⟩
    · exact ⟨_, htrace, aside_singleton ⟨⟨rfl, rfl⟩, rfl⟩, by simp⟩
  · exact ⟨[], (List.append_nil _).symm, by simp, by simp⟩

theorem pendingOpen_turned (h : AtWork base active stream l p) (hn : p.named = named) (adapter : ℕ) :
    Turned b base active stream named (Live.pendingOpen b l p adapter) := by
  obtain ⟨since, ht, haside⟩ := h.past
  obtain ⟨f, hs⟩ := l.call_session (.adapterOpen adapter p.operation p.metadata)
  have htrace := l.call_trace (.adapterOpen adapter p.operation p.metadata)
  unfold Live.pendingOpen
  split <;> rename_i heq <;> rw [heq] at htrace hs
  · -- the adapter has opened the flow, whether or not the stack has ports for it
    rename_i flow l₁
    let q : PendingServerFlow := { p with adapterFlow := some (adapter, flow) }
    let opening : Occurrence T := .call (.adapterOpen adapter p.operation p.metadata) (.ready (.ok flow))
    have hports := Live.openPorts_around b p.request (Around.refl (l₁.setPending (some q)))
    obtain ⟨more, hmore, hmaside, hobtained⟩ := openPorts_obtained b (l₁.setPending (some q)) p.request
    have hpending := hports.pending
    obtain ⟨g, hg⟩ := hports.session
    have hfull : (Live.openPorts b (l₁.setPending (some q)) p.request).2.host.trace = base ++
        (since ++ [opening] ++ more) := by
      rw [hmore]
      change l₁.host.trace ++ more = _
      rw [htrace, ht, List.append_assoc, List.append_assoc, List.append_assoc]
    have hquiet : ∀ o ∈ since ++ [opening] ++ more, o.Quiet := by
      refine quiet_append (quiet_append (fun o ho => (haside o ho).1) fun o ho => ?_) fun o ho => (hmaside o ho).1
      rw [List.mem_singleton.mp ho]
      exact ⟨rfl, rfl⟩
    have hopens : (since ++ [opening] ++ more).filterMap Occurrence.opens = q.opened := by
      rw [List.filterMap_append, List.filterMap_append, filterMap_eq_nil fun o ho => (haside o ho).2,
        filterMap_eq_nil fun o ho => (hmaside o ho).2]
      rfl
    have hactive : (Live.openPorts b (l₁.setPending (some q)) p.request).2.session.active = active := by
      rw [hg]
      change l₁.session.active = active
      rw [hs]
      exact h.active
    dsimp only
    split <;> rename_i hp <;> rw [hp] at hpending hfull hactive hobtained
    · rename_i ports l₂
      exact startResponse_turned (p := { q with ports := some ports }) rfl hn hactive h.stream h.unsent hfull
        ⟨hquiet, hopens, fun _ => ⟨_, ports, rfl, rfl, (hobtained ports rfl).later _⟩⟩
    · exact startResponse_turned hpending hn hactive h.stream h.unsent hfull ⟨hquiet, hopens, fun hok => by cases hok⟩
  · have hcall := h.call (.adapterOpen adapter p.operation p.metadata) (by rw [heq]; exact ⟨⟨rfl, rfl⟩, rfl⟩)
    rw [heq] at hcall
    split
    · exact AtWork.turned (hcall.setPending _ rfl h.unsent h.unopened) hn
    · exact hcall.refuse hn (openError_ne_ok _) _
  · have hcall := h.call (.adapterOpen adapter p.operation p.metadata) (by rw [heq]; exact ⟨⟨rfl, rfl⟩, rfl⟩)
    rw [heq] at hcall
    exact hcall.turned hn

theorem advance_turned (h : AtWork base active stream l p) (p' : PendingServerFlow) (hstream : p'.stream = p.stream)
    (hsent : p'.responseSent = false) (hflow : p'.adapterFlow = none) (hn : p'.named = named) (adapter : ℕ)
    (addresses : List IpAddr) :
    Turned b base active stream named (Live.pendingAdmitResolved.advance b adapter addresses l p') := by
  unfold Live.pendingAdmitResolved.advance
  split
  · exact pendingOpen_turned (h.setPending { p' with resolutionComplete := true } hstream hsent hflow) hn adapter
  · exact (h.setPending p' hstream hsent hflow).turned hn

theorem pendingAdmitResolved_turned (h : AtWork base active stream l p) (hn : p.named = named) (adapter : ℕ)
    (addresses : List IpAddr) :
    Turned b base active stream named (Live.pendingAdmitResolved b l p adapter addresses) := by
  unfold Live.pendingAdmitResolved
  split
  · exact advance_turned h p rfl h.unsent h.unopened hn adapter addresses
  · rename_i address _
    have hcall := h.call (.policyAdmitResolved b.policy l.session.policySession (p.metadata.resolved address))
      ⟨⟨rfl, rfl⟩, rfl⟩
    split <;> rename_i heq <;> rw [heq] at hcall
    · exact advance_turned hcall { p with resolvedCursor := p.resolvedCursor + 1 } rfl h.unsent h.unopened hn
        adapter addresses
    · exact hcall.refuse hn (openError_ne_ok _) _
    · exact hcall.turned hn

theorem pendingResolve_turned (h : AtWork base active stream l p) (hn : p.named = named) (adapter : ℕ) :
    Turned b base active stream named (Live.pendingResolve b l p adapter) := by
  unfold Live.pendingResolve
  split
  · exact pendingOpen_turned h hn adapter
  · split
    · exact pendingAdmitResolved_turned h hn adapter _
    · have hcall := h.call (.adapterResolve adapter p.operation p.metadata) ⟨⟨rfl, rfl⟩, rfl⟩
      split <;> rename_i heq <;> rw [heq] at hcall
      · rename_i addresses _
        exact pendingAdmitResolved_turned
          (hcall.setPending { p with resolvedAddresses := some addresses } rfl h.unsent h.unopened) hn adapter _
      · exact pendingOpen_turned (hcall.setPending { p with resolutionComplete := true } rfl h.unsent h.unopened)
          hn adapter
      · exact hcall.refuse hn (openError_ne_ok _) _
      · exact hcall.turned hn

theorem pendingAdapter_turned (h : AtWork base active stream l p) (hn : p.named = named) :
    Turned b base active stream named (Live.pendingAdapter b l p) := by
  unfold Live.pendingAdapter
  split
  · exact h.refuse hn (by simp) _
  · exact pendingResolve_turned h hn _

theorem pollPending_turned (h : AtWork base active stream l p) (hn : p.named = named) :
    Turned b base active stream named (Live.pollPending b l) := by
  unfold Live.pollPending
  rw [h.pending]
  dsimp only
  rw [if_neg (by simp [h.unsent])]
  split
  · exact pendingAdapter_turned h hn
  · have hcall := h.call (.policyAdmitFlow b.policy l.session.policySession p.metadata) ⟨⟨rfl, rfl⟩, rfl⟩
    split <;> rename_i heq <;> rw [heq] at hcall
    · exact pendingAdapter_turned (hcall.setPending { p with admitted := true } rfl h.unsent h.unopened) hn
    · exact hcall.refuse hn (openError_ne_ok _) _
    · exact hcall.turned hn

end Work

section Answered
variable {W T α : Type} {l l' : Live W T}

variable [Modules W T]

omit [Modules W T] in
theorem Around.userStreams (h : Around l l') (hm : l.session.mux.isSome) :
    l'.session.userStreams = l.session.userStreams := by
  obtain ⟨mux, hm⟩ := Option.isSome_iff_exists.mp hm
  obtain ⟨f, hs⟩ := h.session
  simp [hs, EstablishedSession.userStreams, EstablishedSession.touch, hm, MuxSession.withConnection]

theorem closeFlows_aside (l : Live W T) (closed : List (ℕ × UInt64)) :
    (l.closeFlows closed).session.pending = l.session.pending ∧
    (l.session.responding = none → (l.closeFlows closed).session.responding = none) ∧
    ∃ more, (l.closeFlows closed).host.trace = l.host.trace ++ more ∧ ∀ o ∈ more, o.Aside := by
  induction closed generalizing l with
  | nil => exact ⟨rfl, id, [], (List.append_nil _).symm, by simp⟩
  | cons flow rest ih =>
    obtain ⟨hp, hr, more, ht, haside⟩ :=
      ih ((l.call (.adapterCloseFlow flow.1 flow.2)).2.modify EstablishedSession.release)
    refine ⟨hp, fun hnone => hr ?_, .call (.adapterCloseFlow flow.1 flow.2) (l.call _).1 :: more, ?_, fun o ho => ?_⟩
    · change (l.call (.adapterCloseFlow flow.1 flow.2)).2.session.responding = none
      obtain ⟨f, hs⟩ := l.call_session (.adapterCloseFlow flow.1 flow.2)
      rw [hs, EstablishedSession.touch, hnone]
      rfl
    · rw [Live.closeFlows, List.foldl_cons]
      exact ht.trans (by simp [Live.modify, Live.call_trace])
    · rcases List.mem_cons.mp ho with rfl | ho
      · exact ⟨⟨rfl, rfl⟩, rfl⟩
      · exact haside o ho

theorem reapClosed_aside (l : Live W T) :
    l.reapClosed.session.pending = l.session.pending ∧
    (l.session.responding = none → l.reapClosed.session.responding = none) ∧
    ∃ more, l.reapClosed.host.trace = l.host.trace ++ more ∧ ∀ o ∈ more, o.Aside := by
  by_cases hm : l.session.mux.isSome
  · rw [reapClosed_home hm]
    exact closeFlows_aside _ _
  · rw [reapClosed_lent (by simpa using hm)]
    exact ⟨rfl, id, [], (List.append_nil _).symm, by simp⟩

theorem AtWork.reapClosed {base : List (Occurrence T)} {active : List ActiveServerFlow} {stream : MuxStream}
    {p : PendingServerFlow} (h : AtWork base active stream l p) : AtWork base l.staying stream l.reapClosed p := by
  obtain ⟨since, ht, haside⟩ := h.past
  obtain ⟨hp, hr, more, hmore, hmaside⟩ := reapClosed_aside l
  refine ⟨hp.trans h.pending, hr h.responding, (reapClosed_flows l).1, h.stream, h.unsent, h.unopened,
    since ++ more, ?_, fun o ho => ?_⟩
  · rw [hmore, ht, List.append_assoc]
  · rcases List.mem_append.mp ho with ho | ho
    · exact haside o ho
    · exact hmaside o ho

end Answered
end Snolc.Engine
