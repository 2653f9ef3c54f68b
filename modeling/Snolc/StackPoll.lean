import Snolc.StackTick

set_option autoImplicit false

namespace Snolc.Stack
open GuardedRuns Handles

variable {W T U : Type} {base : ℕ} {s : StackBridge W T U}

/-- What is asked of the points at which a tick meets smoltcp and at which it drains: of the
state handed to `poll_ingress_single`, of the state in which a turn of draining is taken, and
of the state handed to `poll_egress`. -/
structure TickGuard (W T U : Type) where
  ingress : StackBridge W T U → Prop
  drain : StackBridge W T U → IpEndpoint → Prop
  egress : StackBridge W T U → Prop

def PollGuard (env : Smoltcp W T U) (G : TickGuard W T U) (s : StackBridge W T U) : Prop :=
  EachTurn (StackBridge.ingressTurn env)
    (fun s => ∀ s', s.prepareTurn env = some (s', true) → G.ingress s') s.maxIngressPacketsPerTick
    { s with interface := env.pollMaintenance s.interface } ∧
  ∀ s₁, StackBridge.ingressLoop env s.maxIngressPacketsPerTick
      { s with interface := env.pollMaintenance s.interface } = some s₁ →
    ∀ s₂, s₁.queueEstablishedPacketTcp env = some s₂ →
      GuardedM StackBridge.drainGroup (fun s destination =>
        EachTurn (fun s => s.drainOne destination) (fun s => G.drain s destination)
          ((s.waiting destination).length + 1) s) s₂
        (env.endpointOrder s₂.interface (s₂.packetUdpGroups.map Prod.fst)) ∧
      ∀ s₃, s₂.drainPacketUdp env = some s₃ → G.egress s₃

instance (env : Smoltcp W T U) (G : TickGuard W T U) [∀ s, Decidable (G.ingress s)]
    [∀ s d, Decidable (G.drain s d)] [∀ s, Decidable (G.egress s)] (s : StackBridge W T U) :
    Decidable (PollGuard env G s) :=
  inferInstanceAs (Decidable (_ ∧ _))

theorem queue_rule (env : Smoltcp W T U) {J : StackBridge W T U → Prop}
    (hstep : ∀ s s' handle, Books base {} s → J s → Promoted s handle s' → J s')
    (h : Books base {} s) (hj : J s) :
    ∃ s', s.queueEstablishedPacketTcp env = some s' ∧ Books base {} s' ∧ J s' := by
  refine foldlM_always (fun s => Books base {} s ∧ J s) (fun s handle hs => ?_) ⟨h, hj⟩ _
  obtain ⟨s', e, h', hp⟩ := hs.1.queueEstablished handle
  exact ⟨s', e, h', hstep s s' handle hs.1 hs.2 hp⟩

/-- What has to be shown of the parts of a tick so that it takes `J` to `K`: `J` holds up to
the queueing of established flows, `K` from there on. -/
structure TickRule (env : Smoltcp W T U) (base : ℕ) (G : TickGuard W T U)
    (J K : StackBridge W T U → Prop) : Prop where
  maintain : ∀ (s : StackBridge W T U) (interface : W), J s → J { s with interface := interface }
  tcp : ∀ s s', Books base {} s → Books base {} s' → J s → PreparedTcp s s' (.ok ()) → J s'
  dropTcp : ∀ s s₁ s' e, Books base {} s → J s → PreparedTcp s s₁ (.error e) → Dropped s₁ s' → J s'
  udp : ∀ s s', Books base {} s → Books base {} s' → J s → PreparedUdp s s' (.ok ()) → J s'
  dropUdp : ∀ s s₁ s' e, Books base {} s → J s → PreparedUdp s s₁ (.error e) → Dropped s₁ s' → J s'
  ingress : ∀ s s' packet rest, Books base {} s → Books base {} s' → J s → G.ingress s →
    s.device.ingress = packet :: rest → s.device.stopped = false →
    Reacted s s' (ingressReaction env s packet) rest → J s'
  queue : ∀ s, Books base {} s → J s →
    ∃ s', s.queueEstablishedPacketTcp env = some s' ∧ Books base {} s' ∧ K s'
  drain : ∀ s s' destination more, Books base {} s → Books base {} s' → K s →
    G.drain s destination → s'.device = s.device → QuietTcp s s' →
    Drained s destination s' more → K s'
  egress : ∀ s s', Books base {} s → Books base {} s' → K s → G.egress s →
    Reacted s s' (egressReaction env s) s.device.ingress → K s'

namespace TickRule

variable {env : Smoltcp W T U} {G : TickGuard W T U} {J K : StackBridge W T U → Prop}

theorem preparedTcp (rule : TickRule env base G J K) (h : Books base {} s) {s₁ : StackBridge W T U}
    {result : Except Engine.StackError Unit} (h1 : Books base {} s₁) (hj : J s)
    (p1 : PreparedTcp s s₁ result) :
    ∃ s₂, (match result with
      | .error _ => s₁.dropFront
      | .ok () => some s₁) = some s₂ ∧ Books base {} s₂ ∧ J s₂ := by
  cases result with
  | error error =>
    obtain ⟨s₂, e2, h2, qt, qu, hin⟩ := h1.dropFront
    exact ⟨s₂, e2, h2, rule.dropTcp s s₁ s₂ error h hj p1 ⟨qt, qu, hin⟩⟩
  | ok _ => exact ⟨s₁, rfl, h1, rule.tcp s s₁ h h1 hj p1⟩

theorem prepareTurn (rule : TickRule env base G J K) (h : Books base {} s) (hj : J s) :
    ∃ s' go, s.prepareTurn env = some (s', go) ∧ Books base {} s' ∧ J s' := by
  obtain ⟨s₁, result, e1, h1, p1⟩ := h.preparePacketTcp env
  obtain ⟨s₂, e2, h2, j2⟩ := rule.preparedTcp h h1 hj p1
  obtain ⟨s₃, result', e3, h3, p3⟩ := h2.preparePacketUdp env
  unfold StackBridge.prepareTurn
  cases result' with
  | error error =>
    obtain ⟨s₄, e4, h4, qt, qu, hin⟩ := h3.dropFront
    refine ⟨s₄, false, ?_, h4, rule.dropUdp s₂ s₃ s₄ error h2 j2 p3 ⟨qt, qu, hin⟩⟩
    cases result <;> simp_all
  | ok _ =>
    refine ⟨s₃, true, ?_, h3, rule.udp s₂ s₃ h2 h3 j2 p3⟩
    cases result <;> simp_all

theorem ingressTurn (rule : TickRule env base G J K) (h : Books base {} s) (hj : J s)
    (hg : ∀ s', s.prepareTurn env = some (s', true) → G.ingress s') :
    ∃ s' more, s.ingressTurn env = some (s', more) ∧ Books base {} s' ∧ J s' := by
  obtain ⟨s₁, go, e1, h1, j1⟩ := rule.prepareTurn h hj
  unfold StackBridge.ingressTurn
  cases go with
  | false => exact ⟨s₁, true, by simp [e1], h1, j1⟩
  | true =>
    obtain ⟨s₂, more, e2, h2, hor⟩ := h1.pollIngressSingle env
    refine ⟨s₂, more, by simp [e1, e2], h2, ?_⟩
    rcases hor with rfl | ⟨packet, rest, hin, hstop, hr⟩
    · exact j1
    · exact rule.ingress s₁ s₂ packet rest h1 h2 j1 (hg s₁ e1) hin hstop hr

theorem drainGroup (rule : TickRule env base G J K) {destination : IpEndpoint}
    (h : Books base {} s) (hk : K s)
    (hg : EachTurn (fun s => s.drainOne destination) (fun s => G.drain s destination)
      ((s.waiting destination).length + 1) s) :
    ∃ s', s.drainGroup destination = some s' ∧ Books base {} s' ∧ K s' := by
  refine loop_invariant (fun s => Books base {} s ∧ K s) (fun s hs hd => ?_) ⟨h, hk⟩ hg
  obtain ⟨s', more, he, h', hdev, hq, hdr⟩ := hs.1.drainOne destination
  exact ⟨s', more, he, h', rule.drain s s' destination more hs.1 h' hs.2 hd hdev hq hdr⟩

theorem poll (rule : TickRule env base G J K) (h : Books base {} s) (hj : J s)
    (hg : PollGuard env G s) : ∃ s', s.poll env = some s' ∧ Books base {} s' ∧ K s' := by
  obtain ⟨hturns, hafter⟩ := hg
  have h0 : Books base {} { s with interface := env.pollMaintenance s.interface } := { h with }
  obtain ⟨s₁, e1, h1, j1⟩ : ∃ s₁, StackBridge.ingressLoop env s.maxIngressPacketsPerTick
      { s with interface := env.pollMaintenance s.interface } = some s₁ ∧ Books base {} s₁ ∧ J s₁ :=
    loop_invariant (fun s => Books base {} s ∧ J s)
      (fun s hs hd => rule.ingressTurn hs.1 hs.2 hd) ⟨h0, rule.maintain s _ hj⟩ hturns
  obtain ⟨s₂, e2, h2, k2⟩ := rule.queue s₁ h1 j1
  obtain ⟨hdrain, hout⟩ := hafter s₁ e1 s₂ e2
  obtain ⟨s₃, e3, h3, k3⟩ : ∃ s₃, s₂.drainPacketUdp env = some s₃ ∧ Books base {} s₃ ∧ K s₃ :=
    foldlM_invariant (fun s => Books base {} s ∧ K s)
      (fun s d hs hd => rule.drainGroup hs.1 hs.2 hd) ⟨h2, k2⟩ hdrain
  obtain ⟨h4, hr⟩ := h3.pollEgress env
  refine ⟨s₃.pollEgress env, ?_, h4, rule.egress s₃ _ h3 h4 k3 (hout s₃ e3) hr⟩
  simp [StackBridge.poll, e1, e2, e3]

end TickRule

end Snolc.Stack
