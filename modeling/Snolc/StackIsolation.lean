import Snolc.StackLedgerTicks
import Snolc.StackLoopback

set_option autoImplicit false

namespace Snolc.Stack
open GuardedRuns Handles PartialPosts
open scoped List

variable {W T U : Type} {env : Smoltcp W T U} {base : ℕ} {net : UdpService env} {s s' : StackBridge W T U}
  {sent received : Handle × Side → List (List UInt8)} {handle : Handle} {flow : PairFlow}

namespace Ledger

/-- A flow on sockets that hold nothing and on ports to which nothing is on its way. -/
theorem opened (h : Ledger net sent received s) {flows : HandleTable PairFlow}
    (hp : flows.entries.Perm ((handle, flow) :: s.udpFlows.entries))
    (hnew : ∀ side, ∃ rest, s.sockets.udpAt (flow.socket side) = some ⟨[], rest⟩ ∧
      net.bound rest = some ⟨none, UInt16.ofNat (flow.port side)⟩ ∧ net.queued rest = [])
    (hfree : ∀ side payload, s.comingTo net (flow.port side) payload = 0) :
    Ledger net (StackTraffic.fresh sent (.ok handle)) (StackTraffic.fresh received (.ok handle))
      { s with udpFlows := flows } := by
  obtain ⟨-, hthis⟩ := HandleTable.get_of_insert hp
  have hold {handle' : Handle} (hne : handle' ≠ handle) {flow' : PairFlow} (hget : flows.get handle' = some flow') :
      s.udpFlows.get handle' = some flow' := (HandleTable.get_of_perm_cons hp hne).symm.trans hget
  refine ⟨fun handle' flow' hget side socket hat => ?_, fun handle' flow' hget side socket hat => ?_,
    fun handle' flow' hget side payload => ?_⟩ <;> dsimp only at hget <;> by_cases he : handle' = handle
  · subst he
    cases hthis.symm.trans hget
    obtain ⟨rest, hsocket, hbound, -⟩ := hnew side
    cases hsocket.symm.trans hat
    exact hbound
  · exact h.bound handle' flow' (hold he hget) side socket hat
  · subst he
    cases hthis.symm.trans hget
    obtain ⟨rest, hsocket, -, hqueued⟩ := hnew side
    cases hsocket.symm.trans hat
    rw [hqueued]
    exact fun d hd => nomatch hd
  · exact h.addressed handle' flow' (hold he hget) side socket hat
  · subst he
    cases hthis.symm.trans hget
    obtain ⟨rest, hsocket, -, hqueued⟩ := hnew side
    obtain ⟨rest', hsocket', -⟩ := hnew side.other
    have hcoming : ({ s with udpFlows := flows } : StackBridge W T U).comingTo net (flow.port side.other) payload = 0 :=
      hfree side.other payload
    rw [hcoming]
    simp [StackTraffic.fresh, StackBridge.waitingAt, StackBridge.queuedAt, waitingIn, queuedIn, hsocket, hsocket',
      hqueued]
  · have haccounted := h.accounted handle' flow' (hold he hget) side payload
    simp only [StackTraffic.fresh, he, if_false]
    exact haccounted

theorem openUdp (h : Ledger net sent received s) (hb : Books base {} s) (hnet : net.Documented)
    (metadata : Engine.FlowMetadata) (hfree : s.PortsFree net) :
    ∃ s' result, s.openUdp env metadata = some (s', result) ∧ Books base {} s' ∧
      Ledger net (StackTraffic.fresh sent result) (StackTraffic.fresh received result) s' := by
  obtain ⟨s', result, he, hb', -⟩ := hb.openUdp env metadata
  refine ⟨s', result, he, hb', ?_⟩
  have hopens := (Keeps.refl env hb.aside.live).openUdp metadata (s', result) he
  cases result with
  | error error => exact h.kept hnet hopens
  | ok handle =>
    obtain ⟨s₁, flow, flows, hkeeps, -, -, hports, hbound, hinsert, rfl⟩ := hopens
    have hsound : s₁.udpFlows.Sound := hkeeps.udpFlows ▸ hb.udpSound
    have hperm : flows.entries.Perm ((handle, flow) :: s₁.udpFlows.entries) := by
      rcases HandleTable.insert_total hsound flow with hfull | ⟨flows', handle', hinsert', -, hperm, -⟩
      · cases hfull.symm.trans hinsert
      · cases hinsert'.symm.trans hinsert
        exact hperm
    refine (h.kept hnet hkeeps).opened hperm (fun side => ?_) fun side payload => ?_
    · obtain ⟨config, rest, hbind, hat⟩ := hbound side
      obtain ⟨hto, hqueued⟩ := hnet.binds config _ rest hbind
      exact ⟨rest, hat, hto, hqueued⟩
    · have htwo : flow.port side ∈ s.ports.available.take 2 := by
        have htake : flow.ports = s.ports.available.take 2 := List.prefix_iff_eq_take.mp hports
        exact htake ▸ flow.port_mem side
      have hcoming := (onWay_of_keeps hnet hkeeps).countP_le fun d =>
        decide (d.1 = payload ∧ d.2.port.toNat = flow.port side)
      have hnone : s.comingTo net (flow.port side) payload = 0 := by
        refine List.countP_eq_zero.mpr fun d hd hto => hfree d hd ?_
        rw [(of_decide_eq_true hto).2]
        exact htwo
      exact Nat.le_zero.mp (hnone ▸ hcoming)

theorem closeUdp (h : Ledger net sent received s) (hb : Books base {} s) (hnet : net.Documented) (handle : Handle) :
    Yields (s.closeUdp handle) fun q => Ledger net sent received q.1 := by
  rcases HandleTable.remove_spec hb.udpSound handle with ⟨-, hremove⟩ | ⟨flows, flow, -, hremove, -, hp, -⟩
  · unfold StackBridge.closeUdp
    rw [hremove]
    exact yields_some h
  · have hnodup := ((gathered_insert PairFlow.sockets hp).nodup_iff.mp hb.streamSockets_nodup)
    have hapart := (List.nodup_append.mp hnodup).2.2
    have hremoved : Ledger net sent received { s with udpFlows := flows } := by
      refine h.frame (fun handle' flow' hget => ?_) (fun _ _ _ _ => rfl) (List.Subperm.refl _)
      exact HandleTable.mem_entries.mp (hp.mem_iff.mpr (List.mem_cons_of_mem _ (HandleTable.mem_entries.mpr hget)))
    have hlive : ∀ i ∈ gathered PairFlow.sockets flows, (SlotTable.slot s.sockets i).isSome := fun i hi =>
      hb.aside.live i ((gathered_insert PairFlow.sockets hp).mem_iff.mpr (List.mem_append_right _ hi))
    have hown : ∀ flows' flow', s.udpFlows.remove handle = some (flows', flow') →
        flow'.adapter ∉ gathered PairFlow.sockets flows ∧ flow'.policy ∉ gathered PairFlow.sockets flows := by
      intro flows' flow' he
      cases hremove.symm.trans he
      exact ⟨fun hi => hapart _ (flow.socket_mem .adapter) _ hi rfl,
        fun hi => hapart _ (flow.socket_mem .policy) _ hi rfl⟩
    refine (Keeps.closeUdp env hlive hown).mono fun q hq => ?_
    rcases hq with he | ⟨flows', flow', he, hkeeps⟩
    · rw [he]
      exact h
    · cases hremove.symm.trans he
      exact hremoved.kept hnet hkeeps

theorem packetSend (h : Ledger net sent received s) (hnet : net.Documented) (packet : List UInt8) (nowMs : ℕ) :
    Yields (s.packetSend packet nowMs) fun q => Ledger net sent received q.1 := by
  have hsame {reassembly : Ipv6Reassembly} : Ledger net sent received { s with ipv6Reassembly := reassembly } :=
    h.frame (fun _ _ hget => hget) (fun _ _ _ _ => rfl) (List.Subperm.refl _)
  unfold StackBridge.packetSend
  split
  · exact yields_some h
  refine Yields.of_bind fun ingested => ?_
  obtain ⟨reassembly, outcome⟩ := ingested
  cases outcome with
  | pending | buffered | dropped => exact yields_some hsame
  | packet packet =>
    dsimp only
    split
    · exact yields_some hsame
    · exact yields_some (h.frame (fun _ _ hget => hget) (fun _ _ _ _ => rfl) (hnet.brings _ _ packet))

theorem packetRecv (h : Ledger net sent received s) (length : ℕ) :
    Yields (s.packetRecv length) fun q => Ledger net sent received q.1 := by
  unfold StackBridge.packetRecv
  split
  · exact yields_some h
  split
  · exact yields_some h
  refine Yields.of_some fun device hspend => ?_
  have hingress : device.ingress = s.device.ingress := by
    unfold BoundedDevice.spend at hspend
    split at hspend <;> cases hspend
    rfl
  refine yields_some (h.frame (fun _ _ hget => hget) (fun _ _ _ _ => rfl) ?_)
  dsimp only
  rw [hingress]

end Ledger

namespace StackTraffic

variable {l : StackTraffic W T U}

/-- What every step keeps. -/
structure Sound (net : UdpService env) (base : ℕ) (l : StackTraffic W T U) : Prop where
  books : Books base {} l.stack.inner
  ledger : Ledger net l.sent l.received l.stack.inner
  isolated : l.Isolated

theorem Sound.send (h : l.Sound net base) (hnet : net.Documented) (handle : Handle) (side : Side)
    (datagram : List UInt8) : ∃ l', l.send net handle side datagram = some l' ∧ l'.Sound net base := by
  obtain ⟨inner, result, he, hb, hledger⟩ := h.ledger.send h.books hnet handle side datagram
  refine ⟨_, by rw [StackTraffic.send, he]; rfl, hb, hledger, fun handle' side' => ?_⟩
  refine (h.isolated handle' side').trans (List.Sublist.subperm ?_)
  by_cases hkey : (handle', side') = (handle, side)
  · rw [hkey]
    dsimp only
    rw [Function.update_self]
    exact List.sublist_append_left _ _
  · dsimp only
    rw [Function.update_of_ne hkey]

theorem Sound.recv (h : l.Sound net base) (handle : Handle) (side : Side) (length : ℕ) :
    ∃ l', l.recv handle side length = some l' ∧ l'.Sound net base := by
  obtain ⟨inner, result, he, hb, hledger, hflows, hstale⟩ := h.ledger.recv h.books handle side length
  refine ⟨_, by rw [StackTraffic.recv, he]; rfl, hb, hledger, fun handle' side' => ?_⟩
  cases hget : l.stack.inner.udpFlows.get handle' with
  | some flow =>
    rw [← hflows] at hget
    exact hledger.subperm hget side'
  | none =>
    have hsame : Function.update l.received (handle, side) (l.received (handle, side) ++ taken result)
        (handle', side'.other) = l.received (handle', side'.other) := by
      by_cases hkey : (handle', side'.other) = (handle, side)
      · cases hkey
        rw [hstale hget, List.append_nil, Function.update_eq_self]
      · rw [Function.update_of_ne hkey]
    dsimp only
    rw [hsame]
    exact h.isolated handle' side'

theorem Sound.openUdp (h : l.Sound net base) (hnet : net.Documented) (metadata : Engine.FlowMetadata)
    (hfree : l.stack.inner.PortsFree net) : ∃ l', l.openUdp env metadata = some l' ∧ l'.Sound net base := by
  obtain ⟨inner, opened, he, hb, hledger⟩ := h.ledger.openUdp h.books hnet metadata hfree
  refine ⟨_, by rw [StackTraffic.openUdp, he]; rfl, hb, hledger, fun handle' side' => ?_⟩
  cases opened with
  | error error => exact h.isolated handle' side'
  | ok handle =>
    dsimp only [fresh]
    split
    · exact List.Subperm.refl _
    · exact h.isolated handle' side'

/-- A call that writes no log. -/
theorem Sound.passed (h : l.Sound net base) {stack : SharedStackBridge W T U} (hb : Books base {} stack.inner)
    (hledger : Ledger net l.sent l.received stack.inner) : Sound net base { l with stack := stack } :=
  ⟨hb, hledger, h.isolated⟩

theorem Sound.reply (h : l.Sound net base) (hnet : net.Documented) (handle : Handle) (datagram : List UInt8) :
    ∃ l', l.reply net handle datagram = some l' ∧ l'.Sound net base := by
  unfold StackTraffic.reply
  split
  · have hreply : ∃ inner, l.stack.inner.packetReply net handle datagram = some inner ∧ Books base {} inner ∧
        Ledger net l.sent l.received inner := by
      unfold StackBridge.packetReply
      split
      · exact ⟨_, rfl, h.books, h.ledger⟩
      · exact h.ledger.carry hnet ((h.books.packetUdpSend handle _ _).imp fun _ hq => ⟨hq.1, hq.2.1⟩)
          ((Keeps.refl env h.books.aside.live).packetUdpSend handle _ _ h.books.aside.groups)
    obtain ⟨inner, he, hb, hledger⟩ := hreply
    exact ⟨_, by rw [he]; rfl, h.passed hb hledger⟩
  · exact ⟨l, rfl, h⟩

theorem Sound.call (h : l.Sound net base) (hnet : net.Documented) (call : StackCall T U) (hported : call.ported = false)
    (hg : CallGuard env (tickApart net) l.stack call) :
    ∃ stack, l.stack.step env call = some stack ∧ Sound net base { l with stack := stack } := by
  obtain ⟨stack, he, hb, -⟩ := (books_rule env base).step h.books trivial call (callGuard_any env l.stack call)
  refine ⟨stack, he, h.passed hb ?_⟩
  have hinner {s' : StackBridge W T U} (hledger : Ledger net l.sent l.received s')
      (hs : l.stack.onInner (some s') = some stack) : Ledger net l.sent l.received stack.inner := by
    cases hs
    exact hledger
  by_cases helse : call.Elsewhere
  · exact h.ledger.kept hnet (SharedStackBridge.step_elsewhere h.books.aside call helse stack he)
  cases call with
  | poll =>
    obtain ⟨s', hpoll, -, hledger⟩ := h.ledger.poll h.books hnet hg
    rw [SharedStackBridge.step, hpoll] at he
    exact hinner hledger he
  | openTcp metadata =>
    obtain ⟨s', result, hopened, -, hledger⟩ := h.ledger.openTcp h.books hnet metadata hg
    rw [SharedStackBridge.step, hopened] at he
    exact hinner hledger he
  | closeUdp handle =>
    exact SharedStackBridge.onInner_yields (yields_map (h.ledger.closeUdp h.books hnet handle)) stack he
  | packetSend packet nowMs =>
    exact SharedStackBridge.onInner_yields (yields_map (h.ledger.packetSend hnet packet nowMs)) stack he
  | packetRecv length => exact SharedStackBridge.onInner_yields (yields_map (h.ledger.packetRecv length)) stack he
  | stopDevice | startDevice =>
    cases he
    exact h.ledger.frame (fun _ _ hget => hget) (fun _ _ _ _ => rfl) (List.Subperm.refl _)
  | openUdp _ | udpSocket _ _ _ => cases hported
  | closeTcp _ | acceptPacketTcp | acceptPacketUdp | dropPacketTcp _ | dropPacketUdp _ | packetUdpRecv _ _
  | packetUdpSend _ _ _ | tcpSocket _ _ _ | packetTcpSocket _ _ => exact absurd trivial helse

theorem Sound.step (h : l.Sound net base) (hnet : net.Documented) (call : PortCall T U) (hg : l.Apart net call) :
    ∃ l', l.step net call = some l' ∧ l'.Sound net base := by
  cases call with
  | openUdp metadata => exact h.openUdp hnet metadata hg
  | send handle side datagram => exact h.send hnet handle side datagram
  | recv handle side length => exact h.recv handle side length
  | reply handle datagram => exact h.reply hnet handle datagram
  | stack call =>
    cases hported : call.ported with
    | true => exact ⟨l, by simp [StackTraffic.step, hported], h⟩
    | false =>
      have hguard := hg.resolve_left (hported ▸ Bool.false_ne_true)
      obtain ⟨stack, he, hsound⟩ := h.call hnet call hported hguard
      exact ⟨_, by simp [StackTraffic.step, hported, he], hsound⟩

theorem new_sound {config : StackConfig} {maxFlows maxManagedBytes maxIngressPacketsPerTick : ℕ}
    {s₀ : StackBridge W T U}
    (hnew : StackBridge.new env config maxFlows maxManagedBytes maxIngressPacketsPerTick = .ok s₀) :
    Sound net s₀.managedBytes { stack := ⟨s₀, [], []⟩ } := by
  have hnone : ∀ handle, s₀.udpFlows.get handle = none := by
    intro handle
    rw [(new_idle hnew).udpFlows]
    rfl
  refine ⟨books_new hnew, ⟨fun handle flow hget => ?_, fun handle flow hget => ?_, fun handle flow hget => ?_⟩,
    fun _ _ => List.Subperm.refl _⟩
  all_goals
    rw [hnone] at hget
    cases hget

end StackTraffic

/-- The datagrams of a UDP stream flow stay within it, in every state of every run in which nothing from outside and
nothing left over is bound for one. -/
theorem stream_flows_isolated (net : UdpService env) (hnet : net.Documented) (config : StackConfig)
    (maxFlows maxManagedBytes maxIngressPacketsPerTick : ℕ) (s₀ : StackBridge W T U)
    (hnew : StackBridge.new env config maxFlows maxManagedBytes maxIngressPacketsPerTick = .ok s₀)
    (calls : List (PortCall T U))
    (hg : GuardedM (StackTraffic.step net) (StackTraffic.Apart net) { stack := ⟨s₀, [], []⟩ } calls) :
    ∀ front, front <+: calls → ∃ l, StackTraffic.run net { stack := ⟨s₀, [], []⟩ } front = some l ∧ l.Isolated := by
  rintro front ⟨back, rfl⟩
  obtain ⟨l, he, hsound⟩ := foldlM_invariant (StackTraffic.Sound net s₀.managedBytes)
    (fun l call h hguard => h.step hnet call hguard) (StackTraffic.new_sound hnew) hg.split.1
  exact ⟨l, he, hsound.isolated⟩

def exchangeCalls : List (PortCall (Option ListenEndpoint) LoopbackUdp) :=
  [.openUdp sampleMetadata, .send ⟨0, 1⟩ .adapter [104, 105], .stack (.packetSend emptyDatagram 0), .stack .poll,
    .stack .poll, .recv ⟨0, 1⟩ .policy 64]

theorem sample_flows_isolated : ∃ s₀,
    StackBridge.new loopbackSmoltcp sampleConfig 4 200000 8 = .ok s₀ ∧
    (StackTraffic.run loopbackService { stack := ⟨s₀, [], []⟩ } exchangeCalls).map
      (fun l => l.received (⟨0, 1⟩, .policy)) = some [[104, 105]] ∧
    ∀ front, front <+: exchangeCalls → ∃ l,
      StackTraffic.run loopbackService { stack := ⟨s₀, [], []⟩ } front = some l ∧ l.Isolated := by
  obtain ⟨s₀, hnew⟩ := loopback_starts
  have hread : ∀ s₀ ∈ (StackBridge.new loopbackSmoltcp sampleConfig 4 200000 8).toOption,
      (StackTraffic.run loopbackService { stack := ⟨s₀, [], []⟩ } exchangeCalls).map
        (fun l => l.received (⟨0, 1⟩, .policy)) = some [[104, 105]] := by
    decide +kernel
  have hguard : ∀ s₀ ∈ (StackBridge.new loopbackSmoltcp sampleConfig 4 200000 8).toOption,
      GuardedM (StackTraffic.step loopbackService) (StackTraffic.Apart loopbackService) { stack := ⟨s₀, [], []⟩ }
        exchangeCalls := by
    decide +kernel
  have hs₀ : s₀ ∈ (StackBridge.new loopbackSmoltcp sampleConfig 4 200000 8).toOption := by
    rw [hnew]
    rfl
  exact ⟨s₀, hnew, hread s₀ hs₀, stream_flows_isolated loopbackService loopback_documented _ _ _ _ s₀ hnew _
    (hguard s₀ hs₀)⟩

/-- A packet for the port that the flow opened first has. -/
def strayDatagram : List UInt8 :=
  [69, 0, 0, 29, 0, 0, 0, 0, 64, 17, 0, 0, 10, 0, 0, 9, 10, 0, 0, 1, 19, 136, 4, 0, 0, 9, 0, 0, 1]

def strayCalls : List (PortCall (Option ListenEndpoint) LoopbackUdp) :=
  [.openUdp sampleMetadata, .stack (.packetSend strayDatagram 0), .stack .poll, .recv ⟨0, 1⟩ .adapter 64]

/-- The adapter's port reads a payload that came from outside, while nothing was sent through the other port. -/
theorem stray_packet_read : ∃ s₀ l,
    StackBridge.new loopbackSmoltcp sampleConfig 4 200000 8 = .ok s₀ ∧ loopbackService.Documented ∧
    StackTraffic.run loopbackService { stack := ⟨s₀, [], []⟩ } strayCalls = some l ∧
    l.received (⟨0, 1⟩, .adapter) = [[1]] ∧ l.sent (⟨0, 1⟩, .policy) = [] ∧ ¬ l.Isolated ∧
    ¬ GuardedM (StackTraffic.step loopbackService) (StackTraffic.Apart loopbackService) { stack := ⟨s₀, [], []⟩ }
      strayCalls := by
  obtain ⟨s₀, hnew⟩ := loopback_starts
  have hrun : ((StackBridge.new loopbackSmoltcp sampleConfig 4 200000 8).toOption.bind fun s₀ =>
      StackTraffic.run loopbackService { stack := ⟨s₀, [], []⟩ } strayCalls).map
        (fun l => (l.received (⟨0, 1⟩, .adapter), l.sent (⟨0, 1⟩, .policy))) = some ([[1]], []) := by
    decide +kernel
  obtain ⟨l, hl, hlogs⟩ := Option.map_eq_some_iff.mp hrun
  rw [hnew] at hl
  obtain ⟨hreceived, hsent⟩ := Prod.mk.inj hlogs
  have hmixed : ¬ l.Isolated := by
    intro hisolated
    have hlength := (hisolated ⟨0, 1⟩ .policy).length_le
    rw [Side.other, hreceived, hsent] at hlength
    exact absurd hlength (by decide)
  refine ⟨s₀, l, hnew, loopback_documented, hl, hreceived, hsent, hmixed, fun hguard => hmixed ?_⟩
  obtain ⟨l', hl', -, -, hisolated⟩ := foldlM_invariant (StackTraffic.Sound loopbackService s₀.managedBytes)
    (fun l call h hguard => h.step loopback_documented call hguard) (StackTraffic.new_sound hnew) hguard
  cases hl.symm.trans hl'
  exact hisolated
end Snolc.Stack
