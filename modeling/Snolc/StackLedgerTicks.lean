import Snolc.StackLedger

set_option autoImplicit false

namespace Snolc.Stack
open GuardedRuns Handles PartialPosts
open scoped List

variable {W T U : Type} {env : Smoltcp W T U} {base : ℕ} {net : UdpService env} {s s' : StackBridge W T U}
  {sent received : Handle × Side → List (List UInt8)}

namespace UdpService

theorem port_of_receiver {set : SocketSet T U} {destination : IpEndpoint} {index : ℕ}
    (h : net.receiver set destination = some index) {socket : UdpSocket U} (hat : set.udpAt index = some socket)
    {endpoint : ListenEndpoint} (hbound : net.bound socket.rest = some endpoint) :
    destination.port = endpoint.port := by
  obtain ⟨socket', hslot⟩ := udpAt_isSome.mp (Option.isSome_iff_exists.mpr ⟨socket, hat⟩)
  rw [SocketSet.udpAt, hslot] at hat
  cases hat
  obtain ⟨hlt, haccepts, -⟩ := List.findIdx?_eq_some_iff_getElem.mp h
  have hentry : set[index] = some (.udp socket) := by
    rw [SlotTable.slot, List.getElem?_eq_getElem hlt] at hslot
    exact hslot
  rw [hentry] at haccepts
  simp only [boundTo, hbound, Bool.and_eq_true, beq_iff_eq] at haccepts
  exact haccepts.1.symm

/-- What a socket hands over for sending and what it keeps are what it had. -/
theorem departed_rest (r : Reaction W T U) {set : SocketSet T U} {index : ℕ} {socket : UdpSocket U}
    (hat : set.udpAt index = some socket)
    (h : net.queued (r.udp index socket).rest <:+ net.queued socket.rest) :
    net.departed r set index ++ net.queued (r.udp index socket).rest = net.queued socket.rest := by
  obtain ⟨front, hfront⟩ := h
  rw [departed, hat]
  dsimp only
  rw [← hfront, List.length_append, Nat.add_sub_cancel, List.take_left]

end UdpService

namespace Ledger

/-- Where a reaction takes a datagram from one place to the next, and to no other, the accounts stay. -/
theorem reacted (h : Ledger net sent received s) (hb : Books base {} s) {r : Reaction W T U} {device : BoundedDevice}
    (hsockets : ∀ index socket, s.sockets.udpAt index = some socket →
      net.bound (r.udp index socket).rest = net.bound socket.rest ∧
        net.queued (r.udp index socket).rest <:+ net.queued socket.rest)
    (hmoved : ∀ handle flow, s.udpFlows.get handle = some flow → ∀ side sender reader,
      s.sockets.udpAt (flow.socket side) = some sender → s.sockets.udpAt (flow.socket side.other) = some reader →
      ∀ payload, ((r.udp (flow.socket side.other) reader).rx.countP fun d => decide (d.1 = payload)) +
          ((net.onWay r.world device.ingress).countP fun d =>
            decide (d.1 = payload ∧ d.2.port.toNat = flow.port side.other)) +
          ((net.queued (r.udp (flow.socket side) sender).rest).countP fun d => decide (d.1 = payload)) ≤
        (reader.rx.countP fun d => decide (d.1 = payload)) + s.comingTo net (flow.port side.other) payload +
          (net.queued sender.rest).countP fun d => decide (d.1 = payload)) :
    Ledger net sent received { s with interface := r.world, sockets := r.apply s.sockets, device := device } := by
  refine ⟨fun handle flow hget side socket hat => ?_, fun handle flow hget side socket hat => ?_,
    fun handle flow hget side payload => ?_⟩ <;> dsimp only at hget
  · obtain ⟨old, hold⟩ := hb.stream_udpAt hget side
    cases (udpAt_apply r hold).symm.trans hat
    rw [(hsockets _ old hold).1]
    exact h.bound handle flow hget side old hold
  · obtain ⟨old, hold⟩ := hb.stream_udpAt hget side
    cases (udpAt_apply r hold).symm.trans hat
    exact fun d hd => h.addressed handle flow hget side old hold d ((hsockets _ old hold).2.subset hd)
  · obtain ⟨sender, hsender⟩ := hb.stream_udpAt hget side
    obtain ⟨reader, hreader⟩ := hb.stream_udpAt hget side.other
    have hold := h.accounted handle flow hget side payload
    have hcounts := hmoved handle flow hget side sender reader hsender hreader payload
    unfold StackBridge.waitingAt StackBridge.queuedAt waitingIn queuedIn at hold ⊢
    dsimp only
    rw [udpAt_apply r hsender, udpAt_apply r hreader]
    rw [hsender, hreader] at hold
    simp only [Option.elim_some] at hold ⊢
    unfold StackBridge.comingTo at hold hcounts ⊢
    dsimp only
    omega

theorem ingress (h : Ledger net sent received s) (hb : Books base {} s) (hnet : net.Documented)
    {packet : QueuedPacket} {device : BoundedDevice} (hfront : s.device.ingress = packet :: device.ingress)
    (hmixes : net.mixes s.interface packet.bytes = false)
    (hguard : packet.external = true → ∀ d ∈ (net.completes s.interface packet.bytes).toList,
      ∀ i ∈ (net.receiver s.sockets d.2).toList, i ∉ s.streamSockets) :
    Ledger net sent received { s with
      interface := (env.ingress s.interface s.sockets packet.bytes).1.world
      sockets := (env.ingress s.interface s.sockets packet.bytes).1.apply s.sockets
      device := (env.ingress s.interface s.sockets packet.bytes).2.elim device device.consume } := by
  have htakes := hnet.takes s.interface s.sockets packet device hmixes
  have hkeeps := hnet.keeps s.interface s.sockets packet.bytes
  refine h.reacted hb (fun index socket hat => ?_) fun handle flow hget side sender reader hsender hreader payload => ?_
  · obtain ⟨hbound, hqueued⟩ := hkeeps index socket hat
    exact ⟨hbound, hqueued ▸ List.suffix_refl _⟩
  · rw [(hkeeps _ sender hsender).2]
    have hcount := htakes.countP_le fun d => decide (d.1 = payload ∧ d.2.port.toNat = flow.port side.other)
    rw [List.countP_append, ← hfront] at hcount
    unfold StackBridge.comingTo
    rcases hnet.delivers s.interface s.sockets packet.bytes _ reader hreader with hrx | ⟨delivered, destination, source,
      hcompletes, hreceiver, hrx⟩
    · rw [hrx]
      omega
    · have hinternal : packet.external = false := by
        cases hexternal : packet.external with
        | false => rfl
        | true =>
          refine absurd (mem_gathered.mpr ⟨handle, flow, hget, flow.socket_mem side.other⟩)
            (hguard hexternal (delivered, destination) ?_ _ ?_)
          · rw [hcompletes]
            exact List.mem_singleton_self _
          · rw [hreceiver]
            exact List.mem_singleton_self _
      have hport : destination.port.toNat = flow.port side.other := by
        rw [UdpService.port_of_receiver hreceiver hreader (h.bound handle flow hget side.other reader hreader)]
        exact hb.port_toNat hget side.other
      have hone : ([(delivered, destination)].countP fun d =>
          decide (d.1 = payload ∧ d.2.port.toNat = flow.port side.other)) = [delivered].count payload := by
        rw [← countP_payload delivered payload destination, List.countP_singleton, List.countP_singleton]
        simp [hport]
      rw [hinternal, hcompletes, if_neg Bool.false_ne_true, Option.toList_some, hone] at hcount
      rw [hrx, List.countP_append, countP_payload]
      omega

/-- Of the datagrams that leave for the port of a flow, none comes from a socket other than the flow's. -/
theorem departures (h : Ledger net sent received s) (hb : Books base {} s)
    (hguard : ∀ i ∈ List.range s.sockets.length, i ∉ s.streamSockets → ∀ socket ∈ (s.sockets.udpAt i).toList,
      ∀ d ∈ net.queued socket.rest, looped d.2.addr = true → d.2.port.toNat ∉ s.streamPorts)
    (r : Reaction W T U) {handle : Handle} {flow : PairFlow} (hget : s.udpFlows.get handle = some flow) (side : Side)
    (payload : List UInt8) :
    ((((List.range s.sockets.length).flatMap (net.departed r s.sockets)).filter (looped ·.2.addr)).countP fun d =>
        decide (d.1 = payload ∧ d.2.port.toNat = flow.port side.other)) ≤
      (net.departed r s.sockets (flow.socket side)).countP fun d => decide (d.1 = payload) := by
  have hport : flow.port side.other ∈ s.streamPorts :=
    mem_gathered.mpr ⟨handle, flow, hget, flow.port_mem side.other⟩
  rw [List.countP_filter]
  refine Nat.le_trans (countP_flatMap_le List.nodup_range (flow.socket side) fun i hi hne d hd => ?_)
    (List.countP_mono_left fun d _ hd => ?_)
  · rw [UdpService.departed] at hd
    cases hat : s.sockets.udpAt i with
    | none =>
      rw [hat] at hd
      cases hd
    | some socket =>
      rw [hat] at hd
      have hqueued := List.mem_of_mem_take hd
      have hapart : looped d.2.addr = true → d.2.port.toNat ≠ flow.port side.other := by
        intro hloop he
        by_cases hstream : i ∈ s.streamSockets
        · obtain ⟨handle', flow', hget', hi'⟩ := mem_gathered.mp hstream
          obtain ⟨side', rfl⟩ : ∃ side', flow'.socket side' = i := by
            simp only [PairFlow.sockets, List.mem_cons, List.not_mem_nil, or_false] at hi'
            exact hi'.elim (fun he => ⟨.adapter, he.symm⟩) fun he => ⟨.policy, he.symm⟩
          have hto := h.addressed handle' flow' hget' side' socket hat d hqueued
          rw [hto, PairFlow.endpoint, hb.port_toNat hget' side'.other] at he
          obtain ⟨rfl, hsides⟩ := hb.port_inj hget' hget he
          cases hget.symm.trans hget'
          have hsame := congrArg Side.other hsides
          rw [Side.other_other, Side.other_other] at hsame
          exact hne (hsame ▸ rfl)
        · refine hguard i hi hstream socket ?_ d hqueued hloop (he ▸ hport)
          rw [hat]
          exact List.mem_singleton_self _
      cases hloop : looped d.2.addr with
      | false => exact Bool.and_false _
      | true => simp [hapart hloop]
  · simp only [Bool.and_eq_true, decide_eq_true_eq] at hd ⊢
    exact hd.1.1

theorem egress (h : Ledger net sent received s) (hb : Books base {} s) (hnet : net.Documented)
    (hguard : s.SendsApart net) : Ledger net sent received (s.pollEgress env) := by
  change Ledger net sent received { s with
    interface := (env.egress s.interface s.device.stopped s.sockets).1.world
    sockets := (env.egress s.interface s.device.stopped s.sockets).1.apply s.sockets
    device := if s.device.stopped then s.device
      else (env.egress s.interface s.device.stopped s.sockets).2.foldl BoundedDevice.consume s.device }
  have htransmits := hnet.transmits s.interface s.device.stopped s.sockets
  refine h.reacted hb (fun index socket hat => ?_) fun handle flow hget side sender reader hsender hreader payload => ?_
  · obtain ⟨hbound, -, hqueued⟩ := htransmits index socket hat
    exact ⟨hbound, hqueued⟩
  · obtain ⟨-, -, hqueued⟩ := htransmits _ sender hsender
    rw [(htransmits _ reader hreader).2.1]
    have hsplit := congrArg (List.countP fun d => decide (d.1 = payload)) (UdpService.departed_rest _ hsender hqueued)
    rw [List.countP_append] at hsplit
    unfold StackBridge.comingTo
    cases hstop : s.device.stopped with
    | true =>
      rw [hstop] at hsplit
      have hrests := (hnet.rests s.interface s.sockets s.device.ingress).countP_le fun d =>
        decide (d.1 = payload ∧ d.2.port.toNat = flow.port side.other)
      simp only [if_true]
      omega
    | false =>
      rw [hstop] at hsplit
      rcases hguard with hstopped | hguard
      · rw [hstop] at hstopped
        cases hstopped
      have hdeparts := (hnet.departs s.interface s.sockets s.device hstop).countP_le fun d =>
        decide (d.1 = payload ∧ d.2.port.toNat = flow.port side.other)
      rw [List.countP_append] at hdeparts
      have hown := h.departures hb hguard (env.egress s.interface false s.sockets).1 hget side payload
      simp only [Bool.false_eq_true, if_false]
      omega

/-- A call that leaves the sockets of the stream flows alone. -/
theorem carry (h : Ledger net sent received s) (hnet : net.Documented) {o : Option (StackBridge W T U)}
    (ho : ∃ s', o = some s' ∧ Books base {} s') (hk : Yields o (Keeps env s.streamSockets s)) :
    ∃ s', o = some s' ∧ Books base {} s' ∧ Ledger net sent received s' := by
  obtain ⟨s', he, hb'⟩ := ho
  exact ⟨s', he, hb', h.kept hnet (hk s' he)⟩

theorem carry_fst (h : Ledger net sent received s) (hnet : net.Documented) {ρ : Type}
    {o : Option (StackBridge W T U × ρ)} (ho : ∃ s' result, o = some (s', result) ∧ Books base {} s')
    (hk : Yields o fun q => Keeps env s.streamSockets s q.1) :
    ∃ s' result, o = some (s', result) ∧ Books base {} s' ∧ Ledger net sent received s' := by
  obtain ⟨s', result, he, hb'⟩ := ho
  exact ⟨s', result, he, hb', h.kept hnet (hk (s', result) he)⟩

theorem dropFront (h : Ledger net sent received s) (hb : Books base {} s) (hnet : net.Documented) :
    ∃ s', s.dropFront = some s' ∧ Books base {} s' ∧ Ledger net sent received s' := by
  obtain ⟨s', he, hb', -, -, htail⟩ := hb.dropFront
  refine ⟨s', he, hb', ?_⟩
  obtain ⟨⟨device, popped⟩, -, hrest⟩ := Option.bind_eq_some_iff.mp he
  cases hrest
  refine h.frame (fun _ _ hget => hget) (fun _ _ _ _ => rfl) ?_
  dsimp only at htail ⊢
  rw [htail]
  cases s.device.ingress with
  | nil => exact List.Subperm.refl _
  | cons packet rest => exact hnet.drops s.interface packet rest

theorem prepared (h : Ledger net sent received s) (hb : Books base {} s) (hnet : net.Documented)
    (result : Except Engine.StackError Unit) :
    ∃ s', (match result with
      | .error _ => s.dropFront
      | .ok () => some s) = some s' ∧ Books base {} s' ∧ Ledger net sent received s' := by
  cases result with
  | error error => exact h.dropFront hb hnet
  | ok _ => exact ⟨s, rfl, hb, h⟩

theorem prepareTurn (h : Ledger net sent received s) (hb : Books base {} s) (hnet : net.Documented) :
    ∃ s' go, s.prepareTurn env = some (s', go) ∧ Books base {} s' ∧ Ledger net sent received s' := by
  obtain ⟨s₁, result, e₁, hb₁, h₁⟩ := h.carry_fst hnet
    ((hb.preparePacketTcp env).imp fun _ hq => hq.imp fun _ hq => ⟨hq.1, hq.2.1⟩)
    (Keeps.refl env hb.aside.live).preparePacketTcp
  obtain ⟨s₂, e₂, hb₂, h₂⟩ := h₁.prepared hb₁ hnet result
  obtain ⟨s₃, result', e₃, hb₃, h₃⟩ := h₂.carry_fst hnet
    ((hb₂.preparePacketUdp env).imp fun _ hq => hq.imp fun _ hq => ⟨hq.1, hq.2.1⟩)
    (Keeps.refl env hb₂.aside.live).preparePacketUdp
  unfold StackBridge.prepareTurn
  cases result' with
  | error error =>
    obtain ⟨s₄, e₄, hb₄, h₄⟩ := h₃.dropFront hb₃ hnet
    refine ⟨s₄, false, ?_, hb₄, h₄⟩
    cases result <;> simp_all
  | ok _ =>
    refine ⟨s₃, true, ?_, hb₃, h₃⟩
    cases result <;> simp_all

theorem pollIngressSingle (h : Ledger net sent received s) (hb : Books base {} s) (hnet : net.Documented)
    (hg : s.TakesApart net) :
    ∃ s' more, s.pollIngressSingle env = some (s', more) ∧ Books base {} s' ∧ Ledger net sent received s' := by
  obtain ⟨s', more, he, hb', -⟩ := hb.pollIngressSingle env
  refine ⟨s', more, he, hb', ?_⟩
  unfold StackBridge.pollIngressSingle BoundedDevice.receive at he
  cases hstop : s.device.stopped with
  | true =>
    rw [hstop] at he
    cases he
    exact h.frame (fun _ _ hget => hget) (fun _ _ _ _ => rfl) (List.Subperm.refl _)
  | false =>
    rcases BoundedDevice.popIngress_balanced hb.device with
      ⟨-, hpop⟩ | ⟨packet, rest, device, hfront, hpop, hrest, -, -, -⟩
    · simp only [hstop, Bool.false_eq_true, if_false, hpop, Option.bind_eq_bind, Option.bind_some] at he
      cases he
      exact h.frame (fun _ _ hget => hget) (fun _ _ _ _ => rfl) (List.Subperm.refl _)
    · simp only [hstop, Bool.false_eq_true, if_false, hpop, Option.bind_eq_bind, Option.bind_some] at he
      cases he
      have hhead : packet ∈ s.device.ingress.head?.toList := by
        rw [hfront]
        exact List.mem_singleton_self _
      rcases hg packet hhead with hstopped | ⟨hmixes, hguard⟩
      · rw [hstop] at hstopped
        cases hstopped
      · exact h.ingress hb hnet (hrest ▸ hfront) hmixes hguard

theorem ingressTurn (h : Ledger net sent received s) (hb : Books base {} s) (hnet : net.Documented)
    (hg : ∀ s', s.prepareTurn env = some (s', true) → s'.TakesApart net) :
    ∃ s' more, s.ingressTurn env = some (s', more) ∧ Books base {} s' ∧ Ledger net sent received s' := by
  obtain ⟨s₁, go, e₁, hb₁, h₁⟩ := h.prepareTurn hb hnet
  unfold StackBridge.ingressTurn
  cases go with
  | false => exact ⟨s₁, true, by simp [e₁], hb₁, h₁⟩
  | true =>
    obtain ⟨s₂, more, e₂, hb₂, h₂⟩ := h₁.pollIngressSingle hb₁ hnet (hg s₁ e₁)
    exact ⟨s₂, more, by simp [e₁, e₂], hb₂, h₂⟩

theorem drainGroup (h : Ledger net sent received s) (hb : Books base {} s) (hnet : net.Documented)
    (destination : IpEndpoint) :
    ∃ s', s.drainGroup destination = some s' ∧ Books base {} s' ∧ Ledger net sent received s' := by
  have hturns : EachTurn (fun s : StackBridge W T U => s.drainOne destination) (fun _ => True)
      ((s.waiting destination).length + 1) s := eachTurn_always (fun _ => trivial) _ s
  refine loop_invariant (fun s => Books base {} s ∧ Ledger net sent received s) (fun s hs _ => ?_) ⟨hb, h⟩ hturns
  exact hs.2.carry_fst hnet ((hs.1.drainOne destination).imp fun _ hq => hq.imp fun _ hq => ⟨hq.1, hq.2.1⟩)
    ((Keeps.refl env hs.1.aside.live).drainOne (hs.1.aside.groups destination))

theorem poll (h : Ledger net sent received s) (hb : Books base {} s) (hnet : net.Documented)
    (hg : PollGuard env (tickApart net) s) :
    ∃ s', s.poll env = some s' ∧ Books base {} s' ∧ Ledger net sent received s' := by
  obtain ⟨hturns, hafter⟩ := hg
  have hb₀ : Books base {} { s with interface := env.pollMaintenance s.interface } := { hb with }
  have h₀ : Ledger net sent received { s with interface := env.pollMaintenance s.interface } :=
    h.frame (fun _ _ hget => hget) (fun _ _ _ _ => rfl) (hnet.maintains s.interface s.device.ingress)
  obtain ⟨s₁, e₁, hb₁, h₁⟩ := loop_invariant (fun s => Books base {} s ∧ Ledger net sent received s)
    (fun s hs hd => hs.2.ingressTurn hs.1 hnet hd) ⟨hb₀, h₀⟩ hturns
  obtain ⟨s₂, e₂, hb₂, h₂⟩ := h₁.carry hnet
    ((queue_rule env (J := fun _ => True) (fun _ _ _ _ _ _ => trivial) hb₁ trivial).imp fun _ hq => ⟨hq.1, hq.2.1⟩)
    (Keeps.refl env hb₁.aside.live).queueEstablishedPacketTcp
  obtain ⟨s₃, e₃, hb₃, h₃⟩ : ∃ s₃, s₂.drainPacketUdp env = some s₃ ∧ Books base {} s₃ ∧
      Ledger net sent received s₃ :=
    foldlM_always (fun s => Books base {} s ∧ Ledger net sent received s)
      (fun s destination hs => hs.2.drainGroup hs.1 hnet destination) ⟨hb₂, h₂⟩ _
  refine ⟨s₃.pollEgress env, ?_, (hb₃.pollEgress env).1, h₃.egress hb₃ hnet ((hafter s₁ e₁ s₂ e₂).2 s₃ e₃)⟩
  simp only [StackBridge.poll, StackBridge.ingressLoop, e₁, e₂, e₃, Option.bind_eq_bind, Option.bind_some,
    Option.pure_def]

theorem pollTimes (n : ℕ) (h : Ledger net sent received s) (hb : Books base {} s) (hnet : net.Documented)
    (hg : PollsGuard env (tickApart net) n s) :
    ∃ s', StackBridge.pollTimes env n s = some s' ∧ Books base {} s' ∧ Ledger net sent received s' := by
  induction n generalizing s with
  | zero => exact ⟨s, rfl, hb, h⟩
  | succ n ih =>
    obtain ⟨s₁, e₁, hb₁, h₁⟩ := h.poll hb hnet hg.1
    obtain ⟨s₂, e₂, hb₂, h₂⟩ := ih h₁ hb₁ (hg.2 s₁ e₁)
    exact ⟨s₂, by simp [StackBridge.pollTimes, e₁, e₂], hb₂, h₂⟩

theorem openTcp (h : Ledger net sent received s) (hb : Books base {} s) (hnet : net.Documented)
    (metadata : Engine.FlowMetadata)
    (hg : ∀ r, s.startTcp env metadata = some r → r.2.isOk = true → PollsGuard env (tickApart net) 8 r.1) :
    ∃ s' result, s.openTcp env metadata = some (s', result) ∧ Books base {} s' ∧ Ledger net sent received s' := by
  obtain ⟨s₁, result, e₁, hb₁, h₁⟩ := h.carry_fst hnet
    ((hb.startTcp env metadata).imp fun _ hq => hq.imp fun _ hq => ⟨hq.1, hq.2.1⟩)
    ((Keeps.refl env hb.aside.live).startTcp metadata)
  unfold StackBridge.openTcp
  cases result with
  | error error => exact ⟨s₁, .error error, by simp [e₁], hb₁, h₁⟩
  | ok handle =>
    obtain ⟨s₂, e₂, hb₂, h₂⟩ := h₁.pollTimes 8 hb₁ hnet (hg (s₁, .ok handle) e₁ rfl)
    exact ⟨s₂, .ok handle, by simp [e₁, e₂], hb₂, h₂⟩

end Ledger
end Snolc.Stack
