import Snolc.StackBooks

set_option autoImplicit false

namespace Snolc.Stack
open CheckedSlice Handles
open Engine (FlowMetadata StackError)

variable {W T U : Type} {base : ℕ} {s s' s'' : StackBridge W T U}

theorem Untouched.refl (s : StackBridge W T U) : Untouched s s.sockets := fun _ _ => rfl

theorem Untouched.trans {set set' : SocketSet T U} (h : Untouched s set)
    (h' : Untouched { s with sockets := set } set') : Untouched s set' :=
  fun i hi => (h' i hi).trans (h i hi)

structure QuietTcp (s s' : StackBridge W T U) : Prop where
  flows : s'.packetTcpFlows = s.packetTcpFlows
  byTuple : s'.packetTcpByTuple = s.packetTcpByTuple
  pending : s'.pendingPacketTcp = s.pendingPacketTcp
  sockets : ∀ i ∈ gathered PacketTcpFlow.sockets s.packetTcpFlows,
    SlotTable.slot s'.sockets i = SlotTable.slot s.sockets i

theorem QuietTcp.refl (s : StackBridge W T U) : QuietTcp s s := ⟨rfl, rfl, rfl, fun _ _ => rfl⟩

theorem QuietTcp.trans (h : QuietTcp s s') (h' : QuietTcp s' s'') : QuietTcp s s'' where
  flows := h'.flows.trans h.flows
  byTuple := h'.byTuple.trans h.byTuple
  pending := h'.pending.trans h.pending
  sockets i hi := (h'.sockets i (by rw [h.flows]; exact hi)).trans (h.sockets i hi)

structure QuietUdp (s s' : StackBridge W T U) : Prop where
  groups : s'.packetUdpGroups = s.packetUdpGroups
  flows : s'.packetUdpFlows = s.packetUdpFlows
  byTuple : s'.packetUdpByTuple = s.packetUdpByTuple
  pending : s'.pendingPacketUdp = s.pendingPacketUdp
  sockets : ∀ i ∈ groupSockets s.packetUdpGroups,
    SlotTable.slot s'.sockets i = SlotTable.slot s.sockets i

theorem QuietUdp.refl (s : StackBridge W T U) : QuietUdp s s := ⟨rfl, rfl, rfl, rfl, fun _ _ => rfl⟩

theorem QuietUdp.trans (h : QuietUdp s s') (h' : QuietUdp s' s'') : QuietUdp s s'' where
  groups := h'.groups.trans h.groups
  flows := h'.flows.trans h.flows
  byTuple := h'.byTuple.trans h.byTuple
  pending := h'.pending.trans h.pending
  sockets i hi := (h'.sockets i (by rw [h.groups]; exact hi)).trans (h.sockets i hi)

structure Quiet (s s' : StackBridge W T U) : Prop where
  device : s'.device = s.device
  tcp : QuietTcp s s'
  udp : QuietUdp s s'

theorem Quiet.refl (s : StackBridge W T U) : Quiet s s := ⟨rfl, QuietTcp.refl s, QuietUdp.refl s⟩

theorem Quiet.trans (h : Quiet s s') (h' : Quiet s' s'') : Quiet s s'' :=
  ⟨h'.device.trans h.device, h.tcp.trans h'.tcp, h.udp.trans h'.udp⟩

theorem Quiet.of_sockets {set : SocketSet T U} (h : Untouched s set) (interface : W)
    (ports : PortPool) (managedBytes : ℕ) (tcpFlows udpFlows : HandleTable PairFlow) :
    Quiet s { s with
      interface := interface, sockets := set, ports := ports, managedBytes := managedBytes
      tcpFlows := tcpFlows, udpFlows := udpFlows } :=
  ⟨rfl, ⟨rfl, rfl, rfl, fun i hi => h i (List.mem_append_left _ hi)⟩,
    ⟨rfl, rfl, rfl, rfl, fun i hi => h i (List.mem_append_right _ hi)⟩⟩

structure Refused (s s' : StackBridge W T U) : Prop extends Quiet s s' where
  tcpFlows : s'.tcpFlows = s.tcpFlows
  udpFlows : s'.udpFlows = s.udpFlows

theorem Refused.trans (h : Refused s s') (h' : Refused s' s'') : Refused s s'' where
  toQuiet := h.toQuiet.trans h'.toQuiet
  tcpFlows := h'.tcpFlows.trans h.tcpFlows
  udpFlows := h'.udpFlows.trans h.udpFlows

theorem Refused.of_sockets {set : SocketSet T U} (h : Untouched s set) (interface : W)
    (ports : PortPool) (managedBytes : ℕ) :
    Refused s { s with
      interface := interface, sockets := set, ports := ports, managedBytes := managedBytes } :=
  ⟨Quiet.of_sockets h interface ports managedBytes s.tcpFlows s.udpFlows, rfl, rfl⟩

namespace Books

variable {x : Extra}

theorem untouched_setTcp (h : Books base x s) {i : ℕ}
    (hi : i ∈ gathered PairFlow.sockets s.tcpFlows ∨ i ∈ x.tcp) (socket : TcpSocket T) :
    Untouched s (s.sockets.setTcp i socket) := by
  have hheld : i ∈ s.heldTcp ++ x.tcp := by
    rcases hi with hi | hi
    · exact List.mem_append_left _ (List.mem_append_left _ hi)
    · exact List.mem_append_right _ hi
  obtain ⟨old, hold⟩ := tcpAt_isSome.mp (h.sockets.tcp i hheld)
  intro j hj
  rw [SocketSet.setTcp, slot_set _ _ _ _ (lt_of_slot hold), if_neg]
  rintro rfl
  refine h.not_packet ?_ hj
  rcases hi with hi | hi
  · exact .inl hi
  · exact .inr (.inr (.inl hi))

theorem untouched_setUdp (h : Books base x s) {i : ℕ}
    (hi : i ∈ gathered PairFlow.sockets s.udpFlows ∨ i ∈ x.udp) (socket : UdpSocket U) :
    Untouched s (s.sockets.setUdp i socket) := by
  have hheld : i ∈ s.heldUdp ++ x.udp := by
    rcases hi with hi | hi
    · exact List.mem_append_left _ (List.mem_append_left _ hi)
    · exact List.mem_append_right _ hi
  obtain ⟨old, hold⟩ := udpAt_isSome.mp (h.sockets.udp i hheld)
  intro j hj
  rw [SocketSet.setUdp, slot_set _ _ _ _ (lt_of_slot hold), if_neg]
  rintro rfl
  refine h.not_packet ?_ hj
  rcases hi with hi | hi
  · exact .inr (.inl hi)
  · exact .inr (.inr (.inr hi))

theorem reservePair (h : Books base {} s) (bytes : ℕ) :
    (∃ pool error, s.reservePair bytes = some ({ s with ports := pool }, .error error) ∧
      Books base {} { s with ports := pool }) ∨
    ∃ pool adapterPort policyPort, s.reservePair bytes =
        some ({ s with ports := pool, managedBytes := s.managedBytes + bytes },
          .ok (adapterPort, policyPort)) ∧
      Books base ⟨bytes, [policyPort, adapterPort], [], []⟩
        { s with ports := pool, managedBytes := s.managedBytes + bytes } := by
  unfold StackBridge.reservePair
  rcases h.reserve bytes with he | ⟨he, h1⟩
  · exact .inl ⟨s.ports, .resource, by rw [he], h⟩
  · rw [he]
    rcases h1.allocate with ha | ⟨pool, adapterPort, ha, h2⟩
    · obtain ⟨hr, h3⟩ := h1.release bytes 0 (by simp)
      refine .inl ⟨s.ports, .portLimit, ?_, h⟩
      simp only [ha, hr, Nat.add_sub_cancel, Option.pure_def, Option.bind_eq_bind, Option.bind_some]
    · rcases h2.allocate with hb | ⟨pool', policyPort, hb, h3⟩
      · obtain ⟨pool'', hp, h4⟩ := h2.releasePort (List.Perm.refl _)
        obtain ⟨hr, h5⟩ := h4.release bytes 0 (by simp)
        refine .inl ⟨pool'', .portLimit, ?_, ?_⟩
        · simp only [ha, hb, hp, hr, Nat.add_sub_cancel, Option.pure_def, Option.bind_eq_bind,
            Option.bind_some]
        · simpa only [Nat.add_sub_cancel] using h5
      · refine .inr ⟨pool', adapterPort, policyPort, ?_, ?_⟩
        · simp only [ha, hb, Option.pure_def, Option.bind_eq_bind, Option.bind_some]
        · simpa using h3

/-- A pair of sockets is taken apart, by a failed opening and by a closing alike. -/
theorem teardownTcp {flow : PairFlow} (h : Books base flow.tcpExtra s) :
    ∃ set pool, s.cleanupSockets flow.adapter flow.policy flow.adapterPort flow.policyPort
        flow.managedBytes = some { s with
          sockets := set, ports := pool, managedBytes := s.managedBytes - flow.managedBytes } ∧
      s.releaseFlow flow = some ({ s with
        sockets := set, ports := pool, managedBytes := s.managedBytes - flow.managedBytes }, .ok ()) ∧
      Books base {} { s with
        sockets := set, ports := pool, managedBytes := s.managedBytes - flow.managedBytes } ∧
      Untouched s set := by
  obtain ⟨set, e1, h1, u1⟩ := h.removeTcp (List.Perm.refl _)
  obtain ⟨set', e2, h2, u2⟩ := h1.removeTcp (List.Perm.refl _)
  obtain ⟨pool, e3, h3⟩ := h2.releasePort (List.Perm.refl _)
  obtain ⟨pool', e4, h4⟩ := h3.releasePort (List.Perm.refl _)
  obtain ⟨e5, h5⟩ := h4.release flow.managedBytes 0 rfl
  refine ⟨set', pool', ?_, ?_, h5, u1.trans u2⟩
  · simp only [StackBridge.cleanupSockets, e1, e2, e3, e4, e5, Option.bind_eq_bind, Option.bind_some]
  · simp only [StackBridge.releaseFlow, e1, e2, e3, e4, e5, Option.bind_eq_bind, Option.bind_some, Option.pure_def]

theorem teardownUdp {flow : PairFlow} (h : Books base flow.udpExtra s) :
    ∃ set pool, s.cleanupSockets flow.adapter flow.policy flow.adapterPort flow.policyPort
        flow.managedBytes = some { s with
          sockets := set, ports := pool, managedBytes := s.managedBytes - flow.managedBytes } ∧
      s.releaseFlow flow = some ({ s with
        sockets := set, ports := pool, managedBytes := s.managedBytes - flow.managedBytes }, .ok ()) ∧
      Books base {} { s with
        sockets := set, ports := pool, managedBytes := s.managedBytes - flow.managedBytes } ∧
      Untouched s set := by
  obtain ⟨set, e1, h1, u1⟩ := h.removeUdp (List.Perm.refl _)
  obtain ⟨set', e2, h2, u2⟩ := h1.removeUdp (List.Perm.refl _)
  obtain ⟨pool, e3, h3⟩ := h2.releasePort (List.Perm.refl _)
  obtain ⟨pool', e4, h4⟩ := h3.releasePort (List.Perm.refl _)
  obtain ⟨e5, h5⟩ := h4.release flow.managedBytes 0 rfl
  refine ⟨set', pool', ?_, ?_, h5, u1.trans u2⟩
  · simp only [StackBridge.cleanupSockets, e1, e2, e3, e4, e5, Option.bind_eq_bind, Option.bind_some]
  · simp only [StackBridge.releaseFlow, e1, e2, e3, e4, e5, Option.bind_eq_bind, Option.bind_some, Option.pure_def]

theorem connectPair (h : Books base x s) (env : Smoltcp W T U) {adapter policy : ℕ}
    (ha : adapter ∈ x.tcp) (hp : policy ∈ x.tcp) (adapterPort policyPort : ℕ) :
    ∃ set interface result, s.connectPair env adapter policy adapterPort policyPort =
        some ({ s with sockets := set, interface := interface }, result) ∧
      Books base x { s with sockets := set, interface := interface } ∧ Untouched s set := by
  obtain ⟨server, hserver⟩ := h.tcpAt (List.mem_append_right _ hp)
  unfold StackBridge.connectPair
  rw [hserver]
  simp only [Option.bind_eq_bind, Option.bind_some, Option.pure_def]
  cases env.listen server.rest ⟨none, UInt16.ofNat policyPort⟩ with
  | error message => exact ⟨s.sockets, s.interface, _, rfl, h, Untouched.refl s⟩
  | ok rest =>
    have h1 := h.setTcp (List.mem_append_right _ hp) ⟨.listen, rest⟩
    have u1 := h.untouched_setTcp (.inr hp) ⟨.listen, rest⟩
    obtain ⟨client, hclient⟩ := h1.tcpAt (List.mem_append_right _ ha)
    simp only [hclient, Option.bind_some]
    split
    · exact ⟨_, _, _, rfl, { h1 with }, u1⟩
    · next rest' _ =>
      have h2 := h1.setTcp (List.mem_append_right _ ha) ⟨.synSent, rest'⟩
      have u2 := h1.untouched_setTcp (.inr ha) ⟨.synSent, rest'⟩
      exact ⟨_, _, _, rfl, { h2 with }, u1.trans u2⟩

theorem joinTcp {flow : PairFlow} (h : Books base flow.tcpExtra s) (env : Smoltcp W T U) :
    ∃ s' result, s.joinTcp env flow = some (s', result) ∧ Books base {} s' ∧ Quiet s s' ∧
      ∀ error, result = .error error → Refused s s' := by
  obtain ⟨set, interface, result, hc, h1, u1⟩ := h.connectPair env List.mem_cons_self
    (List.mem_cons_of_mem _ List.mem_cons_self) flow.adapterPort flow.policyPort
  obtain ⟨cleared, pool, hclean, -, h2, u2⟩ := h1.teardownTcp
  have hr := Refused.of_sockets (s := s) (u1.trans u2) interface pool
    (s.managedBytes - flow.managedBytes)
  unfold StackBridge.joinTcp
  simp only [hc, Option.bind_eq_bind, Option.bind_some, Option.pure_def]
  cases result with
  | error error =>
    simp only [hclean, Option.bind_some]
    exact ⟨_, _, rfl, h2, hr.toQuiet, fun _ _ => hr⟩
  | ok _ =>
    rcases HandleTable.insert_total h1.tcpSound flow with hi | ⟨flows, handle, hi, hsound, hperm, -⟩
    · simp only [hi, hclean, Option.bind_some]
      exact ⟨_, _, rfl, h2, hr.toQuiet, fun _ _ => hr⟩
    · simp only [hi, Option.bind_some]
      exact ⟨_, _, rfl, h1.putTcp hsound hperm, Quiet.of_sockets u1 _ _ _ _ _,
        fun _ h => nomatch h⟩

/-- An opening is refused, or goes on with its budget and its two ports. -/
theorem openPair (h : Books base {} s) {metadata : FlowMetadata} {rx tx : ℕ}
    {opened : StackBridge W T U → ℕ → ℕ → ℕ → Option (StackBridge W T U × Except StackError Handle)}
    (hopened : ∀ pool adapterPort policyPort bytes,
      Books base ⟨bytes, [policyPort, adapterPort], [], []⟩
        { s with ports := pool, managedBytes := s.managedBytes + bytes } →
      ∃ s' result, opened { s with ports := pool, managedBytes := s.managedBytes + bytes } adapterPort policyPort
          bytes = some (s', result) ∧ Books base {} s' ∧ Quiet s s' ∧ ∀ error, result = .error error → Refused s s') :
    ∃ s' result, s.openPair metadata rx tx opened = some (s', result) ∧ Books base {} s' ∧ Quiet s s' ∧
      ∀ error, result = .error error → Refused s s' := by
  unfold StackBridge.openPair
  split
  · exact ⟨s, _, rfl, h, Quiet.refl s, fun _ _ => Refused.of_sockets (Untouched.refl s) _ _ _⟩
  split
  · exact ⟨s, _, rfl, h, Quiet.refl s, fun _ _ => Refused.of_sockets (Untouched.refl s) _ _ _⟩
  next managedBytes _ =>
  rcases h.reservePair managedBytes with ⟨pool, error, he, h1⟩ | ⟨pool, adapterPort, policyPort, he, h1⟩
  · have hr := Refused.of_sockets (Untouched.refl s) s.interface pool s.managedBytes
    refine ⟨_, .error error, ?_, h1, hr.toQuiet, fun _ _ => hr⟩
    simp only [he, Option.bind_eq_bind, Option.bind_some, Option.pure_def]
  · obtain ⟨s', result, ho, h2⟩ := hopened pool adapterPort policyPort managedBytes h1
    refine ⟨s', result, ?_, h2⟩
    simp only [he, ho, Option.bind_eq_bind, Option.bind_some]

theorem startTcp (h : Books base {} s) (env : Smoltcp W T U) (metadata : FlowMetadata) :
    ∃ s' result, s.startTcp env metadata = some (s', result) ∧ Books base {} s' ∧ Quiet s s' ∧
      ∀ error, result = .error error → Refused s s' := by
  rw [StackBridge.startTcp_eq]
  refine h.openPair fun pool adapterPort policyPort managedBytes h1 => ?_
  obtain ⟨h2, -⟩ := h1.addTcp ⟨.closed, env.newTcp s.config⟩
  have u2 := h1.untouched_add (.tcp ⟨.closed, env.newTcp s.config⟩)
  obtain ⟨h3, -⟩ := h2.addTcp ⟨.closed, env.newTcp s.config⟩
  have u3 := u2.trans (h2.untouched_add (.tcp ⟨.closed, env.newTcp s.config⟩))
  have h4 : Books base (PairFlow.tcpExtra ⟨_, _, adapterPort, policyPort, metadata, managedBytes⟩) _ :=
    h3.perm rfl (List.Perm.swap _ _ _) (List.Perm.refl _) (List.Perm.refl _)
  have hadded := Refused.of_sockets (s := s) u3 s.interface pool (s.managedBytes + managedBytes)
  obtain ⟨s', result, hj, h5, hq, hr⟩ := h4.joinTcp env
  exact ⟨s', result, hj, h5, hadded.toQuiet.trans hq, fun e hres => hadded.trans (hr e hres)⟩

theorem bindPair (h : Books base x s) (env : Smoltcp W T U) {adapter policy : ℕ}
    (ha : adapter ∈ x.udp) (hp : policy ∈ x.udp) (adapterPort policyPort : ℕ) :
    ∃ set bound, s.bindPair env adapter policy adapterPort policyPort =
        some ({ s with sockets := set }, bound) ∧
      Books base x { s with sockets := set } ∧ Untouched s set := by
  obtain ⟨first, hfirst⟩ := h.udpAt (List.mem_append_right _ ha)
  unfold StackBridge.bindPair
  rw [hfirst]
  simp only [Option.bind_eq_bind, Option.bind_some, Option.pure_def]
  cases env.bind first.rest ⟨none, UInt16.ofNat adapterPort⟩ with
  | none => exact ⟨s.sockets, false, rfl, h, Untouched.refl s⟩
  | some rest =>
    have h1 := h.setUdp (List.mem_append_right _ ha) ⟨first.rx, rest⟩
    have u1 := h.untouched_setUdp (.inr ha) ⟨first.rx, rest⟩
    obtain ⟨second, hsecond⟩ := h1.udpAt (List.mem_append_right _ hp)
    simp only [hsecond, Option.bind_some]
    cases env.bind second.rest ⟨none, UInt16.ofNat policyPort⟩ with
    | none => exact ⟨_, false, rfl, h1, u1⟩
    | some rest' =>
      have h2 := h1.setUdp (List.mem_append_right _ hp) ⟨second.rx, rest'⟩
      have u2 := h1.untouched_setUdp (.inr hp) ⟨second.rx, rest'⟩
      exact ⟨_, true, rfl, h2, u1.trans u2⟩

theorem joinUdp {flow : PairFlow} (h : Books base flow.udpExtra s) (env : Smoltcp W T U) :
    ∃ s' result, s.joinUdp env flow = some (s', result) ∧ Books base {} s' ∧ Quiet s s' ∧
      ∀ error, result = .error error → Refused s s' := by
  obtain ⟨set, bound, hc, h1, u1⟩ := h.bindPair env List.mem_cons_self
    (List.mem_cons_of_mem _ List.mem_cons_self) flow.adapterPort flow.policyPort
  obtain ⟨cleared, pool, hclean, -, h2, u2⟩ := h1.teardownUdp
  have hr := Refused.of_sockets (s := s) (u1.trans u2) s.interface pool
    (s.managedBytes - flow.managedBytes)
  unfold StackBridge.joinUdp
  simp only [hc, Option.bind_eq_bind, Option.bind_some, Option.pure_def]
  cases bound with
  | false =>
    simp only [hclean, Option.bind_some]
    exact ⟨_, _, rfl, h2, hr.toQuiet, fun _ _ => hr⟩
  | true =>
    rcases HandleTable.insert_total h1.udpSound flow with hi | ⟨flows, handle, hi, hsound, hperm, -⟩
    · simp only [hi, hclean, Option.bind_some]
      exact ⟨_, _, rfl, h2, hr.toQuiet, fun _ _ => hr⟩
    · simp only [hi, Option.bind_some]
      exact ⟨_, _, rfl, h1.putUdp hsound hperm, Quiet.of_sockets u1 _ _ _ _ _,
        fun _ h => nomatch h⟩

theorem openUdp (h : Books base {} s) (env : Smoltcp W T U) (metadata : FlowMetadata) :
    ∃ s' result, s.openUdp env metadata = some (s', result) ∧ Books base {} s' ∧ Quiet s s' ∧
      ∀ error, result = .error error → Refused s s' := by
  rw [StackBridge.openUdp_eq]
  refine h.openPair fun pool adapterPort policyPort managedBytes h1 => ?_
  obtain ⟨h2, -⟩ := h1.addUdp ⟨[], env.newUdp s.config⟩
  have u2 := h1.untouched_add (.udp ⟨[], env.newUdp s.config⟩)
  obtain ⟨h3, -⟩ := h2.addUdp ⟨[], env.newUdp s.config⟩
  have u3 := u2.trans (h2.untouched_add (.udp ⟨[], env.newUdp s.config⟩))
  have h4 : Books base (PairFlow.udpExtra ⟨_, _, adapterPort, policyPort, metadata, managedBytes⟩) _ :=
    h3.perm rfl (List.Perm.swap _ _ _) (List.Perm.refl _) (List.Perm.swap _ _ _)
  have hadded := Refused.of_sockets (s := s) u3 s.interface pool (s.managedBytes + managedBytes)
  obtain ⟨s', result, hj, h5, hq, hr⟩ := h4.joinUdp env
  exact ⟨s', result, hj, h5, hadded.toQuiet.trans hq, fun e hres => hadded.trans (hr e hres)⟩

theorem closeTcp (h : Books base {} s) (handle : Handle) :
    ∃ s' result, s.closeTcp handle = some (s', result) ∧ Books base {} s' ∧ Quiet s s' := by
  unfold StackBridge.closeTcp
  rcases HandleTable.remove_spec h.tcpSound handle with ⟨-, hr⟩ | ⟨flows, flow, -, hr, hs, hp, -⟩
  · rw [hr]
    exact ⟨s, _, rfl, h, Quiet.refl s⟩
  · have h0 := h.takeTcp hs hp
    obtain ⟨set, pool, -, hrelease, h1, u1⟩ := h0.teardownTcp
    simp only [hr, hrelease]
    exact ⟨_, _, rfl, h1, Quiet.of_sockets (s := s) u1 _ _ _ _ _⟩

theorem closeUdp (h : Books base {} s) (handle : Handle) :
    ∃ s' result, s.closeUdp handle = some (s', result) ∧ Books base {} s' ∧ Quiet s s' := by
  unfold StackBridge.closeUdp
  rcases HandleTable.remove_spec h.udpSound handle with ⟨-, hr⟩ | ⟨flows, flow, -, hr, hs, hp, -⟩
  · rw [hr]
    exact ⟨s, _, rfl, h, Quiet.refl s⟩
  · have h0 := h.takeUdp hs hp
    obtain ⟨set, pool, -, hrelease, h1, u1⟩ := h0.teardownUdp
    simp only [hr, hrelease]
    exact ⟨_, _, rfl, h1, Quiet.of_sockets (s := s) u1 _ _ _ _ _⟩

theorem withTcpSocket (h : Books base {} s) (handle : Handle) (side : Side)
    (call : TcpSocket T → TcpSocket T) :
    ∃ s', s.withTcpSocket handle side call = some s' ∧ Books base {} s' ∧ Quiet s s' := by
  unfold StackBridge.withTcpSocket
  cases hg : s.tcpFlows.get handle with
  | none => exact ⟨s, rfl, h, Quiet.refl s⟩
  | some flow =>
    have hm := mem_gathered.mpr ⟨handle, flow, hg, flow.socket_mem side⟩
    have hheld := List.mem_append_left ([] : List ℕ) (List.mem_append_left
      (gathered PacketTcpFlow.sockets s.packetTcpFlows) hm)
    obtain ⟨socket, hat⟩ := h.tcpAt hheld
    simp only [hat, Option.bind_eq_bind, Option.bind_some, Option.pure_def]
    exact ⟨_, rfl, h.setTcp hheld _, Quiet.of_sockets (h.untouched_setTcp (.inl hm) _)
      _ _ _ _ _⟩

theorem withUdpSocket (h : Books base {} s) (handle : Handle) (side : Side)
    (call : UdpSocket U → UdpSocket U) :
    ∃ s', s.withUdpSocket handle side call = some s' ∧ Books base {} s' ∧ Quiet s s' := by
  unfold StackBridge.withUdpSocket
  cases hg : s.udpFlows.get handle with
  | none => exact ⟨s, rfl, h, Quiet.refl s⟩
  | some flow =>
    have hm := mem_gathered.mpr ⟨handle, flow, hg, flow.socket_mem side⟩
    have hheld := List.mem_append_left ([] : List ℕ) (List.mem_append_left
      (groupSockets s.packetUdpGroups) hm)
    obtain ⟨socket, hat⟩ := h.udpAt hheld
    simp only [hat, Option.bind_eq_bind, Option.bind_some, Option.pure_def]
    exact ⟨_, rfl, h.setUdp hheld _, Quiet.of_sockets (h.untouched_setUdp (.inl hm) _)
      _ _ _ _ _⟩

end Books
end Snolc.Stack
