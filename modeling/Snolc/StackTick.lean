import Snolc.StackStreams

set_option autoImplicit false

namespace Snolc.Stack
open CheckedSlice Handles
open Engine (StackError)

variable {W T U : Type} {base : ℕ} {s s' : StackBridge W T U}

def FrontSyn (s : StackBridge W T U) (tuple : PacketTcpTuple) : Prop :=
  ∃ packet rest, s.device.ingress = packet :: rest ∧ packet.external = true ∧
    tcpSynTuple packet.bytes = some tuple

def FrontUdp (s : StackBridge W T U) (tuple : PacketUdpTuple) : Prop :=
  ∃ packet rest, s.device.ingress = packet :: rest ∧ packet.external = true ∧
    udpTuple packet.bytes = some tuple

structure OpenedTcp (s s' : StackBridge W T U) (handle : Handle) (flow : PacketTcpFlow) : Prop where
  front : FrontSyn s flow.tuple
  entries : s'.packetTcpFlows.entries.Perm ((handle, flow) :: s.packetTcpFlows.entries)
  pending : s'.pendingPacketTcp = s.pendingPacketTcp
  unqueued : flow.queued = false
  listening : ∃ rest, s'.sockets.tcpAt flow.socket = some ⟨.listen, rest⟩
  sockets : ∀ i ∈ gathered PacketTcpFlow.sockets s.packetTcpFlows,
    SlotTable.slot s'.sockets i = SlotTable.slot s.sockets i

structure OpenedUdp (s s' : StackBridge W T U) (tuple : PacketUdpTuple) (group : PacketUdpGroup) :
    Prop where
  front : FrontUdp s tuple
  groups : s'.packetUdpGroups = (tuple.destination, group) :: s.packetUdpGroups
  flows : s'.packetUdpFlows = s.packetUdpFlows
  sockets : ∀ i ∈ groupSockets s.packetUdpGroups,
    SlotTable.slot s'.sockets i = SlotTable.slot s.sockets i

/-- What `prepare_packet_tcp` does: nothing for packet flows, or a new one. -/
structure PreparedTcp (s s' : StackBridge W T U) (result : Except StackError Unit) : Prop where
  device : s'.device = s.device
  udp : QuietUdp s s'
  tcp : QuietTcp s s' ∨ ∃ handle flow, OpenedTcp s s' handle flow
  refused : ∀ error, result = .error error →
    QuietTcp s s' ∧ ∃ tuple, FrontSyn s tuple ∧ KeyedList.get s.packetTcpByTuple tuple = none

structure PreparedUdp (s s' : StackBridge W T U) (result : Except StackError Unit) : Prop where
  device : s'.device = s.device
  tcp : QuietTcp s s'
  udp : QuietUdp s s' ∨ ∃ tuple group, OpenedUdp s s' tuple group
  refused : ∀ error, result = .error error → QuietUdp s s' ∧
    ∃ tuple, FrontUdp s tuple ∧ KeyedList.get s.packetUdpGroups tuple.destination = none

inductive Promoted (s : StackBridge W T U) (handle : Handle) : StackBridge W T U → Prop
  | skipped (waits : ∀ flow, s.packetTcpFlows.get handle = some flow → flow.queued = false →
      ∀ socket, s.sockets.tcpAt flow.socket = some socket → socket.state ≠ .established) :
      Promoted s handle s
  | queued {flow : PacketTcpFlow} {socket : TcpSocket T}
      (live : s.packetTcpFlows.get handle = some flow) (fresh : flow.queued = false)
      (here : s.sockets.tcpAt flow.socket = some socket) (done : socket.state = .established) :
      Promoted s handle { s with
        packetTcpFlows := s.packetTcpFlows.modify handle fun flow => { flow with queued := true }
        pendingPacketTcp := s.pendingPacketTcp ++ [handle] }

structure ClosedTcp (s s' : StackBridge W T U) (handle : Handle) (flow : PacketTcpFlow) : Prop where
  entries : s.packetTcpFlows.entries.Perm ((handle, flow) :: s'.packetTcpFlows.entries)
  pending : s'.pendingPacketTcp = s.pendingPacketTcp.filter fun pending => decide (pending ≠ handle)
  sockets : ∀ i ∈ gathered PacketTcpFlow.sockets s'.packetTcpFlows,
    SlotTable.slot s'.sockets i = SlotTable.slot s.sockets i

structure Taken (s s' : StackBridge W T U) (destination : IpEndpoint) (group : PacketUdpGroup)
    (socket : UdpSocket U) (datagram : List UInt8 × IpEndpoint)
    (rx : List (List UInt8 × IpEndpoint)) : Prop where
  listed : (destination, group) ∈ s.packetUdpGroups
  here : s.sockets.udpAt group.socket = some socket
  waiting : socket.rx = datagram :: rx
  sockets : s'.sockets = s.sockets.setUdp group.socket ⟨rx, socket.rest⟩

inductive Drained (s : StackBridge W T U) (destination : IpEndpoint) :
    StackBridge W T U → Bool → Prop
  | idle : Drained s destination s false
  | filled {s' : StackBridge W T U} {group : PacketUdpGroup} {socket : UdpSocket U}
      {datagram : List UInt8 × IpEndpoint} {rx : List (List UInt8 × IpEndpoint)}
      (taken : Taken s s' destination group socket datagram rx)
      (groups : s'.packetUdpGroups = s.packetUdpGroups) (busy : 0 < group.flows) :
      Drained s destination s' true
  | joined {s' : StackBridge W T U} {group : PacketUdpGroup} {socket : UdpSocket U}
      {datagram : List UInt8 × IpEndpoint} {rx : List (List UInt8 × IpEndpoint)}
      (taken : Taken s s' destination group socket datagram rx)
      (groups : s'.packetUdpGroups = KeyedList.modify s.packetUdpGroups destination fun group =>
        { group with flows := group.flows + 1 }) :
      Drained s destination s' true
  | refused {s' : StackBridge W T U} {group : PacketUdpGroup} {socket : UdpSocket U}
      {datagram : List UInt8 × IpEndpoint} {rx : List (List UInt8 × IpEndpoint)}
      (taken : Taken s s' destination group socket datagram rx)
      (groups : s'.packetUdpGroups = s.packetUdpGroups)
      (afforded : ∃ next, s.reserve datagram.1.length = .ok next)
      (full : s.packetUdpFlows.Full) :
      Drained s destination s' false

/-- What closing a packet UDP flow does to the groups. -/
inductive LeftGroup (s s' : StackBridge W T U) : Prop
  | unchanged (groups : s'.packetUdpGroups = s.packetUdpGroups) (sockets : s'.sockets = s.sockets)
  | fewer {destination : IpEndpoint} {group : PacketUdpGroup}
      (listed : (destination, group) ∈ s.packetUdpGroups) (others : group.flows - 1 ≠ 0)
      (groups : s'.packetUdpGroups = KeyedList.modify s.packetUdpGroups destination fun group =>
        { group with flows := group.flows - 1 })
      (sockets : s'.sockets = s.sockets)
  | removed {destination : IpEndpoint}
      (groups : s'.packetUdpGroups = KeyedList.remove s.packetUdpGroups destination)
      (sockets : ∀ i ∈ groupSockets s'.packetUdpGroups,
        SlotTable.slot s'.sockets i = SlotTable.slot s.sockets i)

/-- What smoltcp does when it is given a packet or the time: the sockets react, and what it
sends may come back in. -/
structure Reacted (s s' : StackBridge W T U) (reaction : Reaction W T U)
    (queue : List QueuedPacket) : Prop where
  sockets : s'.sockets = reaction.apply s.sockets
  packetTcpFlows : s'.packetTcpFlows = s.packetTcpFlows
  pendingPacketTcp : s'.pendingPacketTcp = s.pendingPacketTcp
  packetUdpGroups : s'.packetUdpGroups = s.packetUdpGroups
  ingress : ∃ back, s'.device.ingress = queue ++ back ∧ ∀ q ∈ back, q.external = false

def ingressReaction (env : Smoltcp W T U) (s : StackBridge W T U) (packet : QueuedPacket) :
    Reaction W T U :=
  (env.ingress s.interface s.sockets packet.bytes).1

def egressReaction (env : Smoltcp W T U) (s : StackBridge W T U) : Reaction W T U :=
  (env.egress s.interface s.device.stopped s.sockets).1

structure Dropped (s s' : StackBridge W T U) : Prop where
  tcp : QuietTcp s s'
  udp : QuietUdp s s'
  ingress : s'.device.ingress = s.device.ingress.tail

theorem frontTuple_eq_some {τ : Type} {parse : List UInt8 → Option τ} {known : τ → Bool} {tuple : τ}
    (h : s.frontTuple parse known = some tuple) :
    (∃ packet rest, s.device.ingress = packet :: rest ∧ packet.external = true ∧ parse packet.bytes = some tuple) ∧
      known tuple = false := by
  unfold StackBridge.frontTuple at h
  split at h
  · cases h
  next packet rest hin =>
  split at h
  · cases h
  next hext =>
  split at h
  · cases h
  next t ht =>
  split at h
  · cases h
  next hknown =>
  cases h
  exact ⟨⟨packet, rest, hin, by simpa using hext, ht⟩, by simpa using hknown⟩

theorem newSyn_eq_some {tuple : PacketTcpTuple} (h : s.newSyn = some tuple) :
    FrontSyn s tuple ∧ KeyedList.get s.packetTcpByTuple tuple = none := by
  rw [StackBridge.newSyn_eq] at h
  obtain ⟨hfront, hknown⟩ := frontTuple_eq_some h
  exact ⟨hfront, by simpa using hknown⟩

theorem newDatagram_eq_some {tuple : PacketUdpTuple} (h : s.newDatagram = some tuple) :
    FrontUdp s tuple ∧ KeyedList.get s.packetUdpGroups tuple.destination = none := by
  rw [StackBridge.newDatagram_eq] at h
  obtain ⟨hfront, hknown⟩ := frontTuple_eq_some h
  exact ⟨hfront, by simpa using hknown⟩

theorem PreparedTcp.idle {result : Except StackError Unit}
    (h : ∀ error, result = .error error →
      ∃ tuple, FrontSyn s tuple ∧ KeyedList.get s.packetTcpByTuple tuple = none) :
    PreparedTcp s s result :=
  ⟨rfl, QuietUdp.refl s, .inl (QuietTcp.refl s), fun e he => ⟨QuietTcp.refl s, h e he⟩⟩

theorem PreparedUdp.idle {result : Except StackError Unit}
    (h : ∀ error, result = .error error →
      ∃ tuple, FrontUdp s tuple ∧ KeyedList.get s.packetUdpGroups tuple.destination = none) :
    PreparedUdp s s result :=
  ⟨rfl, QuietTcp.refl s, .inl (QuietUdp.refl s), fun e he => ⟨QuietUdp.refl s, h e he⟩⟩

theorem PreparedTcp.of_reserved {bytes : ℕ} {result : Except StackError Unit}
    (h : PreparedTcp { s with managedBytes := bytes } s' result) : PreparedTcp s s' result where
  device := h.device
  udp := ⟨h.udp.groups, h.udp.flows, h.udp.byTuple, h.udp.pending, h.udp.sockets⟩
  tcp := by
    rcases h.tcp with hq | ⟨handle, flow, ho⟩
    · exact .inl ⟨hq.flows, hq.byTuple, hq.pending, hq.sockets⟩
    · exact .inr ⟨handle, flow, ho.front, ho.entries, ho.pending, ho.unqueued, ho.listening,
        ho.sockets⟩
  refused error he := by
    obtain ⟨hq, hf⟩ := h.refused error he
    exact ⟨⟨hq.flows, hq.byTuple, hq.pending, hq.sockets⟩, hf⟩

theorem PreparedUdp.of_reserved {bytes : ℕ} {result : Except StackError Unit}
    (h : PreparedUdp { s with managedBytes := bytes } s' result) : PreparedUdp s s' result where
  device := h.device
  tcp := ⟨h.tcp.flows, h.tcp.byTuple, h.tcp.pending, h.tcp.sockets⟩
  udp := by
    rcases h.udp with hq | ⟨tuple, group, ho⟩
    · exact .inl ⟨hq.groups, hq.flows, hq.byTuple, hq.pending, hq.sockets⟩
    · exact .inr ⟨tuple, group, ho.front, ho.groups, ho.flows, ho.sockets⟩
  refused error he := by
    obtain ⟨hq, hf⟩ := h.refused error he
    exact ⟨⟨hq.groups, hq.flows, hq.byTuple, hq.pending, hq.sockets⟩, hf⟩

namespace Books

theorem discardTcp {bytes i : ℕ} (h : Books base ⟨bytes, [], [i], []⟩ s) :
    ∃ set, s.removeSocket i = some { s with sockets := set } ∧
      StackBridge.release { s with sockets := set } bytes =
        some { s with sockets := set, managedBytes := s.managedBytes - bytes } ∧
      Books base {} { s with sockets := set, managedBytes := s.managedBytes - bytes } ∧
      Untouched s set := by
  obtain ⟨set, e1, h1, u1⟩ := h.removeTcp (List.Perm.refl _)
  obtain ⟨e2, h2⟩ := h1.release bytes 0 rfl
  exact ⟨set, e1, e2, h2, u1⟩

theorem discardUdp {bytes i : ℕ} (h : Books base ⟨bytes, [], [], [i]⟩ s) :
    ∃ set, s.removeSocket i = some { s with sockets := set } ∧
      StackBridge.release { s with sockets := set } bytes =
        some { s with sockets := set, managedBytes := s.managedBytes - bytes } ∧
      Books base {} { s with sockets := set, managedBytes := s.managedBytes - bytes } ∧
      Untouched s set := by
  obtain ⟨set, e1, h1, u1⟩ := h.removeUdp (List.Perm.refl _)
  obtain ⟨e2, h2⟩ := h1.release bytes 0 rfl
  exact ⟨set, e1, e2, h2, u1⟩

theorem openPacketTcp {managedBytes : ℕ} (h : Books base ⟨managedBytes, [], [], []⟩ s)
    (env : Smoltcp W T U) {tuple : PacketTcpTuple} (hfront : FrontSyn s tuple)
    (habsent : KeyedList.get s.packetTcpByTuple tuple = none) :
    ∃ s' result, s.openPacketTcp env tuple managedBytes = some (s', result) ∧ Books base {} s' ∧
      PreparedTcp s s' result := by
  have turnedDown : ∀ {set : SocketSet T U} (error : StackError) (bytes : ℕ), Untouched s set →
      PreparedTcp s { s with sockets := set, managedBytes := bytes } (.error error) := by
    intro set error bytes hu
    have hq := Quiet.of_sockets hu s.interface s.ports bytes s.tcpFlows s.udpFlows
    exact ⟨rfl, hq.udp, .inl hq.tcp, fun _ _ => ⟨hq.tcp, tuple, hfront, habsent⟩⟩
  obtain ⟨h1, hat⟩ := h.addTcp ⟨.closed, env.newTcp s.config⟩
  have u1 := h.untouched_add (.tcp ⟨.closed, env.newTcp s.config⟩)
  unfold StackBridge.openPacketTcp
  generalize s.sockets.add (.tcp ⟨.closed, env.newTcp s.config⟩) = added at h1 hat u1 ⊢
  obtain ⟨set, socket⟩ := added
  simp only [hat, Option.bind_eq_bind, Option.bind_some, Option.pure_def]
  cases env.listen (env.newTcp s.config) tuple.destination.listen with
  | error message =>
    obtain ⟨cleared, e2, e3, h2, u2⟩ := h1.discardTcp
    simp only [e2, e3, Option.bind_some]
    exact ⟨_, _, rfl, h2, turnedDown _ _ (u1.trans u2)⟩
  | ok rest =>
    have h2 := h1.setTcp (List.mem_append_right _ List.mem_cons_self) ⟨.listen, rest⟩
    have u2 := h1.untouched_setTcp (.inr List.mem_cons_self) ⟨.listen, rest⟩
    rcases HandleTable.insert_total h.tcpIndex.sound ⟨socket, tuple,
      packetMetadata tuple.destination, managedBytes, false⟩ with
      hi | ⟨flows, handle, hi, hsound, hperm, -⟩
    · obtain ⟨cleared, e3, e4, h3, u3⟩ := h2.discardTcp
      simp only [hi, e3, e4, Option.bind_some]
      exact ⟨_, _, rfl, h3, turnedDown _ _ ((u1.trans u2).trans u3)⟩
    · have hx : Books base (PacketTcpFlow.extra ⟨socket, tuple, packetMetadata tuple.destination,
        managedBytes, false⟩) _ := h2
      have h3 := hx.putPacketTcp hsound hperm habsent
      have hu : Untouched s _ := u1.trans u2
      simp only [hi, Option.bind_some]
      refine ⟨_, _, rfl, h3, rfl, ⟨rfl, rfl, rfl, rfl, fun i hi => hu i (List.mem_append_right _ hi)⟩,
        .inr ⟨handle, _, hfront, hperm, rfl, rfl, ⟨rest, ?_⟩,
          fun i hi => hu i (List.mem_append_left _ hi)⟩, fun _ h => nomatch h⟩
      exact tcpAt_setTcp (h1.sockets.tcp socket (List.mem_append_right _ List.mem_cons_self)) _

theorem prepareTuple (h : Books base {} s) {τ : Type} {rx tx : ℕ}
    {opened : StackBridge W T U → τ → ℕ → Option (StackBridge W T U × Except StackError Unit)} {fresh : Option τ}
    {P : StackBridge W T U → Except StackError Unit → Prop}
    (hidle : ∀ result, (∀ error, result = .error error → fresh.isSome) → P s result)
    (hopened : ∀ tuple bytes, fresh = some tuple →
      Books base ⟨bytes, [], [], []⟩ { s with managedBytes := s.managedBytes + bytes } →
      ∃ s' result, opened { s with managedBytes := s.managedBytes + bytes } tuple bytes = some (s', result) ∧
        Books base {} s' ∧ P s' result) :
    ∃ s' result, s.prepareTuple rx tx opened fresh = some (s', result) ∧ Books base {} s' ∧ P s' result := by
  unfold StackBridge.prepareTuple
  cases fresh with
  | none => exact ⟨s, _, rfl, h, hidle _ fun _ he => by cases he⟩
  | some tuple =>
    cases checkedAdd rx tx with
    | none => exact ⟨s, _, rfl, h, hidle _ fun _ _ => rfl⟩
    | some managedBytes =>
      rcases h.reserve managedBytes with he | ⟨he, h1⟩
      · simp only [he]
        exact ⟨s, _, rfl, h, hidle _ fun _ _ => rfl⟩
      · simp only [he]
        exact hopened tuple managedBytes rfl
          (h1.perm (y := ⟨managedBytes, [], [], []⟩) (Nat.zero_add _) (List.Perm.refl _) (List.Perm.refl _)
            (List.Perm.refl _))

theorem preparePacketTcp (h : Books base {} s) (env : Smoltcp W T U) :
    ∃ s' result, s.preparePacketTcp env = some (s', result) ∧ Books base {} s' ∧
      PreparedTcp s s' result := by
  rw [StackBridge.preparePacketTcp_eq]
  refine h.prepareTuple (fun result hsome => .idle fun error he => ?_) fun tuple bytes hnew h1 => ?_
  · obtain ⟨tuple, hnew⟩ := Option.isSome_iff_exists.mp (hsome error he)
    exact ⟨tuple, newSyn_eq_some hnew⟩
  · obtain ⟨hfront, habsent⟩ := newSyn_eq_some hnew
    obtain ⟨s', result, ho, h2, hp⟩ := h1.openPacketTcp env hfront habsent
    exact ⟨s', result, ho, h2, hp.of_reserved⟩

theorem openPacketUdp {managedBytes : ℕ} (h : Books base ⟨managedBytes, [], [], []⟩ s)
    (env : Smoltcp W T U) {tuple : PacketUdpTuple} (hfront : FrontUdp s tuple)
    (habsent : KeyedList.get s.packetUdpGroups tuple.destination = none) :
    ∃ s' result, s.openPacketUdp env tuple managedBytes = some (s', result) ∧ Books base {} s' ∧
      PreparedUdp s s' result := by
  obtain ⟨h1, hat⟩ := h.addUdp ⟨[], env.newUdp s.config⟩
  have u1 := h.untouched_add (.udp ⟨[], env.newUdp s.config⟩)
  unfold StackBridge.openPacketUdp
  generalize s.sockets.add (.udp ⟨[], env.newUdp s.config⟩) = added at h1 hat u1 ⊢
  obtain ⟨set, socket⟩ := added
  simp only [hat, Option.bind_eq_bind, Option.bind_some, Option.pure_def]
  cases env.bind (env.newUdp s.config) tuple.destination.listen with
  | none =>
    obtain ⟨cleared, e2, e3, h2, u2⟩ := h1.discardUdp
    have hq := Quiet.of_sockets (s := s) (u1.trans u2) s.interface s.ports
      (s.managedBytes - managedBytes) s.tcpFlows s.udpFlows
    simp only [e2, e3, Option.bind_some]
    exact ⟨_, _, rfl, h2, rfl, hq.tcp, .inl hq.udp, fun _ _ => ⟨hq.udp, tuple, hfront, habsent⟩⟩
  | some rest =>
    have h2 := h1.setUdp (List.mem_append_right _ List.mem_cons_self) ⟨[], rest⟩
    have u2 := h1.untouched_setUdp (.inr List.mem_cons_self) ⟨[], rest⟩
    have hu : Untouched s _ := u1.trans u2
    refine ⟨_, _, rfl, Books.putGroup h2 habsent, rfl,
      ⟨rfl, rfl, rfl, fun i hi => hu i (List.mem_append_left _ hi)⟩,
      .inr ⟨tuple, ⟨socket, managedBytes, 0⟩, hfront, ?_, rfl,
        fun i hi => hu i (List.mem_append_right _ hi)⟩, fun _ h => nomatch h⟩
    exact KeyedList.insert_absent (KeyedList.get_eq_none.mp habsent) _

theorem preparePacketUdp (h : Books base {} s) (env : Smoltcp W T U) :
    ∃ s' result, s.preparePacketUdp env = some (s', result) ∧ Books base {} s' ∧
      PreparedUdp s s' result := by
  rw [StackBridge.preparePacketUdp_eq]
  refine h.prepareTuple (fun result hsome => .idle fun error he => ?_) fun tuple bytes hnew h1 => ?_
  · obtain ⟨tuple, hnew⟩ := Option.isSome_iff_exists.mp (hsome error he)
    exact ⟨tuple, newDatagram_eq_some hnew⟩
  · obtain ⟨hfront, habsent⟩ := newDatagram_eq_some hnew
    obtain ⟨s', result, ho, h2, hp⟩ := h1.openPacketUdp env hfront habsent
    exact ⟨s', result, ho, h2, hp.of_reserved⟩

omit base in
theorem packetTcp_mem {handle : Handle} {flow : PacketTcpFlow}
    (hg : s.packetTcpFlows.get handle = some flow) :
    flow.socket ∈ gathered PacketTcpFlow.sockets s.packetTcpFlows :=
  mem_gathered.mpr ⟨handle, flow, hg, List.mem_singleton.mpr rfl⟩

theorem queueEstablished (h : Books base {} s) (handle : Handle) :
    ∃ s', s.queueEstablished handle = some s' ∧ Books base {} s' ∧ Promoted s handle s' := by
  unfold StackBridge.queueEstablished
  cases hg : s.packetTcpFlows.get handle with
  | none => exact ⟨s, rfl, h, .skipped fun flow hf => nomatch hg.symm.trans hf⟩
  | some flow =>
    cases hq : flow.queued with
    | true =>
      refine ⟨s, by simp [hq], h, .skipped fun f hf hfq => ?_⟩
      cases hg.symm.trans hf
      rw [hq] at hfq
      cases hfq
    | false =>
      have hm := packetTcp_mem hg
      obtain ⟨socket, hat⟩ := h.tcpAt (List.mem_append_left [] (List.mem_append_right
        (gathered PairFlow.sockets s.tcpFlows) hm))
      simp only [hq, hat, Bool.false_eq_true, if_false, Option.bind_eq_bind, Option.bind_some,
        Option.pure_def]
      by_cases hest : socket.state = .established
      · simp only [hest, if_true]
        exact ⟨_, rfl, h.markQueued hg hq, .queued hg hq hat hest⟩
      · simp only [hest, if_false]
        refine ⟨s, rfl, h, .skipped fun f hf _ sock hsock => ?_⟩
        cases hg.symm.trans hf
        cases hat.symm.trans hsock
        exact hest

theorem closePacketTcp (h : Books base {} s) (handle : Handle) :
    ∃ s' result, s.closePacketTcp handle = some (s', result) ∧ Books base {} s' ∧
      s'.device = s.device ∧ QuietUdp s s' ∧
      (s' = s ∧ s.packetTcpFlows.get handle = none ∨ ∃ flow, ClosedTcp s s' handle flow) := by
  unfold StackBridge.closePacketTcp
  rcases HandleTable.remove_spec h.tcpIndex.sound handle with
    ⟨hg, hr⟩ | ⟨flows, flow, -, hr, hs, hp, -⟩
  · rw [hr]
    exact ⟨s, _, rfl, h, rfl, QuietUdp.refl s, .inl ⟨rfl, hg⟩⟩
  · obtain ⟨set, e1, e2, h1, u1⟩ := (h.takePacketTcp hs hp).discardTcp
    simp only [hr, e1, e2, Option.bind_eq_bind, Option.bind_some, Option.pure_def]
    exact ⟨_, _, rfl, h1, rfl, ⟨rfl, rfl, rfl, rfl, fun i hi => u1 i (List.mem_append_right _ hi)⟩,
      .inr ⟨flow, hp, rfl, fun i hi => u1 i (List.mem_append_left _ hi)⟩⟩

theorem group_udpAt (h : Books base {} s) {destination : IpEndpoint} {group : PacketUdpGroup}
    (hg : (destination, group) ∈ s.packetUdpGroups) :
    group.socket ∈ s.heldUdp ++ [] ∧ ∃ socket, s.sockets.udpAt group.socket = some socket := by
  have hm : group.socket ∈ s.heldUdp ++ [] :=
    List.mem_append_left _ (List.mem_append_right _ (List.mem_map.mpr ⟨_, hg, rfl⟩))
  exact ⟨hm, h.udpAt hm⟩

theorem slot_setUdp_tcp {x : Extra} (h : Books base x s) {i j : ℕ} (hi : i ∈ s.heldUdp ++ x.udp)
    (hj : j ∈ s.heldTcp) (socket : UdpSocket U) :
    SlotTable.slot (s.sockets.setUdp i socket) j = SlotTable.slot s.sockets j := by
  obtain ⟨old, hold⟩ := udpAt_isSome.mp (h.sockets.udp i hi)
  rw [SocketSet.setUdp, slot_set _ _ _ _ (lt_of_slot hold), if_neg]
  rintro rfl
  exact (List.nodup_append.mp h.sockets.nodup).2.2 i (List.mem_append_left _ hj) i hi rfl

theorem slot_setTcp_udp {x : Extra} (h : Books base x s) {i j : ℕ} (hi : i ∈ s.heldTcp ++ x.tcp)
    (hj : j ∈ s.heldUdp) (socket : TcpSocket T) :
    SlotTable.slot (s.sockets.setTcp i socket) j = SlotTable.slot s.sockets j := by
  obtain ⟨old, hold⟩ := tcpAt_isSome.mp (h.sockets.tcp i hi)
  rw [SocketSet.setTcp, slot_set _ _ _ _ (lt_of_slot hold), if_neg]
  rintro rfl
  exact (List.nodup_append.mp h.sockets.nodup).2.2 i hi i (List.mem_append_left _ hj) rfl

theorem drainOne (h : Books base {} s) (destination : IpEndpoint) :
    ∃ s' more, s.drainOne destination = some (s', more) ∧ Books base {} s' ∧
      s'.device = s.device ∧ QuietTcp s s' ∧ Drained s destination s' more := by
  unfold StackBridge.drainOne
  cases hgroup : KeyedList.get s.packetUdpGroups destination with
  | none => exact ⟨s, false, rfl, h, rfl, QuietTcp.refl s, .idle⟩
  | some group =>
    have hlisted := KeyedList.mem_of_get hgroup
    obtain ⟨hheld, socket, hat⟩ := h.group_udpAt hlisted
    simp only [hat, Option.bind_eq_bind, Option.bind_some, Option.pure_def]
    cases hrx : socket.rx with
    | nil => exact ⟨s, false, rfl, h, rfl, QuietTcp.refl s, .idle⟩
    | cons datagram rx =>
      obtain ⟨payload, source⟩ := datagram
      have hquiet : ∀ i ∈ gathered PacketTcpFlow.sockets s.packetTcpFlows,
          SlotTable.slot (s.sockets.setUdp group.socket ⟨rx, socket.rest⟩) i =
            SlotTable.slot s.sockets i := fun i hi =>
        h.slot_setUdp_tcp hheld (List.mem_append_right _ hi) _
      simp only []
      split
      · exact ⟨s, false, rfl, h, rfl, QuietTcp.refl s, .idle⟩
      next hfree =>
      rcases h.reserve payload.length with he | ⟨he, h1⟩
      · simp only [he]
        exact ⟨s, false, rfl, h, rfl, QuietTcp.refl s, .idle⟩
      simp only [he]
      have h2 : Books base ⟨payload.length, [], [], []⟩ _ :=
        (h1.setUdp hheld ⟨rx, socket.rest⟩).perm (Nat.zero_add _) (List.Perm.refl _)
          (List.Perm.refl _) (List.Perm.refl _)
      cases hknown : KeyedList.get s.packetUdpByTuple ⟨source, destination⟩ with
      | some handle =>
        obtain ⟨flow, hflow, htuple⟩ := h.udpIndex.get_index hknown
        have hempty : flow.incoming = none := by simpa [hknown, hflow] using hfree
        have hbusy : 0 < group.flows := by
          rw [h.grouped.counted destination group hlisted, List.countP_pos_iff]
          exact ⟨(handle, flow), HandleTable.mem_entries.mpr hflow, by simp [destined, htuple]⟩
        simp only [hflow]
        exact ⟨_, true, rfl, h2.fill hflow hempty, rfl, ⟨rfl, rfl, rfl, hquiet⟩,
          .filled ⟨hlisted, hat, hrx, rfl⟩ rfl hbusy⟩
      | none =>
        rcases HandleTable.insert_total h.udpIndex.sound ⟨⟨source, destination⟩,
          packetMetadata destination, some payload⟩ with hi | ⟨flows, handle, hi, hsound, hperm, -⟩
        · obtain ⟨hr, h3⟩ := h2.release payload.length 0 rfl
          simp only [hi, hr, Option.bind_some]
          exact ⟨_, false, rfl, h3, rfl, ⟨rfl, rfl, rfl, hquiet⟩,
            .refused ⟨hlisted, hat, hrx, rfl⟩ rfl ⟨_, he⟩ (HandleTable.full_of_insert hi)⟩
        · simp only [hi, Option.bind_some]
          have hx : Books base ⟨PacketUdpFlow.buffered ⟨⟨source, destination⟩,
            packetMetadata destination, some payload⟩, [], [], []⟩ _ := h2
          exact ⟨_, true, rfl, hx.join hsound hperm hknown hlisted, rfl, ⟨rfl, rfl, rfl, hquiet⟩,
            .joined ⟨hlisted, hat, hrx, rfl⟩ rfl⟩

theorem closePacketUdp (h : Books base {} s) (handle : Handle) :
    ∃ s' result, s.closePacketUdp handle = some (s', result) ∧ Books base {} s' ∧
      s'.device = s.device ∧ QuietTcp s s' ∧ LeftGroup s s' := by
  unfold StackBridge.closePacketUdp
  rcases HandleTable.remove_spec h.udpIndex.sound handle with
    ⟨-, hr⟩ | ⟨flows, flow, hget, hr, hs, hp, -⟩
  · rw [hr]
    exact ⟨s, _, rfl, h, rfl, QuietTcp.refl s, .unchanged rfl rfl⟩
  obtain ⟨group, hlisted⟩ := h.grouped.grouped (handle, flow) (HandleTable.mem_entries.mpr hget)
  have hgroup := (KeyedList.get_eq_some h.grouped.distinct).mpr hlisted
  have hbytes : flow.buffered ≤ s.managedBytes := by
    have hm := h.money
    have ht := total_insert PacketUdpFlow.buffered hp
    simp only [StackBridge.heldBytes] at hm
    omega
  -- the datagram a flow still holds is given back before its group is looked at
  have hfirst : StackBridge.releaseIncoming { s with packetUdpFlows := flows } flow.incoming =
      some { s with packetUdpFlows := flows, managedBytes := s.managedBytes - flow.buffered } := by
    cases hin : flow.incoming with
    | none => rw [PacketUdpFlow.buffered_none hin]; rfl
    | some packet =>
      rw [PacketUdpFlow.buffered_some hin] at hbytes ⊢
      simp only [StackBridge.releaseIncoming, StackBridge.release, hbytes, if_true]
  simp only [hr, hfirst, hgroup, Option.bind_eq_bind, Option.bind_some, Option.pure_def]
  split
  · next hlast =>
    have h1 := h.leaveLast hs hp hlisted hlast
    obtain ⟨e2, h2⟩ := h1.release flow.buffered group.managedBytes rfl
    obtain ⟨set, e3, e4, h3, u3⟩ := h2.discardUdp
    simp only [e3, e4, Option.bind_some]
    exact ⟨_, _, rfl, h3, rfl, ⟨rfl, rfl, rfl, fun i hi => u3 i (List.mem_append_left _ hi)⟩,
      .removed rfl fun i hi => u3 i (List.mem_append_right _ hi)⟩
  · next hmore =>
    obtain ⟨-, h2⟩ := (h.leave hs hp hlisted).release flow.buffered 0 rfl
    exact ⟨_, _, rfl, h2, rfl, ⟨rfl, rfl, rfl, fun _ _ => rfl⟩, .fewer hlisted hmore rfl rfl⟩

theorem dropFront (h : Books base {} s) :
    ∃ s', s.dropFront = some s' ∧ Books base {} s' ∧ QuietTcp s s' ∧ QuietUdp s s' ∧
      s'.device.ingress = s.device.ingress.tail := by
  unfold StackBridge.dropFront
  rcases BoundedDevice.popIngress_balanced h.device with
    ⟨hin, hp⟩ | ⟨packet, rest, device, hin, hp, hrest, hd, -, -⟩
  · simp only [hp, Option.bind_eq_bind, Option.bind_some, Option.pure_def]
    exact ⟨s, rfl, h, QuietTcp.refl s, QuietUdp.refl s, by rw [hin]; rfl⟩
  · simp only [hp, Option.bind_eq_bind, Option.bind_some, Option.pure_def]
    refine ⟨_, rfl, { h with device := hd }, ⟨rfl, rfl, rfl, fun _ _ => rfl⟩,
      ⟨rfl, rfl, rfl, rfl, fun _ _ => rfl⟩, ?_⟩
    rw [hin]
    exact hrest

theorem pollIngressSingle (h : Books base {} s) (env : Smoltcp W T U) :
    ∃ s' more, s.pollIngressSingle env = some (s', more) ∧ Books base {} s' ∧
      (s' = s ∨ ∃ packet rest, s.device.ingress = packet :: rest ∧ s.device.stopped = false ∧
        Reacted s s' (ingressReaction env s packet) rest) := by
  unfold StackBridge.pollIngressSingle BoundedDevice.receive
  cases hstop : s.device.stopped with
  | true => exact ⟨s, false, rfl, h, .inl rfl⟩
  | false =>
    rcases BoundedDevice.popIngress_balanced h.device with
      ⟨hin, hp⟩ | ⟨packet, rest, device, hin, hp, hrest, hd, -, -⟩
    · simp only [Bool.false_eq_true, if_false, hp, Option.bind_eq_bind, Option.bind_some,
        Option.pure_def]
      exact ⟨s, false, rfl, h, .inl rfl⟩
    · simp only [Bool.false_eq_true, if_false, hp, Option.bind_eq_bind, Option.bind_some,
        Option.pure_def]
      refine ⟨_, true, rfl, ?_, .inr ⟨packet, rest, hin, trivial, rfl, rfl, rfl, rfl, ?_⟩⟩
      · refine { h.apply (ingressReaction env s packet) with device := ?_ }
        cases (env.ingress s.interface s.sockets packet.bytes).2 with
        | none => exact hd
        | some reply => exact BoundedDevice.consume_balanced hd reply
      · rw [← hrest]
        cases (env.ingress s.interface s.sockets packet.bytes).2 with
        | none => exact ⟨[], (List.append_nil _).symm, fun _ h => nomatch h⟩
        | some reply => exact BoundedDevice.consume_ingress device reply

theorem pollEgress (h : Books base {} s) (env : Smoltcp W T U) :
    Books base {} (s.pollEgress env) ∧
      Reacted s (s.pollEgress env) (egressReaction env s) s.device.ingress := by
  unfold StackBridge.pollEgress
  constructor
  · refine { h.apply (egressReaction env s) with device := ?_ }
    change (if s.device.stopped then _ else _ : BoundedDevice).Balanced
    split
    · exact h.device
    · exact BoundedDevice.foldl_consume_balanced h.device _
  · refine ⟨rfl, rfl, rfl, rfl, ?_⟩
    change ∃ back, (if s.device.stopped then _ else _ : BoundedDevice).ingress = _ ∧ _
    split
    · exact ⟨[], (List.append_nil _).symm, fun _ h => nomatch h⟩
    · exact BoundedDevice.foldl_consume_ingress _ _

end Books

end Snolc.Stack
