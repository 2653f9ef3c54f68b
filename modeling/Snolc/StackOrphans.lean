import Snolc.StackAccounts
import Mathlib.Data.List.Nodup

set_option autoImplicit false

namespace Snolc.Stack
open CheckedSlice GuardedRuns Handles

variable {W T U : Type} {base : ℕ} {s s' : StackBridge W T U}

/-- A group of no flow and no datagram has its packet in front. -/
def NoOrphan (s : StackBridge W T U) : Prop :=
  ∀ destination group, (destination, group) ∈ s.packetUdpGroups → group.flows = 0 →
    s.waiting destination = [] → ∃ tuple, FrontUdp s tuple ∧ tuple.destination = destination

/-- smoltcp gives the packet in front, where its group has nothing else, to the socket of the
group. -/
def Delivered (env : Smoltcp W T U) (s : StackBridge W T U) : Prop :=
  ∀ packet ∈ s.device.ingress.head?, packet.external = true → ∀ tuple ∈ udpTuple packet.bytes,
    ∀ group ∈ KeyedList.get s.packetUdpGroups tuple.destination, group.flows = 0 →
    ∀ socket ∈ s.sockets.udpAt group.socket, socket.rx = [] →
      ((ingressReaction env s packet).udp group.socket socket).rx ≠ []

/-- There is room for a flow when the only datagram of a group without flows is taken. -/
def FlowRoom (s : StackBridge W T U) (destination : IpEndpoint) : Prop :=
  ∀ group ∈ KeyedList.get s.packetUdpGroups destination, group.flows = 0 →
    ∀ datagram ∈ (s.waiting destination).head?, (s.waiting destination).length = 1 →
      (s.reserve datagram.1.length).isOk = true → ¬ s.packetUdpFlows.Full

instance (env : Smoltcp W T U) (s : StackBridge W T U) : Decidable (Delivered env s) :=
  inferInstanceAs (Decidable (∀ packet ∈ s.device.ingress.head?, _))

instance (s : StackBridge W T U) (destination : IpEndpoint) : Decidable (FlowRoom s destination) :=
  inferInstanceAs (Decidable (∀ group ∈ KeyedList.get s.packetUdpGroups destination, _))

def losesNothing (env : Smoltcp W T U) : TickGuard W T U := ⟨Delivered env, FlowRoom, fun _ => True⟩

structure KeepsReceived (env : Smoltcp W T U) : Prop where
  ingress : ∀ w set packet i socket, socket.rx <+: ((env.ingress w set packet).1.udp i socket).rx
  egress : ∀ w stopped set i socket, socket.rx <+: ((env.egress w stopped set).1.udp i socket).rx

theorem waiting_eq {destination : IpEndpoint} {group : PacketUdpGroup} {socket : UdpSocket U}
    (h : Books base {} s) (hg : (destination, group) ∈ s.packetUdpGroups)
    (hs : s.sockets.udpAt group.socket = some socket) : s.waiting destination = socket.rx := by
  unfold StackBridge.waiting
  simp only [(KeyedList.get_eq_some h.grouped.distinct).mpr hg, hs]

theorem QuietUdp.waiting (h : QuietUdp s s') (destination : IpEndpoint) :
    s'.waiting destination = s.waiting destination := by
  unfold StackBridge.waiting
  rw [h.groups]
  cases hg : KeyedList.get s.packetUdpGroups destination with
  | none => rfl
  | some group =>
    have hm : group.socket ∈ groupSockets s.packetUdpGroups :=
      List.mem_map.mpr ⟨_, KeyedList.mem_of_get hg, rfl⟩
    simp only [SocketSet.udpAt, h.sockets group.socket hm]

theorem FrontUdp.of_ingress {tuple : PacketUdpTuple} {more : List QueuedPacket}
    (h : FrontUdp s tuple) (hin : s'.device.ingress = s.device.ingress ++ more) :
    FrontUdp s' tuple := by
  obtain ⟨packet, rest, hi, hext, ht⟩ := h
  exact ⟨packet, rest ++ more, by rw [hin, hi, List.cons_append], hext, ht⟩

theorem FrontUdp.of_device {tuple : PacketUdpTuple} (h : FrontUdp s tuple)
    (hdev : s'.device = s.device) : FrontUdp s' tuple := by
  obtain ⟨packet, rest, hi, hext, ht⟩ := h
  exact ⟨packet, rest, hdev ▸ hi, hext, ht⟩

theorem FrontUdp.unique {tuple tuple' : PacketUdpTuple} (h : FrontUdp s tuple)
    (h' : FrontUdp s tuple') : tuple = tuple' := by
  obtain ⟨packet, rest, hi, -, ht⟩ := h
  obtain ⟨packet', rest', hi', -, ht'⟩ := h'
  obtain ⟨rfl, -⟩ := List.cons.inj (hi.symm.trans hi')
  exact Option.some.inj (ht.symm.trans ht')

theorem not_frontSyn_frontUdp {tuple : PacketTcpTuple} {tuple' : PacketUdpTuple}
    (h : FrontSyn s tuple) (h' : FrontUdp s tuple') : False := by
  obtain ⟨packet, rest, hi, -, ht⟩ := h
  obtain ⟨packet', rest', hi', -, ht'⟩ := h'
  obtain ⟨rfl, -⟩ := List.cons.inj (hi.symm.trans hi')
  rw [udpTuple_of_tcpSynTuple ht] at ht'
  cases ht'

namespace NoOrphan

theorem quiet (h : NoOrphan s) (hq : QuietUdp s s') {more : List QueuedPacket}
    (hin : s'.device.ingress = s.device.ingress ++ more) : NoOrphan s' := by
  intro destination group hg hf hw
  rw [hq.groups] at hg
  rw [hq.waiting] at hw
  obtain ⟨tuple, hfront, hd⟩ := h destination group hg hf hw
  exact ⟨tuple, hfront.of_ingress hin, hd⟩

theorem same (h : NoOrphan s) (hq : QuietUdp s s') (hdev : s'.device = s.device) : NoOrphan s' := by
  intro destination group hg hf hw
  rw [hq.groups] at hg
  rw [hq.waiting] at hw
  obtain ⟨tuple, hfront, hd⟩ := h destination group hg hf hw
  exact ⟨tuple, hfront.of_device hdev, hd⟩

theorem carry (h : NoOrphan s) (hb : Books base {} s) (hb' : Books base {} s')
    (hdev : s'.device = s.device) {d : IpEndpoint} {g : PacketUdpGroup}
    (hg : (d, g) ∈ s.packetUdpGroups) (hg' : (d, g) ∈ s'.packetUdpGroups)
    (hrx : ∀ own, s.sockets.udpAt g.socket = some own →
      ∃ own', s'.sockets.udpAt g.socket = some own' ∧ own'.rx = own.rx)
    (hf : g.flows = 0) (hw : s'.waiting d = []) :
    ∃ tuple, FrontUdp s' tuple ∧ tuple.destination = d := by
  obtain ⟨own, hown⟩ := (hb.group_udpAt hg).2
  obtain ⟨own', hown', hsame⟩ := hrx own hown
  rw [waiting_eq hb' hg' hown', hsame, ← waiting_eq hb hg hown] at hw
  obtain ⟨tuple, hfront, hd⟩ := h d g hg hf hw
  exact ⟨tuple, hfront.of_device hdev, hd⟩

theorem carry_slot (h : NoOrphan s) (hb : Books base {} s) (hb' : Books base {} s')
    (hdev : s'.device = s.device) {d : IpEndpoint} {g : PacketUdpGroup}
    (hg : (d, g) ∈ s.packetUdpGroups) (hg' : (d, g) ∈ s'.packetUdpGroups)
    (hslot : SlotTable.slot s'.sockets g.socket = SlotTable.slot s.sockets g.socket)
    (hf : g.flows = 0) (hw : s'.waiting d = []) :
    ∃ tuple, FrontUdp s' tuple ∧ tuple.destination = d := by
  refine h.carry hb hb' hdev hg hg' (fun own hown => ⟨own, ?_, rfl⟩) hf hw
  rw [← hown]
  simp only [SocketSet.udpAt, hslot]

theorem drop {s₁ : StackBridge W T U} (h : ∀ destination group,
      (destination, group) ∈ s.packetUdpGroups → group.flows = 0 → s.waiting destination ≠ [])
    (hq : QuietUdp s s₁) (hd : Dropped s₁ s') : NoOrphan s' := by
  intro destination group hg hf hw
  rw [hd.udp.groups, hq.groups] at hg
  rw [hd.udp.waiting, hq.waiting] at hw
  exact absurd hw (h destination group hg hf)

theorem opened {tuple : PacketUdpTuple} {group : PacketUdpGroup} (h : NoOrphan s)
    (hb : Books base {} s) (hb' : Books base {} s') (ho : OpenedUdp s s' tuple group)
    (hdev : s'.device = s.device) : NoOrphan s' := by
  intro destination g hg hf hw
  rcases List.mem_cons.mp (ho.groups ▸ hg) with heq | hg₀
  · exact ⟨tuple, ho.front.of_device hdev, (Prod.mk.inj heq).1.symm⟩
  · have hslot := ho.sockets g.socket (List.mem_map.mpr ⟨_, hg₀, rfl⟩)
    exact h.carry_slot hb hb' hdev hg₀ hg hslot hf hw

theorem prepared (h : NoOrphan s) (hb : Books base {} s) (hb' : Books base {} s')
    (hp : PreparedUdp s s' (.ok ())) : NoOrphan s' := by
  rcases hp.udp with hq | ⟨tuple, group, ho⟩
  · exact h.same hq hp.device
  · exact h.opened hb hb' ho hp.device

theorem dropTcp {s₁ : StackBridge W T U} {e : Engine.StackError} (h : NoOrphan s)
    (hp : PreparedTcp s s₁ (.error e)) (hd : Dropped s₁ s') : NoOrphan s' := by
  obtain ⟨-, tuple, hsyn, -⟩ := hp.refused e rfl
  refine drop (fun destination group hg hf hw => ?_) hp.udp hd
  obtain ⟨tuple', hfront, -⟩ := h destination group hg hf hw
  exact not_frontSyn_frontUdp hsyn hfront

theorem dropUdp {s₁ : StackBridge W T U} {e : Engine.StackError} (h : NoOrphan s)
    (hp : PreparedUdp s s₁ (.error e)) (hd : Dropped s₁ s') : NoOrphan s' := by
  obtain ⟨hq, tuple, hfront, habsent⟩ := hp.refused e rfl
  refine drop (fun destination group hg hf hw => ?_) hq hd
  obtain ⟨tuple', hfront', rfl⟩ := h destination group hg hf hw
  rw [hfront.unique hfront'] at habsent
  exact KeyedList.get_eq_none.mp habsent group hg

theorem waiting_reacted {reaction : Reaction W T U} {queue : List QueuedPacket}
    {destination : IpEndpoint} {group : PacketUdpGroup} (hb : Books base {} s)
    (hb' : Books base {} s') (hr : Reacted s s' reaction queue)
    (hg : (destination, group) ∈ s.packetUdpGroups) :
    ∃ socket, s.sockets.udpAt group.socket = some socket ∧ s.waiting destination = socket.rx ∧
      s'.waiting destination = (reaction.udp group.socket socket).rx := by
  obtain ⟨socket, hs⟩ := (hb.group_udpAt hg).2
  have hs' : s'.sockets.udpAt group.socket = some (reaction.udp group.socket socket) := by
    rw [hr.sockets]
    exact udpAt_apply reaction hs
  have hg' : (destination, group) ∈ s'.packetUdpGroups := by rw [hr.packetUdpGroups]; exact hg
  exact ⟨socket, hs, waiting_eq hb hg hs, waiting_eq hb' hg' hs'⟩

theorem ingested {env : Smoltcp W T U} (henv : KeepsReceived env) {packet : QueuedPacket}
    {rest : List QueuedPacket} (h : NoOrphan s) (hb : Books base {} s) (hb' : Books base {} s')
    (hg : Delivered env s) (hin : s.device.ingress = packet :: rest)
    (hr : Reacted s s' (ingressReaction env s packet) rest) : NoOrphan s' := by
  intro destination group hlisted hf hw
  rw [hr.packetUdpGroups] at hlisted
  obtain ⟨socket, hs, hbefore, hafter⟩ := waiting_reacted hb hb' hr hlisted
  rw [hafter] at hw
  have hrx : socket.rx = [] := by
    have hkeep := henv.ingress s.interface s.sockets packet.bytes group.socket socket
    exact List.prefix_nil.mp (hw ▸ hkeep)
  -- it had nothing before either, so the packet in front is its own and is delivered
  obtain ⟨tuple, ⟨packet', rest', hin', hext, htuple⟩, rfl⟩ :=
    h destination group hlisted hf (hbefore.trans hrx)
  obtain ⟨rfl, -⟩ := List.cons.inj (hin.symm.trans hin')
  have hgroup := (KeyedList.get_eq_some hb.grouped.distinct).mpr hlisted
  exact absurd hw (hg packet (by rw [hin]; rfl) hext tuple htuple group hgroup hf socket hs hrx)

theorem sent {env : Smoltcp W T U} (henv : KeepsReceived env) (h : NoOrphan s)
    (hb : Books base {} s) (hb' : Books base {} s')
    (hr : Reacted s s' (egressReaction env s) s.device.ingress) : NoOrphan s' := by
  intro destination group hlisted hf hw
  rw [hr.packetUdpGroups] at hlisted
  obtain ⟨socket, hs, hbefore, hafter⟩ := waiting_reacted hb hb' hr hlisted
  rw [hafter] at hw
  have hrx : socket.rx = [] := by
    have hkeep := henv.egress s.interface s.device.stopped s.sockets group.socket socket
    exact List.prefix_nil.mp (hw ▸ hkeep)
  obtain ⟨tuple, hfront, hd⟩ := h destination group hlisted hf (hbefore.trans hrx)
  obtain ⟨back, hback, -⟩ := hr.ingress
  exact ⟨tuple, hfront.of_ingress hback, hd⟩

theorem group_socket_ne (hb : Books base {} s) {d d' : IpEndpoint} {g g' : PacketUdpGroup}
    (hg : (d, g) ∈ s.packetUdpGroups) (hg' : (d', g') ∈ s.packetUdpGroups) (hne : d' ≠ d) :
    g.socket ≠ g'.socket := by
  intro heq
  have hnd : (groupSockets s.packetUdpGroups).Nodup := by
    have := hb.sockets.nodup
    simp only [StackBridge.heldUdp, List.nodup_append] at this
    exact this.2.1.1.2.1
  exact hne (Prod.mk.inj (List.inj_on_of_nodup_map hnd hg hg' heq)).1.symm

theorem elsewhere (h : NoOrphan s) (hb : Books base {} s) (hb' : Books base {} s')
    (hdev : s'.device = s.device) {destination d : IpEndpoint} {group g : PacketUdpGroup}
    {socket : UdpSocket U} (hlisted : (destination, group) ∈ s.packetUdpGroups)
    (hsockets : s'.sockets = s.sockets.setUdp group.socket socket)
    (hne : d ≠ destination) (hg : (d, g) ∈ s.packetUdpGroups) (hg' : (d, g) ∈ s'.packetUdpGroups)
    (hf : g.flows = 0) (hw : s'.waiting d = []) :
    ∃ tuple, FrontUdp s' tuple ∧ tuple.destination = d := by
  obtain ⟨old, hold⟩ := udpAt_isSome.mp (Option.isSome_iff_exists.mpr (hb.group_udpAt hlisted).2)
  refine h.carry_slot hb hb' hdev hg hg' ?_ hf hw
  rw [hsockets, SocketSet.setUdp, slot_set _ _ _ _ (lt_of_slot hold),
    if_neg (group_socket_ne hb hlisted hg hne)]

theorem drained {destination : IpEndpoint} {more : Bool} (h : NoOrphan s) (hb : Books base {} s)
    (hb' : Books base {} s') (hroom : FlowRoom s destination) (hdev : s'.device = s.device)
    (hd : Drained s destination s' more) : NoOrphan s' := by
  cases hd with
  | idle => exact h
  | filled taken groups busy =>
    intro d g hg hf hw
    have hg₀ := groups ▸ hg
    by_cases hne : d = destination
    · subst hne
      rw [hb.grouped.distinct.unique hg₀ taken.listed] at hf
      omega
    · exact h.elsewhere hb hb' hdev taken.listed taken.sockets hne hg₀ hg hf hw
  | joined taken groups =>
    intro d g hg hf hw
    rcases (KeyedList.mem_modify hb.grouped.distinct taken.listed).mp (groups ▸ hg) with
      ⟨-, rfl⟩ | ⟨hne, hg₀⟩
    · cases hf
    · exact h.elsewhere hb hb' hdev taken.listed taken.sockets hne hg₀ hg hf hw
  | @refused _ group socket datagram rx taken groups afforded full =>
    intro d g hg hf hw
    have hg₀ := groups ▸ hg
    by_cases hne : d = destination
    · subst hne
      obtain rfl := hb.grouped.distinct.unique hg₀ taken.listed
      have hsome : (s.sockets.udpAt g.socket).isSome := by rw [taken.here]; rfl
      have hafter : s'.sockets.udpAt g.socket = some ⟨rx, socket.rest⟩ := by
        rw [taken.sockets]
        exact udpAt_setUdp hsome _
      rw [waiting_eq hb' hg hafter] at hw
      simp only at hw
      have hbefore : s.waiting d = [datagram] := by
        rw [waiting_eq hb hg₀ taken.here, taken.waiting, hw]
      obtain ⟨next, hnext⟩ := afforded
      have hgroup := (KeyedList.get_eq_some hb.grouped.distinct).mpr hg₀
      exact absurd full (hroom g hgroup hf datagram (by rw [hbefore]; rfl) (by rw [hbefore]; rfl)
        (by rw [hnext]; rfl))
    · exact h.elsewhere hb hb' hdev taken.listed taken.sockets hne hg₀ hg hf hw

theorem left (h : NoOrphan s) (hb : Books base {} s) (hb' : Books base {} s')
    (hdev : s'.device = s.device) (hl : LeftGroup s s') : NoOrphan s' := by
  intro d g hg hf hw
  cases hl with
  | unchanged groups sockets =>
    exact h.carry_slot hb hb' hdev (groups ▸ hg) hg (by rw [sockets]) hf hw
  | fewer listed others groups sockets =>
    rcases (KeyedList.mem_modify hb.grouped.distinct listed).mp (groups ▸ hg) with
      ⟨-, rfl⟩ | ⟨-, hg₀⟩
    · exact absurd hf others
    · exact h.carry_slot hb hb' hdev hg₀ hg (by rw [sockets]) hf hw
  | removed groups sockets =>
    obtain ⟨-, hg₀⟩ := KeyedList.mem_remove.mp (groups ▸ hg)
    have hslot := sockets g.socket (List.mem_map.mpr ⟨_, hg, rfl⟩)
    exact h.carry_slot hb hb' hdev hg₀ hg hslot hf hw

theorem written {destination : IpEndpoint} {group : PacketUdpGroup} {socket : UdpSocket U} {rest : U}
    (h : NoOrphan s) (hb : Books base {} s) (hlisted : (destination, group) ∈ s.packetUdpGroups)
    (hs : s.sockets.udpAt group.socket = some socket) :
    NoOrphan { s with sockets := s.sockets.setUdp group.socket ⟨socket.rx, rest⟩ } := by
  obtain ⟨hheld, -⟩ := hb.group_udpAt hlisted
  have hb' := hb.setUdp hheld ⟨socket.rx, rest⟩
  intro d g hg hf hw
  by_cases hne : d = destination
  · subst hne
    obtain rfl := hb.grouped.distinct.unique hg hlisted
    have hsome : (s.sockets.udpAt g.socket).isSome := by rw [hs]; rfl
    refine h.carry hb hb' rfl hg hg (fun own hown => ⟨_, udpAt_setUdp hsome _, ?_⟩) hf hw
    cases hs.symm.trans hown
    rfl
  · exact h.elsewhere hb hb' rfl hlisted rfl hne hg hg hf hw

theorem promoted {handle : Handle} (h : NoOrphan s) (hp : Promoted s handle s') : NoOrphan s' := by
  cases hp with
  | skipped => exact h
  | queued => exact h

end NoOrphan

/-- Where smoltcp loses no packet of a new group and draining no datagram, no call leaves an
orphan. -/
theorem noOrphan_rule {env : Smoltcp W T U} (henv : KeepsReceived env) (base : ℕ) :
    RunRule env base (losesNothing env) (fun s _ => NoOrphan s) (fun s _ => NoOrphan s) where
  tick _ := {
    maintain := fun _ _ h => h
    tcp := fun _ _ _ _ h hp => h.same hp.udp hp.device
    dropTcp := fun _ _ _ _ _ h hp hd => h.dropTcp hp hd
    udp := fun _ _ hb hb' h hp => h.prepared hb hb' hp
    dropUdp := fun _ _ _ _ _ h hp hd => h.dropUdp hp hd
    ingress := fun _ _ _ _ hb hb' h hg hin _ hr => h.ingested henv hb hb' hg hin hr
    queue := fun _ hb h => queue_rule env (fun _ _ _ _ h hp => h.promoted hp) hb h
    drain := fun _ _ _ _ hb hb' h hg hdev _ hd => h.drained hb hb' hg hdev hd
    egress := fun _ _ hb hb' h _ hr => h.sent henv hb hb' hr }
  keep _ _ h := h
  passed _ _ _ h hp := by
    obtain ⟨more, hin⟩ := hp.ingress
    exact h.quiet hp.udp hin
  acceptTcp _ _ _ _ _ h _ := h
  acceptUdp _ _ _ _ h _ := h
  dropTcp _ _ _ _ _ _ h _ hdev hq _ := h.same hq hdev
  staleTcp _ _ _ _ h _ := h
  dropUdp _ _ _ hb hb' h hdev _ hl := h.left hb hb' hdev hl
  callTcp _ _ _ _ _ _ h _ _ hq := h.same hq rfl
  sendUdp _ _ _ _ _ _ hb h hg hs _ := h.written hb hg hs
  recvUdp _ _ _ _ h := h

def GroupsUsed (s : StackBridge W T U) : Prop :=
  ∀ destination group, KeyedList.get s.packetUdpGroups destination = some group →
    s.waiting destination = [] →
    ∃ handle flow, s.packetUdpFlows.get handle = some flow ∧ flow.tuple.destination = destination

def AllClosed (s : StackBridge W T U) : Prop :=
  s.tcpFlows.entries = [] ∧ s.udpFlows.entries = [] ∧ s.packetTcpFlows.entries = [] ∧
    s.packetUdpFlows.entries = []

theorem NoOrphan.groupsUsed (h : NoOrphan s) (hb : Books base {} s) (hin : s.device.ingress = []) :
    GroupsUsed s := by
  intro destination group hg hw
  have hlisted := KeyedList.mem_of_get hg
  have hpos : 0 < group.flows := by
    refine Nat.pos_of_ne_zero fun hf => ?_
    obtain ⟨tuple, ⟨packet, rest, hi, -⟩, -⟩ := h destination group hlisted hf hw
    rw [hin] at hi
    cases hi
  rw [hb.grouped.counted destination group hlisted, List.countP_pos_iff] at hpos
  obtain ⟨⟨handle, flow⟩, he, hd⟩ := hpos
  exact ⟨handle, flow, HandleTable.mem_entries.mp he, of_decide_eq_true hd⟩

theorem GroupsUsed.bytes (h : GroupsUsed s) (hb : Books base {} s) (hclosed : AllClosed s)
    (hw : ∀ destination, s.waiting destination = []) : s.managedBytes = base := by
  obtain ⟨h1, h2, h3, h4⟩ := hclosed
  have hgroups : s.packetUdpGroups = [] := by
    refine List.eq_nil_iff_forall_not_mem.mpr ?_
    rintro ⟨destination, group⟩ hg
    obtain ⟨handle, flow, hf, -⟩ := h destination group
      ((KeyedList.get_eq_some hb.grouped.distinct).mpr hg) (hw destination)
    have := HandleTable.mem_entries.mpr hf
    rw [h4] at this
    cases this
  rw [hb.money]
  simp [StackBridge.heldBytes, total, groupBytes, h1, h2, h3, h4, hgroups]

/-- In a run in which smoltcp gives each new group its packet and draining finds room for its
first flow, no group is left behind, and the budget is given back with the last flow. -/
theorem no_orphaned_groups (env : Smoltcp W T U) (henv : KeepsReceived env) (config : StackConfig)
    (maxFlows maxManagedBytes maxIngressPacketsPerTick : ℕ) (s₀ : StackBridge W T U)
    (hnew : StackBridge.new env config maxFlows maxManagedBytes maxIngressPacketsPerTick = .ok s₀)
    (calls : List (StackCall T U))
    (hguard : GuardedM (SharedStackBridge.step env) (CallGuard env (losesNothing env))
      ⟨s₀, [], []⟩ calls) :
    ∃ s, SharedStackBridge.run env ⟨s₀, [], []⟩ calls = some s ∧
      (s.inner.device.ingress = [] → GroupsUsed s.inner ∧
        (AllClosed s.inner → (∀ destination, s.inner.waiting destination = []) →
          s.inner.managedBytes = s₀.managedBytes)) := by
  have hb := books_new hnew
  have hstart : NoOrphan s₀ := by
    intro destination group hg
    rw [(new_idle hnew).packetUdpGroups] at hg
    cases hg
  obtain ⟨s, e, hb', h⟩ := (noOrphan_rule henv s₀.managedBytes).run (s := ⟨s₀, [], []⟩)
    hb hstart hguard
  refine ⟨s, e, fun hin => ⟨h.groupsUsed hb' hin, fun hclosed hw => ?_⟩⟩
  exact (h.groupsUsed hb' hin).bytes hb' hclosed hw

theorem sample_keepsReceived : KeepsReceived sampleSmoltcp where
  ingress w set packet i socket := by
    change socket.rx <+: (sampleUdp packet socket).rx
    unfold sampleUdp
    split
    · exact List.prefix_rfl
    · simp only []
      split
      · exact List.prefix_append _ _
      · exact List.prefix_rfl
  egress _ _ _ _ _ := List.prefix_rfl

instance (env : Smoltcp W T U) (s : StackBridge W T U) :
    Decidable ((losesNothing env).ingress s) :=
  inferInstanceAs (Decidable (Delivered env s))

instance (env : Smoltcp W T U) (s : StackBridge W T U) (destination : IpEndpoint) :
    Decidable ((losesNothing env).drain s destination) :=
  inferInstanceAs (Decidable (FlowRoom s destination))

instance (env : Smoltcp W T U) (s : StackBridge W T U) :
    Decidable ((losesNothing env).egress s) :=
  isTrue trivial

theorem sample_group_used : ∃ s₀,
    StackBridge.new sampleSmoltcp sampleConfig 4 200000 8 = .ok s₀ ∧
    ∃ s, SharedStackBridge.run sampleSmoltcp ⟨s₀, [], []⟩
        [.packetSend emptyDatagram 0, .poll, .acceptPacketUdp, .dropPacketUdp ⟨0, 1⟩] = some s ∧
      (s.inner.device.ingress = [] → GroupsUsed s.inner ∧
        (AllClosed s.inner → (∀ destination, s.inner.waiting destination = []) →
          s.inner.managedBytes = s₀.managedBytes)) := by
  obtain ⟨s₀, hnew⟩ := sample_starts
  have hguard : ∀ s₀ ∈ (StackBridge.new sampleSmoltcp sampleConfig 4 200000 8).toOption,
      GuardedM (SharedStackBridge.step sampleSmoltcp)
        (CallGuard sampleSmoltcp (losesNothing sampleSmoltcp)) ⟨s₀, [], []⟩
        [.packetSend emptyDatagram 0, .poll, .acceptPacketUdp, .dropPacketUdp ⟨0, 1⟩] := by
    decide +kernel
  exact ⟨s₀, hnew, no_orphaned_groups _ sample_keepsReceived _ _ _ _ s₀ hnew _
    (hguard s₀ (by rw [hnew]; rfl))⟩

def overlongDatagram : List UInt8 :=
  [69, 0, 0, 28, 0, 0, 0, 0, 64, 17, 0, 0, 10, 0, 0, 2, 10, 0, 0, 1, 156, 64, 0, 53, 0, 99, 0, 0]

/-- smoltcp discards it, and its group stays with the budget it took. -/
theorem overlong_leaves_orphan : ∃ s₀,
    StackBridge.new sampleSmoltcp sampleConfig 4 200000 8 = .ok s₀ ∧
    ∃ s, SharedStackBridge.run sampleSmoltcp ⟨s₀, [], []⟩
        [.packetSend overlongDatagram 0, .poll] = some s ∧
      s.inner.device.ingress = [] ∧ ¬ GroupsUsed s.inner ∧
      AllClosed s.inner ∧ s.inner.managedBytes ≠ s₀.managedBytes := by
  obtain ⟨s₀, hnew⟩ := sample_starts
  have hstart : (StackBridge.new sampleSmoltcp sampleConfig 4 200000 8).toOption.map
      (·.managedBytes) = some 143399 := by decide +kernel
  have hrun : (sampleRun [.packetSend overlongDatagram 0, .poll]).map (fun s =>
      ([s.inner.device.ingress.length, (s.inner.waiting ⟨.v4 #v[10, 0, 0, 1], 53⟩).length,
        s.inner.tcpFlows.entries.length, s.inner.udpFlows.entries.length,
        s.inner.packetTcpFlows.entries.length, s.inner.packetUdpFlows.entries.length,
        s.inner.managedBytes],
        (KeyedList.get s.inner.packetUdpGroups ⟨.v4 #v[10, 0, 0, 1], 53⟩).map (·.flows))) =
      some ([0, 0, 0, 0, 0, 0, 143527], some 0) := by decide +kernel
  simp only [hnew, Except.toOption, Option.map_some, Option.some.injEq] at hstart
  obtain ⟨s, hs, heq⟩ := Option.map_eq_some_iff.mp hrun
  simp only [sampleRun, hnew] at hs
  simp only [Prod.mk.injEq, List.cons.injEq, List.length_eq_zero_iff, and_true] at heq
  obtain ⟨⟨hin, hw, h1, h2, h3, h4, hbytes⟩, hgroup⟩ := heq
  refine ⟨s₀, hnew, s, hs, hin, fun hused => ?_, ⟨h1, h2, h3, h4⟩, by omega⟩
  obtain ⟨group, hg, -⟩ := Option.map_eq_some_iff.mp hgroup
  obtain ⟨handle, flow, hf, -⟩ := hused _ group hg hw
  have hmem := HandleTable.mem_entries.mpr hf
  rw [h4] at hmem
  cases hmem

end Snolc.Stack
