import Snolc.ReassemblyPool
import Snolc.StackPorts
import Snolc.StackResources

set_option autoImplicit false

namespace Snolc.Stack
open CheckedSlice Handles
open Engine (StackError)

section Tables

variable {α β : Type}

def gathered (f : α → List β) (t : HandleTable α) : List β := t.entries.flatMap fun e => f e.2

def total (f : α → ℕ) (t : HandleTable α) : ℕ := (t.entries.map fun e => f e.2).sum

theorem mem_gathered {f : α → List β} {t : HandleTable α} {b : β} :
    b ∈ gathered f t ↔ ∃ h a, t.get h = some a ∧ b ∈ f a := by
  simp only [gathered, List.mem_flatMap, Prod.exists, HandleTable.mem_entries]

variable {t t' : HandleTable α} {h : Handle} {a : α}

theorem gathered_insert (f : α → List β) (hp : t'.entries.Perm ((h, a) :: t.entries)) :
    (gathered f t').Perm (f a ++ gathered f t) :=
  hp.flatMap_right _

theorem total_insert (f : α → ℕ) (hp : t'.entries.Perm ((h, a) :: t.entries)) :
    total f t' = f a + total f t := by
  have hsum := (hp.map fun e => f e.2).sum_nat
  rwa [List.map_cons, List.sum_cons] at hsum

theorem gathered_modify (hs : t.Sound) (hg : t.get h = some a) {g : α → α} {f : α → List β}
    (hf : f (g a) = f a) : (gathered f (t.modify h g)).Perm (gathered f t) := by
  obtain ⟨-, -, rest, h1, h2⟩ := HandleTable.modify_spec hs hg g
  refine (h2.flatMap_right _).trans (List.Perm.trans ?_ (h1.flatMap_right _).symm)
  rw [List.flatMap_cons, List.flatMap_cons, hf]

theorem total_modify (hs : t.Sound) (hg : t.get h = some a) (g : α → α) (f : α → ℕ) :
    total f (t.modify h g) + f a = total f t + f (g a) := by
  obtain ⟨-, -, rest, h1, h2⟩ := HandleTable.modify_spec hs hg g
  have hnew := (h2.map fun e => f e.2).sum_nat
  have hold := (h1.map fun e => f e.2).sum_nat
  simp only [List.map_cons, List.sum_cons] at hnew hold
  unfold total
  omega

end Tables

def PairFlow.sockets (flow : PairFlow) : List ℕ := [flow.adapter, flow.policy]
def PairFlow.ports (flow : PairFlow) : List ℕ := [flow.adapterPort, flow.policyPort]
def PacketTcpFlow.sockets (flow : PacketTcpFlow) : List ℕ := [flow.socket]

theorem PairFlow.socket_mem (flow : PairFlow) (side : Side) : flow.socket side ∈ flow.sockets := by
  cases side <;> simp [PairFlow.socket, PairFlow.sockets]

theorem PairFlow.port_mem (flow : PairFlow) (side : Side) : flow.port side ∈ flow.ports := by
  cases side <;> simp [PairFlow.port, PairFlow.ports]

def PacketUdpFlow.buffered (flow : PacketUdpFlow) : ℕ := flow.incoming.elim 0 List.length

theorem PacketUdpFlow.buffered_none {flow : PacketUdpFlow} (h : flow.incoming = none) :
    flow.buffered = 0 := by
  rw [buffered, h]
  rfl

theorem PacketUdpFlow.buffered_some {flow : PacketUdpFlow} {payload : List UInt8}
    (h : flow.incoming = some payload) : flow.buffered = payload.length := by
  rw [buffered, h]
  rfl

def groupSockets (groups : List (IpEndpoint × PacketUdpGroup)) : List ℕ :=
  groups.map fun e => e.2.socket

def groupBytes (groups : List (IpEndpoint × PacketUdpGroup)) : ℕ :=
  (groups.map fun e => e.2.managedBytes).sum

theorem groupSockets_modify (groups : List (IpEndpoint × PacketUdpGroup)) (destination : IpEndpoint)
    (f : PacketUdpGroup → PacketUdpGroup) (hf : ∀ group, (f group).socket = group.socket) :
    groupSockets (KeyedList.modify groups destination f) = groupSockets groups := by
  simp only [groupSockets, KeyedList.modify, List.map_map]
  apply List.map_congr_left
  intro e _
  simp only [Function.comp_apply]
  split
  · exact hf e.2
  · rfl

theorem groupBytes_modify (groups : List (IpEndpoint × PacketUdpGroup)) (destination : IpEndpoint)
    (f : PacketUdpGroup → PacketUdpGroup) (hf : ∀ group, (f group).managedBytes = group.managedBytes) :
    groupBytes (KeyedList.modify groups destination f) = groupBytes groups := by
  simp only [groupBytes, KeyedList.modify, List.map_map]
  congr 1
  apply List.map_congr_left
  intro e _
  simp only [Function.comp_apply]
  split
  · exact hf e.2
  · rfl

variable {W T U : Type}

namespace StackBridge

def heldPorts (s : StackBridge W T U) : List ℕ :=
  gathered PairFlow.ports s.tcpFlows ++ gathered PairFlow.ports s.udpFlows

def heldTcp (s : StackBridge W T U) : List ℕ :=
  gathered PairFlow.sockets s.tcpFlows ++ gathered PacketTcpFlow.sockets s.packetTcpFlows

def heldUdp (s : StackBridge W T U) : List ℕ :=
  gathered PairFlow.sockets s.udpFlows ++ groupSockets s.packetUdpGroups

def heldBytes (s : StackBridge W T U) : ℕ :=
  total PairFlow.managedBytes s.tcpFlows + total PairFlow.managedBytes s.udpFlows +
    total PacketTcpFlow.managedBytes s.packetTcpFlows + groupBytes s.packetUdpGroups +
    total PacketUdpFlow.buffered s.packetUdpFlows

def packetSockets (s : StackBridge W T U) : List ℕ :=
  gathered PacketTcpFlow.sockets s.packetTcpFlows ++ groupSockets s.packetUdpGroups

end StackBridge

structure Extra where
  bytes : ℕ := 0
  ports : List ℕ := []
  tcp : List ℕ := []
  udp : List ℕ := []

structure Books (base : ℕ) (x : Extra) (s : StackBridge W T U) : Prop where
  tcpSound : s.tcpFlows.Sound
  udpSound : s.udpFlows.Sound
  money : s.managedBytes = base + s.heldBytes + x.bytes
  money_le : s.managedBytes ≤ s.maxManagedBytes
  ports : PortsOk (s.heldPorts ++ x.ports) s.ports
  device : s.device.Balanced
  sockets : SocketsOk (s.heldTcp ++ x.tcp) (s.heldUdp ++ x.udp) s.sockets
  tcpIndex : Indexed PacketTcpFlow.tuple s.packetTcpFlows s.packetTcpByTuple s.pendingPacketTcp
  udpIndex : Indexed PacketUdpFlow.tuple s.packetUdpFlows s.packetUdpByTuple s.pendingPacketUdp
  queued : ∀ handle ∈ s.pendingPacketTcp, ∀ flow, s.packetTcpFlows.get handle = some flow →
    flow.queued = true
  grouped : Grouped s.packetUdpFlows s.packetUdpGroups
  reassembly : SoundSlots s.ipv6Reassembly.slots

/-- A socket set that agrees with the bridge's on the sockets of packet flows. -/
def Untouched (s : StackBridge W T U) (set : SocketSet T U) : Prop :=
  ∀ i ∈ s.packetSockets, SlotTable.slot set i = SlotTable.slot s.sockets i

namespace Books

variable {base : ℕ} {x : Extra} {s : StackBridge W T U}

theorem not_packet (h : Books base x s) {i : ℕ}
    (hi : i ∈ gathered PairFlow.sockets s.tcpFlows ∨ i ∈ gathered PairFlow.sockets s.udpFlows ∨
      i ∈ x.tcp ∨ i ∈ x.udp) : i ∉ s.packetSockets := by
  have hnd := h.sockets.nodup
  simp only [StackBridge.heldTcp, StackBridge.heldUdp, List.nodup_append, List.mem_append] at hnd
  intro hp
  rcases List.mem_append.mp hp with hp | hp <;> grind

theorem reserve (h : Books base x s) (bytes : ℕ) :
    s.reserve bytes = .error .resource ∨
    (s.reserve bytes = .ok { s with managedBytes := s.managedBytes + bytes } ∧
      Books base { x with bytes := x.bytes + bytes }
        { s with managedBytes := s.managedBytes + bytes }) := by
  unfold StackBridge.reserve
  cases hadd : checkedAdd s.managedBytes bytes with
  | none => exact .inl rfl
  | some next =>
    obtain rfl := checkedAdd_eq_some hadd
    by_cases hlt : s.maxManagedBytes < s.managedBytes + bytes
    · simp only [hlt, if_true]
      exact .inl trivial
    · simp only [hlt, if_false]
      right
      refine ⟨trivial, { h with money := ?_, money_le := ?_ }⟩
      · have := h.money
        change s.managedBytes + bytes = base + s.heldBytes + (x.bytes + bytes)
        omega
      · exact Nat.le_of_not_lt hlt

theorem release (h : Books base x s) (bytes rest : ℕ) (hb : x.bytes = bytes + rest) :
    s.release bytes = some { s with managedBytes := s.managedBytes - bytes } ∧
      Books base { x with bytes := rest } { s with managedBytes := s.managedBytes - bytes } := by
  have hm := h.money
  have hle : bytes ≤ s.managedBytes := by omega
  refine ⟨by simp only [StackBridge.release, hle, if_true], { h with money := ?_, money_le := ?_ }⟩
  · change s.managedBytes - bytes = base + s.heldBytes + rest
    omega
  · exact Nat.le_trans (Nat.sub_le _ _) h.money_le

theorem allocate (h : Books base x s) :
    s.ports.allocate = some (.error .portLimit) ∨
    ∃ pool port, s.ports.allocate = some (.ok (pool, port)) ∧
      Books base { x with ports := port :: x.ports } { s with ports := pool } := by
  rcases h.ports.allocate with he | ⟨pool, port, he, hp⟩
  · exact .inl he
  · exact .inr ⟨pool, port, he, { h with ports := hp.perm List.perm_middle.symm }⟩

theorem releasePort (h : Books base x s) {port : ℕ} {rest : List ℕ}
    (hx : x.ports.Perm (port :: rest)) :
    ∃ pool, s.releasePort port = some ({ s with ports := pool }, .ok ()) ∧
      Books base { x with ports := rest } { s with ports := pool } := by
  have hp := h.ports.perm ((hx.append_left s.heldPorts).trans List.perm_middle)
  obtain ⟨pool, he, hp'⟩ := hp.release
  exact ⟨pool, by simp [StackBridge.releasePort, he], { h with ports := hp' }⟩

theorem packet_mem {i : ℕ} (hi : i ∈ s.packetSockets) (x : Extra) :
    i ∈ (s.heldTcp ++ x.tcp) ++ (s.heldUdp ++ x.udp) := by
  simp only [StackBridge.heldTcp, StackBridge.heldUdp, List.mem_append]
  rcases List.mem_append.mp hi with hi | hi
  · exact .inl (.inl (.inr hi))
  · exact .inr (.inl (.inr hi))

theorem untouched_add (h : Books base x s) (socket : Socket T U) :
    Untouched s (s.sockets.add socket).1 := by
  obtain ⟨hvacant, hslot⟩ := slot_add s.sockets socket
  intro i hi
  rw [hslot, if_neg]
  rintro rfl
  exact h.sockets.fresh hvacant (packet_mem hi x)

theorem addTcp (h : Books base x s) (socket : TcpSocket T) :
    Books base { x with tcp := (s.sockets.add (.tcp socket)).2 :: x.tcp }
      { s with sockets := (s.sockets.add (.tcp socket)).1 } ∧
    (s.sockets.add (.tcp socket)).1.tcpAt (s.sockets.add (.tcp socket)).2 = some socket := by
  obtain ⟨hs, hat⟩ := h.sockets.addTcp socket
  exact ⟨{ h with sockets := hs.perm List.perm_middle.symm (List.Perm.refl _) }, hat⟩

theorem addUdp (h : Books base x s) (socket : UdpSocket U) :
    Books base { x with udp := (s.sockets.add (.udp socket)).2 :: x.udp }
      { s with sockets := (s.sockets.add (.udp socket)).1 } ∧
    (s.sockets.add (.udp socket)).1.udpAt (s.sockets.add (.udp socket)).2 = some socket := by
  obtain ⟨hs, hat⟩ := h.sockets.addUdp socket
  exact ⟨{ h with sockets := hs.perm (List.Perm.refl _) List.perm_middle.symm }, hat⟩

theorem removeTcp (h : Books base x s) {i : ℕ} {rest : List ℕ} (hx : x.tcp.Perm (i :: rest)) :
    ∃ set, s.removeSocket i = some { s with sockets := set } ∧
      Books base { x with tcp := rest } { s with sockets := set } ∧ Untouched s set := by
  have hp := h.sockets.perm ((hx.append_left s.heldTcp).trans List.perm_middle) (List.Perm.refl _)
  obtain ⟨set, he, hs⟩ := hp.removeTcp
  refine ⟨set, by simp [StackBridge.removeSocket, he], { h with sockets := hs }, fun j hj => ?_⟩
  refine slot_remove he ?_
  rintro rfl
  exact h.not_packet (.inr (.inr (.inl (hx.mem_iff.mpr List.mem_cons_self)))) hj

theorem removeUdp (h : Books base x s) {i : ℕ} {rest : List ℕ} (hx : x.udp.Perm (i :: rest)) :
    ∃ set, s.removeSocket i = some { s with sockets := set } ∧
      Books base { x with udp := rest } { s with sockets := set } ∧ Untouched s set := by
  have hp := h.sockets.perm (List.Perm.refl _) ((hx.append_left s.heldUdp).trans List.perm_middle)
  obtain ⟨set, he, hs⟩ := hp.removeUdp
  refine ⟨set, by simp [StackBridge.removeSocket, he], { h with sockets := hs }, fun j hj => ?_⟩
  refine slot_remove he ?_
  rintro rfl
  exact h.not_packet (.inr (.inr (.inr (hx.mem_iff.mpr List.mem_cons_self)))) hj

theorem tcpAt (h : Books base x s) {i : ℕ} (hi : i ∈ s.heldTcp ++ x.tcp) :
    ∃ socket, s.sockets.tcpAt i = some socket :=
  Option.isSome_iff_exists.mp (h.sockets.tcp i hi)

theorem udpAt (h : Books base x s) {i : ℕ} (hi : i ∈ s.heldUdp ++ x.udp) :
    ∃ socket, s.sockets.udpAt i = some socket :=
  Option.isSome_iff_exists.mp (h.sockets.udp i hi)

theorem setTcp (h : Books base x s) {i : ℕ} (hi : i ∈ s.heldTcp ++ x.tcp) (socket : TcpSocket T) :
    Books base x { s with sockets := s.sockets.setTcp i socket } :=
  { h with sockets := h.sockets.setTcp (h.sockets.tcp i hi) socket }

theorem setUdp (h : Books base x s) {i : ℕ} (hi : i ∈ s.heldUdp ++ x.udp) (socket : UdpSocket U) :
    Books base x { s with sockets := s.sockets.setUdp i socket } :=
  { h with sockets := h.sockets.setUdp (h.sockets.udp i hi) socket }

theorem apply (h : Books base x s) (r : Reaction W T U) :
    Books base x { s with sockets := r.apply s.sockets } :=
  { h with sockets := h.sockets.apply r }

theorem perm (h : Books base x s) {y : Extra} (hb : x.bytes = y.bytes) (hp : x.ports.Perm y.ports)
    (ht : x.tcp.Perm y.tcp) (hu : x.udp.Perm y.udp) : Books base y s :=
  { h with
    money := hb ▸ h.money
    ports := h.ports.perm (hp.append_left _)
    sockets := h.sockets.perm (ht.append_left _) (hu.append_left _) }

end Books

def PairFlow.tcpExtra (flow : PairFlow) : Extra := ⟨flow.managedBytes, flow.ports, flow.sockets, []⟩
def PairFlow.udpExtra (flow : PairFlow) : Extra := ⟨flow.managedBytes, flow.ports, [], flow.sockets⟩
def PacketTcpFlow.extra (flow : PacketTcpFlow) : Extra := ⟨flow.managedBytes, [], flow.sockets, []⟩
def PacketUdpGroup.extra (group : PacketUdpGroup) : Extra :=
  ⟨group.managedBytes, [], [], [group.socket]⟩

theorem perm_enter_left {A A' B X : List ℕ} (h : A'.Perm (X ++ A)) :
    (A ++ B ++ X).Perm (A' ++ B ++ []) := by
  rw [List.append_nil]
  refine List.perm_append_comm.trans ?_
  rw [← List.append_assoc]
  exact (h.symm.append_right B)

theorem perm_enter_right {A B B' X : List ℕ} (h : B'.Perm (X ++ B)) :
    (A ++ B ++ X).Perm (A ++ B' ++ []) := by
  rw [List.append_nil, List.append_assoc]
  exact (List.perm_append_comm.trans h.symm).append_left A

namespace Books

variable {base : ℕ} {s : StackBridge W T U} {handle : Handle} {flows : HandleTable PairFlow}
  {flow : PairFlow}

theorem putTcp (h : Books base flow.tcpExtra s) (hs : flows.Sound)
    (hp : flows.entries.Perm ((handle, flow) :: s.tcpFlows.entries)) :
    Books base {} { s with tcpFlows := flows } :=
  { h with
    tcpSound := hs
    money := by
      have hm := h.money
      have ht := total_insert PairFlow.managedBytes hp
      simp only [StackBridge.heldBytes, PairFlow.tcpExtra] at hm ⊢
      omega
    ports := h.ports.perm (perm_enter_left (gathered_insert _ hp))
    sockets := h.sockets.perm (perm_enter_left (gathered_insert _ hp)) (List.Perm.refl _) }

theorem takeTcp (h : Books base {} s) (hs : flows.Sound)
    (hp : s.tcpFlows.entries.Perm ((handle, flow) :: flows.entries)) :
    Books base flow.tcpExtra { s with tcpFlows := flows } :=
  { h with
    tcpSound := hs
    money := by
      have hm := h.money
      have ht := total_insert PairFlow.managedBytes hp
      simp only [StackBridge.heldBytes, PairFlow.tcpExtra] at hm ⊢
      omega
    ports := h.ports.perm (perm_enter_left (gathered_insert _ hp)).symm
    sockets := h.sockets.perm (perm_enter_left (gathered_insert _ hp)).symm (List.Perm.refl _) }

theorem putUdp (h : Books base flow.udpExtra s) (hs : flows.Sound)
    (hp : flows.entries.Perm ((handle, flow) :: s.udpFlows.entries)) :
    Books base {} { s with udpFlows := flows } :=
  { h with
    udpSound := hs
    money := by
      have hm := h.money
      have ht := total_insert PairFlow.managedBytes hp
      simp only [StackBridge.heldBytes, PairFlow.udpExtra] at hm ⊢
      omega
    ports := h.ports.perm (perm_enter_right (gathered_insert _ hp))
    sockets := h.sockets.perm (List.Perm.refl _) (perm_enter_left (gathered_insert _ hp)) }

theorem takeUdp (h : Books base {} s) (hs : flows.Sound)
    (hp : s.udpFlows.entries.Perm ((handle, flow) :: flows.entries)) :
    Books base flow.udpExtra { s with udpFlows := flows } :=
  { h with
    udpSound := hs
    money := by
      have hm := h.money
      have ht := total_insert PairFlow.managedBytes hp
      simp only [StackBridge.heldBytes, PairFlow.udpExtra] at hm ⊢
      omega
    ports := h.ports.perm (perm_enter_right (gathered_insert _ hp)).symm
    sockets := h.sockets.perm (List.Perm.refl _) (perm_enter_left (gathered_insert _ hp)).symm }

theorem putPacketTcp {flows : HandleTable PacketTcpFlow} {flow : PacketTcpFlow}
    (h : Books base flow.extra s) (hs : flows.Sound)
    (hp : flows.entries.Perm ((handle, flow) :: s.packetTcpFlows.entries))
    (habsent : KeyedList.get s.packetTcpByTuple flow.tuple = none) :
    Books base {} { s with
      packetTcpFlows := flows
      packetTcpByTuple := KeyedList.insert s.packetTcpByTuple flow.tuple handle } :=
  { h with
    money := by
      have hm := h.money
      have ht := total_insert PacketTcpFlow.managedBytes hp
      simp only [StackBridge.heldBytes, PacketTcpFlow.extra] at hm ⊢
      omega
    sockets := h.sockets.perm (perm_enter_right (gathered_insert _ hp)) (List.Perm.refl _)
    tcpIndex := h.tcpIndex.insert habsent hs hp
    queued := by
      intro p hpend f hf
      have hne : p ≠ handle := by
        rintro rfl
        obtain ⟨g, hg⟩ := h.tcpIndex.pending_live p hpend
        rw [(HandleTable.get_of_insert hp).1] at hg
        cases hg
      exact h.queued p hpend f ((HandleTable.get_of_perm_cons hp hne).symm.trans hf) }

theorem takePacketTcp {flows : HandleTable PacketTcpFlow} {flow : PacketTcpFlow}
    (h : Books base {} s) (hs : flows.Sound)
    (hp : s.packetTcpFlows.entries.Perm ((handle, flow) :: flows.entries)) :
    Books base flow.extra { s with
      packetTcpFlows := flows
      packetTcpByTuple := KeyedList.remove s.packetTcpByTuple flow.tuple
      pendingPacketTcp := s.pendingPacketTcp.filter fun pending => decide (pending ≠ handle) } :=
  { h with
    money := by
      have hm := h.money
      have ht := total_insert PacketTcpFlow.managedBytes hp
      simp only [StackBridge.heldBytes, PacketTcpFlow.extra] at hm ⊢
      omega
    sockets := h.sockets.perm (perm_enter_right (gathered_insert _ hp)).symm (List.Perm.refl _)
    tcpIndex := h.tcpIndex.remove (HandleTable.get_of_remove hp).2 hs hp
    queued := by
      intro p hpend f hf
      obtain ⟨hpend, hne⟩ := List.mem_filter.mp hpend
      refine h.queued p hpend f ((HandleTable.get_of_perm_cons hp ?_).trans hf)
      exact of_decide_eq_true hne }

theorem putGroup {destination : IpEndpoint} {socket bytes : ℕ}
    (h : Books base (PacketUdpGroup.extra ⟨socket, bytes, 0⟩) s)
    (habsent : KeyedList.get s.packetUdpGroups destination = none) :
    Books base {} { s with
      packetUdpGroups := KeyedList.insert s.packetUdpGroups destination ⟨socket, bytes, 0⟩ } := by
  have hins := KeyedList.insert_absent (KeyedList.get_eq_none.mp habsent)
    (⟨socket, bytes, 0⟩ : PacketUdpGroup)
  exact { h with
    money := by
      have hm := h.money
      simp only [StackBridge.heldBytes, PacketUdpGroup.extra, hins, groupBytes, List.map_cons,
        List.sum_cons] at hm ⊢
      omega
    sockets := by
      refine h.sockets.perm (List.Perm.refl _) (perm_enter_right ?_)
      rw [hins]
      exact List.Perm.refl _
    grouped := h.grouped.create habsent socket bytes }

theorem markQueued (h : Books base {} s) {flow : PacketTcpFlow}
    (hg : s.packetTcpFlows.get handle = some flow) (hq : flow.queued = false) :
    Books base {} { s with
      packetTcpFlows := s.packetTcpFlows.modify handle fun flow => { flow with queued := true }
      pendingPacketTcp := s.pendingPacketTcp ++ [handle] } := by
  have hsound := h.tcpIndex.sound
  have hnew : handle ∉ s.pendingPacketTcp := by
    intro hm
    rw [h.queued handle hm flow hg] at hq
    cases hq
  have hget := HandleTable.get_modify hsound hg (fun flow : PacketTcpFlow =>
    { flow with queued := true })
  exact { h with
    money := by
      have hm := h.money
      have ht := total_modify hsound hg (fun flow : PacketTcpFlow => { flow with queued := true })
        PacketTcpFlow.managedBytes
      simp only [StackBridge.heldBytes] at hm ht ⊢
      omega
    sockets := by
      refine h.sockets.perm (List.Perm.append_right _ (List.Perm.append_left _ ?_))
        (List.Perm.refl _)
      exact (gathered_modify hsound hg rfl).symm
    tcpIndex := (h.tcpIndex.modify hg rfl).push ((hget handle).trans (if_pos rfl)) hnew
    queued := by
      intro p hpend f hf
      rw [hget] at hf
      split at hf
      · cases hf
        rfl
      · next hne =>
        rcases List.mem_append.mp hpend with hpend | hpend
        · exact h.queued p hpend f hf
        · exact absurd (List.mem_singleton.mp hpend) hne }

theorem popTcp (h : Books base {} s) {rest : List Handle} (hpend : s.pendingPacketTcp = handle :: rest) :
    Books base {} { s with pendingPacketTcp := rest } :=
  { h with
    tcpIndex := (hpend ▸ h.tcpIndex).pop
    queued := fun p hp => h.queued p (by rw [hpend]; exact List.mem_cons_of_mem _ hp) }

theorem popUdp (h : Books base {} s) {rest : List Handle} (hpend : s.pendingPacketUdp = handle :: rest) :
    Books base {} { s with pendingPacketUdp := rest } :=
  { h with udpIndex := (hpend ▸ h.udpIndex).pop }

section Datagrams

variable {flow : PacketUdpFlow} {payload : List UInt8}

theorem fill (h : Books base ⟨payload.length, [], [], []⟩ s)
    (hg : s.packetUdpFlows.get handle = some flow) (hempty : flow.incoming = none) :
    Books base {} { s with
      packetUdpFlows := s.packetUdpFlows.modify handle fun flow =>
        { flow with incoming := some payload } } :=
  { h with
    money := by
      have hm := h.money
      have ht := total_modify h.udpIndex.sound hg (fun flow : PacketUdpFlow =>
        { flow with incoming := some payload }) PacketUdpFlow.buffered
      rw [PacketUdpFlow.buffered_none hempty, PacketUdpFlow.buffered_some rfl] at ht
      simp only [StackBridge.heldBytes] at hm ⊢
      omega
    udpIndex := h.udpIndex.modify hg rfl
    grouped := h.grouped.change h.udpIndex.sound hg rfl }

theorem unfill (h : Books base {} s) (hg : s.packetUdpFlows.get handle = some flow)
    (hfull : flow.incoming = some payload) :
    Books base ⟨payload.length, [], [], []⟩ { s with
      packetUdpFlows := s.packetUdpFlows.modify handle fun flow =>
        { flow with incoming := none } } :=
  { h with
    money := by
      have hm := h.money
      have ht := total_modify h.udpIndex.sound hg (fun flow : PacketUdpFlow =>
        { flow with incoming := none }) PacketUdpFlow.buffered
      rw [PacketUdpFlow.buffered_some hfull, PacketUdpFlow.buffered_none rfl] at ht
      simp only [StackBridge.heldBytes] at hm ⊢
      omega
    udpIndex := h.udpIndex.modify hg rfl
    grouped := h.grouped.change h.udpIndex.sound hg rfl }

theorem join {flows : HandleTable PacketUdpFlow} {group : PacketUdpGroup}
    (h : Books base ⟨flow.buffered, [], [], []⟩ s) (hs : flows.Sound)
    (hp : flows.entries.Perm ((handle, flow) :: s.packetUdpFlows.entries))
    (habsent : KeyedList.get s.packetUdpByTuple flow.tuple = none)
    (hgroup : (flow.tuple.destination, group) ∈ s.packetUdpGroups) :
    Books base {} { s with
      packetUdpFlows := flows
      packetUdpByTuple := KeyedList.insert s.packetUdpByTuple flow.tuple handle
      packetUdpGroups := KeyedList.modify s.packetUdpGroups flow.tuple.destination fun group =>
        { group with flows := group.flows + 1 }
      pendingPacketUdp := s.pendingPacketUdp ++ [handle] } := by
  obtain ⟨hfresh, hget⟩ := HandleTable.get_of_insert hp
  have hnew : handle ∉ s.pendingPacketUdp := by
    intro hm
    obtain ⟨f, hf⟩ := h.udpIndex.pending_live handle hm
    rw [hfresh] at hf
    cases hf
  exact { h with
    money := by
      have hm := h.money
      have ht := total_insert PacketUdpFlow.buffered hp
      have hgb := groupBytes_modify s.packetUdpGroups flow.tuple.destination
        (fun group => { group with flows := group.flows + 1 }) fun _ => rfl
      simp only [StackBridge.heldBytes, hgb] at hm ⊢
      omega
    sockets := by
      have hgs := groupSockets_modify s.packetUdpGroups flow.tuple.destination
        (fun group => { group with flows := group.flows + 1 }) fun _ => rfl
      simp only [StackBridge.heldUdp, hgs]
      exact h.sockets
    udpIndex := (h.udpIndex.insert habsent hs hp).push hget hnew
    grouped := h.grouped.join hgroup hp }

theorem leave {flows : HandleTable PacketUdpFlow} {group : PacketUdpGroup} (h : Books base {} s)
    (hs : flows.Sound) (hp : s.packetUdpFlows.entries.Perm ((handle, flow) :: flows.entries))
    (hgroup : (flow.tuple.destination, group) ∈ s.packetUdpGroups) :
    Books base ⟨flow.buffered, [], [], []⟩ { s with
      packetUdpFlows := flows
      packetUdpByTuple := KeyedList.remove s.packetUdpByTuple flow.tuple
      pendingPacketUdp := s.pendingPacketUdp.filter fun pending => decide (pending ≠ handle)
      packetUdpGroups := KeyedList.modify s.packetUdpGroups flow.tuple.destination fun group =>
        { group with flows := group.flows - 1 } } :=
  { h with
    money := by
      have hm := h.money
      have ht := total_insert PacketUdpFlow.buffered hp
      have hgb := groupBytes_modify s.packetUdpGroups flow.tuple.destination
        (fun group => { group with flows := group.flows - 1 }) fun _ => rfl
      simp only [StackBridge.heldBytes, hgb] at hm ⊢
      omega
    sockets := by
      have hgs := groupSockets_modify s.packetUdpGroups flow.tuple.destination
        (fun group => { group with flows := group.flows - 1 }) fun _ => rfl
      simp only [StackBridge.heldUdp, hgs]
      exact h.sockets
    udpIndex := h.udpIndex.remove (HandleTable.get_of_remove hp).2 hs hp
    grouped := h.grouped.leave hgroup hp }

theorem leaveLast {flows : HandleTable PacketUdpFlow} {group : PacketUdpGroup} (h : Books base {} s)
    (hs : flows.Sound) (hp : s.packetUdpFlows.entries.Perm ((handle, flow) :: flows.entries))
    (hgroup : (flow.tuple.destination, group) ∈ s.packetUdpGroups) (hlast : group.flows - 1 = 0) :
    Books base ⟨flow.buffered + group.managedBytes, [], [], [group.socket]⟩ { s with
      packetUdpFlows := flows
      packetUdpByTuple := KeyedList.remove s.packetUdpByTuple flow.tuple
      pendingPacketUdp := s.pendingPacketUdp.filter fun pending => decide (pending ≠ handle)
      packetUdpGroups := KeyedList.remove s.packetUdpGroups flow.tuple.destination } := by
  have hrem := KeyedList.perm_remove h.grouped.distinct hgroup
  exact { h with
    money := by
      have hm := h.money
      have ht := total_insert PacketUdpFlow.buffered hp
      have hgb := (hrem.map fun e => e.2.managedBytes).sum_nat
      simp only [List.map_cons, List.sum_cons] at hgb
      simp only [StackBridge.heldBytes, groupBytes] at hm ⊢
      omega
    sockets := h.sockets.perm (List.Perm.refl _)
      (perm_enter_right (hrem.map fun e => e.2.socket)).symm
    udpIndex := h.udpIndex.remove (HandleTable.get_of_remove hp).2 hs hp
    grouped := h.grouped.leaveLast hgroup hp hlast }

end Datagrams

end Books
end Snolc.Stack
