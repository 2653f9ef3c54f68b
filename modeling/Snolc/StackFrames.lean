import Snolc.PartialPosts
import Snolc.StackAccounts

set_option autoImplicit false

namespace Snolc.Stack
open CheckedSlice GuardedRuns Handles PartialPosts
open Engine (FlowMetadata StackError)

variable {W T U : Type} {d : BoundedDevice} {r : Ipv6Reassembly} {s s' : StackBridge W T U}

/-- From one state of the interface to the other by connecting sockets, and by nothing else. -/
def Connects (env : Smoltcp W T U) (w w' : W) : Prop :=
  ∀ P : W → Prop, (∀ w rest endpoint port, P w → P (env.connect w rest endpoint port).1) → P w → P w'

theorem Connects.connect {env : Smoltcp W T U} {w w' : W} (h : Connects env w w') (rest : T) (endpoint : IpEndpoint)
    (port : ℕ) : Connects env w (env.connect w' rest endpoint port).1 :=
  fun P hP hw => hP _ _ _ _ (h P hP hw)

theorem slot_set_other {set : SocketSet T U} {i j : ℕ} (h : j ≠ i) (entry : Option (Socket T U)) :
    SlotTable.slot (set.set i entry) j = SlotTable.slot set j := by
  unfold SlotTable.slot
  rw [List.getElem?_set_ne (Ne.symm h)]

/-- What the calls that neither tick nor use the packet port do to the rest of the bridge; the sockets of `keep` are
none of theirs. -/
structure Keeps (env : Smoltcp W T U) (keep : List ℕ) (s₀ s : StackBridge W T U) : Prop where
  device : s.device = s₀.device
  reassembly : s.ipv6Reassembly = s₀.ipv6Reassembly
  interface : Connects env s₀.interface s.interface
  udpFlows : s.udpFlows = s₀.udpFlows
  slots : ∀ i ∈ keep, SlotTable.slot s.sockets i = SlotTable.slot s₀.sockets i
  live : ∀ i ∈ keep, (SlotTable.slot s₀.sockets i).isSome

namespace Keeps

variable {env : Smoltcp W T U} {keep : List ℕ} {s₀ : StackBridge W T U}

theorem refl (env : Smoltcp W T U) (h : ∀ i ∈ keep, (SlotTable.slot s.sockets i).isSome) : Keeps env keep s s :=
  ⟨rfl, rfl, fun _ _ h => h, rfl, fun _ _ => rfl, h⟩

theorem start (env : Smoltcp W T U) (s : StackBridge W T U) : Keeps env [] s s := refl env fun _ h => nomatch h

theorem add (h : Keeps env keep s₀ s) (socket : Socket T U) : (s.sockets.add socket).2 ∉ keep ∧
    Keeps env keep s₀ { s with sockets := (s.sockets.add socket).1 } := by
  obtain ⟨hvacant, hslot⟩ := slot_add s.sockets socket
  have hfresh : (s.sockets.add socket).2 ∉ keep := by
    intro hi
    have hlive := h.live _ hi
    rw [← h.slots _ hi, hvacant] at hlive
    cases hlive
  refine ⟨hfresh, { h with slots := fun i hi => ?_ }⟩
  have hne : (s.sockets.add socket).2 ≠ i := by
    rintro rfl
    exact hfresh hi
  rw [hslot, if_neg hne]
  exact h.slots i hi

theorem write (h : Keeps env keep s₀ s) {index : ℕ} (hindex : index ∉ keep) (entry : Option (Socket T U)) :
    Keeps env keep s₀ { s with sockets := s.sockets.set index entry } := by
  refine { h with slots := fun i hi => ?_ }
  have hne : i ≠ index := by
    rintro rfl
    exact hindex hi
  rw [slot_set_other hne]
  exact h.slots i hi

theorem reserve {bytes : ℕ} (h : Keeps env keep s₀ s) (he : s.reserve bytes = .ok s') : Keeps env keep s₀ s' := by
  unfold StackBridge.reserve at he
  split at he
  · cases he
  · split at he
    · cases he
    · cases he
      exact { h with }

theorem release (h : Keeps env keep s₀ s) (bytes : ℕ) : Yields (s.release bytes) (Keeps env keep s₀) := by
  unfold StackBridge.release
  split
  · exact yields_some { h with }
  · exact yields_none

theorem removeSocket (h : Keeps env keep s₀ s) {index : ℕ} (hindex : index ∉ keep) :
    Yields (s.removeSocket index) (Keeps env keep s₀) := by
  intro s' hs'
  obtain ⟨set, hset, hrest⟩ := Option.bind_eq_some_iff.mp hs'
  cases hrest
  refine { h with slots := fun i hi => ?_ }
  have hne : i ≠ index := by
    rintro rfl
    exact hindex hi
  exact (slot_remove hset hne).trans (h.slots i hi)

theorem releasePort (h : Keeps env keep s₀ s) (port : ℕ) :
    Yields (s.releasePort port) fun q => Keeps env keep s₀ q.1 := by
  refine Yields.of_bind fun released => ?_
  cases released with
  | error error => exact yields_some h
  | ok ports => exact yields_some { h with }

section Pairs
variable {adapter policy : ℕ}

theorem cleanupSockets (h : Keeps env keep s₀ s) (ha : adapter ∉ keep) (hp : policy ∉ keep)
    (adapterPort policyPort bytes : ℕ) :
    Yields (s.cleanupSockets adapter policy adapterPort policyPort bytes) (Keeps env keep s₀) := by
  refine (h.removeSocket ha).bind fun s h => ?_
  refine (h.removeSocket hp).bind fun s h => ?_
  refine (h.releasePort adapterPort).bind fun q h => ?_
  refine (releasePort h policyPort).bind fun q h => ?_
  exact release h bytes

theorem connectPair (h : Keeps env keep s₀ s) (ha : adapter ∉ keep) (hp : policy ∉ keep) (adapterPort policyPort : ℕ) :
    Yields (s.connectPair env adapter policy adapterPort policyPort) fun q => Keeps env keep s₀ q.1 := by
  refine Yields.of_bind fun server => ?_
  cases env.listen server.rest ⟨none, UInt16.ofNat policyPort⟩ with
  | error message => exact yields_some h
  | ok rest =>
    refine Yields.of_bind fun client => ?_
    have hlisten := h.write hp (some (.tcp ⟨.listen, rest⟩))
    have hconnect := h.interface.connect client.rest ⟨loopback, UInt16.ofNat policyPort⟩ adapterPort
    dsimp only
    split
    · exact yields_some { hlisten with interface := hconnect }
    · next rest _ =>
      exact yields_some { hlisten.write ha (some (.tcp ⟨.synSent, rest⟩)) with interface := hconnect }

theorem bindPair (h : Keeps env keep s₀ s) (ha : adapter ∉ keep) (hp : policy ∉ keep) (adapterPort policyPort : ℕ) :
    Yields (s.bindPair env adapter policy adapterPort policyPort) fun q => Keeps env keep s₀ q.1 := by
  refine Yields.of_bind fun first => ?_
  cases env.bind first.rest ⟨none, UInt16.ofNat adapterPort⟩ with
  | none => exact yields_some h
  | some rest =>
    have hfirst := h.write ha (some (.udp ⟨first.rx, rest⟩))
    refine Yields.of_bind fun second => ?_
    cases env.bind second.rest ⟨none, UInt16.ofNat policyPort⟩ with
    | none => exact yields_some hfirst
    | some rest => exact yields_some (hfirst.write hp _)

end Pairs

theorem reservePair (h : Keeps env keep s₀ s) (bytes : ℕ) :
    Yields (s.reservePair bytes) fun q => Keeps env keep s₀ q.1 := by
  unfold StackBridge.reservePair
  split
  · exact yields_some h
  next s₁ he =>
  have h₁ := h.reserve he
  refine Yields.of_bind fun first => ?_
  cases first with
  | error error => exact (h₁.release bytes).bind fun s h => yields_some h
  | ok first =>
    refine Yields.of_bind fun second => ?_
    have h₂ : Keeps env keep s₀ { s₁ with ports := first.1 } := { h₁ with }
    cases second with
    | ok second => exact yields_some { h₁ with }
    | error error =>
      refine (h₂.releasePort first.2).bind fun q h => ?_
      obtain ⟨s₂, released⟩ := q
      cases released with
      | error failure => exact yields_some h
      | ok _ => exact (release h bytes).bind fun s h => yields_some h

theorem joinTcp (h : Keeps env keep s₀ s) {flow : PairFlow} (ha : flow.adapter ∉ keep) (hp : flow.policy ∉ keep) :
    Yields (s.joinTcp env flow) fun q => Keeps env keep s₀ q.1 := by
  refine (h.connectPair ha hp flow.adapterPort flow.policyPort).bind fun q h => ?_
  obtain ⟨s₁, connected⟩ := q
  cases connected with
  | error error => exact (cleanupSockets h ha hp _ _ _).bind fun s h => yields_some h
  | ok _ =>
    refine Yields.of_bind fun inserted => ?_
    cases inserted with
    | error error => exact (cleanupSockets h ha hp _ _ _).bind fun s h => yields_some h
    | ok inserted => exact yields_some { h with }

theorem startTcp (h : Keeps env keep s₀ s) (metadata : FlowMetadata) :
    Yields (s.startTcp env metadata) fun q => Keeps env keep s₀ q.1 := by
  unfold StackBridge.startTcp
  split
  · exact yields_some h
  split
  · exact yields_some h
  refine (h.reservePair _).bind fun q h => ?_
  obtain ⟨s₁, reserved⟩ := q
  cases reserved with
  | error error => exact yields_some h
  | ok ports =>
    have h : Keeps env keep s₀ s₁ := h
    obtain ⟨hpolicy, hone⟩ := h.add (.tcp ⟨.closed, env.newTcp s₁.config⟩)
    obtain ⟨hadapter, htwo⟩ := hone.add (.tcp ⟨.closed, env.newTcp s₁.config⟩)
    exact htwo.joinTcp hadapter hpolicy

/-- The socket of each side is new and bound to the port of the side. -/
def Bound (env : Smoltcp W T U) (s : StackBridge W T U) (flow : PairFlow) : Prop :=
  ∀ side, ∃ config rest, env.bind (env.newUdp config) ⟨none, UInt16.ofNat (flow.port side)⟩ = some rest ∧
    s.sockets.udpAt (flow.socket side) = some ⟨[], rest⟩

/-- A flow was opened, on the next two ports and on sockets of its own; or none was. -/
def Opens (env : Smoltcp W T U) (keep ports : List ℕ) (s₀ : StackBridge W T U) :
    StackBridge W T U × Except StackError Handle → Prop
  | (s, .error _) => Keeps env keep s₀ s
  | (s, .ok handle) => ∃ s₁ flow flows, Keeps env keep s₀ s₁ ∧ flow.adapter ∉ keep ∧ flow.policy ∉ keep ∧
      flow.ports <+: ports ∧ Bound env s₁ flow ∧ s₁.udpFlows.insert flow = some (.ok (flows, handle)) ∧
      s = { s₁ with udpFlows := flows }

theorem bindPair_bound {adapter policy : ℕ} (hne : adapter ≠ policy) {first second : UdpSocket U}
    (ha : s.sockets.udpAt adapter = some first) (hp : s.sockets.udpAt policy = some second)
    (adapterPort policyPort : ℕ) :
    Yields (s.bindPair env adapter policy adapterPort policyPort) fun q => q.2 = true →
      ∃ a p, env.bind first.rest ⟨none, UInt16.ofNat adapterPort⟩ = some a ∧
        env.bind second.rest ⟨none, UInt16.ofNat policyPort⟩ = some p ∧
        q.1.sockets.udpAt adapter = some ⟨first.rx, a⟩ ∧ q.1.sockets.udpAt policy = some ⟨second.rx, p⟩ := by
  have hother (entry : Option (Socket T U)) (i j : ℕ) (hij : j ≠ i) (set : SocketSet T U) :
      SocketSet.udpAt (set.set i entry) j = set.udpAt j := by
    unfold SocketSet.udpAt
    rw [slot_set_other hij]
  unfold StackBridge.bindPair
  rw [ha]
  simp only [Option.bind_eq_bind, Option.bind_some]
  cases hbind : env.bind first.rest ⟨none, UInt16.ofNat adapterPort⟩ with
  | none => exact yields_some fun h => nomatch h
  | some a =>
    dsimp only
    have hsecond : (s.sockets.setUdp adapter ⟨first.rx, a⟩).udpAt policy = some second :=
      (hother _ _ _ (Ne.symm hne) _).trans hp
    rw [hsecond, Option.bind_some]
    cases hbind' : env.bind second.rest ⟨none, UInt16.ofNat policyPort⟩ with
    | none => exact yields_some fun h => nomatch h
    | some p =>
      refine yields_some fun _ => ⟨a, p, rfl, rfl, ?_, ?_⟩
      · refine (hother _ _ _ hne _).trans (udpAt_setUdp ?_ _)
        rw [ha]
        rfl
      · refine udpAt_setUdp ?_ _
        rw [hsecond]
        rfl

theorem reservePair_ports (s : StackBridge W T U) (bytes : ℕ) : Yields (s.reservePair bytes) fun q =>
    ∀ adapterPort policyPort, q.2 = .ok (adapterPort, policyPort) →
      [adapterPort, policyPort] <+: s.ports.available := by
  unfold StackBridge.reservePair
  split
  · exact yields_some fun _ _ h => nomatch h
  next s₁ he =>
  have hports : s₁.ports = s.ports := by
    unfold StackBridge.reserve at he
    split at he
    · cases he
    · split at he
      · cases he
      · cases he
        rfl
  have hallocate (pool : PortPool) : Yields pool.allocate fun result =>
      ∀ pool' port, result = .ok (pool', port) → pool.available = port :: pool'.available := by
    unfold PortPool.allocate
    split
    · exact yields_some fun _ _ h => nomatch h
    · next port available hav =>
      refine Yields.of_bind fun allocated => yields_some fun pool' port' h => ?_
      cases h
      exact hav
  refine (hallocate s₁.ports).bind fun first hfirst => ?_
  cases first with
  | error error => exact Yields.of_bind fun s => yields_some fun _ _ h => nomatch h
  | ok first =>
    have hone := hfirst first.1 first.2 rfl
    rw [hports] at hone
    refine (hallocate first.1).bind fun second hsecond => ?_
    cases second with
    | ok second =>
      refine yields_some fun adapterPort policyPort h => ?_
      cases h
      rw [hone, hsecond second.1 second.2 rfl]
      exact ⟨second.1.available, rfl⟩
    | error error =>
      refine Yields.of_bind fun q => ?_
      obtain ⟨s₂, released⟩ := q
      cases released with
      | error failure => exact yields_some fun _ _ h => nomatch h
      | ok _ => exact Yields.of_bind fun s => yields_some fun _ _ h => nomatch h

theorem joinUdp {ports : List ℕ} (h : Keeps env keep s₀ s) {flow : PairFlow} (ha : flow.adapter ∉ keep)
    (hp : flow.policy ∉ keep) (hports : flow.ports <+: ports) (hbound : Yields (s.bindPair env flow.adapter flow.policy
      flow.adapterPort flow.policyPort) fun q => q.2 = true → Bound env q.1 flow) :
    Yields (s.joinUdp env flow) (Opens env keep ports s₀) := by
  refine Yields.of_some fun q hbind => ?_
  have hkeeps := h.bindPair ha hp flow.adapterPort flow.policyPort q hbind
  have hsockets := hbound q hbind
  obtain ⟨s₁, bound⟩ := q
  cases bound with
  | false => exact (cleanupSockets hkeeps ha hp _ _ _).bind fun s h => yields_some h
  | true =>
    refine Yields.of_some fun inserted hinsert => ?_
    cases inserted with
    | error error => exact (cleanupSockets hkeeps ha hp _ _ _).bind fun s h => yields_some h
    | ok inserted => exact yields_some ⟨s₁, flow, inserted.1, hkeeps, ha, hp, hports, hsockets rfl, hinsert, rfl⟩

theorem openUdp (h : Keeps env keep s₀ s) (metadata : FlowMetadata) :
    Yields (s.openUdp env metadata) (Opens env keep s.ports.available s₀) := by
  unfold StackBridge.openUdp
  split
  · exact yields_some h
  split
  · exact yields_some h
  next managedBytes _ =>
  refine Yields.of_some fun q hreserve => ?_
  have hports := reservePair_ports s managedBytes q hreserve
  have hkeeps := h.reservePair managedBytes q hreserve
  obtain ⟨s₁, reserved⟩ := q
  cases reserved with
  | error error => exact yields_some hkeeps
  | ok ports =>
    have hkeeps : Keeps env keep s₀ s₁ := hkeeps
    obtain ⟨adapterPort, policyPort⟩ := ports
    obtain ⟨hadapter, hone⟩ := hkeeps.add (.udp ⟨[], env.newUdp s₁.config⟩)
    obtain ⟨hpolicy, htwo⟩ := hone.add (.udp ⟨[], env.newUdp s₁.config⟩)
    refine joinUdp htwo hadapter hpolicy (hports adapterPort policyPort rfl) ?_
    obtain ⟨hvacant, hslot⟩ := slot_add s₁.sockets (.udp ⟨[], env.newUdp s₁.config⟩)
    obtain ⟨hvacant', hslot'⟩ := slot_add (s₁.sockets.add (.udp ⟨[], env.newUdp s₁.config⟩)).1
      (.udp ⟨[], env.newUdp s₁.config⟩)
    have hne : (s₁.sockets.add (.udp ⟨[], env.newUdp s₁.config⟩)).2 ≠
        (SocketSet.add (s₁.sockets.add (.udp ⟨[], env.newUdp s₁.config⟩)).1 (.udp ⟨[], env.newUdp s₁.config⟩)).2 := by
      intro he
      rw [← he, hslot, if_pos rfl] at hvacant'
      cases hvacant'
    have hfirst : (SocketSet.add (s₁.sockets.add (.udp ⟨[], env.newUdp s₁.config⟩)).1
        (.udp ⟨[], env.newUdp s₁.config⟩)).1.udpAt (s₁.sockets.add (.udp ⟨[], env.newUdp s₁.config⟩)).2 =
          some ⟨[], env.newUdp s₁.config⟩ := by
      rw [SocketSet.udpAt, hslot', if_neg (Ne.symm hne), hslot, if_pos rfl]
    have hsecond : (SocketSet.add (s₁.sockets.add (.udp ⟨[], env.newUdp s₁.config⟩)).1
        (.udp ⟨[], env.newUdp s₁.config⟩)).1.udpAt (SocketSet.add
          (s₁.sockets.add (.udp ⟨[], env.newUdp s₁.config⟩)).1 (.udp ⟨[], env.newUdp s₁.config⟩)).2 =
          some ⟨[], env.newUdp s₁.config⟩ := by
      rw [SocketSet.udpAt, hslot', if_pos rfl]
    refine (bindPair_bound hne hfirst hsecond adapterPort policyPort).mono fun q hq htrue side => ?_
    obtain ⟨a, p, hba, hbp, hata, hatp⟩ := hq htrue
    cases side with
    | adapter => exact ⟨_, a, hba, hata⟩
    | policy => exact ⟨_, p, hbp, hatp⟩

theorem releaseFlow (h : Keeps env keep s₀ s) {flow : PairFlow} (ha : flow.adapter ∉ keep) (hp : flow.policy ∉ keep) :
    Yields (s.releaseFlow flow) fun q => Keeps env keep s₀ q.1 := by
  refine (h.removeSocket ha).bind fun s h => ?_
  refine (h.removeSocket hp).bind fun s h => ?_
  refine (h.releasePort flow.adapterPort).bind fun q h => ?_
  obtain ⟨s₁, first⟩ := q
  cases first with
  | error error => exact yields_some h
  | ok _ =>
    refine (releasePort h flow.policyPort).bind fun q h => ?_
    obtain ⟨s₂, second⟩ := q
    cases second with
    | error error => exact yields_some h
    | ok _ => exact (release h flow.managedBytes).bind fun s h => yields_some h

theorem closeTcp (h : Keeps env keep s₀ s) {handle : Handle} (hflow : ∀ flows flow,
      s.tcpFlows.remove handle = some (flows, flow) → flow.adapter ∉ keep ∧ flow.policy ∉ keep) :
    Yields (s.closeTcp handle) fun q => Keeps env keep s₀ q.1 := by
  unfold StackBridge.closeTcp
  split
  · exact yields_some h
  · next flows flow hremove =>
    have hremoved : Keeps env keep s₀ { s with tcpFlows := flows } := { h with }
    exact hremoved.releaseFlow (hflow flows flow hremove).1 (hflow flows flow hremove).2

theorem closeUdp (env : Smoltcp W T U) {handle : Handle} (hlive : ∀ i ∈ keep, (SlotTable.slot s.sockets i).isSome)
    (hflow : ∀ flows flow, s.udpFlows.remove handle = some (flows, flow) →
      flow.adapter ∉ keep ∧ flow.policy ∉ keep) :
    Yields (s.closeUdp handle) fun q => q.1 = s ∨ ∃ flows flow, s.udpFlows.remove handle = some (flows, flow) ∧
      Keeps env keep { s with udpFlows := flows } q.1 := by
  unfold StackBridge.closeUdp
  split
  · exact yields_some (.inl rfl)
  · next flows flow hremove =>
    have hremoved : Keeps env keep { s with udpFlows := flows } { s with udpFlows := flows } := refl env hlive
    exact (hremoved.releaseFlow (hflow flows flow hremove).1 (hflow flows flow hremove).2).mono
      fun q h => .inr ⟨flows, flow, hremove, h⟩

theorem withTcpSocket (h : Keeps env keep s₀ s) {handle : Handle} {side : Side}
    (hflow : ∀ flow, s.tcpFlows.get handle = some flow → flow.socket side ∉ keep)
    (call : TcpSocket T → TcpSocket T) : Yields (s.withTcpSocket handle side call) (Keeps env keep s₀) := by
  unfold StackBridge.withTcpSocket
  split
  · exact yields_some h
  · next flow hget => exact Yields.of_bind fun _ => yields_some (h.write (hflow flow hget) _)

theorem withUdpSocket (h : Keeps env keep s₀ s) {handle : Handle} {side : Side}
    (hflow : ∀ flow, s.udpFlows.get handle = some flow → flow.socket side ∉ keep)
    (call : UdpSocket U → UdpSocket U) : Yields (s.withUdpSocket handle side call) (Keeps env keep s₀) := by
  unfold StackBridge.withUdpSocket
  split
  · exact yields_some h
  · next flow hget => exact Yields.of_bind fun _ => yields_some (h.write (hflow flow hget) _)

theorem withPacketTcpSocket (h : Keeps env keep s₀ s) {handle : Handle}
    (hflow : ∀ flow, s.packetTcpFlows.get handle = some flow → flow.socket ∉ keep)
    (call : TcpSocket T → TcpSocket T) : Yields (s.withPacketTcpSocket handle call) (Keeps env keep s₀) := by
  unfold StackBridge.withPacketTcpSocket
  split
  · exact yields_some h
  · next flow hget => exact Yields.of_bind fun _ => yields_some (h.write (hflow flow hget) _)

theorem packetUdpSend (h : Keeps env keep s₀ s) (handle : Handle) (length : ℕ) (call : U → U)
    (hgroups : ∀ destination group, KeyedList.get s.packetUdpGroups destination = some group → group.socket ∉ keep) :
    Yields (s.packetUdpSend handle length call) (Keeps env keep s₀) := by
  unfold StackBridge.packetUdpSend
  split
  · exact yields_some h
  split
  · exact yields_some h
  split
  · exact yields_some h
  · next group hget => exact Yields.of_bind fun _ => yields_some (h.write (hgroups _ group hget) _)

theorem packetUdpRecv (h : Keeps env keep s₀ s) (handle : Handle) (length : ℕ) :
    Yields (s.packetUdpRecv handle length) fun q => Keeps env keep s₀ q.1 := by
  unfold StackBridge.packetUdpRecv
  split
  · exact yields_some h
  split
  · exact yields_some h
  next packet _ =>
  split
  · exact yields_some h
  · refine Yields.bind (P := Keeps env keep s₀) (release ?_ _) fun s h => yields_some h
    exact { h with }

theorem openPacketTcp (h : Keeps env keep s₀ s) (tuple : PacketTcpTuple) (managedBytes : ℕ) :
    Yields (s.openPacketTcp env tuple managedBytes) fun q => Keeps env keep s₀ q.1 := by
  obtain ⟨hfresh, h₁⟩ := h.add (.tcp ⟨.closed, env.newTcp s.config⟩)
  unfold StackBridge.openPacketTcp
  generalize s.sockets.add (.tcp ⟨.closed, env.newTcp s.config⟩) = added at hfresh h₁ ⊢
  obtain ⟨sockets, socket⟩ := added
  refine Yields.of_bind fun fresh => ?_
  dsimp only
  cases env.listen fresh.rest tuple.destination.listen with
  | error message =>
    refine (h₁.removeSocket hfresh).bind fun s h => ?_
    exact (h.release managedBytes).bind fun s h => yields_some h
  | ok rest =>
    have h₂ := h₁.write hfresh (some (.tcp ⟨.listen, rest⟩))
    refine Yields.of_bind fun inserted => ?_
    cases inserted with
    | ok inserted => exact yields_some { h₂ with }
    | error error =>
      refine (h₂.removeSocket hfresh).bind fun s h => ?_
      exact (h.release managedBytes).bind fun s h => yields_some h

theorem prepareTuple (h : Keeps env keep s₀ s) {τ : Type} {rx tx : ℕ}
    {opened : StackBridge W T U → τ → ℕ → Option (StackBridge W T U × Except StackError Unit)} {fresh : Option τ}
    (hopened : ∀ s tuple managedBytes, Keeps env keep s₀ s →
      Yields (opened s tuple managedBytes) fun q => Keeps env keep s₀ q.1) :
    Yields (s.prepareTuple rx tx opened fresh) fun q => Keeps env keep s₀ q.1 := by
  unfold StackBridge.prepareTuple
  split
  · exact yields_some h
  split
  · exact yields_some h
  split
  · exact yields_some h
  next he => exact hopened _ _ _ (h.reserve he)

theorem preparePacketTcp (h : Keeps env keep s₀ s) :
    Yields (s.preparePacketTcp env) fun q => Keeps env keep s₀ q.1 := by
  rw [StackBridge.preparePacketTcp_eq]
  exact h.prepareTuple fun _ _ _ h => h.openPacketTcp _ _

theorem openPacketUdp (h : Keeps env keep s₀ s) (tuple : PacketUdpTuple) (managedBytes : ℕ) :
    Yields (s.openPacketUdp env tuple managedBytes) fun q => Keeps env keep s₀ q.1 := by
  obtain ⟨hfresh, h₁⟩ := h.add (.udp ⟨[], env.newUdp s.config⟩)
  unfold StackBridge.openPacketUdp
  generalize s.sockets.add (.udp ⟨[], env.newUdp s.config⟩) = added at hfresh h₁ ⊢
  obtain ⟨sockets, socket⟩ := added
  refine Yields.of_bind fun fresh => ?_
  dsimp only
  cases env.bind fresh.rest tuple.destination.listen with
  | none =>
    refine (h₁.removeSocket hfresh).bind fun s h => ?_
    exact (h.release managedBytes).bind fun s h => yields_some h
  | some rest =>
    have h₂ := h₁.write hfresh (some (.udp ⟨fresh.rx, rest⟩))
    exact yields_some { h₂ with }

theorem preparePacketUdp (h : Keeps env keep s₀ s) :
    Yields (s.preparePacketUdp env) fun q => Keeps env keep s₀ q.1 := by
  rw [StackBridge.preparePacketUdp_eq]
  exact h.prepareTuple fun _ _ _ h => h.openPacketUdp _ _

theorem queueEstablished (h : Keeps env keep s₀ s) (handle : Handle) :
    Yields (s.queueEstablished handle) (Keeps env keep s₀) := by
  unfold StackBridge.queueEstablished
  split
  · exact yields_some h
  split
  · exact yields_some h
  refine Yields.of_bind fun socket => ?_
  split
  · exact yields_some { h with }
  · exact yields_some h

theorem queueEstablishedPacketTcp (h : Keeps env keep s₀ s) :
    Yields (s.queueEstablishedPacketTcp env) (Keeps env keep s₀) :=
  yields_foldlM (Keeps env keep s₀) (fun _ handle h => h.queueEstablished handle) _ h

theorem closePacketTcp (h : Keeps env keep s₀ s) {handle : Handle}
    (hflow : ∀ flows flow, s.packetTcpFlows.remove handle = some (flows, flow) → flow.socket ∉ keep) :
    Yields (s.closePacketTcp handle) fun q => Keeps env keep s₀ q.1 := by
  unfold StackBridge.closePacketTcp
  split
  · exact yields_some h
  next flows flow hremove =>
  refine Yields.bind (P := Keeps env keep s₀) (removeSocket ?_ (hflow flows flow hremove)) fun s h => ?_
  · exact { h with }
  · exact (h.release _).bind fun s h => yields_some h

theorem drainOne (h : Keeps env keep s₀ s) {destination : IpEndpoint}
    (hgroup : ∀ group, KeyedList.get s.packetUdpGroups destination = some group → group.socket ∉ keep) :
    Yields (s.drainOne destination) fun q => Keeps env keep s₀ q.1 := by
  unfold StackBridge.drainOne
  split
  · exact yields_some h
  next group hget =>
  refine Yields.of_bind fun socket => ?_
  split
  · exact yields_some h
  next payload source rx _ =>
  dsimp only
  split
  · exact yields_some h
  split
  · exact yields_some h
  next he =>
  have h₁ := (h.reserve he).write (hgroup group hget) (some (.udp ⟨rx, socket.rest⟩))
  split
  · split
    · exact yields_some { h₁ with }
    · exact (h₁.release _).bind fun s h => yields_some h
  · refine Yields.of_bind fun inserted => ?_
    cases inserted with
    | error error => exact (h₁.release _).bind fun s h => yields_some h
    | ok inserted => exact yields_some { h₁ with }

theorem drainPacketUdp (h : Keeps env [] s₀ s) : Yields (s.drainPacketUdp env) (Keeps env [] s₀) :=
  yields_foldlM (Keeps env [] s₀) (fun s _ h => yields_loop (Keeps env [] s₀)
    (fun _ h _ => h.drainOne fun _ _ => List.not_mem_nil) h (eachTurn_always (fun _ => trivial) _ s)) _ h

theorem releaseIncoming (h : Keeps env keep s₀ s) (incoming : Option (List UInt8)) :
    Yields (s.releaseIncoming incoming) (Keeps env keep s₀) := by
  cases incoming with
  | none => exact yields_some h
  | some packet => exact h.release packet.length

theorem releaseIncoming_groups (s : StackBridge W T U) (incoming : Option (List UInt8)) :
    Yields (s.releaseIncoming incoming) fun s' => s'.packetUdpGroups = s.packetUdpGroups := by
  cases incoming with
  | none => exact yields_some rfl
  | some packet =>
    change Yields (s.release packet.length) _
    unfold StackBridge.release
    split
    · exact yields_some rfl
    · exact yields_none

theorem closePacketUdp (h : Keeps env keep s₀ s) (handle : Handle)
    (hgroups : ∀ destination group, KeyedList.get s.packetUdpGroups destination = some group → group.socket ∉ keep) :
    Yields (s.closePacketUdp handle) fun q => Keeps env keep s₀ q.1 := by
  unfold StackBridge.closePacketUdp
  split
  · exact yields_some h
  next flows flow _ =>
  refine Yields.of_some fun s₁ hrelease => ?_
  have hsame := releaseIncoming_groups _ _ s₁ hrelease
  have h₁ : Keeps env keep s₀ s₁ :=
    releaseIncoming (s := { s with packetUdpFlows := flows }) { h with } flow.incoming s₁ hrelease
  dsimp only at hsame ⊢
  split
  · exact yields_some { h₁ with }
  next group hget =>
  rw [hsame] at hget
  split
  · refine Yields.bind (P := Keeps env keep s₀) (removeSocket ?_ (hgroups _ group hget)) fun s h => ?_
    · exact { h₁ with }
    · exact (h.release _).bind fun s h => yields_some h
  · exact yields_some { h₁ with }

end Keeps
/-- What has to be shown so that a tick keeps `J`, a property of the device and of the slots. -/
structure QueueRule (env : Smoltcp W T U) (G : TickGuard W T U)
    (J : BoundedDevice → Ipv6Reassembly → Prop) : Prop where
  pop : ∀ d r, J d r → Yields d.popIngress fun q => J q.1 r
  ingress : ∀ s : StackBridge W T U, J s.device s.ipv6Reassembly → G.ingress s →
    Yields (s.pollIngressSingle env) fun q => J q.1.device q.1.ipv6Reassembly
  egress : ∀ s : StackBridge W T U, J s.device s.ipv6Reassembly → G.egress s →
    J (s.pollEgress env).device s.ipv6Reassembly

namespace QueueRule

variable {env : Smoltcp W T U} {G : TickGuard W T U} {J : BoundedDevice → Ipv6Reassembly → Prop}

theorem carry {keep : List ℕ} {s₀ : StackBridge W T U} (hj : J s₀.device s₀.ipv6Reassembly)
    (h : Keeps env keep s₀ s) : J s.device s.ipv6Reassembly := by
  rw [h.device, h.reassembly]
  exact hj

theorem dropFront (rule : QueueRule env G J) (hj : J s.device s.ipv6Reassembly) :
    Yields s.dropFront fun s' => J s'.device s'.ipv6Reassembly :=
  (rule.pop s.device s.ipv6Reassembly hj).bind fun _ hq => yields_some hq

theorem secondPreparation (rule : QueueRule env G J) (hj : J s.device s.ipv6Reassembly)
    {f : StackBridge W T U × Except StackError Unit → Option (StackBridge W T U × Bool)}
    (herror : ∀ s' e, f (s', .error e) = s'.dropFront.bind fun s' => some (s', false))
    (hok : ∀ s', f (s', .ok ()) = some (s', true)) :
    Yields (s.preparePacketUdp env >>= f) fun q => J q.1.device q.1.ipv6Reassembly := by
  refine (Keeps.start env s).preparePacketUdp.bind fun q h => ?_
  obtain ⟨s₁, prepared⟩ := q
  have hj₁ := carry hj h
  cases prepared with
  | ok _ =>
    rw [hok]
    exact yields_some hj₁
  | error error =>
    rw [herror]
    exact (rule.dropFront hj₁).bind fun s' hs => yields_some hs

theorem prepareTurn (rule : QueueRule env G J) (hj : J s.device s.ipv6Reassembly) :
    Yields (s.prepareTurn env) fun q => J q.1.device q.1.ipv6Reassembly := by
  refine (Keeps.start env s).preparePacketTcp.bind fun q h => ?_
  obtain ⟨s₁, prepared⟩ := q
  have hj₁ := carry hj h
  cases prepared with
  | ok _ => exact rule.secondPreparation hj₁ (fun _ _ => rfl) (fun _ => rfl)
  | error error =>
    refine (rule.dropFront hj₁).bind fun s₂ hj₂ => ?_
    exact rule.secondPreparation hj₂ (fun _ _ => rfl) (fun _ => rfl)

theorem ingressTurn (rule : QueueRule env G J) (hj : J s.device s.ipv6Reassembly)
    (hg : ∀ s', s.prepareTurn env = some (s', true) → G.ingress s') :
    Yields (s.ingressTurn env) fun q => J q.1.device q.1.ipv6Reassembly := by
  intro q hq
  obtain ⟨⟨s₁, go⟩, hprepared, hrest⟩ := Option.bind_eq_some_iff.mp hq
  have hj₁ := rule.prepareTurn hj (s₁, go) hprepared
  cases go with
  | false =>
    cases hrest
    exact hj₁
  | true => exact rule.ingress s₁ hj₁ (hg s₁ hprepared) q hrest

theorem poll (rule : QueueRule env G J) (hj : J s.device s.ipv6Reassembly)
    (hg : PollGuard env G s) : Yields (s.poll env) fun s' => J s'.device s'.ipv6Reassembly := by
  intro s' hpoll
  obtain ⟨s₁, hturns, hpoll⟩ := Option.bind_eq_some_iff.mp hpoll
  obtain ⟨s₂, hqueue, hpoll⟩ := Option.bind_eq_some_iff.mp hpoll
  obtain ⟨s₃, hdrain, hlast⟩ := Option.bind_eq_some_iff.mp hpoll
  have hj₁ : J s₁.device s₁.ipv6Reassembly := by
    refine yields_loop (fun s : StackBridge W T U => J s.device s.ipv6Reassembly)
      (fun _ hj hg => rule.ingressTurn hj hg) ?_ hg.1 s₁ hturns
    exact hj
  have hj₂ := carry hj₁ ((Keeps.start env s₁).queueEstablishedPacketTcp s₂ hqueue)
  have hj₃ := carry hj₂ ((Keeps.start env s₂).drainPacketUdp s₃ hdrain)
  cases hlast
  exact rule.egress s₃ hj₃ ((hg.2 s₁ hturns s₂ hqueue).2 s₃ hdrain)

theorem pollTimes (rule : QueueRule env G J) (n : ℕ) (hj : J s.device s.ipv6Reassembly)
    (hg : PollsGuard env G n s) :
    Yields (StackBridge.pollTimes env n s) fun s' => J s'.device s'.ipv6Reassembly := by
  induction n generalizing s with
  | zero => exact yields_some hj
  | succ n ih =>
    intro s' hpolls
    obtain ⟨s₁, hpoll, hrest⟩ := Option.bind_eq_some_iff.mp hpolls
    exact ih (rule.poll hj hg.1 s₁ hpoll) (hg.2 s₁ hpoll) s' hrest

theorem openTcp (rule : QueueRule env G J) (hj : J s.device s.ipv6Reassembly)
    (metadata : FlowMetadata)
    (hg : ∀ q, s.startTcp env metadata = some q → q.2.isOk = true → PollsGuard env G 8 q.1) :
    Yields (s.openTcp env metadata) fun q => J q.1.device q.1.ipv6Reassembly := by
  intro q hopen
  obtain ⟨⟨s₁, started⟩, hstart, hrest⟩ := Option.bind_eq_some_iff.mp hopen
  have hj₁ : J s₁.device s₁.ipv6Reassembly :=
    carry hj ((Keeps.start env s).startTcp metadata (s₁, started) hstart)
  cases started with
  | error error =>
    cases hrest
    exact hj₁
  | ok handle =>
    obtain ⟨s₂, hpolls, hlast⟩ := Option.bind_eq_some_iff.mp hrest
    cases hlast
    exact rule.pollTimes 8 hj₁ (hg (s₁, .ok handle) hstart rfl) s₂ hpolls

end QueueRule

theorem reassembly_rule (env : Smoltcp W T U) (r : Ipv6Reassembly) :
    QueueRule env anyTick fun _ r' => r' = r where
  pop _ _ h := fun _ _ => h
  egress _ h _ := h
  ingress s h _ := by
    refine Yields.of_bind fun received => ?_
    obtain ⟨device, packet⟩ := received
    cases packet with
    | none => exact yields_some h
    | some packet => exact yields_some h

/-- The calls that neither tick nor use the packet port or the switch of the device. -/
def StackCall.KeepsQueues : StackCall T U → Prop
  | .poll | .openTcp _ | .packetSend _ _ | .packetRecv _ | .stopDevice | .startDevice => False
  | _ => True

/-- Those of them that leave the UDP stream flows alone. -/
def StackCall.Elsewhere : StackCall T U → Prop
  | .openUdp _ | .closeUdp _ | .udpSocket _ _ _ => False
  | call => call.KeepsQueues

/-- The sockets of `keep` are those of no packet flow and of no TCP flow. -/
structure Aside (keep : List ℕ) (s : StackBridge W T U) : Prop where
  live : ∀ i ∈ keep, (SlotTable.slot s.sockets i).isSome
  tcp : ∀ handle flow, s.tcpFlows.get handle = some flow → ∀ side, flow.socket side ∉ keep
  packetTcp : ∀ handle flow, s.packetTcpFlows.get handle = some flow → flow.socket ∉ keep
  groups : ∀ destination group, KeyedList.get s.packetUdpGroups destination = some group → group.socket ∉ keep

theorem Aside.nil (s : StackBridge W T U) : Aside [] s :=
  ⟨fun _ h => (nomatch h), fun _ _ _ _ => List.not_mem_nil, fun _ _ _ => List.not_mem_nil,
    fun _ _ _ => List.not_mem_nil⟩

theorem get_of_removed {α : Type} {t t' : HandleTable α} {handle : Handle} {a : α}
    (h : t.remove handle = some (t', a)) : t.get handle = some a := by
  unfold HandleTable.remove at h
  split at h
  · cases h
  next slot hslot =>
  split at h
  · cases h
  next hgeneration =>
  split at h
  · cases h
  next value hvalue =>
  cases h
  rw [HandleTable.get, hslot]
  simpa [hvalue] using hgeneration

namespace SharedStackBridge

variable {s : SharedStackBridge W T U} {env : Smoltcp W T U} {keep : List ℕ}

theorem onInner_yields {inner : Option (StackBridge W T U)} {P : StackBridge W T U → Prop} (h : Yields inner P) :
    Yields (s.onInner inner) fun s' => P s'.inner :=
  yields_map h

theorem onLease_yields {leases : List Handle} {handle : Handle} {inner : Option (StackBridge W T U)}
    {P : StackBridge W T U → Prop} (hs : P s.inner) (h : Yields inner P) :
    Yields (s.onLease leases handle inner) fun s' => P s'.inner := by
  unfold onLease
  split
  · exact onInner_yields h
  · exact yields_some hs

theorem acceptPacketTcp_keeps (h : Aside keep s.inner) : Keeps env keep s.inner s.acceptPacketTcp.1.inner := by
  have hstart := Keeps.refl env h.live
  unfold acceptPacketTcp
  split
  · exact hstart
  dsimp only
  split
  · exact { hstart with }
  · exact { hstart with }

theorem acceptPacketUdp_keeps (h : Aside keep s.inner) : Keeps env keep s.inner s.acceptPacketUdp.1.inner := by
  have hstart := Keeps.refl env h.live
  unfold acceptPacketUdp
  split
  · exact hstart
  dsimp only
  split
  · exact { hstart with }
  · exact { hstart with }

theorem step_elsewhere (h : Aside keep s.inner) (call : StackCall T U) (hcall : call.Elsewhere) :
    Yields (s.step env call) fun s' => Keeps env keep s.inner s'.inner := by
  have hstart := Keeps.refl env h.live
  cases call with
  | closeTcp handle =>
    refine onInner_yields (yields_map (hstart.closeTcp fun flows flow hremove => ?_))
    have hflow := h.tcp handle flow (get_of_removed hremove)
    exact ⟨hflow .adapter, hflow .policy⟩
  | acceptPacketTcp => exact yields_some (acceptPacketTcp_keeps h)
  | acceptPacketUdp => exact yields_some (acceptPacketUdp_keeps h)
  | dropPacketTcp handle =>
    change Yields (s.dropPacketTcp handle) _
    unfold dropPacketTcp
    split
    · refine (hstart.closePacketTcp fun flows flow hremove => ?_).bind fun q hq => yields_some hq
      exact h.packetTcp handle flow (get_of_removed hremove)
    · exact yields_some hstart
  | dropPacketUdp handle =>
    change Yields (s.dropPacketUdp handle) _
    unfold dropPacketUdp
    split
    · exact (hstart.closePacketUdp handle h.groups).bind fun q hq => yields_some hq
    · exact yields_some hstart
  | packetUdpRecv handle length => exact onLease_yields hstart (yields_map (hstart.packetUdpRecv handle length))
  | packetUdpSend handle length call =>
    exact onLease_yields hstart (hstart.packetUdpSend handle length call h.groups)
  | tcpSocket handle side call =>
    exact onInner_yields (hstart.withTcpSocket (fun flow hget => h.tcp handle flow hget side) call)
  | packetTcpSocket handle call =>
    exact onLease_yields hstart (hstart.withPacketTcpSocket (h.packetTcp handle) call)
  | openUdp _ | closeUdp _ | udpSocket _ _ _ | poll | openTcp _ | packetSend _ _ | packetRecv _ | stopDevice
  | startDevice => exact hcall.elim

theorem step_queues (env : Smoltcp W T U) (call : StackCall T U) (hcall : call.KeepsQueues) :
    Yields (s.step env call) fun s' =>
      s'.inner.device = s.inner.device ∧ s'.inner.ipv6Reassembly = s.inner.ipv6Reassembly := by
  have hstart := Keeps.start env s.inner
  by_cases helse : call.Elsewhere
  · exact (step_elsewhere (Aside.nil s.inner) call helse).mono fun s' h => ⟨h.device, h.reassembly⟩
  cases call with
  | openUdp metadata =>
    refine onInner_yields (P := fun inner => inner.device = s.inner.device ∧
      inner.ipv6Reassembly = s.inner.ipv6Reassembly) (yields_map ((hstart.openUdp metadata).mono fun q hq => ?_))
    obtain ⟨inner, error | handle⟩ := q
    · exact ⟨hq.device, hq.reassembly⟩
    · obtain ⟨s₁, flow, flows, hkeeps, -, -, -, -, -, rfl⟩ := hq
      exact ⟨hkeeps.device, hkeeps.reassembly⟩
  | closeUdp handle =>
    have hlive : ∀ i ∈ ([] : List ℕ), (SlotTable.slot s.inner.sockets i).isSome := fun _ h => nomatch h
    have hcloses := Keeps.closeUdp env hlive fun flows flow (_ : s.inner.udpFlows.remove handle = some (flows, flow)) =>
      ⟨List.not_mem_nil, List.not_mem_nil⟩
    refine onInner_yields (P := fun inner => inner.device = s.inner.device ∧
      inner.ipv6Reassembly = s.inner.ipv6Reassembly) (yields_map (hcloses.mono fun q hq => ?_))
    rcases hq with he | ⟨flows, flow, -, hkeeps⟩
    · rw [he]
      exact ⟨rfl, rfl⟩
    · exact ⟨hkeeps.device, hkeeps.reassembly⟩
  | udpSocket handle side call =>
    exact onInner_yields (P := fun inner => inner.device = s.inner.device ∧
      inner.ipv6Reassembly = s.inner.ipv6Reassembly) ((hstart.withUdpSocket (fun _ _ => List.not_mem_nil) call).mono
        fun inner h => ⟨h.device, h.reassembly⟩)
  | closeTcp _ | acceptPacketTcp | acceptPacketUdp | dropPacketTcp _ | dropPacketUdp _ | packetUdpRecv _ _
  | packetUdpSend _ _ _ | tcpSocket _ _ _ | packetTcpSocket _ _ => exact absurd trivial helse
  | poll | openTcp _ | packetSend _ _ | packetRecv _ | stopDevice | startDevice => exact hcall.elim

theorem step_reassembly (env : Smoltcp W T U) (call : StackCall T U)
    (hcall : ∀ packet nowMs, call ≠ .packetSend packet nowMs) :
    Yields (s.step env call) fun s' => s'.inner.ipv6Reassembly = s.inner.ipv6Reassembly := by
  by_cases hkeeps : call.KeepsQueues
  · exact (step_queues env call hkeeps).mono fun s' h => h.2
  cases call with
  | openTcp metadata =>
    exact yields_map (yields_map ((reassembly_rule env s.inner.ipv6Reassembly).openTcp rfl metadata
      fun q _ _ => pollsGuard_any env 8 q.1))
  | poll =>
    exact yields_map ((reassembly_rule env s.inner.ipv6Reassembly).poll rfl
      (pollGuard_any env s.inner))
  | packetSend packet nowMs => exact absurd rfl (hcall packet nowMs)
  | packetRecv length =>
    refine yields_map (yields_map ?_)
    unfold StackBridge.packetRecv
    split
    · exact yields_some rfl
    split
    · exact yields_some rfl
    · exact Yields.of_bind fun _ => yields_some rfl
  | stopDevice => exact yields_some rfl
  | startDevice => exact yields_some rfl
  | openUdp _ | closeTcp _ | closeUdp _ | acceptPacketTcp | acceptPacketUdp | dropPacketTcp _
  | dropPacketUdp _ | packetUdpRecv _ _ | packetUdpSend _ _ _ | tcpSocket _ _ _ | udpSocket _ _ _
  | packetTcpSocket _ _ => exact absurd trivial hkeeps

end SharedStackBridge
end Snolc.Stack
