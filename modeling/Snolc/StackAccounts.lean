import Snolc.StackRuns

set_option autoImplicit false

namespace Snolc.Stack
open CheckedSlice GuardedRuns Handles
open Engine (FlowMetadata StackError)

variable {W T U : Type} {base : ℕ} {s s' : StackBridge W T U}

def anyTick : TickGuard W T U := ⟨fun _ => True, fun _ _ => True, fun _ => True⟩

theorem pollGuard_any (env : Smoltcp W T U) (s : StackBridge W T U) : PollGuard env anyTick s :=
  ⟨eachTurn_always (fun _ _ _ => trivial) _ _, fun _ _ _ _ =>
    ⟨guardedM_always (fun _ _ => eachTurn_always (fun _ => trivial) _ _) _ _, fun _ _ => trivial⟩⟩

theorem pollsGuard_any (env : Smoltcp W T U) (n : ℕ) (s : StackBridge W T U) :
    PollsGuard env anyTick n s := by
  induction n generalizing s with
  | zero => trivial
  | succ n ih => exact ⟨pollGuard_any env s, fun s' _ => ih s'⟩

theorem callGuard_any (env : Smoltcp W T U) (s : SharedStackBridge W T U) (call : StackCall T U) :
    CallGuard env anyTick s call := by
  cases call with
  | poll => exact pollGuard_any env s.inner
  | openTcp metadata => exact fun r _ _ => pollsGuard_any env 8 r.1
  | _ => trivial

theorem books_rule (env : Smoltcp W T U) (base : ℕ) :
    RunRule env base anyTick (fun _ _ => True) (fun _ _ => True) where
  tick _ := {
    maintain := fun _ _ _ => trivial
    tcp := fun _ _ _ _ _ _ => trivial
    dropTcp := fun _ _ _ _ _ _ _ _ => trivial
    udp := fun _ _ _ _ _ _ => trivial
    dropUdp := fun _ _ _ _ _ _ _ _ => trivial
    ingress := fun _ _ _ _ _ _ _ _ _ _ _ => trivial
    queue := fun _ h _ => queue_rule env (fun _ _ _ _ _ _ => trivial) h trivial
    drain := fun _ _ _ _ _ _ _ _ _ _ _ => trivial
    egress := fun _ _ _ _ _ _ _ => trivial }
  keep _ _ _ := trivial
  passed _ _ _ _ _ := trivial
  acceptTcp _ _ _ _ _ _ _ := trivial
  acceptUdp _ _ _ _ _ _ := trivial
  dropTcp _ _ _ _ _ _ _ _ _ _ _ := trivial
  staleTcp _ _ _ _ _ _ := trivial
  dropUdp _ _ _ _ _ _ _ _ _ := trivial
  callTcp _ _ _ _ _ _ _ _ _ _ := trivial
  sendUdp _ _ _ _ _ _ _ _ _ _ _ := trivial
  recvUdp _ _ _ _ _ := trivial

theorem books_new {env : Smoltcp W T U} {config : StackConfig}
    {maxFlows maxManagedBytes maxIngressPacketsPerTick : ℕ} {s₀ : StackBridge W T U}
    (hnew : StackBridge.new env config maxFlows maxManagedBytes maxIngressPacketsPerTick = .ok s₀) :
    Books s₀.managedBytes {} s₀ := by
  unfold StackBridge.new at hnew
  split at hnew
  · cases hnew
  next managedBytes _ =>
  split at hnew
  · cases hnew
  next hle =>
  split at hnew
  · cases hnew
  cases hnew
  exact {
    tcpSound := HandleTable.new_sound maxFlows
    udpSound := HandleTable.new_sound maxFlows
    money := rfl
    money_le := Nat.le_of_not_lt hle
    ports := PortsOk.new
    device := BoundedDevice.new_balanced _
    sockets := SocketsOk.nil
    tcpIndex := Indexed.nil maxFlows
    udpIndex := Indexed.nil maxFlows
    queued := fun _ h => nomatch h
    grouped := Grouped.nil maxFlows
    reassembly := soundSlots_new config.reassemblySlots config.reassemblyTimeoutMs }

structure Idle (config : StackConfig) (maxFlows : ℕ) (s : StackBridge W T U) : Prop where
  device : s.device = BoundedDevice.new config.packetQueueBytes
  udpFlows : s.udpFlows = HandleTable.new maxFlows
  packetTcpFlows : s.packetTcpFlows = HandleTable.new maxFlows
  pendingPacketTcp : s.pendingPacketTcp = []
  packetUdpGroups : s.packetUdpGroups = []
  packetUdpByTuple : s.packetUdpByTuple = []
  reassembly : s.ipv6Reassembly = Ipv6Reassembly.new config.reassemblySlots config.reassemblyTimeoutMs

theorem new_idle {env : Smoltcp W T U} {config : StackConfig}
    {maxFlows maxManagedBytes maxIngressPacketsPerTick : ℕ} {s₀ : StackBridge W T U}
    (hnew : StackBridge.new env config maxFlows maxManagedBytes maxIngressPacketsPerTick = .ok s₀) :
    Idle config maxFlows s₀ := by
  unfold StackBridge.new at hnew
  split at hnew
  · cases hnew
  split at hnew
  · cases hnew
  split at hnew
  · cases hnew
  cases hnew
  exact ⟨rfl, rfl, rfl, rfl, rfl, rfl, rfl⟩

theorem run_books (env : Smoltcp W T U) {s : SharedStackBridge W T U}
    (h : Books base {} s.inner) (calls : List (StackCall T U)) :
    ∃ s', s.run env calls = some s' ∧ Books base {} s'.inner := by
  obtain ⟨s', e, h', -⟩ := (books_rule env base).run h trivial
    (guardedM_always (callGuard_any env) s calls)
  exact ⟨s', e, h'⟩

/-- The budget is what was reserved at first and what is held; the ports of live flows and
the available ones make up the dynamic range; the device counts what it queues. -/
structure Solvent (base : ℕ) (s : StackBridge W T U) : Prop where
  bytes : s.managedBytes = base + s.heldBytes
  bytes_le : s.managedBytes ≤ s.maxManagedBytes
  ports_nodup : s.heldPorts.Nodup
  ports_marked : ∀ port : ℕ, s.ports.allocated[port]? = some true ↔ port ∈ s.heldPorts
  available_nodup : s.ports.available.Nodup
  ports_disjoint : ∀ port ∈ s.heldPorts, port ∉ s.ports.available
  ports_cover : ∀ port : ℕ, port ∈ s.heldPorts ∨ port ∈ s.ports.available ↔
    1024 ≤ port ∧ port ≤ 65535
  queued : s.device.bytes = s.device.queued
  queued_le : s.device.bytes ≤ s.device.byteLimit

structure Unspent (s s' : StackBridge W T U) : Prop where
  managedBytes : s'.managedBytes = s.managedBytes
  tcpFlows : s'.tcpFlows = s.tcpFlows
  udpFlows : s'.udpFlows = s.udpFlows
  packetTcpFlows : s'.packetTcpFlows = s.packetTcpFlows
  packetUdpGroups : s'.packetUdpGroups = s.packetUdpGroups
  packetUdpFlows : s'.packetUdpFlows = s.packetUdpFlows
  allocated : s'.ports.allocated = s.ports.allocated
  available : s'.ports.available.Perm s.ports.available
  device : s'.device = s.device

theorem Books.solvent (h : Books base {} s) : Solvent base s := by
  have hp : PortsOk s.heldPorts s.ports := h.ports.perm (by rw [List.append_nil])
  obtain ⟨hheld, havail, hdisj⟩ := List.nodup_append.mp hp.nodup
  exact {
    bytes := h.money
    bytes_le := h.money_le
    ports_nodup := hheld
    ports_marked := hp.marked
    available_nodup := havail
    ports_disjoint := fun port hport hav => hdisj port hport port hav rfl
    ports_cover := fun port => by
      rw [← List.mem_append, hp.share.mem_iff, mem_dynamicPorts]
      omega
    queued := h.device.bytes
    queued_le := h.device.le_limit }

theorem PortsOk.allocated_eq {held : List ℕ} {pool pool' : PortPool} (h : PortsOk held pool)
    (h' : PortsOk held pool') : pool'.allocated = pool.allocated := by
  apply List.ext_getElem?
  intro port
  have hlen := h.length
  have hlen' := h'.length
  have hiff := (h'.marked port).trans (h.marked port).symm
  rcases Nat.lt_or_ge port 65536 with hlt | hge
  · rw [List.getElem?_eq_getElem (by omega), List.getElem?_eq_getElem (by omega)] at hiff ⊢
    simpa using hiff
  · rw [List.getElem?_eq_none (by omega), List.getElem?_eq_none (by omega)]

theorem Refused.unspent (h : Refused s s') (hb : Books base {} s) (hb' : Books base {} s') :
    Unspent s s' := by
  have hheld : s'.heldPorts = s.heldPorts := by
    unfold StackBridge.heldPorts
    rw [h.tcpFlows, h.udpFlows]
  have hbytes : s'.heldBytes = s.heldBytes := by
    unfold StackBridge.heldBytes
    rw [h.tcpFlows, h.udpFlows, h.tcp.flows, h.udp.groups, h.udp.flows]
  have hports' := hb'.ports
  rw [hheld] at hports'
  refine ⟨?_, h.tcpFlows, h.udpFlows, h.tcp.flows, h.udp.groups, h.udp.flows,
    hb.ports.allocated_eq hports', ?_, h.device⟩
  · rw [hb.money, hb'.money, hbytes]
  · exact (List.perm_append_left_iff _).mp (hports'.share.trans hb.ports.share.symm)

theorem openTcp_unspent {env : Smoltcp W T U} {metadata : FlowMetadata} {error : StackError}
    (h : Books base {} s) (he : s.openTcp env metadata = some (s', .error error)) :
    Unspent s s' := by
  obtain ⟨s₁, result, e1, h1, -, hr⟩ := h.startTcp env metadata
  unfold StackBridge.openTcp at he
  simp only [e1, Option.bind_eq_bind, Option.bind_some, Option.pure_def] at he
  cases result with
  | error e =>
    cases he
    exact (hr error rfl).unspent h h1
  | ok handle =>
    obtain ⟨s₂, e2, -⟩ := (books_rule env base).pollTimes [] 8 h1 trivial (pollsGuard_any env 8 s₁)
    simp only [e2, Option.bind_some] at he
    cases he

theorem openUdp_unspent {env : Smoltcp W T U} {metadata : FlowMetadata} {error : StackError}
    (h : Books base {} s) (he : s.openUdp env metadata = some (s', .error error)) :
    Unspent s s' := by
  obtain ⟨s₁, result, e1, h1, -, hr⟩ := h.openUdp env metadata
  cases e1.symm.trans he
  exact (hr error rfl).unspent h h1

/-- What becomes of a socket on a TCP packet that is in sequence. -/
def sampleTcp (packet : List UInt8) (socket : TcpSocket (Option ListenEndpoint)) :
    TcpSocket (Option ListenEndpoint) :=
  match transport 6 false packet with
  | none => socket
  | some (_, _, payload) =>
    let flags := field16 payload 12
    -- The ports are compared as numbers, so that a run is evaluated without a cast.
    if socket.rest.elim false (fun endpoint => endpoint.port.toNat == field16 payload 2) then
      match socket.state with
      | .listen => if flags / 2 % 2 = 1 then { socket with state := .synReceived } else socket
      | .synReceived =>
        if flags / 4 % 2 = 1 then { socket with state := .listen }
        else if flags / 16 % 2 = 1 then { socket with state := .established } else socket
      | .established => if flags % 2 = 1 then { socket with state := .closeWait } else socket
      | _ => socket
    else socket

/-- A UDP packet is received if its length field fits what it carries. -/
def sampleUdp (packet : List UInt8) (socket : UdpSocket (Option ListenEndpoint)) :
    UdpSocket (Option ListenEndpoint) :=
  match transport 17 true packet with
  | none => socket
  | some (source, destination, payload) =>
    let length := field16 payload 4
    if 8 ≤ length ∧ length ≤ payload.length ∧
        socket.rest = some ⟨some destination, UInt16.ofNat (field16 payload 2)⟩ then
      { socket with
        rx := socket.rx ++ [((payload.take length).drop 8,
          ⟨source, UInt16.ofNat (field16 payload 0)⟩)] }
    else socket

def sampleSmoltcp : Smoltcp Unit (Option ListenEndpoint) (Option ListenEndpoint) where
  start _ := some ()
  newTcp _ := none
  newUdp _ := none
  listen _ endpoint := .ok (some endpoint)
  connect w rest _ _ := (w, .ok rest)
  bind _ endpoint := some (some endpoint)
  pollMaintenance w := w
  ingress w _ packet := (⟨w, fun _ => sampleTcp packet, fun _ => sampleUdp packet⟩, none)
  egress w _ _ := (⟨w, fun _ socket => socket, fun _ socket => socket⟩, [])
  handleOrder _ handles := handles
  handleOrder_perm _ _ := List.Perm.refl _
  endpointOrder _ endpoints := endpoints
  endpointOrder_perm _ _ := List.Perm.refl _

def sampleConfig : StackConfig where
  tcpSocketRxBytes := 64
  tcpSocketTxBytes := 64
  udpSocketRxBytes := 64
  udpSocketTxBytes := 64
  packetQueueBytes := 4096
  maxUdpPayloadBytes := 1024
  reassemblySlots := 1
  reassemblyTimeoutMs := 1000

def sampleRun (calls : List (StackCall (Option ListenEndpoint) (Option ListenEndpoint))) :
    Option (SharedStackBridge Unit (Option ListenEndpoint) (Option ListenEndpoint)) :=
  match StackBridge.new sampleSmoltcp sampleConfig 4 200000 8 with
  | .error _ => none
  | .ok s₀ => SharedStackBridge.run sampleSmoltcp ⟨s₀, [], []⟩ calls

def segment (flags : UInt8) : List UInt8 :=
  [69, 0, 0, 40, 0, 0, 0, 0, 64, 6, 0, 0, 10, 0, 0, 2, 10, 0, 0, 1,
    156, 64, 0, 80, 0, 0, 0, 1, 0, 0, 0, 1, 80, flags, 16, 0, 0, 0, 0, 0]

def synFlag : UInt8 := 2
def ackFlag : UInt8 := 16
def finAckFlags : UInt8 := 17

def emptyDatagram : List UInt8 :=
  [69, 0, 0, 28, 0, 0, 0, 0, 64, 17, 0, 0, 10, 0, 0, 2, 10, 0, 0, 1, 156, 64, 0, 53, 0, 8, 0, 0]

theorem sample_starts :
    ∃ s₀, StackBridge.new sampleSmoltcp sampleConfig 4 200000 8 = .ok s₀ := by
  have hok : (StackBridge.new sampleSmoltcp sampleConfig 4 200000 8).toOption.isSome = true := by
    decide +kernel
  cases hnew : StackBridge.new sampleSmoltcp sampleConfig 4 200000 8 with
  | error error =>
    rw [hnew] at hok
    cases hok
  | ok s₀ => exact ⟨s₀, rfl⟩

/-- The accounting of the stack, over every run of its calls. -/
theorem resources_accounted (env : Smoltcp W T U) (config : StackConfig)
    (maxFlows maxManagedBytes maxIngressPacketsPerTick : ℕ) (s₀ : StackBridge W T U)
    (hnew : StackBridge.new env config maxFlows maxManagedBytes maxIngressPacketsPerTick = .ok s₀)
    (calls : List (StackCall T U)) :
    ∃ s, SharedStackBridge.run env ⟨s₀, [], []⟩ calls = some s ∧
      Solvent s₀.managedBytes s.inner ∧
      ∀ metadata error s', s.inner.openTcp env metadata = some (s', .error error) ∨
        s.inner.openUdp env metadata = some (s', .error error) → Unspent s.inner s' := by
  obtain ⟨s, e, h⟩ := run_books env (s := ⟨s₀, [], []⟩) (books_new hnew) calls
  refine ⟨s, e, h.solvent, fun metadata error s' he => ?_⟩
  rcases he with he | he
  · exact openTcp_unspent h he
  · exact openUdp_unspent h he

def sampleMetadata : FlowMetadata := ⟨.ipv4 #v[10, 0, 0, 1], 53, []⟩

theorem sample_accounted : ∃ s₀,
    StackBridge.new sampleSmoltcp sampleConfig 4 200000 8 = .ok s₀ ∧
    ∃ s, SharedStackBridge.run sampleSmoltcp ⟨s₀, [], []⟩
        [.openTcp sampleMetadata, .openUdp sampleMetadata, .closeTcp ⟨0, 1⟩, .poll] = some s ∧
      Solvent s₀.managedBytes s.inner ∧
      ∀ metadata error s', s.inner.openTcp sampleSmoltcp metadata = some (s', .error error) ∨
        s.inner.openUdp sampleSmoltcp metadata = some (s', .error error) → Unspent s.inner s' := by
  obtain ⟨s₀, hnew⟩ := sample_starts
  exact ⟨s₀, hnew, resources_accounted _ _ _ _ _ s₀ hnew _⟩

/-- The tuples of the index and the live flows correspond one to one, and the queue names
live flows, each once. -/
structure IndexExact {α τ : Type} [DecidableEq τ] (tuple : α → τ) (flows : HandleTable α)
    (byTuple : List (τ × Handle)) (pending : List Handle) : Prop where
  agrees : ∀ t handle, KeyedList.get byTuple t = some handle ↔
    ∃ flow, flows.get handle = some flow ∧ tuple flow = t
  tuples_nodup : (byTuple.map Prod.fst).Nodup
  handles_nodup : (byTuple.map Prod.snd).Nodup
  pending_nodup : pending.Nodup
  pending_live : ∀ handle ∈ pending, ∃ flow, flows.get handle = some flow

structure Consistent (s : StackBridge W T U) : Prop where
  tcp : IndexExact PacketTcpFlow.tuple s.packetTcpFlows s.packetTcpByTuple s.pendingPacketTcp
  udp : IndexExact PacketUdpFlow.tuple s.packetUdpFlows s.packetUdpByTuple s.pendingPacketUdp
  grouped : ∀ handle flow, s.packetUdpFlows.get handle = some flow →
    ∃ group, KeyedList.get s.packetUdpGroups flow.tuple.destination = some group
  counted : ∀ destination group, KeyedList.get s.packetUdpGroups destination = some group →
    group.flows = s.packetUdpFlows.entries.countP (destined destination)
  sockets_nodup : (s.heldTcp ++ s.heldUdp).Nodup
  tcp_present : ∀ i ∈ s.heldTcp, ∃ socket, s.sockets.tcpAt i = some socket
  udp_present : ∀ i ∈ s.heldUdp, ∃ socket, s.sockets.udpAt i = some socket

theorem Indexed.exact {α τ : Type} [DecidableEq τ] {tuple : α → τ} {flows : HandleTable α}
    {byTuple : List (τ × Handle)} {pending : List Handle}
    (h : Indexed tuple flows byTuple pending) : IndexExact tuple flows byTuple pending where
  agrees _ _ := (KeyedList.get_eq_some h.distinct).trans h.mem_index
  tuples_nodup := h.distinct
  handles_nodup := by
    have hmap := h.index.map Prod.snd
    rw [List.map_map] at hmap
    exact hmap.nodup_iff.mpr flows.entries_nodup
  pending_nodup := h.pending_nodup
  pending_live := h.pending_live

theorem Books.consistent (h : Books base {} s) : Consistent s := by
  have hs : SocketsOk s.heldTcp s.heldUdp s.sockets :=
    h.sockets.perm (by rw [List.append_nil]) (by rw [List.append_nil])
  exact {
    tcp := h.tcpIndex.exact
    udp := h.udpIndex.exact
    grouped := fun handle flow hf => by
      obtain ⟨group, hg⟩ := h.grouped.grouped (handle, flow) (HandleTable.mem_entries.mpr hf)
      exact ⟨group, (KeyedList.get_eq_some h.grouped.distinct).mpr hg⟩
    counted := fun destination group hg =>
      h.grouped.counted destination group (KeyedList.mem_of_get hg)
    sockets_nodup := hs.nodup
    tcp_present := fun i hi => Option.isSome_iff_exists.mp (hs.tcp i hi)
    udp_present := fun i hi => Option.isSome_iff_exists.mp (hs.udp i hi) }

/-- The indexes of packet flows agree with the flows in every state a run reaches, and no
access to the socket set fails. -/
theorem packet_indexes_consistent (env : Smoltcp W T U) (config : StackConfig)
    (maxFlows maxManagedBytes maxIngressPacketsPerTick : ℕ) (s₀ : StackBridge W T U)
    (hnew : StackBridge.new env config maxFlows maxManagedBytes maxIngressPacketsPerTick = .ok s₀)
    (calls : List (StackCall T U)) :
    ∃ s, SharedStackBridge.run env ⟨s₀, [], []⟩ calls = some s ∧ Consistent s.inner := by
  obtain ⟨s, e, h⟩ := run_books env (s := ⟨s₀, [], []⟩) (books_new hnew) calls
  exact ⟨s, e, h.consistent⟩

/-- A connection is made over the packet port and accepted, and so is the flow of a datagram. -/
def packetCalls : List (StackCall (Option ListenEndpoint) (Option ListenEndpoint)) :=
  [.packetSend (segment synFlag) 0, .poll, .packetSend (segment ackFlag) 0, .packetSend emptyDatagram 0, .poll,
    .acceptPacketTcp, .acceptPacketUdp]

theorem sample_consistent : ∃ s₀, StackBridge.new sampleSmoltcp sampleConfig 4 200000 8 = .ok s₀ ∧
    ∃ s, SharedStackBridge.run sampleSmoltcp ⟨s₀, [], []⟩ packetCalls = some s ∧
      s.inner.packetTcpByTuple.length = 1 ∧ s.inner.packetUdpByTuple.length = 1 ∧ Consistent s.inner := by
  obtain ⟨s₀, hnew⟩ := sample_starts
  obtain ⟨s, hs, hconsistent⟩ := packet_indexes_consistent _ _ _ _ _ s₀ hnew packetCalls
  have hrun : (sampleRun packetCalls).map (fun s =>
      (s.inner.packetTcpByTuple.length, s.inner.packetUdpByTuple.length)) = some (1, 1) := by
    decide +kernel
  simp only [sampleRun, hnew, hs, Option.map_some, Option.some.injEq, Prod.mk.injEq] at hrun
  exact ⟨s₀, hnew, s, hs, hrun.1, hrun.2, hconsistent⟩

end Snolc.Stack
