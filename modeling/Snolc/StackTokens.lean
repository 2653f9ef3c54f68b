import Snolc.StackFrames
import Snolc.StackOrphans

set_option autoImplicit false

namespace Snolc.Stack
open GuardedRuns PartialPosts

variable {W T U : Type}

namespace BoundedDevice

def Enqueues (d : BoundedDevice) (packet : List UInt8) : Prop :=
  (d.consume packet).dropped = d.dropped ∧
    ((d.consume packet).ingress = d.ingress ++ [⟨packet, false⟩] ∨
      (d.consume packet).egress = d.egress ++ [packet])

theorem enqueues_iff (d : BoundedDevice) (packet : List UInt8) :
    d.Enqueues packet ↔ d.bytes + packet.length ≤ d.byteLimit := by
  unfold Enqueues consume
  by_cases hroom : d.bytes + packet.length ≤ d.byteLimit
  · simp only [hroom, if_true, iff_true]
    split
    · exact ⟨rfl, .inl rfl⟩
    · exact ⟨rfl, .inr rfl⟩
  · simp [hroom]

/-- A token handed out here takes every packet of at most the MTU. -/
def TakesAll (mtu : ℕ) (d : BoundedDevice) : Prop :=
  ∀ packet : List UInt8, packet.length ≤ mtu → d.Enqueues packet

def HasRoom (mtu : ℕ) (d : BoundedDevice) : Prop := d.bytes + mtu ≤ d.byteLimit

theorem takesAll_iff (mtu : ℕ) (d : BoundedDevice) : d.TakesAll mtu ↔ d.HasRoom mtu := by
  constructor
  · intro h
    have hlong := (d.enqueues_iff _).mp (h (List.replicate mtu 0) (by simp))
    rw [List.length_replicate] at hlong
    exact hlong
  · intro h packet hlen
    unfold HasRoom at h
    rw [enqueues_iff]
    omega

instance (mtu : ℕ) (d : BoundedDevice) : Decidable (d.HasRoom mtu) :=
  inferInstanceAs (Decidable (_ ≤ _))

theorem HasRoom.consume {mtu : ℕ} {d : BoundedDevice} (h : d.HasRoom mtu) {packet : List UInt8}
    (hlen : packet.length ≤ mtu) : (d.consume packet).dropped = d.dropped :=
  ((d.takesAll_iff mtu).mpr h packet hlen).1

end BoundedDevice

def EachToken (P : BoundedDevice → Prop) : BoundedDevice → List (List UInt8) → Prop
  | _, [] => True
  | d, packet :: packets => P d ∧ EachToken P (d.consume packet) packets

instance decidableEachToken (P : BoundedDevice → Prop) [∀ d, Decidable (P d)] (d : BoundedDevice)
    (packets : List (List UInt8)) : Decidable (EachToken P d packets) :=
  match packets with
  | [] => isTrue trivial
  | packet :: packets =>
    have := decidableEachToken P (d.consume packet) packets
    inferInstanceAs (Decidable (P d ∧ EachToken P (d.consume packet) packets))

/-- `P` of the device at every token it hands out: the one that comes with a packet received,
and the one for each packet sent. -/
def atTokens (env : Smoltcp W T U) (P : BoundedDevice → Prop) : TickGuard W T U where
  ingress s := ∀ q, s.device.receive = some q → q.2.isSome = true → P q.1
  drain _ _ := True
  egress s := s.device.stopped = false →
    EachToken P s.device (env.egress s.interface s.device.stopped s.sockets).2

section Decidable

variable (env : Smoltcp W T U) (P : BoundedDevice → Prop) [∀ d, Decidable (P d)]
  (s : StackBridge W T U)

instance : Decidable ((atTokens env P).ingress s) :=
  inferInstanceAs (Decidable (∀ q, s.device.receive = some q → q.2.isSome = true → P q.1))

instance (destination : IpEndpoint) : Decidable ((atTokens env P).drain s destination) :=
  isTrue trivial

instance : Decidable ((atTokens env P).egress s) :=
  inferInstanceAs (Decidable (s.device.stopped = false →
    EachToken P s.device (env.egress s.interface s.device.stopped s.sockets).2))

end Decidable

structure KeepsMtu (env : Smoltcp W T U) (mtu : ℕ) : Prop where
  reply : ∀ w set packet reply, (env.ingress w set packet).2 = some reply → reply.length ≤ mtu
  sent : ∀ w stopped set, ∀ packet ∈ (env.egress w stopped set).2, packet.length ≤ mtu

theorem EachToken.dropped {mtu : ℕ} (packets : List (List UInt8)) {d : BoundedDevice}
    (hlen : ∀ packet ∈ packets, packet.length ≤ mtu)
    (h : EachToken (BoundedDevice.HasRoom mtu) d packets) :
    (packets.foldl BoundedDevice.consume d).dropped = d.dropped := by
  induction packets generalizing d with
  | nil => rfl
  | cons packet packets ih =>
    obtain ⟨hroom, hrest⟩ := h
    rw [List.foldl_cons, ← hroom.consume (hlen packet List.mem_cons_self)]
    apply ih
    · intro p hp
      exact hlen p (List.mem_cons_of_mem packet hp)
    · exact hrest

theorem popIngress_dropped (d : BoundedDevice) :
    Yields d.popIngress fun q => q.1.dropped = d.dropped := by
  unfold BoundedDevice.popIngress
  split
  · exact yields_some rfl
  · unfold BoundedDevice.spend
    split
    · exact yields_some rfl
    · exact yields_none

theorem dropped_rule {env : Smoltcp W T U} {mtu : ℕ} (henv : KeepsMtu env mtu) (n : ℕ) :
    QueueRule env (atTokens env (BoundedDevice.HasRoom mtu)) fun d _ => d.dropped = n where
  pop d _ h := (popIngress_dropped d).mono fun _ hq => hq.trans h
  ingress s h hg := by
    intro q hq
    obtain ⟨⟨d, received⟩, hreceive, hrest⟩ := Option.bind_eq_some_iff.mp hq
    have hd : d.dropped = n := by
      rw [← h]
      unfold BoundedDevice.receive at hreceive
      split at hreceive
      · cases hreceive
        rfl
      · exact popIngress_dropped s.device _ hreceive
    cases received with
    | none =>
      cases hrest
      exact hd
    | some packet =>
      cases hrest
      cases hreply : (env.ingress s.interface s.sockets packet.bytes).2 with
      | none => simpa [hreply] using hd
      | some reply =>
        have hkept := (hg (d, some packet) hreceive rfl).consume (henv.reply _ _ _ reply hreply)
        simpa [hreply] using hkept.trans hd
  egress s h hg := by
    unfold StackBridge.pollEgress
    dsimp only
    cases hstop : s.device.stopped with
    | true => simpa using h
    | false =>
      have hkept := EachToken.dropped _ (henv.sent s.interface s.device.stopped s.sockets) (hg hstop)
      rw [hstop] at hkept
      simpa using hkept.trans h

theorem packetSend_dropped (s : StackBridge W T U) (packet : List UInt8) (nowMs : ℕ) :
    Yields (s.packetSend packet nowMs) fun q => q.1.device.dropped = s.device.dropped := by
  unfold StackBridge.packetSend
  split
  · exact yields_some rfl
  refine Yields.of_bind fun q => ?_
  obtain ⟨r, out⟩ := q
  cases out with
  | pending => exact yields_some rfl
  | buffered => exact yields_some rfl
  | dropped => exact yields_some rfl
  | packet p =>
    dsimp only
    split
    · exact yields_some rfl
    · exact yields_some rfl

theorem packetRecv_dropped (s : StackBridge W T U) (length : ℕ) :
    Yields (s.packetRecv length) fun q => q.1.device.dropped = s.device.dropped := by
  unfold StackBridge.packetRecv
  split
  · exact yields_some rfl
  split
  · exact yields_some rfl
  · unfold BoundedDevice.spend
    split
    · exact yields_some rfl
    · exact yields_none

theorem step_dropped {env : Smoltcp W T U} {mtu n : ℕ} (henv : KeepsMtu env mtu)
    {s : SharedStackBridge W T U} (h : s.inner.device.dropped = n) (call : StackCall T U)
    (hg : CallGuard env (atTokens env (BoundedDevice.HasRoom mtu)) s call) :
    Yields (s.step env call) fun s' => s'.inner.device.dropped = n := by
  have rule := dropped_rule henv n
  by_cases hkeeps : call.KeepsQueues
  · refine (SharedStackBridge.step_queues env call hkeeps).mono fun s' hs => ?_
    rw [hs.1]
    exact h
  cases call with
  | poll => exact yields_map (rule.poll h hg)
  | openTcp metadata => exact yields_map (yields_map (rule.openTcp h metadata hg))
  | packetSend packet nowMs =>
    exact yields_map (yields_map ((packetSend_dropped s.inner packet nowMs).mono fun _ hq => hq.trans h))
  | packetRecv length =>
    exact yields_map (yields_map ((packetRecv_dropped s.inner length).mono fun _ hq => hq.trans h))
  | stopDevice => exact yields_some h
  | startDevice => exact yields_some h
  | openUdp _ | closeTcp _ | closeUdp _ | acceptPacketTcp | acceptPacketUdp | dropPacketTcp _
  | dropPacketUdp _ | packetUdpRecv _ _ | packetUdpSend _ _ _ | tcpSocket _ _ _ | udpSocket _ _ _
  | packetTcpSocket _ _ => exact absurd trivial hkeeps

theorem guarded_run_dropped {env : Smoltcp W T U} {mtu : ℕ} (henv : KeepsMtu env mtu)
    {config : StackConfig} {maxFlows maxManagedBytes maxIngressPacketsPerTick : ℕ}
    {s₀ : StackBridge W T U}
    (hnew : StackBridge.new env config maxFlows maxManagedBytes maxIngressPacketsPerTick = .ok s₀)
    {calls : List (StackCall T U)}
    (hg : GuardedM (SharedStackBridge.step env)
      (CallGuard env (atTokens env (BoundedDevice.HasRoom mtu))) ⟨s₀, [], []⟩ calls) :
    Yields (SharedStackBridge.run env ⟨s₀, [], []⟩ calls) fun s => s.inner.device.dropped = 0 := by
  refine yields_guarded (fun s : SharedStackBridge W T U => s.inner.device.dropped = 0)
    (fun s call h hcall => step_dropped henv h call hcall) ?_ hg
  change s₀.device.dropped = 0
  rw [(new_idle hnew).device]
  rfl

theorem atTokens_takesAll (env : Smoltcp W T U) (mtu : ℕ) :
    atTokens env (BoundedDevice.TakesAll mtu) = atTokens env (BoundedDevice.HasRoom mtu) := by
  have hsame : BoundedDevice.TakesAll mtu = BoundedDevice.HasRoom mtu := by
    funext d
    exact propext (d.takesAll_iff mtu)
  rw [hsame]

/-- In a run every token takes every packet of at most the MTU, and no state counts a drop,
exactly when there is room for such a packet wherever a token is handed out. -/
theorem tokens_take_all_iff (env : Smoltcp W T U) (mtu : ℕ) (henv : KeepsMtu env mtu)
    (config : StackConfig) (maxFlows maxManagedBytes maxIngressPacketsPerTick : ℕ)
    (s₀ : StackBridge W T U)
    (hnew : StackBridge.new env config maxFlows maxManagedBytes maxIngressPacketsPerTick = .ok s₀)
    (calls : List (StackCall T U)) :
    (GuardedM (SharedStackBridge.step env)
        (CallGuard env (atTokens env (BoundedDevice.TakesAll mtu))) ⟨s₀, [], []⟩ calls ∧
      ∀ front, front <+: calls → ∀ s, SharedStackBridge.run env ⟨s₀, [], []⟩ front = some s →
        s.inner.device.dropped = 0) ↔
    GuardedM (SharedStackBridge.step env)
      (CallGuard env (atTokens env (BoundedDevice.HasRoom mtu))) ⟨s₀, [], []⟩ calls := by
  rw [atTokens_takesAll]
  constructor
  · intro h
    exact h.1
  · intro hg
    refine ⟨hg, fun front hfront s hrun => ?_⟩
    obtain ⟨back, rfl⟩ := hfront
    exact guarded_run_dropped henv hnew hg.split.1 s hrun

def relaySmoltcp : Smoltcp Unit (Option ListenEndpoint) (Option ListenEndpoint × List (List UInt8)) where
  start _ := some ()
  newTcp _ := none
  newUdp _ := (none, [])
  listen _ endpoint := .ok (some endpoint)
  connect w rest _ _ := (w, .ok rest)
  bind rest endpoint := some (some endpoint, rest.2)
  pollMaintenance w := w
  ingress w _ packet := (⟨w, fun _ => sampleTcp packet, fun _ socket =>
    let received := sampleUdp packet ⟨socket.rx, socket.rest.1⟩
    ⟨received.rx, (received.rest, socket.rest.2)⟩⟩, none)
  egress w stopped set :=
    if stopped then (⟨w, fun _ socket => socket, fun _ socket => socket⟩, [])
    else (⟨w, fun _ socket => socket, fun _ socket => { socket with rest := (socket.rest.1, []) }⟩,
      set.flatMap fun entry => match entry with
        | some (.udp socket) => socket.rest.2.filter fun packet => decide (packet.length ≤ 1280)
        | _ => [])
  handleOrder _ handles := handles
  handleOrder_perm _ _ := List.Perm.refl _
  endpointOrder _ endpoints := endpoints
  endpointOrder_perm _ _ := List.Perm.refl _

def relayConfig : StackConfig :=
  { sampleConfig with packetQueueBytes := maxIpv6PacketBytes, maxUdpPayloadBytes := 65507, reassemblySlots := 4 }

def relayedPacket : List UInt8 :=
  [0x45, 0, 0, 40, 0, 0, 0, 0, 64, 17, 0, 0, 10, 0, 0, 1, 10, 0, 0, 2, 0, 53, 156, 64, 0, 20, 0, 0,
    1, 2, 3, 4, 5, 6, 7, 8, 9, 10, 11, 12]

def plainPacket (length : ℕ) : List UInt8 := 0x45 :: List.replicate (length - 1) 0

abbrev RelayCall := StackCall (Option ListenEndpoint) (Option ListenEndpoint × List (List UInt8))

def relayCalls : List RelayCall :=
  [.packetSend emptyDatagram 0, .poll, .acceptPacketUdp,
    .packetUdpSend ⟨0, 1⟩ 12 fun rest => (rest.1, rest.2 ++ [relayedPacket])]

/-- With sixteen long packets behind the one the tick takes there are 39 bytes left. -/
def crowdedCalls : List RelayCall :=
  relayCalls ++ [.packetSend (plainPacket 20) 0] ++
    List.replicate 16 (.packetSend (plainPacket 4096) 0) ++ [.poll]

theorem relay_keepsMtu : KeepsMtu relaySmoltcp 1280 where
  reply w set packet reply h := by cases h
  sent w stopped set packet hp := by
    cases stopped with
    | true => cases hp
    | false =>
      obtain ⟨entry, -, hin⟩ := List.mem_flatMap.mp hp
      split at hin
      · exact of_decide_eq_true (List.mem_filter.mp hin).2
      · cases hin

theorem relay_starts : ∃ s₀, StackBridge.new relaySmoltcp relayConfig 4 1000000 1 = .ok s₀ := by
  have hok : (StackBridge.new relaySmoltcp relayConfig 4 1000000 1).toOption.isSome = true := by
    decide +kernel
  cases hnew : StackBridge.new relaySmoltcp relayConfig 4 1000000 1 with
  | error error =>
    rw [hnew] at hok
    cases hok
  | ok s₀ => exact ⟨s₀, rfl⟩

theorem sample_tokens_take_all : ∃ s₀,
    StackBridge.new relaySmoltcp relayConfig 4 1000000 1 = .ok s₀ ∧
    GuardedM (SharedStackBridge.step relaySmoltcp)
      (CallGuard relaySmoltcp (atTokens relaySmoltcp (BoundedDevice.TakesAll 1280)))
      ⟨s₀, [], []⟩ (relayCalls ++ [.poll]) ∧
    ∀ front, front <+: relayCalls ++ [.poll] → ∀ s,
      SharedStackBridge.run relaySmoltcp ⟨s₀, [], []⟩ front = some s →
        s.inner.device.dropped = 0 := by
  obtain ⟨s₀, hnew⟩ := relay_starts
  have hguard : ∀ s₀ ∈ (StackBridge.new relaySmoltcp relayConfig 4 1000000 1).toOption,
      GuardedM (SharedStackBridge.step relaySmoltcp)
        (CallGuard relaySmoltcp (atTokens relaySmoltcp (BoundedDevice.HasRoom 1280)))
        ⟨s₀, [], []⟩ (relayCalls ++ [.poll]) := by
    decide +kernel
  exact ⟨s₀, hnew, (tokens_take_all_iff relaySmoltcp 1280 relay_keepsMtu relayConfig 4 1000000 1 s₀
    hnew _).mpr (hguard s₀ (by rw [hnew]; rfl))⟩

/-- The datagram is handed to a token while the queue has 39 bytes left, and is gone. -/
theorem full_queue_drops_datagram : ∃ s₀ s,
    StackBridge.new relaySmoltcp relayConfig 4 1000000 1 = .ok s₀ ∧
    SharedStackBridge.run relaySmoltcp ⟨s₀, [], []⟩ crowdedCalls = some s ∧
    s.inner.device.dropped = 1 ∧ relayedPacket.length ≤ 1280 ∧ KeepsMtu relaySmoltcp 1280 ∧
    ¬ GuardedM (SharedStackBridge.step relaySmoltcp)
      (CallGuard relaySmoltcp (atTokens relaySmoltcp (BoundedDevice.TakesAll 1280)))
      ⟨s₀, [], []⟩ crowdedCalls := by
  obtain ⟨s₀, hnew⟩ := relay_starts
  have hrun : ((StackBridge.new relaySmoltcp relayConfig 4 1000000 1).toOption.bind fun s₀ =>
      SharedStackBridge.run relaySmoltcp ⟨s₀, [], []⟩ crowdedCalls).map
        (fun s => s.inner.device.dropped) = some 1 := by decide +kernel
  obtain ⟨s, hs, hdropped⟩ := Option.map_eq_some_iff.mp hrun
  rw [hnew] at hs
  refine ⟨s₀, s, hnew, hs, hdropped, by decide, relay_keepsMtu, fun hguard => ?_⟩
  rw [atTokens_takesAll] at hguard
  have hzero := guarded_run_dropped relay_keepsMtu hnew hguard s hs
  omega

end Snolc.Stack
