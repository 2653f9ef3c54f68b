import Snolc.StackPoll

set_option autoImplicit false

namespace Snolc.Stack
open CheckedSlice GuardedRuns Handles
open Engine (FlowMetadata StackError)

variable {W T U : Type} {base : ℕ} {s s' : StackBridge W T U}

structure Passed (s s' : StackBridge W T U) : Prop where
  tcp : QuietTcp s s'
  udp : QuietUdp s s'
  ingress : ∃ more, s'.device.ingress = s.device.ingress ++ more

theorem Quiet.passed (h : Quiet s s') : Passed s s' :=
  ⟨h.tcp, h.udp, [], by rw [h.device, List.append_nil]⟩

theorem Passed.of_device {device : BoundedDevice} {reassembly : Ipv6Reassembly}
    (more : List QueuedPacket) (h : device.ingress = s.device.ingress ++ more) :
    Passed s { s with device := device, ipv6Reassembly := reassembly } :=
  ⟨⟨rfl, rfl, rfl, fun _ _ => rfl⟩, ⟨rfl, rfl, rfl, rfl, fun _ _ => rfl⟩, more, h⟩

namespace Books

theorem packetRecv (h : Books base {} s) (length : ℕ) :
    ∃ s' result, s.packetRecv length = some (s', result) ∧ Books base {} s' ∧ Passed s s' := by
  unfold StackBridge.packetRecv
  split
  · exact ⟨s, _, rfl, h, (Quiet.refl s).passed⟩
  next packet egress heg =>
  split
  · exact ⟨s, _, rfl, h, (Quiet.refl s).passed⟩
  have hb := h.device.bytes
  have hl := h.device.le_limit
  simp only [BoundedDevice.queued, heg, List.map_cons, List.sum_cons] at hb
  have hle : packet.length ≤ s.device.bytes := by omega
  simp only [BoundedDevice.spend, hle, if_true, Option.bind_eq_bind, Option.bind_some,
    Option.pure_def]
  refine ⟨_, _, rfl, { h with device := ⟨?_, ?_⟩ },
    Passed.of_device [] (List.append_nil _).symm⟩
  · simp only [BoundedDevice.queued]
    omega
  · exact Nat.le_trans (Nat.sub_le _ _) hl

theorem packetSend (h : Books base {} s) (packet : List UInt8) (nowMs : ℕ) :
    ∃ s' result, s.packetSend packet nowMs = some (s', result) ∧ Books base {} s' ∧ Passed s s' := by
  unfold StackBridge.packetSend
  split
  · exact ⟨s, _, rfl, h, (Quiet.refl s).passed⟩
  obtain ⟨r, out, he, hr, -⟩ := ingest_frame h.reassembly packet nowMs
    (s.device.byteLimit - s.device.bytes)
  have h1 : Books base {} { s with ipv6Reassembly := r } := { h with reassembly := hr }
  have hp : Passed s { s with ipv6Reassembly := r } :=
    Passed.of_device [] (List.append_nil _).symm
  simp only [he, Option.bind_eq_bind, Option.bind_some, Option.pure_def]
  cases out with
  | pending => exact ⟨_, _, rfl, h1, hp⟩
  | buffered => exact ⟨_, _, rfl, h1, hp⟩
  | dropped => exact ⟨_, _, rfl, h1, hp⟩
  | packet packet =>
    simp only []
    split
    · exact ⟨_, _, rfl, h1, hp⟩
    next hroom =>
    have hb := h.device.bytes
    refine ⟨_, _, rfl, { h1 with device := ⟨?_, ?_⟩ }, Passed.of_device _ rfl⟩
    · simp only [BoundedDevice.queued, List.map_append, List.sum_append, List.map_cons,
        List.map_nil, List.sum_cons, List.sum_nil] at hb ⊢
      omega
    · have hl := h.device.le_limit
      change s.device.bytes + packet.length ≤ s.device.byteLimit
      omega

theorem withPacketTcpSocket (h : Books base {} s) (handle : Handle)
    (call : TcpSocket T → TcpSocket T) :
    ∃ s', s.withPacketTcpSocket handle call = some s' ∧ Books base {} s' ∧ QuietUdp s s' ∧
      (s' = s ∨ ∃ flow socket, s.packetTcpFlows.get handle = some flow ∧
        s' = { s with sockets := s.sockets.setTcp flow.socket socket }) := by
  unfold StackBridge.withPacketTcpSocket
  cases hg : s.packetTcpFlows.get handle with
  | none => exact ⟨s, rfl, h, QuietUdp.refl s, .inl rfl⟩
  | some flow =>
    have hm : flow.socket ∈ s.heldTcp ++ [] :=
      List.mem_append_left _ (List.mem_append_right _ (packetTcp_mem hg))
    obtain ⟨socket, hat⟩ := h.tcpAt hm
    simp only [hat, Option.bind_eq_bind, Option.bind_some, Option.pure_def]
    refine ⟨_, rfl, h.setTcp hm _, ⟨rfl, rfl, rfl, rfl, fun i hi => ?_⟩,
      .inr ⟨flow, _, rfl, rfl⟩⟩
    exact h.slot_setTcp_udp hm (List.mem_append_right _ hi) _

theorem packetUdpSend (h : Books base {} s) (handle : Handle) (length : ℕ) (call : U → U) :
    ∃ s', s.packetUdpSend handle length call = some s' ∧ Books base {} s' ∧ QuietTcp s s' ∧
      (s' = s ∨ ∃ destination group socket rest, (destination, group) ∈ s.packetUdpGroups ∧
        s.sockets.udpAt group.socket = some socket ∧
        s' = { s with sockets := s.sockets.setUdp group.socket ⟨socket.rx, rest⟩ }) := by
  unfold StackBridge.packetUdpSend
  split
  · exact ⟨s, rfl, h, QuietTcp.refl s, .inl rfl⟩
  split
  · exact ⟨s, rfl, h, QuietTcp.refl s, .inl rfl⟩
  next flow hflow =>
  split
  · exact ⟨s, rfl, h, QuietTcp.refl s, .inl rfl⟩
  next group hgroup =>
  have hlisted := KeyedList.mem_of_get hgroup
  obtain ⟨hheld, socket, hat⟩ := h.group_udpAt hlisted
  simp only [hat, Option.bind_eq_bind, Option.bind_some, Option.pure_def]
  refine ⟨_, rfl, h.setUdp hheld _, ⟨rfl, rfl, rfl, fun i hi => ?_⟩,
    .inr ⟨_, group, socket, _, hlisted, hat, rfl⟩⟩
  exact h.slot_setUdp_tcp hheld (List.mem_append_right _ hi) _

theorem packetUdpRecv (h : Books base {} s) (handle : Handle) (length : ℕ) :
    ∃ s' result, s.packetUdpRecv handle length = some (s', result) ∧ Books base {} s' ∧
      ∃ flows bytes, s' = { s with packetUdpFlows := flows, managedBytes := bytes } := by
  unfold StackBridge.packetUdpRecv
  split
  · exact ⟨s, _, rfl, h, _, _, rfl⟩
  next flow hg =>
  split
  · exact ⟨s, _, rfl, h, _, _, rfl⟩
  next packet hin =>
  split
  · exact ⟨s, _, rfl, h, _, _, rfl⟩
  obtain ⟨e2, h2⟩ := (h.unfill hg hin).release packet.length 0 rfl
  simp only [e2, Option.bind_eq_bind, Option.bind_some, Option.pure_def]
  exact ⟨_, _, rfl, h2, _, _, rfl⟩

end Books

def PollsGuard (env : Smoltcp W T U) (G : TickGuard W T U) : ℕ → StackBridge W T U → Prop
  | 0, _ => True
  | n + 1, s => PollGuard env G s ∧ ∀ s', s.poll env = some s' → PollsGuard env G n s'

def CallGuard (env : Smoltcp W T U) (G : TickGuard W T U) (s : SharedStackBridge W T U) :
    StackCall T U → Prop
  | .poll => PollGuard env G s.inner
  | .openTcp metadata => ∀ r, s.inner.startTcp env metadata = some r → r.2.isOk = true →
      PollsGuard env G 8 r.1
  | _ => True

section Decidable

variable (env : Smoltcp W T U) (G : TickGuard W T U) [∀ s, Decidable (G.ingress s)]
  [∀ s d, Decidable (G.drain s d)] [∀ s, Decidable (G.egress s)]

instance decidablePollsGuard (n : ℕ) (s : StackBridge W T U) : Decidable (PollsGuard env G n s) :=
  match n with
  | 0 => isTrue trivial
  | n + 1 =>
    have := fun s' => decidablePollsGuard n s'
    inferInstanceAs (Decidable (PollGuard env G s ∧ ∀ s', s.poll env = some s' →
      PollsGuard env G n s'))

instance (s : SharedStackBridge W T U) (call : StackCall T U) : Decidable (CallGuard env G s call) :=
  match call with
  | .poll => inferInstanceAs (Decidable (PollGuard env G s.inner))
  | .openTcp metadata => inferInstanceAs (Decidable (∀ r, s.inner.startTcp env metadata = some r →
      r.2.isOk = true → PollsGuard env G 8 r.1))
  | .openUdp _ | .closeTcp _ | .closeUdp _ | .packetSend _ _ | .packetRecv _ | .acceptPacketTcp
  | .acceptPacketUdp | .dropPacketTcp _ | .dropPacketUdp _ | .packetUdpRecv _ _
  | .packetUdpSend _ _ _ | .tcpSocket _ _ _ | .udpSocket _ _ _ | .packetTcpSocket _ _
  | .stopDevice | .startDevice => isTrue trivial

end Decidable

/-- What has to be shown of the calls so that they keep `J`, a property of the bridge and of
the leases on packet flows; `K` is what a tick makes of it. -/
structure RunRule (env : Smoltcp W T U) (base : ℕ) (G : TickGuard W T U)
    (J K : StackBridge W T U → List Handle → Prop) : Prop where
  tick : ∀ tl, TickRule env base G (fun s => J s tl) (fun s => K s tl)
  keep : ∀ s tl, K s tl → J s tl
  passed : ∀ s s' tl, J s tl → Passed s s' → J s' tl
  acceptTcp : ∀ s tl handle rest, Books base {} s → J s tl → s.pendingPacketTcp = handle :: rest →
    J { s with pendingPacketTcp := rest } (handle :: tl)
  acceptUdp : ∀ s tl handle rest, J s tl → s.pendingPacketUdp = handle :: rest →
    J { s with pendingPacketUdp := rest } tl
  dropTcp : ∀ s s' tl handle flow, Books base {} s → J s tl → handle ∈ tl → s'.device = s.device →
    QuietUdp s s' → ClosedTcp s s' handle flow → J s' (tl.erase handle)
  staleTcp : ∀ s tl handle, Books base {} s → J s tl → s.packetTcpFlows.get handle = none →
    J s (tl.erase handle)
  dropUdp : ∀ s s' tl, Books base {} s → Books base {} s' → J s tl → s'.device = s.device →
    QuietTcp s s' → LeftGroup s s' → J s' tl
  callTcp : ∀ s tl handle flow socket, Books base {} s → J s tl → handle ∈ tl →
    s.packetTcpFlows.get handle = some flow → QuietUdp s { s with
      sockets := s.sockets.setTcp flow.socket socket } →
    J { s with sockets := s.sockets.setTcp flow.socket socket } tl
  sendUdp : ∀ s tl destination group socket rest, Books base {} s → J s tl →
    (destination, group) ∈ s.packetUdpGroups → s.sockets.udpAt group.socket = some socket →
    QuietTcp s { s with sockets := s.sockets.setUdp group.socket ⟨socket.rx, rest⟩ } →
    J { s with sockets := s.sockets.setUdp group.socket ⟨socket.rx, rest⟩ } tl
  recvUdp : ∀ s tl flows bytes, J s tl →
    J { s with packetUdpFlows := flows, managedBytes := bytes } tl

namespace RunRule

variable {env : Smoltcp W T U} {G : TickGuard W T U}
  {J K : StackBridge W T U → List Handle → Prop}

theorem poll (rule : RunRule env base G J K) {tl : List Handle} (h : Books base {} s) (hj : J s tl)
    (hg : PollGuard env G s) : ∃ s', s.poll env = some s' ∧ Books base {} s' ∧ K s' tl :=
  (rule.tick tl).poll h hj hg

theorem pollTimes (rule : RunRule env base G J K) (tl : List Handle) (n : ℕ) (h : Books base {} s)
    (hj : J s tl) (hg : PollsGuard env G n s) :
    ∃ s', StackBridge.pollTimes env n s = some s' ∧ Books base {} s' ∧ J s' tl := by
  induction n generalizing s with
  | zero => exact ⟨s, rfl, h, hj⟩
  | succ n ih =>
    obtain ⟨s₁, e1, h1, k1⟩ := rule.poll h hj hg.1
    obtain ⟨s₂, e2, h2, j2⟩ := ih h1 (rule.keep _ _ k1) (hg.2 s₁ e1)
    exact ⟨s₂, by simp [StackBridge.pollTimes, e1, e2], h2, j2⟩

theorem openTcp (rule : RunRule env base G J K) {tl : List Handle} (h : Books base {} s)
    (hj : J s tl) (metadata : FlowMetadata)
    (hg : ∀ r, s.startTcp env metadata = some r → r.2.isOk = true → PollsGuard env G 8 r.1) :
    ∃ s' result, s.openTcp env metadata = some (s', result) ∧ Books base {} s' ∧ J s' tl := by
  obtain ⟨s₁, result, e1, h1, hq, -⟩ := h.startTcp env metadata
  have j1 := rule.passed s s₁ tl hj hq.passed
  unfold StackBridge.openTcp
  cases result with
  | error error => exact ⟨s₁, .error error, by simp [e1], h1, j1⟩
  | ok handle =>
    obtain ⟨s₂, e2, h2, j2⟩ := rule.pollTimes tl 8 h1 j1 (hg (s₁, .ok handle) e1 rfl)
    exact ⟨s₂, .ok handle, by simp [e1, e2], h2, j2⟩

theorem acceptPacketTcp (rule : RunRule env base G J K) {s : SharedStackBridge W T U}
    (h : Books base {} s.inner) (hj : J s.inner s.packetTcpLeases) :
    Books base {} s.acceptPacketTcp.1.inner ∧
      J s.acceptPacketTcp.1.inner s.acceptPacketTcp.1.packetTcpLeases := by
  unfold SharedStackBridge.acceptPacketTcp
  split
  · exact ⟨h, hj⟩
  next handle rest hp =>
  obtain ⟨flow, hf⟩ := h.tcpIndex.pending_live handle (by rw [hp]; exact List.mem_cons_self)
  simp only [hf]
  exact ⟨h.popTcp hp, rule.acceptTcp _ _ handle rest h hj hp⟩

theorem acceptPacketUdp (rule : RunRule env base G J K) {s : SharedStackBridge W T U}
    (h : Books base {} s.inner) (hj : J s.inner s.packetTcpLeases) :
    Books base {} s.acceptPacketUdp.1.inner ∧
      J s.acceptPacketUdp.1.inner s.acceptPacketUdp.1.packetTcpLeases := by
  unfold SharedStackBridge.acceptPacketUdp
  split
  · exact ⟨h, hj⟩
  next handle rest hp =>
  obtain ⟨flow, hf⟩ := h.udpIndex.pending_live handle (by rw [hp]; exact List.mem_cons_self)
  simp only [hf]
  exact ⟨h.popUdp hp, rule.acceptUdp _ _ handle rest hj hp⟩

theorem dropPacketTcp (rule : RunRule env base G J K) {s : SharedStackBridge W T U}
    (h : Books base {} s.inner) (hj : J s.inner s.packetTcpLeases) (handle : Handle) :
    ∃ s', s.dropPacketTcp handle = some s' ∧ Books base {} s'.inner ∧
      J s'.inner s'.packetTcpLeases := by
  unfold SharedStackBridge.dropPacketTcp
  split
  · next hm =>
    obtain ⟨s₁, result, e1, h1, hdev, hq, hor⟩ := h.closePacketTcp handle
    simp only [e1, Option.bind_eq_bind, Option.bind_some, Option.pure_def]
    refine ⟨_, rfl, h1, ?_⟩
    rcases hor with ⟨rfl, hstale⟩ | ⟨flow, hc⟩
    · exact rule.staleTcp _ _ handle h hj hstale
    · exact rule.dropTcp _ _ _ handle flow h hj hm hdev hq hc
  · exact ⟨s, rfl, h, hj⟩

theorem dropPacketUdp (rule : RunRule env base G J K) {s : SharedStackBridge W T U}
    (h : Books base {} s.inner) (hj : J s.inner s.packetTcpLeases) (handle : Handle) :
    ∃ s', s.dropPacketUdp handle = some s' ∧ Books base {} s'.inner ∧
      J s'.inner s'.packetTcpLeases := by
  unfold SharedStackBridge.dropPacketUdp
  split
  · obtain ⟨s₁, result, e1, h1, hdev, hq, hl⟩ := h.closePacketUdp handle
    simp only [e1, Option.bind_eq_bind, Option.bind_some, Option.pure_def]
    exact ⟨_, rfl, h1, rule.dropUdp _ _ _ h h1 hj hdev hq hl⟩
  · exact ⟨s, rfl, h, hj⟩

theorem onInner {s : SharedStackBridge W T U} {inner : Option (StackBridge W T U)}
    (h : ∃ s', inner = some s' ∧ Books base {} s' ∧ J s' s.packetTcpLeases) :
    ∃ s', s.onInner inner = some s' ∧ Books base {} s'.inner ∧ J s'.inner s'.packetTcpLeases := by
  obtain ⟨s', rfl, hb, hj⟩ := h
  exact ⟨_, rfl, hb, hj⟩

theorem onInner_fst {ρ : Type} {s : SharedStackBridge W T U}
    {call : Option (StackBridge W T U × ρ)}
    (h : ∃ s' result, call = some (s', result) ∧ Books base {} s' ∧ J s' s.packetTcpLeases) :
    ∃ s', s.onInner (call.map Prod.fst) = some s' ∧ Books base {} s'.inner ∧
      J s'.inner s'.packetTcpLeases := by
  obtain ⟨s', result, rfl, hb, hj⟩ := h
  exact ⟨_, rfl, hb, hj⟩

theorem onLease {s : SharedStackBridge W T U} {leases : List Handle} {handle : Handle}
    {inner : Option (StackBridge W T U)} (hb : Books base {} s.inner)
    (hj : J s.inner s.packetTcpLeases)
    (h : handle ∈ leases → ∃ s', inner = some s' ∧ Books base {} s' ∧ J s' s.packetTcpLeases) :
    ∃ s', s.onLease leases handle inner = some s' ∧ Books base {} s'.inner ∧
      J s'.inner s'.packetTcpLeases := by
  unfold SharedStackBridge.onLease
  split
  · next hm => exact onInner (h hm)
  · exact ⟨s, rfl, hb, hj⟩

theorem step (rule : RunRule env base G J K) {s : SharedStackBridge W T U}
    (h : Books base {} s.inner) (hj : J s.inner s.packetTcpLeases) (call : StackCall T U)
    (hg : CallGuard env G s call) :
    ∃ s', s.step env call = some s' ∧ Books base {} s'.inner ∧ J s'.inner s'.packetTcpLeases := by
  have quiet : ∀ {s' : StackBridge W T U}, Passed s.inner s' → J s' s.packetTcpLeases :=
    fun hp => rule.passed _ _ _ hj hp
  cases call with
  | openTcp metadata => exact onInner_fst (rule.openTcp h hj metadata hg)
  | openUdp metadata =>
    obtain ⟨s', result, e, h', hq, -⟩ := h.openUdp env metadata
    exact onInner_fst ⟨s', result, e, h', quiet hq.passed⟩
  | closeTcp handle =>
    obtain ⟨s', result, e, h', hq⟩ := h.closeTcp handle
    exact onInner_fst ⟨s', result, e, h', quiet hq.passed⟩
  | closeUdp handle =>
    obtain ⟨s', result, e, h', hq⟩ := h.closeUdp handle
    exact onInner_fst ⟨s', result, e, h', quiet hq.passed⟩
  | poll =>
    obtain ⟨s', e, h', hk⟩ := rule.poll h hj hg
    exact onInner ⟨s', e, h', rule.keep _ _ hk⟩
  | packetSend packet nowMs =>
    obtain ⟨s', result, e, h', hp⟩ := h.packetSend packet nowMs
    exact onInner_fst ⟨s', result, e, h', quiet hp⟩
  | packetRecv length =>
    obtain ⟨s', result, e, h', hp⟩ := h.packetRecv length
    exact onInner_fst ⟨s', result, e, h', quiet hp⟩
  | acceptPacketTcp => exact ⟨_, rfl, rule.acceptPacketTcp h hj⟩
  | acceptPacketUdp => exact ⟨_, rfl, rule.acceptPacketUdp h hj⟩
  | dropPacketTcp handle => exact rule.dropPacketTcp h hj handle
  | dropPacketUdp handle => exact rule.dropPacketUdp h hj handle
  | packetUdpRecv handle length =>
    refine onLease h hj fun _ => ?_
    obtain ⟨s', result, e, h', flows, bytes, rfl⟩ := h.packetUdpRecv handle length
    exact ⟨_, by rw [e]; rfl, h', rule.recvUdp _ _ flows bytes hj⟩
  | packetUdpSend handle length call =>
    refine onLease h hj fun _ => ?_
    obtain ⟨s', e, h', hq, hor⟩ := h.packetUdpSend handle length call
    refine ⟨s', e, h', ?_⟩
    rcases hor with rfl | ⟨destination, group, socket, rest, hlisted, hat, rfl⟩
    · exact hj
    · exact rule.sendUdp _ _ destination group socket rest h hj hlisted hat hq
  | tcpSocket handle side call =>
    obtain ⟨s', e, h', hq⟩ := h.withTcpSocket handle side call
    exact onInner ⟨s', e, h', quiet hq.passed⟩
  | udpSocket handle side call =>
    obtain ⟨s', e, h', hq⟩ := h.withUdpSocket handle side call
    exact onInner ⟨s', e, h', quiet hq.passed⟩
  | packetTcpSocket handle call =>
    refine onLease h hj fun hm => ?_
    obtain ⟨s', e, h', hq, hor⟩ := h.withPacketTcpSocket handle call
    refine ⟨s', e, h', ?_⟩
    rcases hor with rfl | ⟨flow, socket, hget, rfl⟩
    · exact hj
    · exact rule.callTcp _ _ handle flow socket h hj hm hget hq
  | stopDevice =>
    exact ⟨_, rfl, { h with device := ⟨h.device.bytes, h.device.le_limit⟩ },
      quiet (Passed.of_device [] (List.append_nil _).symm)⟩
  | startDevice =>
    exact ⟨_, rfl, { h with device := ⟨h.device.bytes, h.device.le_limit⟩ },
      quiet (Passed.of_device [] (List.append_nil _).symm)⟩

theorem run (rule : RunRule env base G J K) {s : SharedStackBridge W T U}
    (h : Books base {} s.inner) (hj : J s.inner s.packetTcpLeases) {calls : List (StackCall T U)}
    (hg : GuardedM (SharedStackBridge.step env) (CallGuard env G) s calls) :
    ∃ s', s.run env calls = some s' ∧ Books base {} s'.inner ∧ J s'.inner s'.packetTcpLeases :=
  foldlM_invariant (fun s : SharedStackBridge W T U => Books base {} s.inner ∧
      J s.inner s.packetTcpLeases)
    (fun _ call hs hc => rule.step hs.1 hs.2 call hc) ⟨h, hj⟩ hg

end RunRule
end Snolc.Stack
