import Snolc.StackOffers

set_option autoImplicit false

namespace Snolc.Stack
open CheckedSlice GuardedRuns Handles
open Engine (StackError)

variable {W T U : Type}

namespace StackBridge

def noRoom (s : StackBridge W T U) (rxBytes txBytes : ℕ) : Bool :=
  match checkedAdd rxBytes txBytes with
  | none => true
  | some managedBytes =>
    match checkedAdd s.managedBytes managedBytes with
    | none => true
    | some next => decide (s.maxManagedBytes < next)

/-- The packet in front needs a TCP flow and there is none to be had: its buffers do not fit,
smoltcp does not listen, or the table is full. -/
def noTcpFlow (env : Smoltcp W T U) (s : StackBridge W T U) : Bool :=
  match s.newSyn with
  | none => false
  | some tuple =>
    s.noRoom s.config.tcpSocketRxBytes s.config.tcpSocketTxBytes ||
      (env.listen (env.newTcp s.config) tuple.destination.listen).toOption.isNone ||
      decide s.packetTcpFlows.Full

def noUdpGroup (env : Smoltcp W T U) (s : StackBridge W T U) : Bool :=
  match s.newDatagram with
  | none => false
  | some tuple =>
    s.noRoom s.config.udpSocketRxBytes s.config.udpSocketTxBytes ||
      (env.bind (env.newUdp s.config) tuple.destination.listen).isNone

/-- The packet in front gets no TCP flow, and behind it is another external packet for which
the UDP preparation has no objection. -/
def slips (env : Smoltcp W T U) (s : StackBridge W T U) : Bool :=
  match s.device.ingress with
  | refused :: packet :: rest =>
    s.noTcpFlow env && packet.external && !s.device.stopped &&
      decide (refused.bytes.length + packet.bytes.length ≤ s.device.bytes) &&
      !noUdpGroup env { s with device := { s.device with ingress := packet :: rest } }
  | _ => false

def Consumes (env : Smoltcp W T U) (s : StackBridge W T U) (packet : QueuedPacket) : Prop :=
  ∃ s' device, s.prepareTurn env = some (s', true) ∧ s'.device.receive = some (device, some packet)

/-- An external packet that smoltcp takes in a turn was in front of the queue when both
preparations returned, and if it is a SYN it has a flow by then. -/
def PreparedFirst (env : Smoltcp W T U) (s : StackBridge W T U) : Prop :=
  ∀ packet, s.Consumes env packet → packet.external = true →
    ∃ s₁ s₂, s.preparePacketTcp env = some (s₁, .ok ()) ∧ s₁.preparePacketUdp env = some (s₂, .ok ()) ∧
      s.device.ingress.head? = some packet ∧ s₁.device.ingress.head? = some packet ∧
      ∀ tuple, tcpSynTuple packet.bytes = some tuple → (KeyedList.get s₂.packetTcpByTuple tuple).isSome

inductive TcpPrepared (env : Smoltcp W T U) (s : StackBridge W T U) :
    Option (StackBridge W T U × Except StackError Unit) → Prop where
  | idle (known : s.newSyn = none) : TcpPrepared env s (some (s, .ok ()))
  | opened {tuple : PacketTcpTuple} {s' : StackBridge W T U} (fresh : s.newSyn = some tuple)
      (room : s.noTcpFlow env = false) (device : s'.device = s.device)
      (listed : (KeyedList.get s'.packetTcpByTuple tuple).isSome) : TcpPrepared env s (some (s', .ok ()))
  | refused {sockets : SocketSet T U} {error : StackError} (room : s.noTcpFlow env = true) :
      TcpPrepared env s (some ({ s with sockets := sockets }, .error error))
  | aborted (room : s.noTcpFlow env = false) : TcpPrepared env s none

inductive UdpPrepared (env : Smoltcp W T U) (s : StackBridge W T U) :
    Option (StackBridge W T U × Except StackError Unit) → Prop where
  | ready {s' : StackBridge W T U} (room : s.noUdpGroup env = false) (device : s'.device = s.device)
      (flows : s'.packetTcpByTuple = s.packetTcpByTuple) : UdpPrepared env s (some (s', .ok ()))
  | refused {s' : StackBridge W T U} {error : StackError} (room : s.noUdpGroup env = true) :
      UdpPrepared env s (some (s', .error error))

theorem reserve_cases {s : StackBridge W T U} {rxBytes txBytes bytes : ℕ}
    (hadd : checkedAdd rxBytes txBytes = some bytes) :
    (s.noRoom rxBytes txBytes = true ∧ ∃ error, s.reserve bytes = .error error) ∨
      (s.noRoom rxBytes txBytes = false ∧ s.reserve bytes = .ok { s with managedBytes := s.managedBytes + bytes }) := by
  unfold reserve noRoom
  rw [hadd]
  cases hsum : checkedAdd s.managedBytes bytes with
  | none => exact .inl ⟨by simp only [hsum], _, rfl⟩
  | some next =>
    by_cases hlimit : s.maxManagedBytes < next
    · exact .inl ⟨by simp only [hsum, hlimit, decide_true], .resource, by simp [hlimit]⟩
    · rw [← checkedAdd_eq_some hsum]
      exact .inr ⟨by simp only [hsum, hlimit, decide_false], by simp [hlimit]⟩

theorem add_present (set : SocketSet T U) (socket : Socket T U) :
    SlotTable.slot (set.add socket).1 (set.add socket).2 = some socket := by
  rw [(slot_add set socket).2, if_pos rfl]

theorem remove_present {set : SocketSet T U} {i : ℕ} {socket : Socket T U}
    (h : SlotTable.slot set i = some socket) : set.remove i = some (set.set i none) := by
  simp only [SocketSet.remove, h]

theorem insert_cases {α : Type} (t : HandleTable α) (a : α) :
    (t.insert a = some (.error .full) ∧ t.Full) ∨ ((∀ error, t.insert a ≠ some (.error error)) ∧ ¬ t.Full) := by
  by_cases hfull : t.Full
  · refine .inl ⟨?_, hfull⟩
    simp only [HandleTable.insert, hfull.1, if_pos hfull.2]
  · refine .inr ⟨fun error h => hfull ?_, hfull⟩
    cases error with
    | full => exact HandleTable.full_of_insert h
    | stale =>
      unfold HandleTable.insert at h
      split at h <;> split at h <;> cases h

theorem openPacketTcp_cases (env : Smoltcp W T U) (s : StackBridge W T U) (tuple : PacketTcpTuple) (bytes : ℕ) :
    (∃ sockets error, openPacketTcp env { s with managedBytes := s.managedBytes + bytes } tuple bytes =
        some ({ s with sockets := sockets }, .error error) ∧
      ((env.listen (env.newTcp s.config) tuple.destination.listen).toOption.isNone ||
        decide s.packetTcpFlows.Full) = true) ∨
    ((env.listen (env.newTcp s.config) tuple.destination.listen).toOption.isNone ||
        decide s.packetTcpFlows.Full) = false ∧
      (openPacketTcp env { s with managedBytes := s.managedBytes + bytes } tuple bytes = none ∨
        ∃ s', openPacketTcp env { s with managedBytes := s.managedBytes + bytes } tuple bytes = some (s', .ok ()) ∧
          s'.device = s.device ∧ (KeyedList.get s'.packetTcpByTuple tuple).isSome) := by
  have hpresent := add_present s.sockets (.tcp ⟨.closed, env.newTcp s.config⟩)
  unfold openPacketTcp
  generalize s.sockets.add (.tcp ⟨.closed, env.newTcp s.config⟩) = added at hpresent ⊢
  obtain ⟨set, socket⟩ := added
  dsimp only at hpresent
  have hat : set.tcpAt socket = some ⟨.closed, env.newTcp s.config⟩ := by rw [SocketSet.tcpAt, hpresent]
  simp only [hat, Option.bind_eq_bind, Option.bind_some, Option.pure_def]
  cases hlisten : env.listen (env.newTcp s.config) tuple.destination.listen with
  | error message =>
    simp only [removeSocket, remove_present hpresent, Option.bind_eq_bind, Option.bind_some, Option.pure_def]
    refine .inl ⟨set.set socket none, .tcp message, ?_, rfl⟩
    simp [release]
  | ok rest =>
    have hset : SlotTable.slot (set.setTcp socket ⟨.listen, rest⟩) socket = some (.tcp ⟨.listen, rest⟩) := by
      rw [SocketSet.setTcp, slot_set _ _ _ _ (lt_of_slot hpresent), if_pos rfl]
    dsimp only
    generalize (⟨socket, tuple, packetMetadata tuple.destination, bytes, false⟩ : PacketTcpFlow) = flow
    rcases insert_cases s.packetTcpFlows flow with ⟨hfull, htable⟩ | ⟨hroom, htable⟩
    · simp only [hfull, removeSocket, remove_present hset, Option.bind_eq_bind, Option.bind_some, Option.pure_def]
      refine .inl ⟨(set.setTcp socket ⟨.listen, rest⟩).set socket none, .flowLimit, ?_, by simp [htable]⟩
      simp [release]
    · refine .inr ⟨by simp [htable, Except.toOption], ?_⟩
      cases hinsert : s.packetTcpFlows.insert flow with
      | none => exact .inl rfl
      | some result =>
        cases result with
        | error error => exact absurd hinsert (hroom error)
        | ok added =>
          refine .inr ⟨_, rfl, rfl, ?_⟩
          simp [KeyedList.get, KeyedList.insert]

theorem preparePacketTcp_prepared (env : Smoltcp W T U) (s : StackBridge W T U) :
    TcpPrepared env s (s.preparePacketTcp env) := by
  unfold preparePacketTcp
  cases hnew : s.newSyn with
  | none => exact .idle hnew
  | some tuple =>
    have hroom : s.noTcpFlow env = (s.noRoom s.config.tcpSocketRxBytes s.config.tcpSocketTxBytes ||
        ((env.listen (env.newTcp s.config) tuple.destination.listen).toOption.isNone ||
          decide s.packetTcpFlows.Full)) := by
      simp only [noTcpFlow, hnew, Bool.or_assoc]
    cases hadd : checkedAdd s.config.tcpSocketRxBytes s.config.tcpSocketTxBytes with
    | none => exact .refused (by simp [hroom, noRoom, hadd])
    | some managedBytes =>
      rcases reserve_cases (s := s) hadd with ⟨hfits, error, he⟩ | ⟨hfits, he⟩
      · simp only [he]
        exact .refused (by simp [hroom, hfits])
      · rw [hfits, Bool.false_or] at hroom
        simp only [he]
        rcases s.openPacketTcp_cases env tuple managedBytes with
          ⟨sockets, error, ho, hno⟩ | ⟨hyes, ho | ⟨s', ho, hdevice, hlisted⟩⟩
        · rw [ho]
          exact .refused (hroom.trans hno)
        · rw [ho]
          exact .aborted (hroom.trans hyes)
        · rw [ho]
          exact .opened hnew (hroom.trans hyes) hdevice hlisted

theorem openPacketUdp_cases (env : Smoltcp W T U) (s : StackBridge W T U) (tuple : PacketUdpTuple) (bytes : ℕ) :
    (∃ s' error, openPacketUdp env { s with managedBytes := s.managedBytes + bytes } tuple bytes =
        some (s', .error error) ∧ (env.bind (env.newUdp s.config) tuple.destination.listen).isNone = true) ∨
    (∃ s', openPacketUdp env { s with managedBytes := s.managedBytes + bytes } tuple bytes = some (s', .ok ()) ∧
      (env.bind (env.newUdp s.config) tuple.destination.listen).isNone = false ∧
      s'.device = s.device ∧ s'.packetTcpByTuple = s.packetTcpByTuple) := by
  have hpresent := add_present s.sockets (.udp ⟨[], env.newUdp s.config⟩)
  unfold openPacketUdp
  generalize s.sockets.add (.udp ⟨[], env.newUdp s.config⟩) = added at hpresent ⊢
  obtain ⟨set, socket⟩ := added
  dsimp only at hpresent
  have hat : set.udpAt socket = some ⟨[], env.newUdp s.config⟩ := by rw [SocketSet.udpAt, hpresent]
  simp only [hat, Option.bind_eq_bind, Option.bind_some, Option.pure_def]
  cases env.bind (env.newUdp s.config) tuple.destination.listen with
  | none =>
    simp only [removeSocket, remove_present hpresent, Option.bind_eq_bind, Option.bind_some, Option.pure_def]
    refine .inl ⟨{ s with sockets := set.set socket none }, .udp, ?_, rfl⟩
    simp [release]
  | some rest => exact .inr ⟨_, rfl, rfl, rfl, rfl⟩

theorem preparePacketUdp_prepared (env : Smoltcp W T U) (s : StackBridge W T U) :
    UdpPrepared env s (s.preparePacketUdp env) := by
  unfold preparePacketUdp
  cases hnew : s.newDatagram with
  | none => exact .ready (by rw [noUdpGroup, hnew]) rfl rfl
  | some tuple =>
    have hroom : s.noUdpGroup env = (s.noRoom s.config.udpSocketRxBytes s.config.udpSocketTxBytes ||
        (env.bind (env.newUdp s.config) tuple.destination.listen).isNone) := by
      rw [noUdpGroup, hnew]
    cases hadd : checkedAdd s.config.udpSocketRxBytes s.config.udpSocketTxBytes with
    | none => exact .refused (by simp [hroom, noRoom, hadd])
    | some managedBytes =>
      rcases reserve_cases (s := s) hadd with ⟨hfits, error, he⟩ | ⟨hfits, he⟩
      · simp only [he]
        exact .refused (by simp [hroom, hfits])
      · rw [hfits, Bool.false_or] at hroom
        simp only [he]
        rcases s.openPacketUdp_cases env tuple managedBytes with
          ⟨s', error, ho, hno⟩ | ⟨s', ho, hyes, hdevice, hflows⟩
        · rw [ho]
          exact .refused (hroom.trans hno)
        · rw [ho]
          exact .ready (hroom.trans hyes) hdevice hflows

theorem receive_eq_some {d d' : BoundedDevice} {packet : QueuedPacket} (h : d.receive = some (d', some packet)) :
    d.stopped = false ∧ ∃ rest, d.ingress = packet :: rest ∧ packet.bytes.length ≤ d.bytes := by
  unfold BoundedDevice.receive BoundedDevice.popIngress BoundedDevice.spend at h
  cases hstop : d.stopped with
  | true => simp [hstop] at h
  | false =>
    refine ⟨rfl, ?_⟩
    cases hin : d.ingress with
    | nil => simp [hstop, hin] at h
    | cons front rest =>
      by_cases hbytes : front.bytes.length ≤ d.bytes
      · simp [hstop, hin, hbytes] at h
        exact ⟨rest, by rw [h.2], h.2 ▸ hbytes⟩
      · simp [hstop, hin, hbytes] at h

theorem receive_cons {d : BoundedDevice} {packet : QueuedPacket} {rest : List QueuedPacket} (hstop : d.stopped = false)
    (hin : d.ingress = packet :: rest) (hbytes : packet.bytes.length ≤ d.bytes) :
    ∃ d', d.receive = some (d', some packet) := by
  simp [BoundedDevice.receive, BoundedDevice.popIngress, BoundedDevice.spend, hstop, hin, hbytes]

theorem listed_of_newSyn {s : StackBridge W T U} {packet : QueuedPacket} {rest : List QueuedPacket}
    {tuple : PacketTcpTuple} (hnew : s.newSyn = none) (hin : s.device.ingress = packet :: rest)
    (hext : packet.external = true) (ht : tcpSynTuple packet.bytes = some tuple) :
    (KeyedList.get s.packetTcpByTuple tuple).isSome := by
  simp only [newSyn, hin, hext, ht] at hnew
  by_contra hno
  simp [hno] at hnew

theorem newSyn_front {s : StackBridge W T U} {packet : QueuedPacket} {rest : List QueuedPacket}
    {tuple tuple' : PacketTcpTuple} (hnew : s.newSyn = some tuple) (hin : s.device.ingress = packet :: rest)
    (ht : tcpSynTuple packet.bytes = some tuple') : tuple' = tuple := by
  obtain ⟨⟨packet', rest', hin', -, ht'⟩, -⟩ := newSyn_eq_some hnew
  cases hin.symm.trans hin'
  exact Option.some.inj (ht.symm.trans ht')

/-- A turn that comes to smoltcp: the packet in front was prepared for TCP or is gone, and the
one that is then in front was prepared for UDP. -/
theorem prepareTurn_eq_some {env : Smoltcp W T U} {s s' : StackBridge W T U} :
    s.prepareTurn env = some (s', true) ↔
      (∃ s₁, s.preparePacketTcp env = some (s₁, .ok ()) ∧ s₁.preparePacketUdp env = some (s', .ok ())) ∨
      ∃ s₁ error s₂, s.preparePacketTcp env = some (s₁, .error error) ∧ s₁.dropFront = some s₂ ∧
        s₂.preparePacketUdp env = some (s', .ok ()) := by
  unfold prepareTurn
  rcases s.preparePacketTcp env with _ | ⟨s₁, error | answer⟩
  · simp
  · simp only [Option.bind_eq_bind, Option.bind_some, Option.pure_def, Option.bind_eq_some_iff]
    constructor
    · rintro ⟨s₂, hdrop, ⟨s₃, error' | answer'⟩, hudp, hend⟩
      · obtain ⟨s₄, -, hlast⟩ := Option.bind_eq_some_iff.mp hend
        cases hlast
      · cases hend
        exact .inr ⟨s₁, error, s₂, rfl, hdrop, hudp⟩
    · rintro (⟨s₂, hok, -⟩ | ⟨s₂, error', s₃, herror, hdrop, hudp⟩)
      · cases hok
      · cases herror
        exact ⟨s₃, hdrop, _, hudp, rfl⟩
  · simp only [Option.bind_eq_bind, Option.bind_some, Option.pure_def, Option.bind_eq_some_iff]
    constructor
    · rintro ⟨⟨s₃, error' | answer'⟩, hudp, hend⟩
      · obtain ⟨s₄, -, hlast⟩ := Option.bind_eq_some_iff.mp hend
        cases hlast
      · cases hend
        exact .inl ⟨s₁, rfl, hudp⟩
    · rintro (⟨s₂, hok, hudp⟩ | ⟨s₂, error', s₃, herror, -⟩)
      · cases hok
        exact ⟨_, hudp, rfl⟩
      · cases herror

theorem dropFront_cons {s : StackBridge W T U} {front : QueuedPacket} {rest : List QueuedPacket}
    (hin : s.device.ingress = front :: rest) :
    s.dropFront = if front.bytes.length ≤ s.device.bytes then
      some { s with device := { s.device with ingress := rest, bytes := s.device.bytes - front.bytes.length } }
    else none := by
  simp only [dropFront, BoundedDevice.popIngress, BoundedDevice.spend, hin]
  split_ifs <;> rfl

theorem noUdpGroup_rest (env : Smoltcp W T U) (s : StackBridge W T U) (sockets : SocketSet T U)
    (queue : List QueuedPacket) (bytes : ℕ) :
    noUdpGroup env { s with sockets := sockets, device := { s.device with ingress := queue, bytes := bytes } } =
      noUdpGroup env { s with device := { s.device with ingress := queue } } := rfl

/-- A turn that goes on after a refused packet consumes an external one exactly when it slips. -/
theorem consumes_refused {env : Smoltcp W T U} {s : StackBridge W T U} (sockets : SocketSet T U)
    (hroom : s.noTcpFlow env = true) :
    (∃ s₁ s₂ device packet, dropFront { s with sockets := sockets } = some s₁ ∧
      s₁.preparePacketUdp env = some (s₂, .ok ()) ∧ s₂.device.receive = some (device, some packet) ∧
      packet.external = true) ↔ s.slips env = true := by
  cases hin : s.device.ingress with
  | nil => simp [noTcpFlow, newSyn, hin] at hroom
  | cons front queue =>
    have hdrop := dropFront_cons (s := { s with sockets := sockets }) hin
    constructor
    · rintro ⟨s₁, s₂, device, packet, hs₁, hudp, hreceive, hext⟩
      rw [hdrop] at hs₁
      split at hs₁
      · rename_i hfront
        cases hs₁
        have hprepared := preparePacketUdp_prepared env { s with
          sockets := sockets
          device := { s.device with ingress := queue, bytes := s.device.bytes - front.bytes.length } }
        rw [hudp] at hprepared
        cases hprepared with
        | ready room device flows =>
          obtain ⟨hstop, rest, hqueue, hbytes⟩ := receive_eq_some hreceive
          rw [device] at hstop hqueue hbytes
          dsimp only at hstop hqueue hbytes hfront
          subst hqueue
          rw [noUdpGroup_rest] at room
          have hsum : front.bytes.length + packet.bytes.length ≤ s.device.bytes := by omega
          simp only [slips, hin, Bool.and_eq_true, Bool.not_eq_true', decide_eq_true_eq]
          exact ⟨⟨⟨⟨hroom, hext⟩, hstop⟩, hsum⟩, room⟩
      · cases hs₁
    · intro hslips
      cases queue with
      | nil => simp [slips, hin] at hslips
      | cons packet rest =>
        simp only [slips, hin, Bool.and_eq_true, Bool.not_eq_true', decide_eq_true_eq] at hslips
        obtain ⟨⟨⟨⟨-, hext⟩, hstop⟩, hbytes⟩, hudp⟩ := hslips
        have hfront : front.bytes.length ≤ s.device.bytes := by omega
        rw [if_pos hfront] at hdrop
        have hprepared := preparePacketUdp_prepared env { s with
          sockets := sockets
          device := { s.device with ingress := packet :: rest, bytes := s.device.bytes - front.bytes.length } }
        generalize hs : preparePacketUdp env { s with
          sockets := sockets
          device := { s.device with ingress := packet :: rest, bytes := s.device.bytes - front.bytes.length } } =
            prepared at hprepared
        cases hprepared with
        | @ready s₂ room device flows =>
          obtain ⟨device', hreceive⟩ := receive_cons (d := s₂.device) (by rw [device]; exact hstop)
            (by rw [device]) (by rw [device]; exact Nat.le_sub_of_add_le (by omega))
          exact ⟨_, s₂, device', packet, hdrop, hs, hreceive, hext⟩
        | refused room =>
          rw [noUdpGroup_rest, hudp] at room
          cases room

theorem preparedFirst_of_ok {env : Smoltcp W T U} {s s₁ : StackBridge W T U}
    (htcp : s.preparePacketTcp env = some (s₁, .ok ())) (hdevice : s₁.device = s.device)
    (hlisted : ∀ packet rest tuple, s.device.ingress = packet :: rest → packet.external = true →
      tcpSynTuple packet.bytes = some tuple → (KeyedList.get s₁.packetTcpByTuple tuple).isSome) :
    s.PreparedFirst env := by
  rintro packet ⟨s', device, hturn, hreceive⟩ hext
  rcases prepareTurn_eq_some.mp hturn with ⟨s₂, hok, hudp⟩ | ⟨s₂, error, s₃, herror, -⟩
  · cases htcp.symm.trans hok
    have hprepared := preparePacketUdp_prepared env s₁
    rw [hudp] at hprepared
    cases hprepared with
    | ready room device flows =>
      obtain ⟨-, rest, hin, -⟩ := receive_eq_some hreceive
      rw [device] at hin
      refine ⟨s₁, s', htcp, hudp, ?_, by rw [hin]; rfl, fun tuple ht => ?_⟩
      · rw [← hdevice, hin]
        rfl
      · rw [flows]
        exact hlisted packet rest tuple (hdevice ▸ hin) hext ht
  · cases htcp.symm.trans herror

theorem not_slips_of_room {env : Smoltcp W T U} {s : StackBridge W T U} (h : s.noTcpFlow env = false) :
    s.slips env = false := by
  unfold slips
  split <;> simp [h]

theorem preparedFirst_iff (env : Smoltcp W T U) (s : StackBridge W T U) :
    s.PreparedFirst env ↔ s.slips env = false := by
  have hprepared := s.preparePacketTcp_prepared env
  generalize htcp : s.preparePacketTcp env = prepared at hprepared
  cases hprepared with
  | idle known =>
    have hroom : s.noTcpFlow env = false := by simp [noTcpFlow, known]
    refine ⟨fun _ => not_slips_of_room hroom, fun _ => preparedFirst_of_ok htcp rfl ?_⟩
    exact fun packet rest tuple hin hext ht => listed_of_newSyn known hin hext ht
  | opened fresh room device listed =>
    refine ⟨fun _ => not_slips_of_room room, fun _ => preparedFirst_of_ok htcp device ?_⟩
    intro packet rest tuple hin hext ht
    rw [newSyn_front fresh hin ht]
    exact listed
  | @refused sockets error room =>
    rw [← Bool.not_eq_true, ← consumes_refused sockets room]
    constructor
    · rintro hp ⟨s₁, s₂, device, packet, hdrop, hudp, hreceive, hext⟩
      have hturn := prepareTurn_eq_some.mpr (.inr ⟨_, error, s₁, htcp, hdrop, hudp⟩)
      obtain ⟨s₃, -, hok, -⟩ := hp packet ⟨s₂, device, hturn, hreceive⟩ hext
      cases htcp.symm.trans hok
    · rintro hno packet ⟨s₂, device, hturn, hreceive⟩ hext
      rcases prepareTurn_eq_some.mp hturn with ⟨s₁, hok, -⟩ | ⟨s₁, error', s₃, herror, hdrop, hudp⟩
      · cases htcp.symm.trans hok
      · cases htcp.symm.trans herror
        exact absurd ⟨s₃, s₂, device, packet, hdrop, hudp, hreceive, hext⟩ hno
  | aborted room =>
    refine ⟨fun _ => not_slips_of_room room, ?_⟩
    rintro - packet ⟨s', device, hturn, -⟩
    rcases prepareTurn_eq_some.mp hturn with ⟨s₁, hok, -⟩ | ⟨s₁, error, s₂, herror, -⟩
    · cases htcp.symm.trans hok
    · cases htcp.symm.trans herror

end StackBridge

/-- In every tick, from any queue and any resources: each external packet that smoltcp takes was
prepared first exactly when no turn of the tick slips. -/
theorem packets_prepared_iff (env : Smoltcp W T U) (s : StackBridge W T U) :
    EachTurn (StackBridge.ingressTurn env) (StackBridge.PreparedFirst env) s.maxIngressPacketsPerTick
        { s with interface := env.pollMaintenance s.interface } ↔
      EachTurn (StackBridge.ingressTurn env) (fun s => s.slips env = false) s.maxIngressPacketsPerTick
        { s with interface := env.pollMaintenance s.interface } := by
  rw [show StackBridge.PreparedFirst env = fun s => s.slips env = false from
    funext fun s => propext (s.preparedFirst_iff env)]

def laterSyn : List UInt8 :=
  [69, 0, 0, 40, 0, 0, 0, 0, 64, 6, 0, 0, 10, 0, 0, 2, 10, 0, 0, 1,
    156, 65, 0, 80, 0, 0, 0, 1, 0, 0, 0, 1, 80, synFlag, 16, 0, 0, 0, 0, 0]

/-- Without room for a socket the first of two SYNs is dropped, and the second one goes to smoltcp in
the same turn without a flow. -/
theorem second_syn_unprepared : ∃ s₀ s,
    StackBridge.new sampleSmoltcp sampleConfig 4 143399 8 = .ok s₀ ∧
    SharedStackBridge.run sampleSmoltcp ⟨s₀, [], []⟩ [.packetSend (segment synFlag) 0, .packetSend laterSyn 0] =
      some s ∧
    s.inner.Consumes sampleSmoltcp ⟨laterSyn, true⟩ ∧ s.inner.packetTcpByTuple = [] ∧
    ¬ s.inner.PreparedFirst sampleSmoltcp ∧
    ¬ EachTurn (StackBridge.ingressTurn sampleSmoltcp) (StackBridge.PreparedFirst sampleSmoltcp)
      s.inner.maxIngressPacketsPerTick
      { s.inner with interface := sampleSmoltcp.pollMaintenance s.inner.interface } := by
  have hrun : ((StackBridge.new sampleSmoltcp sampleConfig 4 143399 8).toOption.bind fun s₀ =>
      SharedStackBridge.run sampleSmoltcp ⟨s₀, [], []⟩ [.packetSend (segment synFlag) 0, .packetSend laterSyn 0]).map
        (fun s => (s.inner.slips sampleSmoltcp, s.inner.maxIngressPacketsPerTick, s.inner.packetTcpByTuple.length,
          decide (((s.inner.prepareTurn sampleSmoltcp).bind fun r => r.1.device.receive.map fun q => (r.2, q.2)) =
            some (true, some ⟨laterSyn, true⟩)))) = some (true, 8, 0, true) := by decide +kernel
  obtain ⟨s, hs, heq⟩ := Option.map_eq_some_iff.mp hrun
  obtain ⟨s₀, hnew, hs⟩ := Option.bind_eq_some_iff.mp hs
  simp only [Prod.mk.injEq, decide_eq_true_eq] at heq
  obtain ⟨hslips, hturns, hempty, hconsumes⟩ := heq
  obtain ⟨⟨s₁, more⟩, hturn, hreceive⟩ := Option.bind_eq_some_iff.mp hconsumes
  obtain ⟨⟨device, packet⟩, hreceive, hpacket⟩ := Option.map_eq_some_iff.mp hreceive
  cases hpacket
  have hnot : ¬ s.inner.PreparedFirst sampleSmoltcp := by
    rw [s.inner.preparedFirst_iff, hslips]
    exact Bool.noConfusion
  refine ⟨s₀, s, ?_, hs, ⟨s₁, device, hturn, hreceive⟩, List.length_eq_zero_iff.mp hempty, hnot, ?_⟩
  · cases hresult : StackBridge.new sampleSmoltcp sampleConfig 4 143399 8 with
    | error error =>
      rw [hresult] at hnew
      cases hnew
    | ok s' =>
      rw [hresult] at hnew
      cases hnew
      rfl
  · rw [hturns]
    exact fun heach => hnot heach.1

end Snolc.Stack
