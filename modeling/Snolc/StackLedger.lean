import Mathlib.Data.List.Nodup
import Mathlib.Data.List.Pairwise
import Snolc.StackTraffic

set_option autoImplicit false

namespace Snolc.Stack
open GuardedRuns Handles PartialPosts PollIo
open Engine (StackError)
open scoped List

variable {W T U : Type} {env : Smoltcp W T U} {base : ℕ} {net : UdpService env} {s s' : StackBridge W T U}

section Counting
variable {α β : Type} {p : β → Bool}

theorem countP_flatMap_le {f : α → List β} {l : List α} (hl : l.Nodup) (k : α)
    (h : ∀ a ∈ l, a ≠ k → ∀ b ∈ f a, p b = false) : (l.flatMap f).countP p ≤ (f k).countP p := by
  induction l with
  | nil => exact Nat.zero_le _
  | cons a l ih =>
    obtain ⟨hnew, hl⟩ := List.nodup_cons.mp hl
    have hrest := ih hl fun b hb => h b (List.mem_cons_of_mem _ hb)
    rw [List.flatMap_cons, List.countP_append]
    by_cases ha : a = k
    · subst ha
      have hnone : (l.flatMap f).countP p = 0 := by
        rw [List.countP_eq_zero]
        intro b hb
        obtain ⟨c, hc, hb⟩ := List.mem_flatMap.mp hb
        have hne : c ≠ a := by
          rintro rfl
          exact hnew hc
        simp [h c (List.mem_cons_of_mem _ hc) hne b hb]
      omega
    · have hzero : (f a).countP p = 0 := by
        rw [List.countP_eq_zero]
        intro b hb
        simp [h a List.mem_cons_self ha b hb]
      omega

end Counting

section Distinct
variable {α β : Type} {t : HandleTable α} {f : α → List β}

theorem gathered_owner (h : (gathered f t).Nodup) {handle handle' : Handle} {a a' : α} {b : β}
    (ha : t.get handle = some a) (ha' : t.get handle' = some a') (hb : b ∈ f a) (hb' : b ∈ f a') :
    handle = handle' := by
  by_contra hne
  have hpair := (List.nodup_flatMap.mp h).2
  have hsymm : Std.Symm (Function.onFun List.Disjoint fun e : Handle × α => f e.2) := ⟨fun _ _ hd b hb hb' => hd hb' hb⟩
  have hentries : (handle, a) ≠ (handle', a') := fun he => hne (congrArg Prod.fst he)
  exact hpair.forall (HandleTable.mem_entries.mpr ha) (HandleTable.mem_entries.mpr ha') hentries hb hb'

theorem gathered_own (h : (gathered f t).Nodup) {handle : Handle} {a : α} (ha : t.get handle = some a) :
    (f a).Nodup :=
  (List.nodup_flatMap.mp h).1 _ (HandleTable.mem_entries.mpr ha)

end Distinct

theorem Side.other_other (side : Side) : side.other.other = side := by
  cases side <;> rfl

namespace Books

variable {handle handle' : Handle} {flow flow' : PairFlow} {side side' : Side}

theorem streamSockets_nodup (h : Books base {} s) : s.streamSockets.Nodup := by
  have hnd := h.sockets.nodup
  simp only [StackBridge.heldUdp, List.append_nil, List.nodup_append] at hnd
  exact hnd.2.1.1

theorem streamPorts_nodup (h : Books base {} s) : s.streamPorts.Nodup := by
  have hnd := h.ports.nodup
  simp only [StackBridge.heldPorts, List.append_nil, List.nodup_append] at hnd
  exact hnd.1.2.1

theorem socket_inj (h : Books base {} s) (hget : s.udpFlows.get handle = some flow)
    (hget' : s.udpFlows.get handle' = some flow') (he : flow.socket side = flow'.socket side') :
    handle = handle' ∧ side = side' := by
  have hsame : handle = handle' := gathered_owner h.streamSockets_nodup hget hget' (flow.socket_mem side)
    (he ▸ flow'.socket_mem side')
  subst hsame
  cases hget.symm.trans hget'
  have hown := gathered_own h.streamSockets_nodup hget
  refine ⟨rfl, ?_⟩
  cases side <;> cases side' <;> simp_all [PairFlow.socket, PairFlow.sockets]

theorem port_inj (h : Books base {} s) (hget : s.udpFlows.get handle = some flow)
    (hget' : s.udpFlows.get handle' = some flow') (he : flow.port side = flow'.port side') :
    handle = handle' ∧ side = side' := by
  have hsame : handle = handle' := gathered_owner h.streamPorts_nodup hget hget' (flow.port_mem side)
    (he ▸ flow'.port_mem side')
  subst hsame
  cases hget.symm.trans hget'
  have hown := gathered_own h.streamPorts_nodup hget
  refine ⟨rfl, ?_⟩
  cases side <;> cases side' <;> simp_all [PairFlow.port, PairFlow.ports]

theorem port_toNat (h : Books base {} s) (hget : s.udpFlows.get handle = some flow) (side : Side) :
    (UInt16.ofNat (flow.port side)).toNat = flow.port side := by
  have hheld : flow.port side ∈ (s.heldPorts ++ []) ++ s.ports.available := by
    refine List.mem_append_left _ (List.mem_append_left _ (List.mem_append_right _ ?_))
    exact mem_gathered.mpr ⟨handle, flow, hget, flow.port_mem side⟩
  exact UInt16.toNat_ofNat_of_lt' (h.ports.range hheld).2

theorem stream_udpAt (h : Books base {} s) (hget : s.udpFlows.get handle = some flow) (side : Side) :
    ∃ socket, s.sockets.udpAt (flow.socket side) = some socket :=
  h.udpAt (List.mem_append_left _ (List.mem_append_left _
    (mem_gathered.mpr ⟨handle, flow, hget, flow.socket_mem side⟩)))

/-- The stream flows of UDP are apart from the packet flows and from TCP. -/
theorem aside (h : Books base {} s) : Aside s.streamSockets s := by
  have hnd := h.sockets.nodup
  simp only [StackBridge.heldTcp, StackBridge.heldUdp, List.append_nil, List.nodup_append, List.mem_append] at hnd
  obtain ⟨-, ⟨-, -, hgroups⟩, htcp⟩ := hnd
  refine ⟨fun i hi => ?_, fun handle flow hget side hi => ?_, fun handle flow hget hi => ?_,
    fun destination group hget hi => ?_⟩
  · obtain ⟨socket, hsocket⟩ := h.udpAt (List.mem_append_left _ (List.mem_append_left _ hi))
    obtain ⟨socket, hslot⟩ := udpAt_isSome.mp (Option.isSome_iff_exists.mpr ⟨socket, hsocket⟩)
    rw [hslot]
    rfl
  · exact htcp _ (.inl (mem_gathered.mpr ⟨handle, flow, hget, flow.socket_mem side⟩)) _ (.inl hi) rfl
  · exact htcp _ (.inr (mem_gathered.mpr ⟨handle, flow, hget, List.mem_singleton_self _⟩)) _ (.inl hi) rfl
  · exact hgroups _ hi _ (List.mem_map_of_mem (KeyedList.mem_of_get hget)) rfl

end Books

def waitingIn (payload : List UInt8) (socket : Option (UdpSocket U)) : ℕ :=
  (socket.elim [] UdpSocket.rx).countP fun d => decide (d.1 = payload)

def queuedIn (net : UdpService env) (payload : List UInt8) (socket : Option (UdpSocket U)) : ℕ :=
  (socket.elim [] fun socket => net.queued socket.rest).countP fun d => decide (d.1 = payload)

namespace StackBridge

def waitingAt (s : StackBridge W T U) (index : ℕ) (payload : List UInt8) : ℕ :=
  waitingIn payload (s.sockets.udpAt index)

def queuedAt (net : UdpService env) (s : StackBridge W T U) (index : ℕ) (payload : List UInt8) : ℕ :=
  queuedIn net payload (s.sockets.udpAt index)

def comingTo (net : UdpService env) (s : StackBridge W T U) (port : ℕ) (payload : List UInt8) : ℕ :=
  (net.onWay s.interface s.device.ingress).countP fun d => decide (d.1 = payload ∧ d.2.port.toNat = port)

end StackBridge

/-- Of each payload, what was received on a port, what waits for it, what is on its way to it and what is queued for
sending add up to no more than what was sent through the other port. -/
structure Ledger (net : UdpService env) (sent received : Handle × Side → List (List UInt8)) (s : StackBridge W T U) :
    Prop where
  bound : ∀ handle flow, s.udpFlows.get handle = some flow → ∀ side socket,
    s.sockets.udpAt (flow.socket side) = some socket →
      net.bound socket.rest = some ⟨none, UInt16.ofNat (flow.port side)⟩
  addressed : ∀ handle flow, s.udpFlows.get handle = some flow → ∀ side socket,
    s.sockets.udpAt (flow.socket side) = some socket →
      ∀ d ∈ net.queued socket.rest, d.2 = flow.endpoint side.other
  accounted : ∀ handle flow, s.udpFlows.get handle = some flow → ∀ side payload,
    (received (handle, side.other)).count payload + s.waitingAt (flow.socket side.other) payload +
        s.comingTo net (flow.port side.other) payload + s.queuedAt net (flow.socket side) payload ≤
      (sent (handle, side)).count payload

namespace Ledger

variable {sent received : Handle × Side → List (List UInt8)} {handle : Handle} {side : Side} {flow : PairFlow}

/-- What leaves the flows that remain and their sockets alone, and puts nothing on the way. -/
theorem frame (h : Ledger net sent received s)
    (hflows : ∀ handle flow, s'.udpFlows.get handle = some flow → s.udpFlows.get handle = some flow)
    (hsockets : ∀ handle flow, s'.udpFlows.get handle = some flow → ∀ side,
      s'.sockets.udpAt (flow.socket side) = s.sockets.udpAt (flow.socket side))
    (hcoming : net.onWay s'.interface s'.device.ingress <+~ net.onWay s.interface s.device.ingress) :
    Ledger net sent received s' where
  bound handle flow hget side socket hat := by
    rw [hsockets handle flow hget] at hat
    exact h.bound handle flow (hflows handle flow hget) side socket hat
  addressed handle flow hget side socket hat := by
    rw [hsockets handle flow hget] at hat
    exact h.addressed handle flow (hflows handle flow hget) side socket hat
  accounted handle flow hget side payload := by
    have hold := h.accounted handle flow (hflows handle flow hget) side payload
    have hless : s'.comingTo net (flow.port side.other) payload ≤ s.comingTo net (flow.port side.other) payload :=
      hcoming.countP_le _
    unfold StackBridge.waitingAt StackBridge.queuedAt at hold ⊢
    rw [hsockets handle flow hget, hsockets handle flow hget]
    omega

theorem udpAt_of_slot {set set' : SocketSet T U} {i : ℕ} (h : SlotTable.slot set' i = SlotTable.slot set i) :
    set'.udpAt i = set.udpAt i := by
  unfold SocketSet.udpAt
  rw [h]

theorem onWay_of_keeps (hnet : net.Documented) {keep : List ℕ} (hk : Keeps env keep s s') :
    net.onWay s'.interface s'.device.ingress <+~ net.onWay s.interface s.device.ingress := by
  rw [hk.device]
  exact hk.interface (fun w => net.onWay w s.device.ingress <+~ net.onWay s.interface s.device.ingress)
    (fun w rest endpoint port hw => (hnet.connects w rest endpoint port _).trans hw) (List.Subperm.refl _)

theorem kept (h : Ledger net sent received s) (hnet : net.Documented) (hk : Keeps env s.streamSockets s s') :
    Ledger net sent received s' := by
  refine h.frame (fun handle flow hget => hk.udpFlows ▸ hget) (fun handle flow hget side => ?_)
    (onWay_of_keeps hnet hk)
  rw [hk.udpFlows] at hget
  exact udpAt_of_slot (hk.slots _ (mem_gathered.mpr ⟨handle, flow, hget, flow.socket_mem side⟩))

/-- The sockets of the stream flows after one of them was written. -/
theorem udpAt_written (hb : Books base {} s) (hget : s.udpFlows.get handle = some flow) (side : Side)
    (socket : UdpSocket U) {handle' : Handle} {flow' : PairFlow} (hget' : s.udpFlows.get handle' = some flow')
    (side' : Side) : (s.sockets.setUdp (flow.socket side) socket).udpAt (flow'.socket side') =
      if handle' = handle ∧ side' = side then some socket else s.sockets.udpAt (flow'.socket side') := by
  split
  · next he =>
    obtain ⟨rfl, rfl⟩ := he
    cases hget.symm.trans hget'
    exact udpAt_setUdp (Option.isSome_iff_exists.mpr (hb.stream_udpAt hget side')) socket
  · next hne =>
    refine udpAt_of_slot (slot_set_other (fun he => hne ?_) _)
    exact hb.socket_inj hget' hget he

/-- A count over the socket that was written and its log changes by no more than `hthis` says; no other changes. -/
theorem counted_written (hb : Books base {} s) (hget : s.udpFlows.get handle = some flow) {socket : UdpSocket U}
    (hat : s.sockets.udpAt (flow.socket side) = some socket) {socket' : UdpSocket U} (V : Option (UdpSocket U) → ℕ)
    {before after : Handle × Side → ℕ} (hothers : ∀ key, key ≠ (handle, side) → after key = before key)
    (hthis : V (some socket') + after (handle, side) ≤ V (some socket) + before (handle, side)) {handle' : Handle}
    {flow' : PairFlow} (hget' : s.udpFlows.get handle' = some flow') (side' : Side) :
    V ((s.sockets.setUdp (flow.socket side) socket').udpAt (flow'.socket side')) + after (handle', side') ≤
      V (s.sockets.udpAt (flow'.socket side')) + before (handle', side') := by
  rw [udpAt_written hb hget side socket' hget' side']
  split
  · next he =>
    obtain ⟨rfl, rfl⟩ := he
    cases hget.symm.trans hget'
    rw [hat]
    exact hthis
  · next hne =>
    refine Nat.le_of_eq ?_
    rw [hothers _ fun hk => hne (Prod.mk.inj hk)]

/-- A port wrote its socket: what it queued is counted as sent, what it took off as received. -/
theorem written (h : Ledger net sent received s) (hb : Books base {} s) (hget : s.udpFlows.get handle = some flow)
    {socket socket' : UdpSocket U} (hat : s.sockets.udpAt (flow.socket side) = some socket)
    (hbound : net.bound socket'.rest = net.bound socket.rest)
    (haddressed : ∀ d ∈ net.queued socket'.rest, d ∈ net.queued socket.rest ∨ d.2 = flow.endpoint side.other)
    {sent' received' : Handle × Side → List (List UInt8)}
    (hsent : ∀ key, key ≠ (handle, side) → sent' key = sent key)
    (hreceived : ∀ key, key ≠ (handle, side) → received' key = received key)
    (hqueued : ∀ payload, ((net.queued socket'.rest).countP fun d => decide (d.1 = payload)) +
        (sent (handle, side)).count payload ≤
      ((net.queued socket.rest).countP fun d => decide (d.1 = payload)) + (sent' (handle, side)).count payload)
    (htaken : ∀ payload, (socket'.rx.countP fun d => decide (d.1 = payload)) +
        (received' (handle, side)).count payload ≤
      (socket.rx.countP fun d => decide (d.1 = payload)) + (received (handle, side)).count payload) :
    Ledger net sent' received' { s with sockets := s.sockets.setUdp (flow.socket side) socket' } := by
  have hwritten {handle' : Handle} {flow' : PairFlow} (hget' : s.udpFlows.get handle' = some flow') (side' : Side) :=
    udpAt_written hb hget side socket' hget' side'
  refine ⟨fun handle' flow' hget' side' socket₁ hat' => ?_, fun handle' flow' hget' side' socket₁ hat' => ?_,
    fun handle' flow' hget' side' payload => ?_⟩
  · dsimp only at hget' hat'
    rw [hwritten hget'] at hat'
    split at hat'
    · next he =>
      obtain ⟨rfl, rfl⟩ := he
      cases hget.symm.trans hget'
      cases hat'
      exact hbound.trans (h.bound handle' flow hget side' socket hat)
    · exact h.bound handle' flow' hget' side' socket₁ hat'
  · dsimp only at hget' hat'
    rw [hwritten hget'] at hat'
    split at hat'
    · next he =>
      obtain ⟨rfl, rfl⟩ := he
      cases hget.symm.trans hget'
      cases hat'
      intro d hd
      exact (haddressed d hd).elim (h.addressed handle' flow hget side' socket hat d) id
    · exact h.addressed handle' flow' hget' side' socket₁ hat'
  · dsimp only at hget'
    have hold := h.accounted handle' flow' hget' side' payload
    have hreads := counted_written hb hget hat (waitingIn payload)
      (fun key hk => congrArg (List.count payload) (hreceived key hk)) (htaken payload) hget' side'.other
    have hsends := counted_written hb hget hat (queuedIn net payload)
      (fun key hk => congrArg (List.count payload) (hsent key hk).symm) (hqueued payload) hget' side'
    unfold StackBridge.waitingAt StackBridge.queuedAt StackBridge.comingTo at hold ⊢
    dsimp only at hold hreads hsends ⊢
    omega

theorem countP_payload (payload other : List UInt8) (endpoint : IpEndpoint) :
    ([(payload, endpoint)].countP fun d => decide (d.1 = other)) = [payload].count other := by
  rw [List.countP_singleton, List.count_singleton]
  by_cases heq : payload = other <;> simp [heq]

theorem send (h : Ledger net sent received s) (hb : Books base {} s) (hnet : net.Documented) (handle : Handle)
    (side : Side) (datagram : List UInt8) : ∃ inner result,
      s.pollSendDatagram net handle side datagram = some (inner, result) ∧ Books base {} inner ∧
      Ledger net (Function.update sent (handle, side)
        (sent (handle, side) ++ StackTraffic.accepted datagram result)) received inner := by
  have hnothing : Ledger net (Function.update sent (handle, side) (sent (handle, side) ++ [])) received s := by
    rw [List.append_nil, Function.update_eq_self]
    exact h
  unfold StackBridge.pollSendDatagram StackBridge.udpSend
  split
  · exact ⟨s, _, rfl, hb, hnothing⟩
  cases hget : s.udpFlows.get handle with
  | none => exact ⟨s, _, rfl, hb, hnothing⟩
  | some flow =>
    obtain ⟨socket, hat⟩ := hb.stream_udpAt hget side
    simp only [hat, Option.bind_eq_bind, Option.bind_some]
    cases hsend : net.sendSlice socket.rest datagram (flow.endpoint side.other) with
    | none => exact ⟨s, _, rfl, hb, hnothing⟩
    | some rest =>
      obtain ⟨hbound, hqueued⟩ := hnet.sends _ _ _ _ hsend
      have hheld : flow.socket side ∈ s.heldUdp ++ [] := List.mem_append_left _ (List.mem_append_left _
        (mem_gathered.mpr ⟨handle, flow, hget, flow.socket_mem side⟩))
      refine ⟨_, _, rfl, hb.setUdp hheld ⟨socket.rx, rest⟩, h.written hb hget hat hbound (fun d hd => ?_)
        (fun key hk => Function.update_of_ne hk _ _) (fun _ _ => rfl) (fun payload => ?_) fun payload => ?_⟩
      · rw [hqueued] at hd
        refine (List.mem_append.mp hd).imp_right fun hd => ?_
        rw [List.mem_singleton.mp hd]
      · rw [Function.update_self, hqueued, List.countP_append, countP_payload, List.count_append,
          StackTraffic.accepted]
        omega
      · exact Nat.le_refl _

theorem recv (h : Ledger net sent received s) (hb : Books base {} s) (handle : Handle) (side : Side) (length : ℕ) :
    ∃ inner result, s.pollRecvDatagram handle side length = some (inner, result) ∧ Books base {} inner ∧
      Ledger net sent (Function.update received (handle, side)
        (received (handle, side) ++ StackTraffic.taken result)) inner ∧
      inner.udpFlows = s.udpFlows ∧ (s.udpFlows.get handle = none → StackTraffic.taken result = []) := by
  have hnothing : Ledger net sent (Function.update received (handle, side) (received (handle, side) ++ [])) s := by
    rw [List.append_nil, Function.update_eq_self]
    exact h
  unfold StackBridge.pollRecvDatagram StackBridge.udpRecv
  cases hget : s.udpFlows.get handle with
  | none => exact ⟨s, _, rfl, hb, hnothing, rfl, fun _ => rfl⟩
  | some flow =>
    obtain ⟨socket, hat⟩ := hb.stream_udpAt hget side
    have hheld : flow.socket side ∈ s.heldUdp ++ [] := List.mem_append_left _ (List.mem_append_left _
      (mem_gathered.mpr ⟨handle, flow, hget, flow.socket_mem side⟩))
    have hsame (read : List (List UInt8)) (hread : read = []) : Ledger net sent
        (Function.update received (handle, side) (received (handle, side) ++ read))
        { s with sockets := s.sockets.setUdp (flow.socket side) socket } := by
      rw [hread, List.append_nil, Function.update_eq_self]
      exact h.written hb hget hat rfl (fun d hd => .inl hd) (fun _ _ => rfl) (fun _ _ => rfl)
        (fun _ => Nat.le_refl _) fun _ => Nat.le_refl _
    simp only [hat, Option.bind_eq_bind, Option.bind_some, StackBridge.recvUdp]
    cases hrx : socket.rx with
    | nil => exact ⟨_, _, rfl, hb.setUdp hheld socket, hsame _ rfl, rfl, fun h => nomatch h⟩
    | cons d rx =>
      obtain ⟨payload, source⟩ := d
      dsimp only
      split
      · exact ⟨_, _, rfl, hb.setUdp hheld socket, hsame _ rfl, rfl, fun h => nomatch h⟩
      · have hothers : ∀ key, key ≠ (handle, side) → Function.update received (handle, side)
            (received (handle, side) ++ [payload]) key = received key :=
          fun key hk => Function.update_of_ne hk _ _
        have hbound : net.bound (UdpSocket.mk rx socket.rest).rest = net.bound socket.rest := rfl
        have hread : Ledger net sent (Function.update received (handle, side) (received (handle, side) ++ [payload]))
            { s with sockets := s.sockets.setUdp (flow.socket side) ⟨rx, socket.rest⟩ } := by
          refine h.written hb hget hat hbound (fun d hd => .inl hd) (fun _ _ => rfl) hothers
            (fun _ => Nat.le_refl _) fun other => ?_
          have hsplit : ((payload, source) :: rx).countP (fun d => decide (d.1 = other)) =
              [payload].count other + rx.countP fun d => decide (d.1 = other) := by
            rw [← List.singleton_append, List.countP_append, countP_payload]
          rw [Function.update_self, hrx, List.count_append, hsplit]
          dsimp only
          omega
        exact ⟨_, _, rfl, hb.setUdp hheld ⟨rx, socket.rest⟩, hread, rfl, fun h => nomatch h⟩

/-- What the accounts are for. -/
theorem subperm (h : Ledger net sent received s) (hget : s.udpFlows.get handle = some flow) (side : Side) :
    received (handle, side.other) <+~ sent (handle, side) := by
  refine List.subperm_ext_iff.mpr fun payload _ => ?_
  have hcounts := h.accounted handle flow hget side payload
  omega

end Ledger
end Snolc.Stack
