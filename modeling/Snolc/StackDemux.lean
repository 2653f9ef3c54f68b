import Snolc.QueueLogs
import Snolc.StackFrames
import Snolc.StackOrphans
import Snolc.StackPreparation

set_option autoImplicit false

namespace Snolc.Stack
open CheckedSlice GuardedRuns Handles PartialPosts QueueLogs
open Engine (StackError)

variable {W T U : Type} {base : ℕ} {s s' : StackBridge W T U}

def payloadsFrom (source : IpEndpoint) (datagrams : List (List UInt8 × IpEndpoint)) :
    List (List UInt8) :=
  (datagrams.filter fun datagram => decide (datagram.2 = source)).map Prod.fst

namespace StackBridge

def heldFor (s : StackBridge W T U) (tuple : PacketUdpTuple) : List (List UInt8) :=
  (((KeyedList.get s.packetUdpByTuple tuple).bind s.packetUdpFlows.get).bind (·.incoming)).toList

def queuedFor (s : StackBridge W T U) (tuple : PacketUdpTuple) : List (List UInt8) :=
  s.heldFor tuple ++ payloadsFrom tuple.source (s.waiting tuple.destination)

/-- The datagram that `poll_recv_datagram` copies into a buffer of the given length, with the
tuple of the flow it is taken from. -/
def packetUdpRead (s : StackBridge W T U) (handle : Handle) (length : ℕ) :
    Option (PacketUdpTuple × List UInt8) :=
  match s.packetUdpFlows.get handle with
  | none => none
  | some flow =>
    match flow.incoming with
    | none => none
    | some packet => if length < packet.length then none else some (flow.tuple, packet)

def addedFor (tuple : PacketUdpTuple) (s s' : StackBridge W T U) : List (List UInt8) :=
  payloadsFrom tuple.source
    ((s'.waiting tuple.destination).drop (s.waiting tuple.destination).length)

def turnDelivered (env : Smoltcp W T U) (tuple : PacketUdpTuple) (s : StackBridge W T U) :
    List (List UInt8) :=
  match s.prepareTurn env with
  | some (s₁, true) =>
    match s₁.pollIngressSingle env with
    | some (s₂, _) => addedFor tuple s₁ s₂
    | none => []
  | _ => []

/-- What smoltcp delivers for a tuple in a tick: in the ingress loop, and when it sends. -/
def tickDelivered (env : Smoltcp W T U) (tuple : PacketUdpTuple) (s : StackBridge W T U) :
    List (List UInt8) :=
  let s := { s with interface := env.pollMaintenance s.interface }
  let sending := do
    let s ← ingressLoop env s.maxIngressPacketsPerTick s
    let s ← s.queueEstablishedPacketTcp env
    s.drainPacketUdp env
  loopLog (ingressTurn env) (turnDelivered env tuple) s.maxIngressPacketsPerTick s ++
    sending.elim [] fun s => addedFor tuple s (s.pollEgress env)

def ticksDelivered (env : Smoltcp W T U) (tuple : PacketUdpTuple) :
    ℕ → StackBridge W T U → List (List UInt8)
  | 0, _ => []
  | n + 1, s => s.tickDelivered env tuple ++ (s.poll env).elim [] (ticksDelivered env tuple n)

end StackBridge

namespace SharedStackBridge

/-- What smoltcp delivers for a tuple in a call: in the ticks of `poll` and of `open_tcp`. -/
def callDelivered (env : Smoltcp W T U) (tuple : PacketUdpTuple) (s : SharedStackBridge W T U) :
    StackCall T U → List (List UInt8)
  | .poll => s.inner.tickDelivered env tuple
  | .openTcp metadata =>
    match s.inner.startTcp env metadata with
    | some (inner, .ok _) => inner.ticksDelivered env tuple 8
    | _ => []
  | _ => []

def returnedTo (tuple : PacketUdpTuple) : Option (PacketUdpTuple × List UInt8) → List (List UInt8)
  | none => []
  | some (owner, packet) => if owner = tuple then [packet] else []

/-- What the port of a tuple returns in a call. -/
def callReturned (tuple : PacketUdpTuple) (s : SharedStackBridge W T U) :
    StackCall T U → List (List UInt8)
  | .packetUdpRecv handle length =>
    if handle ∈ s.packetUdpLeases then returnedTo tuple (s.inner.packetUdpRead handle length) else []
  | _ => []

end SharedStackBridge

theorem payloadsFrom_append (source : IpEndpoint) (xs ys : List (List UInt8 × IpEndpoint)) :
    payloadsFrom source (xs ++ ys) = payloadsFrom source xs ++ payloadsFrom source ys := by
  simp only [payloadsFrom, List.filter_append, List.map_append]

theorem payloadsFrom_sublist (source : IpEndpoint) {xs ys : List (List UInt8 × IpEndpoint)}
    (h : xs.Sublist ys) : (payloadsFrom source xs).Sublist (payloadsFrom source ys) :=
  (h.filter _).map _

theorem payloadsFrom_cons (source : IpEndpoint) (payload : List UInt8) (sender : IpEndpoint)
    (rest : List (List UInt8 × IpEndpoint)) :
    payloadsFrom source ((payload, sender) :: rest) =
      if sender = source then payload :: payloadsFrom source rest else payloadsFrom source rest := by
  by_cases h : sender = source
  · simp [payloadsFrom, h]
  · simp [payloadsFrom, h]

theorem QuietUdp.queuedFor (h : QuietUdp s s') (tuple : PacketUdpTuple) :
    s'.queuedFor tuple = s.queuedFor tuple := by
  simp only [StackBridge.queuedFor, StackBridge.heldFor, h.byTuple, h.flows, h.waiting]

theorem queued_sublist {tuple : PacketUdpTuple}
    (hheld : (s'.heldFor tuple).Sublist (s.heldFor tuple))
    (hwait : (s'.waiting tuple.destination).Sublist (s.waiting tuple.destination)) :
    (s'.queuedFor tuple).Sublist (s.queuedFor tuple) :=
  hheld.append (payloadsFrom_sublist _ hwait)

theorem heldFor_congr (hflows : s'.packetUdpFlows = s.packetUdpFlows)
    (hbyTuple : s'.packetUdpByTuple = s.packetUdpByTuple) (tuple : PacketUdpTuple) :
    s'.heldFor tuple = s.heldFor tuple := by
  simp only [StackBridge.heldFor, hflows, hbyTuple]

theorem waiting_eq_socket (s : StackBridge W T U) (destination : IpEndpoint) :
    s.waiting destination = (((KeyedList.get s.packetUdpGroups destination).map
      PacketUdpGroup.socket).bind s.sockets.udpAt).elim [] UdpSocket.rx := by
  unfold StackBridge.waiting
  cases KeyedList.get s.packetUdpGroups destination with
  | none => rfl
  | some group =>
    simp only [Option.map_some, Option.bind_some]
    cases s.sockets.udpAt group.socket with
    | none => rfl
    | some socket => rfl

def SameGroups (s s' : StackBridge W T U) : Prop :=
  ∀ destination, (KeyedList.get s'.packetUdpGroups destination).map PacketUdpGroup.socket =
    (KeyedList.get s.packetUdpGroups destination).map PacketUdpGroup.socket

theorem SameGroups.of_eq (h : s'.packetUdpGroups = s.packetUdpGroups) : SameGroups s s' := by
  intro destination
  rw [h]

theorem SameGroups.of_modify {destination : IpEndpoint} {f : PacketUdpGroup → PacketUdpGroup}
    (h : s'.packetUdpGroups = KeyedList.modify s.packetUdpGroups destination f)
    (hf : ∀ group, (f group).socket = group.socket) : SameGroups s s' := by
  intro d
  rw [h, KeyedList.get_modify]
  split
  · rw [Option.map_map]
    congr 1
    funext group
    exact hf group
  · rfl

theorem waiting_written {destination : IpEndpoint} {group : PacketUdpGroup}
    {socket written : UdpSocket U} (hb : Books base {} s)
    (hlisted : (destination, group) ∈ s.packetUdpGroups)
    (hs : s.sockets.udpAt group.socket = some socket)
    (hsockets : s'.sockets = s.sockets.setUdp group.socket written) (hgroups : SameGroups s s')
    (d : IpEndpoint) : s'.waiting d = if d = destination then written.rx else s.waiting d := by
  have hsome : (s.sockets.udpAt group.socket).isSome := by rw [hs]; rfl
  rw [waiting_eq_socket, hgroups, hsockets]
  split
  · next hd =>
    rw [hd, (KeyedList.get_eq_some hb.grouped.distinct).mpr hlisted]
    simp only [Option.map_some, Option.bind_some, udpAt_setUdp hsome, Option.elim_some]
  · next hd =>
    rw [waiting_eq_socket]
    cases hg : KeyedList.get s.packetUdpGroups d with
    | none => rfl
    | some other =>
      obtain ⟨old, hold⟩ := udpAt_isSome.mp hsome
      have hne := NoOrphan.group_socket_ne hb hlisted (KeyedList.mem_of_get hg) hd
      have hslot : SlotTable.slot (s.sockets.setUdp group.socket written) other.socket =
          SlotTable.slot s.sockets other.socket := by
        rw [SocketSet.setUdp, slot_set _ _ _ _ (lt_of_slot hold), if_neg hne]
      simp only [Option.map_some, Option.bind_some, SocketSet.udpAt, hslot]

theorem index_of_flow {handle : Handle} {flow : PacketUdpFlow} (hb : Books base {} s)
    (hflow : s.packetUdpFlows.get handle = some flow) :
    KeyedList.get s.packetUdpByTuple flow.tuple = some handle :=
  (KeyedList.get_eq_some hb.udpIndex.distinct).mpr (hb.udpIndex.mem_index.mpr ⟨flow, hflow, rfl⟩)

theorem heldFor_of_flow {handle : Handle} {flow : PacketUdpFlow} (hb : Books base {} s)
    (hflow : s.packetUdpFlows.get handle = some flow) :
    s.heldFor flow.tuple = flow.incoming.toList := by
  simp only [StackBridge.heldFor, index_of_flow hb hflow, Option.bind_some, hflow]

theorem heldFor_of_others {handle : Handle} {flow : PacketUdpFlow} {tuple : PacketUdpTuple}
    (hb : Books base {} s) (hflow : s.packetUdpFlows.get handle = some flow)
    (hne : tuple ≠ flow.tuple)
    (hindex : KeyedList.get s'.packetUdpByTuple tuple = KeyedList.get s.packetUdpByTuple tuple)
    (hothers : ∀ h, h ≠ handle → s'.packetUdpFlows.get h = s.packetUdpFlows.get h) :
    s'.heldFor tuple = s.heldFor tuple := by
  unfold StackBridge.heldFor
  rw [hindex]
  cases hget : KeyedList.get s.packetUdpByTuple tuple with
  | none => rfl
  | some owner =>
    obtain ⟨own, hown, htuple⟩ := hb.udpIndex.get_index hget
    have howner : owner ≠ handle := by
      rintro rfl
      obtain rfl := Option.some.inj (hflow.symm.trans hown)
      exact hne htuple.symm
    simp only [Option.bind_some, hothers owner howner]

theorem openPacketUdp_fresh {env : Smoltcp W T U} {tuple : PacketUdpTuple} {managedBytes : ℕ}
    (h : s.openPacketUdp env tuple managedBytes = some (s', .ok ())) :
    ∃ socket rest, s'.sockets.udpAt socket = some ⟨[], rest⟩ ∧
      s'.packetUdpGroups = KeyedList.insert s.packetUdpGroups tuple.destination
        ⟨socket, managedBytes, 0⟩ ∧
      s'.packetUdpFlows = s.packetUdpFlows ∧ s'.packetUdpByTuple = s.packetUdpByTuple := by
  have hpresent := StackBridge.add_present s.sockets (.udp ⟨[], env.newUdp s.config⟩)
  unfold StackBridge.openPacketUdp at h
  generalize s.sockets.add (.udp ⟨[], env.newUdp s.config⟩) = added at hpresent h
  obtain ⟨set, socket⟩ := added
  dsimp only at hpresent
  have hat : set.udpAt socket = some ⟨[], env.newUdp s.config⟩ := by
    rw [SocketSet.udpAt, hpresent]
  simp only [hat, Option.bind_eq_bind, Option.bind_some, Option.pure_def] at h
  cases hbind : env.bind (env.newUdp s.config) tuple.destination.listen with
  | none =>
    simp only [hbind, StackBridge.removeSocket, StackBridge.remove_present hpresent,
      Option.bind_eq_bind, Option.bind_some, Option.pure_def] at h
    obtain ⟨s₁, -, hlast⟩ := Option.bind_eq_some_iff.mp h
    cases hlast
  | some rest =>
    simp only [hbind] at h
    cases h
    exact ⟨socket, rest, udpAt_setUdp (by rw [hat]; rfl) _, rfl, rfl, rfl⟩

theorem OpenedUdp.waiting {tuple : PacketUdpTuple} {group : PacketUdpGroup} {rest : U}
    (h : OpenedUdp s s' tuple group) (hfresh : s'.sockets.udpAt group.socket = some ⟨[], rest⟩)
    (destination : IpEndpoint) : (s'.waiting destination).Sublist (s.waiting destination) := by
  rw [waiting_eq_socket, h.groups, KeyedList.get_cons]
  split
  · simp only [Option.map_some, Option.bind_some, hfresh, Option.elim_some]
    exact List.nil_sublist _
  · rw [waiting_eq_socket]
    cases hg : KeyedList.get s.packetUdpGroups destination with
    | none => exact List.Sublist.refl _
    | some other =>
      have hslot := h.sockets other.socket (List.mem_map.mpr ⟨_, KeyedList.mem_of_get hg, rfl⟩)
      simp only [Option.map_some, Option.bind_some, SocketSet.udpAt, hslot]
      exact List.Sublist.refl _

theorem PreparedUdp.queuedFor {env : Smoltcp W T U} {result : Except StackError Unit}
    (hp : PreparedUdp s s' result) (he : s.preparePacketUdp env = some (s', result))
    (tuple : PacketUdpTuple) : (s'.queuedFor tuple).Sublist (s.queuedFor tuple) := by
  rcases hp.udp with hq | ⟨opened, group, ho⟩
  · rw [hq.queuedFor]
  cases result with
  | error error => rw [(hp.refused error rfl).1.queuedFor]
  | ok _ =>
    unfold StackBridge.preparePacketUdp at he
    split at he
    · cases he
      exact List.Sublist.refl _
    split at he
    · cases he
    split at he
    · cases he
    next s₁ hreserve =>
    have hsame : s₁.packetUdpGroups = s.packetUdpGroups ∧ s₁.packetUdpFlows = s.packetUdpFlows ∧
        s₁.packetUdpByTuple = s.packetUdpByTuple := by
      unfold StackBridge.reserve at hreserve
      split at hreserve
      · cases hreserve
      split at hreserve
      · cases hreserve
      · cases hreserve
        exact ⟨rfl, rfl, rfl⟩
    obtain ⟨socket, rest, hfresh, hgroups, hflows, hbyTuple⟩ := openPacketUdp_fresh he
    obtain ⟨hnewest, -⟩ := List.cons.inj (hgroups.symm.trans ho.groups)
    obtain ⟨-, rfl⟩ := Prod.mk.inj hnewest
    refine queued_sublist ?_ (ho.waiting hfresh tuple.destination)
    rw [heldFor_congr (hflows.trans hsame.2.1) (hbyTuple.trans hsame.2.2)]

theorem Reacted.queuedFor {reaction : Reaction W T U} {queue : List QueuedPacket}
    (hr : Reacted s s' reaction queue) (hb : Books base {} s) (hb' : Books base {} s')
    (hkeeps : ∀ i socket, socket.rx <+: (reaction.udp i socket).rx)
    (hflows : s'.packetUdpFlows = s.packetUdpFlows)
    (hbyTuple : s'.packetUdpByTuple = s.packetUdpByTuple) (tuple : PacketUdpTuple) :
    s'.queuedFor tuple = s.queuedFor tuple ++ StackBridge.addedFor tuple s s' := by
  have hfront : s.waiting tuple.destination <+: s'.waiting tuple.destination := by
    cases hg : KeyedList.get s.packetUdpGroups tuple.destination with
    | none =>
      rw [waiting_eq_socket s, hg]
      exact List.nil_prefix
    | some group =>
      obtain ⟨socket, -, hbefore, hafter⟩ :=
        NoOrphan.waiting_reacted hb hb' hr (KeyedList.mem_of_get hg)
      rw [hbefore, hafter]
      exact hkeeps group.socket socket
  have hsplit := List.prefix_iff_eq_append.mp hfront
  unfold StackBridge.queuedFor StackBridge.addedFor
  rw [heldFor_congr hflows hbyTuple, List.append_assoc, ← payloadsFrom_append, hsplit]

section Taking

variable {destination : IpEndpoint} {group : PacketUdpGroup} {socket : UdpSocket U}
  {datagram : List UInt8 × IpEndpoint} {rx : List (List UInt8 × IpEndpoint)}

theorem Taken.before (taken : Taken s s' destination group socket datagram rx)
    (hb : Books base {} s) : s.waiting destination = datagram :: rx :=
  (waiting_eq hb taken.listed taken.here).trans taken.waiting

theorem Taken.after (taken : Taken s s' destination group socket datagram rx)
    (hb : Books base {} s) (hgroups : SameGroups s s') (d : IpEndpoint) :
    s'.waiting d = if d = destination then rx else s.waiting d :=
  waiting_written hb taken.listed taken.here taken.sockets hgroups d

theorem Taken.lost (taken : Taken s s' destination group socket datagram rx)
    (hb : Books base {} s) (hgroups : SameGroups s s') {tuple : PacketUdpTuple}
    (hheld : s'.heldFor tuple = s.heldFor tuple) :
    (s'.queuedFor tuple).Sublist (s.queuedFor tuple) := by
  refine queued_sublist (by rw [hheld]) ?_
  rw [taken.after hb hgroups]
  split
  · next hd =>
    rw [hd, taken.before hb]
    exact List.sublist_cons_self datagram rx
  · exact List.Sublist.refl _

theorem Taken.moved (taken : Taken s s' destination group socket datagram rx)
    (hb : Books base {} s) (hgroups : SameGroups s s')
    (hempty : s.heldFor ⟨datagram.2, destination⟩ = [])
    (hfull : s'.heldFor ⟨datagram.2, destination⟩ = [datagram.1])
    (hothers : ∀ tuple, tuple ≠ ⟨datagram.2, destination⟩ → s'.heldFor tuple = s.heldFor tuple)
    (tuple : PacketUdpTuple) : (s'.queuedFor tuple).Sublist (s.queuedFor tuple) := by
  obtain ⟨payload, sender⟩ := datagram
  obtain ⟨source, d⟩ := tuple
  have hafter := taken.after hb hgroups d
  suffices heq : s'.queuedFor ⟨source, d⟩ = s.queuedFor ⟨source, d⟩ by rw [heq]
  unfold StackBridge.queuedFor
  dsimp only at *
  rw [hafter]
  by_cases hd : d = destination
  · subst hd
    rw [if_pos rfl, taken.before hb, payloadsFrom_cons]
    by_cases hsource : sender = source
    · rw [if_pos hsource, ← hsource, hempty, hfull]
      rfl
    · have hne : (⟨source, d⟩ : PacketUdpTuple) ≠ ⟨sender, d⟩ := by
        intro heq
        exact hsource (PacketUdpTuple.mk.inj heq).1.symm
      rw [if_neg hsource, hothers _ hne]
  · have hne : (⟨source, d⟩ : PacketUdpTuple) ≠ ⟨sender, destination⟩ := by
      intro heq
      exact hd (PacketUdpTuple.mk.inj heq).2
    rw [if_neg hd, hothers _ hne]

end Taking

/-- A datagram of one tuple goes from the front of the socket into its flow, or is lost. -/
theorem drainOne_queued (hb : Books base {} s) (destination : IpEndpoint) (tuple : PacketUdpTuple) :
    Yields (s.drainOne destination) fun q => (q.1.queuedFor tuple).Sublist (s.queuedFor tuple) := by
  unfold StackBridge.drainOne
  split
  · exact yields_some (List.Sublist.refl _)
  next group hgroup =>
  have hlisted := KeyedList.mem_of_get hgroup
  obtain ⟨socket, hat⟩ := (hb.group_udpAt hlisted).2
  simp only [hat, Option.bind_eq_bind, Option.bind_some, Option.pure_def]
  split
  · exact yields_some (List.Sublist.refl _)
  next payload source rx hrx =>
  split
  · exact yields_some (List.Sublist.refl _)
  next hfree =>
  rcases hb.reserve payload.length with he | ⟨he, -⟩
  · simp only [he]
    exact yields_some (List.Sublist.refl _)
  simp only [he]
  have taken : ∀ {s' : StackBridge W T U}, s'.sockets = s.sockets.setUdp group.socket ⟨rx, socket.rest⟩ →
      Taken s s' destination group socket (payload, source) rx :=
    fun hsockets => ⟨hlisted, hat, hrx, hsockets⟩
  cases hknown : KeyedList.get s.packetUdpByTuple ⟨source, destination⟩ with
  | some handle =>
    obtain ⟨flow, hflow, htuple⟩ := hb.udpIndex.get_index hknown
    have hempty : flow.incoming = none := by simpa [hknown, hflow] using hfree
    have hget := HandleTable.get_modify hb.udpIndex.sound hflow fun flow : PacketUdpFlow =>
      { flow with incoming := some payload }
    simp only [hflow]
    refine yields_some (Taken.moved (taken ?_) hb (SameGroups.of_eq ?_) ?_ ?_ ?_ tuple)
    · rfl
    · rfl
    · rw [← htuple, heldFor_of_flow hb hflow, hempty]
      rfl
    · simp only [StackBridge.heldFor, hknown, Option.bind_some, hget, if_pos]
      rfl
    · intro other hne
      refine heldFor_of_others hb hflow (htuple ▸ hne) rfl fun h hh => ?_
      exact (hget h).trans (if_neg hh)
  | none =>
    have hempty : s.heldFor ⟨source, destination⟩ = [] := by
      simp only [StackBridge.heldFor, hknown]
      rfl
    rcases HandleTable.insert_total hb.udpIndex.sound ⟨⟨source, destination⟩,
      packetMetadata destination, some payload⟩ with hi | ⟨flows, handle, hi, hsound, hperm, -⟩
    · simp only [hi, Option.bind_some, StackBridge.release]
      split
      · refine yields_some (Taken.lost (taken ?_) hb (SameGroups.of_eq ?_) ?_) <;> rfl
      · exact yields_none
    · obtain ⟨hfresh, hget⟩ := HandleTable.get_of_insert hperm
      simp only [hi, Option.bind_some]
      refine yields_some (Taken.moved (taken ?_) hb ?_ hempty ?_ ?_ tuple)
      · rfl
      · apply SameGroups.of_modify (f := fun group => { group with flows := group.flows + 1 })
        · rfl
        · exact fun _ => rfl
      · simp only [StackBridge.heldFor, KeyedList.get_insert_self, Option.bind_some, hget]
        rfl
      · intro other hne
        unfold StackBridge.heldFor
        dsimp only
        rw [KeyedList.get_insert_of_ne _ hne]
        cases hother : KeyedList.get s.packetUdpByTuple other with
        | none => rfl
        | some owner =>
          obtain ⟨own, hown, -⟩ := hb.udpIndex.get_index hother
          have howner : owner ≠ handle := by
            rintro rfl
            cases hfresh.symm.trans hown
          simp only [Option.bind_some, HandleTable.get_of_perm_cons hperm howner]

section Ticks

variable {env : Smoltcp W T U}

theorem drainPacketUdp_queued (hb : Books base {} s) (env : Smoltcp W T U) (tuple : PacketUdpTuple) :
    ∃ s', s.drainPacketUdp env = some s' ∧ Books base {} s' ∧
      (s'.queuedFor tuple).Sublist (s.queuedFor tuple) := by
  have hturn : ∀ destination (s₁ : StackBridge W T U),
      (Books base {} s₁ ∧ (s₁.queuedFor tuple).Sublist (s.queuedFor tuple)) → True →
      ∃ s₂ more, s₁.drainOne destination = some (s₂, more) ∧ Books base {} s₂ ∧
        (s₂.queuedFor tuple).Sublist (s.queuedFor tuple) := by
    intro destination s₁ h _
    obtain ⟨s₂, more, e, hb₂, -⟩ := h.1.drainOne destination
    exact ⟨s₂, more, e, hb₂, (drainOne_queued h.1 destination tuple (s₂, more) e).trans h.2⟩
  refine foldlM_always (fun s₁ => Books base {} s₁ ∧ (s₁.queuedFor tuple).Sublist (s.queuedFor tuple))
    (fun s₁ destination h => ?_) ⟨hb, List.Sublist.refl _⟩ _
  exact loop_invariant _ (hturn destination) h (eachTurn_always (fun _ => trivial) _ s₁)

theorem queueEstablished_queued (hb : Books base {} s) (env : Smoltcp W T U) (tuple : PacketUdpTuple) :
    ∃ s', s.queueEstablishedPacketTcp env = some s' ∧ Books base {} s' ∧
      s'.queuedFor tuple = s.queuedFor tuple := by
  apply queue_rule env (J := fun s₁ => s₁.queuedFor tuple = s.queuedFor tuple) _ hb rfl
  intro s₁ s₂ handle _ h hp
  cases hp with
  | skipped => exact h
  | queued => exact h

theorem prepareTurn_queued (hb : Books base {} s) (env : Smoltcp W T U) (tuple : PacketUdpTuple) :
    ∃ s' go, s.prepareTurn env = some (s', go) ∧ Books base {} s' ∧
      (s'.queuedFor tuple).Sublist (s.queuedFor tuple) := by
  obtain ⟨s₁, tcp, e1, h1, p1⟩ := hb.preparePacketTcp env
  obtain ⟨s₂, e2, h2, q2⟩ : ∃ s₂, (tcp.casesOn (fun _ => s₁.dropFront) fun _ => some s₁) = some s₂ ∧
      Books base {} s₂ ∧ s₂.queuedFor tuple = s.queuedFor tuple := by
    cases tcp with
    | error error =>
      obtain ⟨s₂, e2, h2, -, hq, -⟩ := h1.dropFront
      exact ⟨s₂, e2, h2, (hq.queuedFor tuple).trans (p1.udp.queuedFor tuple)⟩
    | ok _ => exact ⟨s₁, rfl, h1, p1.udp.queuedFor tuple⟩
  obtain ⟨s₃, udp, e3, h3, p3⟩ := h2.preparePacketUdp env
  have q3 := p3.queuedFor e3 tuple
  rw [q2] at q3
  unfold StackBridge.prepareTurn
  cases udp with
  | error error =>
    obtain ⟨s₄, e4, h4, -, hq, -⟩ := h3.dropFront
    refine ⟨s₄, false, ?_, h4, by rw [hq.queuedFor]; exact q3⟩
    cases tcp <;> simp_all
  | ok _ =>
    refine ⟨s₃, true, ?_, h3, q3⟩
    cases tcp <;> simp_all

theorem pollIngressSingle_queued (henv : KeepsReceived env) (hb : Books base {} s)
    (tuple : PacketUdpTuple) : ∃ s' more, s.pollIngressSingle env = some (s', more) ∧
      Books base {} s' ∧ s'.queuedFor tuple = s.queuedFor tuple ++ StackBridge.addedFor tuple s s' := by
  obtain ⟨s', more, e, hb', hor⟩ := hb.pollIngressSingle env
  refine ⟨s', more, e, hb', ?_⟩
  rcases hor with rfl | ⟨packet, rest, -, -, hr⟩
  · simp [StackBridge.addedFor, payloadsFrom]
  · have hsame : s'.packetUdpFlows = s.packetUdpFlows ∧ s'.packetUdpByTuple = s.packetUdpByTuple := by
      unfold StackBridge.pollIngressSingle at e
      obtain ⟨⟨device, received⟩, -, e⟩ := Option.bind_eq_some_iff.mp e
      cases received with
      | none => cases e; exact ⟨rfl, rfl⟩
      | some packet => cases e; exact ⟨rfl, rfl⟩
    exact hr.queuedFor hb hb' (fun i socket => henv.ingress s.interface s.sockets packet.bytes i socket)
      hsame.1 hsame.2 tuple

theorem ingressTurn_passes (henv : KeepsReceived env) (hb : Books base {} s) (tuple : PacketUdpTuple) :
    ∃ s' more, s.ingressTurn env = some (s', more) ∧ Books base {} s' ∧
      Passes (s.queuedFor tuple) [] (s'.queuedFor tuple) (s.turnDelivered env tuple) := by
  obtain ⟨s₁, go, e1, h1, q1⟩ := prepareTurn_queued hb env tuple
  unfold StackBridge.ingressTurn StackBridge.turnDelivered
  cases go with
  | false =>
    refine ⟨s₁, true, by simp [e1], h1, ?_⟩
    simp only [e1]
    exact Passes.of_sublist q1
  | true =>
    obtain ⟨s₂, more, e2, h2, q2⟩ := pollIngressSingle_queued henv h1 tuple
    refine ⟨s₂, more, by simp [e1, e2], h2, ?_⟩
    simp only [e1, e2]
    exact Passes.after_loss q1 (Passes.of_append q2)

theorem poll_passes (henv : KeepsReceived env) (hb : Books base {} s) (tuple : PacketUdpTuple) :
    ∃ s', s.poll env = some s' ∧ Books base {} s' ∧
      Passes (s.queuedFor tuple) [] (s'.queuedFor tuple) (s.tickDelivered env tuple) := by
  have h0 : Books base {} { s with interface := env.pollMaintenance s.interface } := { hb with }
  obtain ⟨s₁, e1, h1, p1⟩ := loop_passes (fun s₁ : StackBridge W T U => s₁.queuedFor tuple)
    (Books base {}) (fun s₁ h => ingressTurn_passes henv h tuple) s.maxIngressPacketsPerTick h0
  obtain ⟨s₂, e2, h2, q2⟩ := queueEstablished_queued h1 env tuple
  obtain ⟨s₃, e3, h3, q3⟩ := drainPacketUdp_queued h2 env tuple
  obtain ⟨h4, hr⟩ := h3.pollEgress env
  rw [q2] at q3
  have q4 := hr.queuedFor h3 h4 (fun i socket => henv.egress _ _ _ i socket) rfl rfl tuple
  have hsending : ((StackBridge.ingressLoop env s.maxIngressPacketsPerTick
      { s with interface := env.pollMaintenance s.interface }).bind fun s =>
        (s.queueEstablishedPacketTcp env).bind (StackBridge.drainPacketUdp env)) = some s₃ := by
    unfold StackBridge.ingressLoop
    rw [e1, Option.bind_some, e2, Option.bind_some, e3]
  refine ⟨s₃.pollEgress env, ?_, h4, ?_⟩
  · unfold StackBridge.poll StackBridge.ingressLoop
    simp [e1, e2, e3]
  · unfold StackBridge.tickDelivered
    dsimp only [Option.bind_eq_bind]
    rw [hsending]
    exact (p1.lose q3).trans (Passes.of_append q4)

theorem pollTimes_passes (henv : KeepsReceived env) (n : ℕ) (hb : Books base {} s)
    (tuple : PacketUdpTuple) : ∃ s', StackBridge.pollTimes env n s = some s' ∧ Books base {} s' ∧
      Passes (s.queuedFor tuple) [] (s'.queuedFor tuple) (s.ticksDelivered env tuple n) := by
  induction n generalizing s with
  | zero => exact ⟨s, rfl, hb, Passes.refl _⟩
  | succ n ih =>
    obtain ⟨s₁, e1, h1, p1⟩ := poll_passes henv hb tuple
    obtain ⟨s₂, e2, h2, p2⟩ := ih h1
    refine ⟨s₂, by simp [StackBridge.pollTimes, e1, e2], h2, ?_⟩
    simp only [StackBridge.ticksDelivered, e1, Option.elim_some]
    exact p1.trans p2

end Ticks

theorem LeftGroup.waiting (h : LeftGroup s s') (destination : IpEndpoint) :
    (s'.waiting destination).Sublist (s.waiting destination) := by
  rw [waiting_eq_socket, waiting_eq_socket]
  cases h with
  | unchanged groups sockets =>
    rw [groups, sockets]
  | @fewer d group _ _ groups sockets =>
    have hsame : SameGroups s s' := SameGroups.of_modify groups fun _ => rfl
    rw [hsame, sockets]
  | @removed d groups sockets =>
    cases hg : KeyedList.get s'.packetUdpGroups destination with
    | none => exact List.nil_sublist _
    | some group =>
      have hslot := sockets group.socket (List.mem_map.mpr ⟨_, KeyedList.mem_of_get hg, rfl⟩)
      rw [groups, KeyedList.get_remove] at hg
      split at hg
      · cases hg
      · simp only [hg, Option.map_some, Option.bind_some, SocketSet.udpAt, hslot]
        exact List.Sublist.refl _

structure HasFlows (flows : HandleTable PacketUdpFlow) (byTuple : List (PacketUdpTuple × Handle))
    (s : StackBridge W T U) : Prop where
  flows : s.packetUdpFlows = flows
  byTuple : s.packetUdpByTuple = byTuple

namespace HasFlows

variable {flows : HandleTable PacketUdpFlow} {byTuple : List (PacketUdpTuple × Handle)}

theorem release (h : HasFlows flows byTuple s) (bytes : ℕ) :
    Yields (s.release bytes) (HasFlows flows byTuple) := by
  unfold StackBridge.release
  split
  · exact yields_some ⟨h.flows, h.byTuple⟩
  · exact yields_none

theorem removeSocket (h : HasFlows flows byTuple s) (index : ℕ) :
    Yields (s.removeSocket index) (HasFlows flows byTuple) :=
  Yields.of_bind fun _ => yields_some ⟨h.flows, h.byTuple⟩

theorem releaseIncoming (h : HasFlows flows byTuple s) (incoming : Option (List UInt8)) :
    Yields (s.releaseIncoming incoming) (HasFlows flows byTuple) := by
  cases incoming with
  | none => exact yields_some h
  | some packet => exact h.release packet.length

end HasFlows

theorem closePacketUdp_held (hb : Books base {} s) (handle : Handle) (tuple : PacketUdpTuple) :
    Yields (s.closePacketUdp handle) fun q => (q.1.heldFor tuple).Sublist (s.heldFor tuple) := by
  unfold StackBridge.closePacketUdp
  rcases HandleTable.remove_spec hb.udpIndex.sound handle with
    ⟨-, hr⟩ | ⟨flows, flow, hget, hr, -, hp, -⟩
  · rw [hr]
    exact yields_some (List.Sublist.refl _)
  rw [hr]
  have hless : ∀ q : StackBridge W T U,
      HasFlows flows (KeyedList.remove s.packetUdpByTuple flow.tuple) q →
      (q.heldFor tuple).Sublist (s.heldFor tuple) := by
    intro q hq
    by_cases ht : tuple = flow.tuple
    · simp [StackBridge.heldFor, hq.byTuple, KeyedList.get_remove, ht]
    · rw [heldFor_of_others hb hget ht]
      · rw [hq.byTuple, KeyedList.get_remove, if_neg ht]
      · intro h hne
        rw [hq.flows]
        exact (HandleTable.get_of_perm_cons hp hne).symm
  have hfirst : HasFlows flows s.packetUdpByTuple { s with packetUdpFlows := flows } := ⟨rfl, rfl⟩
  refine (hfirst.releaseIncoming flow.incoming).bind fun s₁ h₁ => ?_
  have h₂ := congrArg (KeyedList.remove · flow.tuple) h₁.byTuple
  dsimp only at h₂ ⊢
  split
  · refine yields_some (hless _ ?_)
    exact ⟨h₁.flows, h₂⟩
  split
  · refine (HasFlows.removeSocket (by exact ⟨h₁.flows, h₂⟩) _).bind fun s₃ h₃ => ?_
    exact (h₃.release _).bind fun s₄ h₄ => yields_some (hless s₄ h₄)
  · refine yields_some (hless _ ?_)
    exact ⟨h₁.flows, h₂⟩

theorem returnedTo_some (tuple owner : PacketUdpTuple) (packet : List UInt8) :
    SharedStackBridge.returnedTo tuple (some (owner, packet)) =
      if owner = tuple then [packet] else [] := rfl

theorem emptied_passes {handle : Handle} {flow : PacketUdpFlow} {packet : List UInt8}
    (hb : Books base {} s) (hflow : s.packetUdpFlows.get handle = some flow)
    (hin : flow.incoming = some packet)
    (hs : HasFlows (s.packetUdpFlows.modify handle fun flow => { flow with incoming := none })
      s.packetUdpByTuple s')
    (hwait : ∀ destination, s'.waiting destination = s.waiting destination) (tuple : PacketUdpTuple) :
    Passes (s.queuedFor tuple) (SharedStackBridge.returnedTo tuple (some (flow.tuple, packet)))
      (s'.queuedFor tuple) [] := by
  have hget := HandleTable.get_modify hb.udpIndex.sound hflow fun flow : PacketUdpFlow =>
    { flow with incoming := none }
  unfold StackBridge.queuedFor Passes
  rw [returnedTo_some, hwait, List.append_nil]
  by_cases ht : flow.tuple = tuple
  · have hempty : s'.heldFor flow.tuple = [] := by
      simp [StackBridge.heldFor, hs.byTuple, hs.flows, index_of_flow hb hflow, hget]
    rw [if_pos ht, ← ht, heldFor_of_flow hb hflow, hin, hempty]
    exact List.Sublist.refl _
  · have hsame : s'.heldFor tuple = s.heldFor tuple := by
      apply heldFor_of_others hb hflow (Ne.symm ht) (by rw [hs.byTuple])
      intro h hne
      rw [hs.flows]
      exact (hget h).trans (if_neg hne)
    rw [if_neg ht, hsame]
    exact List.Sublist.refl _

theorem packetUdpRecv_passes (hb : Books base {} s) (handle : Handle) (length : ℕ)
    (tuple : PacketUdpTuple) : Yields (s.packetUdpRecv handle length) fun q =>
      Passes (s.queuedFor tuple) (SharedStackBridge.returnedTo tuple (s.packetUdpRead handle length))
        (q.1.queuedFor tuple) [] := by
  unfold StackBridge.packetUdpRecv StackBridge.packetUdpRead
  cases hflow : s.packetUdpFlows.get handle with
  | none => exact yields_some (Passes.refl _)
  | some flow =>
    dsimp only
    cases hin : flow.incoming with
    | none => exact yields_some (Passes.refl _)
    | some packet =>
      dsimp only
      split
      · exact yields_some (Passes.refl _)
      · simp only [StackBridge.release]
        split
        · refine yields_some (emptied_passes hb hflow hin ?_ ?_ tuple)
          · exact ⟨rfl, rfl⟩
          · exact fun _ => rfl
        · exact yields_none

theorem packetUdpSend_queued (hb : Books base {} s) (handle : Handle) (length : ℕ) (call : U → U)
    (tuple : PacketUdpTuple) : ∃ s', s.packetUdpSend handle length call = some s' ∧
      Books base {} s' ∧ s'.queuedFor tuple = s.queuedFor tuple := by
  obtain ⟨s', e, hb', -, hor⟩ := hb.packetUdpSend handle length call
  refine ⟨s', e, hb', ?_⟩
  rcases hor with rfl | ⟨destination, group, socket, rest, hlisted, hat, rfl⟩
  · rfl
  · unfold StackBridge.queuedFor
    rw [waiting_written hb hlisted hat]
    rotate_left
    · rfl
    · exact SameGroups.of_eq rfl
    split
    · next hd =>
      rw [hd, waiting_eq hb hlisted hat]
      rfl
    · rfl

namespace SharedStackBridge

variable {env : Smoltcp W T U} {s : SharedStackBridge W T U}

theorem quiet_passes {inner : Option (StackBridge W T U)} {tuple : PacketUdpTuple}
    (h : ∃ s', inner = some s' ∧ Books base {} s' ∧ s'.queuedFor tuple = s.inner.queuedFor tuple) :
    ∃ s', s.onInner inner = some s' ∧ Books base {} s'.inner ∧
      Passes (s.inner.queuedFor tuple) [] (s'.inner.queuedFor tuple) [] := by
  obtain ⟨s', rfl, hb, hq⟩ := h
  refine ⟨_, rfl, hb, Passes.of_sublist ?_⟩
  rw [hq]

theorem quiet_fst {ρ : Type} {call : Option (StackBridge W T U × ρ)} {tuple : PacketUdpTuple}
    (h : ∃ s' result, call = some (s', result) ∧ Books base {} s' ∧
      s'.queuedFor tuple = s.inner.queuedFor tuple) :
    ∃ s', s.onInner (call.map Prod.fst) = some s' ∧ Books base {} s'.inner ∧
      Passes (s.inner.queuedFor tuple) [] (s'.inner.queuedFor tuple) [] := by
  obtain ⟨s', result, rfl, hb, hq⟩ := h
  exact quiet_passes ⟨s', rfl, hb, hq⟩

theorem quiet_lease {leases : List Handle} {handle : Handle} {inner : Option (StackBridge W T U)}
    {tuple : PacketUdpTuple} (hb : Books base {} s.inner)
    (h : ∃ s', inner = some s' ∧ Books base {} s' ∧ s'.queuedFor tuple = s.inner.queuedFor tuple) :
    ∃ s', s.onLease leases handle inner = some s' ∧ Books base {} s'.inner ∧
      Passes (s.inner.queuedFor tuple) [] (s'.inner.queuedFor tuple) [] := by
  unfold onLease
  split
  · exact quiet_passes h
  · exact ⟨s, rfl, hb, Passes.refl _⟩

theorem openTcp_passes (henv : KeepsReceived env) (hb : Books base {} s.inner)
    (metadata : Engine.FlowMetadata) (tuple : PacketUdpTuple) :
    ∃ s', s.step env (.openTcp metadata) = some s' ∧ Books base {} s'.inner ∧
      Passes (s.inner.queuedFor tuple) [] (s'.inner.queuedFor tuple)
        (s.callDelivered env tuple (.openTcp metadata)) := by
  obtain ⟨s₁, result, e1, h1, hq, -⟩ := hb.startTcp env metadata
  have q1 := hq.udp.queuedFor tuple
  simp only [step, StackBridge.openTcp, callDelivered, e1]
  cases result with
  | error error =>
    refine ⟨{ s with inner := s₁ }, rfl, h1, Passes.of_sublist ?_⟩
    rw [q1]
  | ok handle =>
    obtain ⟨s₂, e2, h2, p2⟩ := pollTimes_passes henv 8 h1 tuple
    rw [q1] at p2
    exact ⟨{ s with inner := s₂ }, by simp [onInner, e2], h2, p2⟩

theorem packetUdpRecv_step (hb : Books base {} s.inner) (handle : Handle) (length : ℕ)
    (tuple : PacketUdpTuple) : ∃ s', s.step env (.packetUdpRecv handle length) = some s' ∧
      Books base {} s'.inner ∧ Passes (s.inner.queuedFor tuple)
        (s.callReturned tuple (.packetUdpRecv handle length)) (s'.inner.queuedFor tuple) [] := by
  simp only [step, callReturned, onLease]
  split
  · obtain ⟨s₁, result, e, h1, -⟩ := hb.packetUdpRecv handle length
    have hp := packetUdpRecv_passes hb handle length tuple (s₁, result) e
    exact ⟨{ s with inner := s₁ }, by simp [onInner, e], h1, hp⟩
  · exact ⟨s, rfl, hb, Passes.refl _⟩

theorem dropPacketUdp_step (hb : Books base {} s.inner) (handle : Handle) (tuple : PacketUdpTuple) :
    ∃ s', s.dropPacketUdp handle = some s' ∧ Books base {} s'.inner ∧
      Passes (s.inner.queuedFor tuple) [] (s'.inner.queuedFor tuple) [] := by
  unfold dropPacketUdp
  split
  · obtain ⟨s₁, result, e, h1, -, -, hleft⟩ := hb.closePacketUdp handle
    have hheld := closePacketUdp_held hb handle tuple (s₁, result) e
    simp only [e, Option.bind_eq_bind, Option.bind_some, Option.pure_def]
    exact ⟨_, rfl, h1, Passes.of_sublist (queued_sublist hheld (hleft.waiting tuple.destination))⟩
  · exact ⟨s, rfl, hb, Passes.refl _⟩

theorem acceptPacketTcp_queued (s : SharedStackBridge W T U) (tuple : PacketUdpTuple) :
    s.acceptPacketTcp.1.inner.queuedFor tuple = s.inner.queuedFor tuple := by
  unfold acceptPacketTcp
  split
  · rfl
  dsimp only
  split <;> rfl

theorem acceptPacketUdp_queued (s : SharedStackBridge W T U) (tuple : PacketUdpTuple) :
    s.acceptPacketUdp.1.inner.queuedFor tuple = s.inner.queuedFor tuple := by
  unfold acceptPacketUdp
  split
  · rfl
  dsimp only
  split <;> rfl

theorem step_passes (henv : KeepsReceived env) (hb : Books base {} s.inner) (call : StackCall T U)
    (tuple : PacketUdpTuple) : ∃ s', s.step env call = some s' ∧ Books base {} s'.inner ∧
      Passes (s.inner.queuedFor tuple) (s.callReturned tuple call) (s'.inner.queuedFor tuple)
        (s.callDelivered env tuple call) := by
  cases call with
  | openTcp metadata => exact openTcp_passes henv hb metadata tuple
  | openUdp metadata =>
    obtain ⟨s', result, e, h', hq, -⟩ := hb.openUdp env metadata
    exact quiet_fst ⟨s', result, e, h', hq.udp.queuedFor tuple⟩
  | closeTcp handle =>
    obtain ⟨s', result, e, h', hq⟩ := hb.closeTcp handle
    exact quiet_fst ⟨s', result, e, h', hq.udp.queuedFor tuple⟩
  | closeUdp handle =>
    obtain ⟨s', result, e, h', hq⟩ := hb.closeUdp handle
    exact quiet_fst ⟨s', result, e, h', hq.udp.queuedFor tuple⟩
  | poll =>
    obtain ⟨s', e, h', hp⟩ := poll_passes henv hb tuple
    exact ⟨{ s with inner := s' }, by simp [step, onInner, e], h', hp⟩
  | packetSend packet nowMs =>
    obtain ⟨s', result, e, h', hp⟩ := hb.packetSend packet nowMs
    exact quiet_fst ⟨s', result, e, h', hp.udp.queuedFor tuple⟩
  | packetRecv length =>
    obtain ⟨s', result, e, h', hp⟩ := hb.packetRecv length
    exact quiet_fst ⟨s', result, e, h', hp.udp.queuedFor tuple⟩
  | acceptPacketTcp =>
    have hb' := ((books_rule env base).acceptPacketTcp hb trivial).1
    refine ⟨_, rfl, hb', Passes.of_sublist ?_⟩
    rw [acceptPacketTcp_queued]
  | acceptPacketUdp =>
    have hb' := ((books_rule env base).acceptPacketUdp hb trivial).1
    refine ⟨_, rfl, hb', Passes.of_sublist ?_⟩
    rw [acceptPacketUdp_queued]
  | dropPacketTcp handle =>
    change ∃ s', s.dropPacketTcp handle = some s' ∧ _
    unfold dropPacketTcp
    split
    · obtain ⟨s₁, result, e, h1, -, hq, -⟩ := hb.closePacketTcp handle
      simp only [e, Option.bind_eq_bind, Option.bind_some, Option.pure_def]
      refine ⟨_, rfl, h1, Passes.of_sublist ?_⟩
      rw [hq.queuedFor]
    · exact ⟨s, rfl, hb, Passes.refl _⟩
  | dropPacketUdp handle => exact dropPacketUdp_step hb handle tuple
  | packetUdpRecv handle length => exact packetUdpRecv_step hb handle length tuple
  | packetUdpSend handle length call =>
    exact quiet_lease hb (packetUdpSend_queued hb handle length call tuple)
  | tcpSocket handle side call =>
    obtain ⟨s', e, h', hq⟩ := hb.withTcpSocket handle side call
    exact quiet_passes ⟨s', e, h', hq.udp.queuedFor tuple⟩
  | udpSocket handle side call =>
    obtain ⟨s', e, h', hq⟩ := hb.withUdpSocket handle side call
    exact quiet_passes ⟨s', e, h', hq.udp.queuedFor tuple⟩
  | packetTcpSocket handle call =>
    obtain ⟨s', e, h', hq, -⟩ := hb.withPacketTcpSocket handle call
    exact quiet_lease hb ⟨s', e, h', hq.queuedFor tuple⟩
  | stopDevice =>
    refine ⟨_, rfl, { hb with device := ⟨hb.device.bytes, hb.device.le_limit⟩ }, Passes.refl _⟩
  | startDevice =>
    refine ⟨_, rfl, { hb with device := ⟨hb.device.bytes, hb.device.le_limit⟩ }, Passes.refl _⟩

end SharedStackBridge

theorem packetUdpRecv_read {handle : Handle} {length : ℕ} {result : StackBridge.DatagramRecv}
    (h : s.packetUdpRecv handle length = some (s', result)) (n : ℕ) :
    result = .datagram n ↔
      ((s.packetUdpRead handle length).map fun read => read.2.length) = some n := by
  unfold StackBridge.packetUdpRecv at h
  unfold StackBridge.packetUdpRead
  cases hflow : s.packetUdpFlows.get handle with
  | none =>
    rw [hflow] at h
    cases h
    simp
  | some flow =>
    rw [hflow] at h
    dsimp only at h ⊢
    cases hin : flow.incoming with
    | none =>
      rw [hin] at h
      cases h
      simp
    | some packet =>
      rw [hin] at h
      dsimp only at h ⊢
      split at h
      · next hsmall =>
        cases h
        simp [hsmall]
      · next hfits =>
        obtain ⟨s₁, -, hlast⟩ := Option.bind_eq_some_iff.mp h
        cases hlast
        simp [hfits]

theorem packetUdpRecv_tooSmall {handle : Handle} {flow : PacketUdpFlow} {packet : List UInt8}
    {length : ℕ} (hflow : s.packetUdpFlows.get handle = some flow)
    (hin : flow.incoming = some packet) (hsmall : length < packet.length) :
    s.packetUdpRecv handle length = some (s, .bufferTooSmall packet.length) := by
  simp only [StackBridge.packetUdpRecv, hflow, hin, if_pos hsmall]

/-- What the port of a tuple returns over a run is, in order and each datagram once, a part of
what smoltcp delivered to the socket of its destination from its source; a buffer too small for
the datagram of a flow leaves it there. -/
theorem datagrams_demultiplexed (env : Smoltcp W T U) (henv : KeepsReceived env)
    (config : StackConfig) (maxFlows maxManagedBytes maxIngressPacketsPerTick : ℕ)
    (s₀ : StackBridge W T U)
    (hnew : StackBridge.new env config maxFlows maxManagedBytes maxIngressPacketsPerTick = .ok s₀)
    (calls : List (StackCall T U)) :
    ∃ s, SharedStackBridge.run env ⟨s₀, [], []⟩ calls = some s ∧
      (∀ tuple, (runLog (SharedStackBridge.step env) (SharedStackBridge.callReturned tuple)
          ⟨s₀, [], []⟩ calls).Sublist
        (runLog (SharedStackBridge.step env) (SharedStackBridge.callDelivered env tuple)
          ⟨s₀, [], []⟩ calls)) ∧
      (∀ handle length inner result, s.inner.packetUdpRecv handle length = some (inner, result) →
        ∀ n, result = .datagram n ↔
          ((s.inner.packetUdpRead handle length).map fun read => read.2.length) = some n) ∧
      ∀ handle flow packet length, s.inner.packetUdpFlows.get handle = some flow →
        flow.incoming = some packet → length < packet.length →
        s.inner.packetUdpRecv handle length = some (s.inner, .bufferTooSmall packet.length) := by
  obtain ⟨s, e, -⟩ := run_books env (s := ⟨s₀, [], []⟩) (books_new hnew) calls
  refine ⟨s, e, fun tuple => ?_, fun handle length inner result h => packetUdpRecv_read h,
    fun handle flow packet length => packetUdpRecv_tooSmall⟩
  have hempty : s₀.queuedFor tuple = [] := by
    have hidle := new_idle hnew
    unfold StackBridge.queuedFor StackBridge.heldFor
    rw [waiting_eq_socket, hidle.packetUdpGroups, hidle.packetUdpByTuple]
    rfl
  obtain ⟨s', -, -, hp⟩ := run_passes (fun s : SharedStackBridge W T U => s.inner.queuedFor tuple)
    (fun s => Books s₀.managedBytes {} s.inner)
    (fun s call hs => SharedStackBridge.step_passes henv hs call tuple) (s := ⟨s₀, [], []⟩)
    (books_new hnew) calls
  simp only [hempty] at hp
  exact hp.out_sublist

def sampleSource : IpEndpoint := ⟨.v4 #v[10, 0, 0, 2], 40000⟩
def sampleDestination : IpEndpoint := ⟨.v4 #v[10, 0, 0, 3], 53⟩

def firstDatagram : List UInt8 :=
  [69, 0, 0, 30, 0, 0, 0, 0, 64, 17, 0, 0, 10, 0, 0, 2, 10, 0, 0, 3, 156, 64, 0, 53, 0, 10, 0, 0, 7, 9]
def otherDatagram : List UInt8 :=
  [69, 0, 0, 29, 0, 0, 0, 0, 64, 17, 0, 0, 10, 0, 0, 2, 10, 0, 0, 3, 156, 65, 0, 53, 0, 9, 0, 0, 8]

/-- Two sources of one destination; the buffer of the first read is too small. -/
def twoSources : List (StackCall (Option ListenEndpoint) (Option ListenEndpoint)) :=
  [.packetSend firstDatagram 0, .packetSend otherDatagram 0, .poll, .acceptPacketUdp,
    .acceptPacketUdp, .packetUdpRecv ⟨0, 1⟩ 1, .packetUdpRecv ⟨1, 1⟩ 4, .packetUdpRecv ⟨0, 1⟩ 4]

theorem sample_demultiplexed : ∃ s₀,
    StackBridge.new sampleSmoltcp sampleConfig 4 200000 8 = .ok s₀ ∧
    runLog (SharedStackBridge.step sampleSmoltcp)
      (SharedStackBridge.callReturned ⟨sampleSource, sampleDestination⟩) ⟨s₀, [], []⟩ twoSources =
        [[7, 9]] ∧
    ∃ s, SharedStackBridge.run sampleSmoltcp ⟨s₀, [], []⟩ twoSources = some s ∧
      (∀ tuple, (runLog (SharedStackBridge.step sampleSmoltcp) (SharedStackBridge.callReturned tuple)
          ⟨s₀, [], []⟩ twoSources).Sublist
        (runLog (SharedStackBridge.step sampleSmoltcp)
          (SharedStackBridge.callDelivered sampleSmoltcp tuple) ⟨s₀, [], []⟩ twoSources)) ∧
      (∀ handle length inner result, s.inner.packetUdpRecv handle length = some (inner, result) →
        ∀ n, result = .datagram n ↔
          ((s.inner.packetUdpRead handle length).map fun read => read.2.length) = some n) ∧
      ∀ handle flow packet length, s.inner.packetUdpFlows.get handle = some flow →
        flow.incoming = some packet → length < packet.length →
        s.inner.packetUdpRecv handle length = some (s.inner, .bufferTooSmall packet.length) := by
  obtain ⟨s₀, hnew⟩ := sample_starts
  have hlog : ∀ s₀ ∈ (StackBridge.new sampleSmoltcp sampleConfig 4 200000 8).toOption,
      runLog (SharedStackBridge.step sampleSmoltcp)
        (SharedStackBridge.callReturned ⟨sampleSource, sampleDestination⟩) ⟨s₀, [], []⟩ twoSources =
          [[7, 9]] := by
    decide +kernel
  exact ⟨s₀, hnew, hlog s₀ (by rw [hnew]; rfl),
    datagrams_demultiplexed _ sample_keepsReceived _ _ _ _ s₀ hnew twoSources⟩

end Snolc.Stack
