import Snolc.StackAccounts
import Mathlib.Data.List.Nodup

set_option autoImplicit false

namespace Snolc.Stack
open CheckedSlice GuardedRuns Handles

variable {W T U : Type} {base : ℕ} {s s' : StackBridge W T U} {tl : List Handle}

def opensTuple (tuple : PacketTcpTuple) (packet : QueuedPacket) : Bool :=
  packet.external && decide (tcpSynTuple packet.bytes = some tuple)

def SynQueued (s : StackBridge W T U) (tuple : PacketTcpTuple) : Prop :=
  ∃ packet ∈ s.device.ingress, opensTuple tuple packet = true

def OnItsWay (s : StackBridge W T U) (flow : PacketTcpFlow) : Prop :=
  ∃ socket, s.sockets.tcpAt flow.socket = some socket ∧
    (socket.state = .synReceived ∨ socket.state = .established ∨
      socket.state = .listen ∧ SynQueued s flow.tuple)

/-- The flows queued or under a lease are those marked as queued, each once; the others are
on their way. -/
structure Offered (s : StackBridge W T U) (tl : List Handle) : Prop where
  nodup : (s.pendingPacketTcp ++ tl).Nodup
  live : ∀ handle ∈ s.pendingPacketTcp ++ tl,
    ∃ flow, s.packetTcpFlows.get handle = some flow ∧ flow.queued = true
  queued : ∀ handle flow, s.packetTcpFlows.get handle = some flow → flow.queued = true →
    handle ∈ s.pendingPacketTcp ++ tl
  waiting : ∀ handle flow, s.packetTcpFlows.get handle = some flow → flow.queued = false →
    OnItsWay s flow

/-- Found by `queue_established_packet_tcp`: no flow is established and not queued. -/
def NoneMissed (s : StackBridge W T U) : Prop :=
  ∀ handle flow, s.packetTcpFlows.get handle = some flow → flow.queued = false →
    ∀ socket, s.sockets.tcpAt flow.socket = some socket → socket.state ≠ .established

/-- The states a handshake goes through: the SYN of the flow is accepted, nothing leads back
and nothing past established. -/
def advances (own : Bool) : TcpState → TcpState → Bool
  | .listen, .synReceived => true
  | .listen, .listen => !own
  | .synReceived, .synReceived => true
  | .synReceived, .established => true
  | .established, .established => true
  | _, _ => false

def Unbroken (env : Smoltcp W T U) (s : StackBridge W T U) : Prop :=
  ∀ packet ∈ s.device.ingress.head?, ∀ e ∈ s.packetTcpFlows.entries, e.2.queued = false →
    ∀ socket ∈ s.sockets.tcpAt e.2.socket,
      advances (opensTuple e.2.tuple packet) socket.state
        ((ingressReaction env s packet).tcp e.2.socket socket).state = true

instance (env : Smoltcp W T U) (s : StackBridge W T U) : Decidable (Unbroken env s) :=
  inferInstanceAs (Decidable (∀ packet ∈ s.device.ingress.head?, _))

def handshakesComplete (env : Smoltcp W T U) : TickGuard W T U :=
  ⟨Unbroken env, fun _ _ => True, fun _ => True⟩

def WaitsForPeer (env : Smoltcp W T U) : Prop :=
  ∀ w stopped set i socket, socket.state = .listen ∨ socket.state = .synReceived →
    ((env.egress w stopped set).1.tcp i socket).state = socket.state

theorem QuietTcp.tcpAt (h : QuietTcp s s') {handle : Handle} {flow : PacketTcpFlow}
    (hg : s.packetTcpFlows.get handle = some flow) :
    s'.sockets.tcpAt flow.socket = s.sockets.tcpAt flow.socket := by
  simp only [SocketSet.tcpAt, h.sockets flow.socket (Books.packetTcp_mem hg)]

theorem NoneMissed.quiet (h : NoneMissed s) (hq : QuietTcp s s') : NoneMissed s' := by
  intro handle flow hg hf socket hs
  rw [hq.flows] at hg
  exact h handle flow hg hf socket ((hq.tcpAt hg).symm.trans hs)

namespace Offered

theorem quiet (h : Offered s tl) (hq : QuietTcp s s')
    (hin : ∀ handle flow, s.packetTcpFlows.get handle = some flow → flow.queued = false →
      SynQueued s flow.tuple → SynQueued s' flow.tuple) : Offered s' tl where
  nodup := by rw [hq.pending]; exact h.nodup
  live := by rw [hq.pending, hq.flows]; exact h.live
  queued := by rw [hq.pending, hq.flows]; exact h.queued
  waiting handle flow hg hf := by
    rw [hq.flows] at hg
    obtain ⟨socket, hs, hor⟩ := h.waiting handle flow hg hf
    refine ⟨socket, (hq.tcpAt hg).trans hs, ?_⟩
    rcases hor with hst | hst | ⟨hst, hsyn⟩
    · exact .inl hst
    · exact .inr (.inl hst)
    · exact .inr (.inr ⟨hst, hin handle flow hg hf hsyn⟩)

theorem same (h : Offered s tl) (hq : QuietTcp s s') (hdev : s'.device = s.device) :
    Offered s' tl :=
  h.quiet hq fun _ _ _ _ hsyn => by
    unfold SynQueued
    rw [hdev]
    exact hsyn

theorem passed (h : Offered s tl) (hp : Passed s s') : Offered s' tl := by
  obtain ⟨more, hin⟩ := hp.ingress
  refine h.quiet hp.tcp ?_
  rintro _ flow _ _ ⟨packet, hm, ho⟩
  exact ⟨packet, by rw [hin]; exact List.mem_append_left _ hm, ho⟩

theorem dropped {s₁ : StackBridge W T U} (h : Offered s tl) (hq : QuietTcp s s₁)
    (hdev : s₁.device = s.device) (hd : Dropped s₁ s')
    (hother : ∀ packet rest, s.device.ingress = packet :: rest → ∀ handle flow,
      s.packetTcpFlows.get handle = some flow → opensTuple flow.tuple packet = false) :
    Offered s' tl := by
  refine h.quiet (hq.trans hd.tcp) ?_
  rintro handle flow hg - ⟨packet, hm, ho⟩
  have htail : s'.device.ingress = s.device.ingress.tail := by rw [hd.ingress, hdev]
  cases hin : s.device.ingress with
  | nil =>
    rw [hin] at hm
    cases hm
  | cons front rest =>
    rw [hin] at hm htail
    rcases List.mem_cons.mp hm with rfl | hm
    · rw [hother packet rest hin handle flow hg] at ho
      cases ho
    · exact ⟨packet, by rw [htail]; exact hm, ho⟩

theorem dropTcp {s₁ : StackBridge W T U} {e : Engine.StackError} (h : Offered s tl)
    (hb : Books base {} s) (hp : PreparedTcp s s₁ (.error e)) (hd : Dropped s₁ s') :
    Offered s' tl := by
  obtain ⟨hq, tuple, ⟨front, rest, hin, -, hsyn⟩, habsent⟩ := hp.refused e rfl
  refine h.dropped hq hp.device hd fun packet rest' hin' handle flow hg => ?_
  obtain ⟨rfl, -⟩ := List.cons.inj (hin.symm.trans hin')
  -- the SYN that goes is of a tuple no flow has
  have hknown := hb.tcpIndex.mem_index.mpr ⟨flow, hg, rfl⟩
  have hne : tuple ≠ flow.tuple := by
    rintro rfl
    exact KeyedList.get_eq_none.mp habsent handle hknown
  simp [opensTuple, hsyn, hne]

theorem dropUdp {s₁ : StackBridge W T U} {e : Engine.StackError} (h : Offered s tl)
    (hp : PreparedUdp s s₁ (.error e)) (hd : Dropped s₁ s') : Offered s' tl := by
  obtain ⟨-, tuple, ⟨front, rest, hin, -, hudp⟩, -⟩ := hp.refused e rfl
  refine h.dropped hp.tcp hp.device hd fun packet rest' hin' handle flow hg => ?_
  obtain ⟨rfl, -⟩ := List.cons.inj (hin.symm.trans hin')
  have hno : tcpSynTuple front.bytes ≠ some flow.tuple := by
    intro hsyn
    rw [udpTuple_of_tcpSynTuple hsyn] at hudp
    cases hudp
  simp [opensTuple, hno]

theorem opened {handle : Handle} {flow : PacketTcpFlow} (h : Offered s tl)
    (ho : OpenedTcp s s' handle flow) (hdev : s'.device = s.device) : Offered s' tl := by
  obtain ⟨hfresh, hnew⟩ := HandleTable.get_of_insert ho.entries
  have hother : ∀ {p}, p ≠ handle → s'.packetTcpFlows.get p = s.packetTcpFlows.get p :=
    fun hne => HandleTable.get_of_perm_cons ho.entries hne
  have hsyn : ∀ {tuple}, SynQueued s tuple → SynQueued s' tuple := by
    intro tuple hs
    unfold SynQueued
    rw [hdev]
    exact hs
  refine ⟨by rw [ho.pending]; exact h.nodup, fun p hp => ?_, fun p f hg hf => ?_,
    fun p f hg hf => ?_⟩
  · rw [ho.pending] at hp
    obtain ⟨f, hg, hf⟩ := h.live p hp
    have hne : p ≠ handle := by
      rintro rfl
      rw [hfresh] at hg
      cases hg
    exact ⟨f, (hother hne).trans hg, hf⟩
  · rw [ho.pending]
    by_cases hne : p = handle
    · subst hne
      cases hnew.symm.trans hg
      rw [ho.unqueued] at hf
      cases hf
    · exact h.queued p f ((hother hne).symm.trans hg) hf
  · by_cases hne : p = handle
    · subst hne
      cases hnew.symm.trans hg
      obtain ⟨rest, hs⟩ := ho.listening
      obtain ⟨packet, more, hin, hext, ht⟩ := ho.front
      refine ⟨_, hs, .inr (.inr ⟨rfl, hsyn ⟨packet, ?_, ?_⟩⟩)⟩
      · rw [hin]
        exact List.mem_cons_self
      · simp [opensTuple, hext, ht]
    · have hg₀ := (hother hne).symm.trans hg
      obtain ⟨socket, hs, hor⟩ := h.waiting p f hg₀ hf
      refine ⟨socket, ?_, hor.imp id (Or.imp id (And.imp id hsyn))⟩
      rw [← hs]
      simp only [SocketSet.tcpAt, ho.sockets f.socket (Books.packetTcp_mem hg₀)]

theorem prepared (h : Offered s tl) (hp : PreparedTcp s s' (.ok ())) : Offered s' tl := by
  rcases hp.tcp with hq | ⟨handle, flow, ho⟩
  · exact h.same hq hp.device
  · exact h.opened ho hp.device

theorem ingested {env : Smoltcp W T U} {packet : QueuedPacket} {rest : List QueuedPacket}
    (h : Offered s tl) (hg : Unbroken env s) (hin : s.device.ingress = packet :: rest)
    (hr : Reacted s s' (ingressReaction env s packet) rest) : Offered s' tl := by
  refine ⟨by rw [hr.pendingPacketTcp]; exact h.nodup,
    by rw [hr.pendingPacketTcp, hr.packetTcpFlows]; exact h.live,
    by rw [hr.pendingPacketTcp, hr.packetTcpFlows]; exact h.queued, fun handle flow hget hf => ?_⟩
  rw [hr.packetTcpFlows] at hget
  obtain ⟨socket, hs, hor⟩ := h.waiting handle flow hget hf
  have hadv := hg packet (by rw [hin]; rfl) (handle, flow) (HandleTable.mem_entries.mpr hget) hf
    socket hs
  have hs' : s'.sockets.tcpAt flow.socket =
      some ((ingressReaction env s packet).tcp flow.socket socket) := by
    rw [hr.sockets]
    exact tcpAt_apply _ hs
  refine ⟨_, hs', ?_⟩
  generalize (ingressReaction env s packet).tcp flow.socket socket = socket' at hadv ⊢
  rcases hor with hst | hst | ⟨hst, hsyn⟩
  · rw [hst] at hadv
    cases hst' : socket'.state <;> simp_all [advances]
  · rw [hst] at hadv
    cases hst' : socket'.state <;> simp_all [advances]
  · rw [hst] at hadv
    have hrest : opensTuple flow.tuple packet = false → SynQueued s' flow.tuple := by
      rintro hown
      obtain ⟨syn, hm, ho⟩ := hsyn
      obtain ⟨back, hback, -⟩ := hr.ingress
      rw [hin] at hm
      rcases List.mem_cons.mp hm with rfl | hm
      · rw [hown] at ho
        cases ho
      · exact ⟨syn, by rw [hback]; exact List.mem_append_left _ hm, ho⟩
    cases hst' : socket'.state <;> simp_all [advances]

theorem sent {env : Smoltcp W T U} (henv : WaitsForPeer env) (h : Offered s tl)
    (hn : NoneMissed s) (hr : Reacted s s' (egressReaction env s) s.device.ingress) :
    Offered s' tl ∧ NoneMissed s' := by
  have still : ∀ handle flow, s.packetTcpFlows.get handle = some flow → flow.queued = false →
      ∃ socket, s.sockets.tcpAt flow.socket = some socket ∧ ∃ socket',
        s'.sockets.tcpAt flow.socket = some socket' ∧ socket'.state = socket.state ∧
        (socket.state = .synReceived ∨ socket.state = .listen ∧ SynQueued s flow.tuple) := by
    intro handle flow hg hf
    obtain ⟨socket, hs, hor⟩ := h.waiting handle flow hg hf
    have hno := hn handle flow hg hf socket hs
    have hwait : socket.state = .synReceived ∨ socket.state = .listen ∧ SynQueued s flow.tuple := by
      rcases hor with hst | hst | hst
      · exact .inl hst
      · exact absurd hst hno
      · exact .inr hst
    have hs' : s'.sockets.tcpAt flow.socket = some ((egressReaction env s).tcp flow.socket socket) := by
      rw [hr.sockets]
      exact tcpAt_apply _ hs
    refine ⟨socket, hs, _, hs', henv _ _ _ _ socket ?_, hwait⟩
    exact hwait.elim .inr fun hl => .inl hl.1
  have hsyn : ∀ {tuple}, SynQueued s tuple → SynQueued s' tuple := by
    rintro tuple ⟨packet, hm, ho⟩
    obtain ⟨back, hback, -⟩ := hr.ingress
    exact ⟨packet, by rw [hback]; exact List.mem_append_left _ hm, ho⟩
  constructor
  · refine ⟨by rw [hr.pendingPacketTcp]; exact h.nodup,
      by rw [hr.pendingPacketTcp, hr.packetTcpFlows]; exact h.live,
      by rw [hr.pendingPacketTcp, hr.packetTcpFlows]; exact h.queued, fun handle flow hg hf => ?_⟩
    rw [hr.packetTcpFlows] at hg
    obtain ⟨socket, -, socket', hs', hst, hwait⟩ := still handle flow hg hf
    refine ⟨socket', hs', ?_⟩
    rw [hst]
    exact hwait.imp id fun hl => .inr ⟨hl.1, hsyn hl.2⟩
  · intro handle flow hg hf socket hs
    rw [hr.packetTcpFlows] at hg
    obtain ⟨socket₀, -, socket', hs', hst, hwait⟩ := still handle flow hg hf
    cases hs.symm.trans hs'
    rw [hst]
    rcases hwait with hw | ⟨hw, -⟩ <;> rw [hw] <;> exact fun h => nomatch h

theorem promoted {handle : Handle} (h : Offered s tl) (hb : Books base {} s)
    (hp : Promoted s handle s') : Offered s' tl := by
  cases hp with
  | skipped => exact h
  | @queued flow socket live fresh here done =>
    have hget := HandleTable.get_modify hb.tcpIndex.sound live
      (fun flow : PacketTcpFlow => { flow with queued := true })
    have hnew : handle ∉ s.pendingPacketTcp ++ tl := by
      intro hm
      obtain ⟨f, hf, hq⟩ := h.live handle hm
      cases live.symm.trans hf
      rw [fresh] at hq
      cases hq
    have hperm : (s.pendingPacketTcp ++ [handle] ++ tl).Perm (handle :: (s.pendingPacketTcp ++ tl)) := by
      rw [List.append_assoc]
      exact List.perm_middle
    refine ⟨hperm.nodup_iff.mpr (List.nodup_cons.mpr ⟨hnew, h.nodup⟩), fun p hp => ?_,
      fun p f hg hf => ?_, fun p f hg hf => ?_⟩
    · rw [hget]
      rcases List.mem_cons.mp (hperm.mem_iff.mp hp) with rfl | hold
      · exact ⟨_, if_pos rfl, rfl⟩
      · obtain ⟨f, hf, hq⟩ := h.live p hold
        rw [if_neg (by rintro rfl; exact hnew hold)]
        exact ⟨f, hf, hq⟩
    · rw [hget] at hg
      refine hperm.mem_iff.mpr ?_
      split at hg
      · next heq => exact List.mem_cons.mpr (.inl heq)
      · exact List.mem_cons_of_mem _ (h.queued p f hg hf)
    · rw [hget] at hg
      split at hg
      · cases hg
        cases hf
      · exact h.waiting p f hg hf

theorem queueAll (handles : List Handle) (h : Offered s tl) (hb : Books base {} s)
    (hall : ∀ handle flow, s.packetTcpFlows.get handle = some flow → flow.queued = false →
      ∀ socket, s.sockets.tcpAt flow.socket = some socket → socket.state = .established →
        handle ∈ handles) :
    ∃ s', handles.foldlM StackBridge.queueEstablished s = some s' ∧ Books base {} s' ∧
      Offered s' tl ∧ NoneMissed s' := by
  induction handles generalizing s with
  | nil =>
    exact ⟨s, rfl, hb, h, fun handle flow hg hf socket hs hst =>
      nomatch hall handle flow hg hf socket hs hst⟩
  | cons handle handles ih =>
    obtain ⟨s₁, e1, hb₁, hp⟩ := hb.queueEstablished handle
    have h₁ := h.promoted hb hp
    have hrest : ∀ p flow, s₁.packetTcpFlows.get p = some flow → flow.queued = false →
        ∀ socket, s₁.sockets.tcpAt flow.socket = some socket → socket.state = .established →
          p ∈ handles := by
      intro p flow hg hf socket hs hst
      cases hp with
      | skipped waits =>
        rcases List.mem_cons.mp (hall p flow hg hf socket hs hst) with rfl | hm
        · exact absurd hst (waits flow hg hf socket hs)
        · exact hm
      | @queued flow' socket' live fresh here done =>
        rw [HandleTable.get_modify hb.tcpIndex.sound live] at hg
        split at hg
        · cases hg
          cases hf
        · next hne => exact (List.mem_cons.mp (hall p flow hg hf socket hs hst)).resolve_left hne
    obtain ⟨s₂, e2, hb₂, h₂, hn⟩ := ih h₁ hb₁ hrest
    exact ⟨s₂, by rw [List.foldlM_cons, e1]; exact e2, hb₂, h₂, hn⟩

theorem queue (env : Smoltcp W T U) (h : Offered s tl) (hb : Books base {} s) :
    ∃ s', s.queueEstablishedPacketTcp env = some s' ∧ Books base {} s' ∧ Offered s' tl ∧
      NoneMissed s' := by
  refine h.queueAll _ hb fun handle flow hg _ _ _ _ => ?_
  refine (env.handleOrder_perm _ _).mem_iff.mpr (List.mem_map.mpr ⟨(flow.tuple, handle), ?_, rfl⟩)
  exact hb.tcpIndex.mem_index.mpr ⟨flow, hg, rfl⟩

theorem accept {handle : Handle} {rest : List Handle} (h : Offered s tl)
    (hp : s.pendingPacketTcp = handle :: rest) :
    Offered { s with pendingPacketTcp := rest } (handle :: tl) := by
  have hperm : (rest ++ handle :: tl).Perm (s.pendingPacketTcp ++ tl) := by
    rw [hp]
    exact List.perm_middle
  exact ⟨hperm.nodup_iff.mpr h.nodup, fun p hm => h.live p (hperm.mem_iff.mp hm),
    fun p f hg hf => hperm.mem_iff.mpr (h.queued p f hg hf), h.waiting⟩

theorem close {handle : Handle} {flow : PacketTcpFlow} (h : Offered s tl) (hm : handle ∈ tl)
    (hc : ClosedTcp s s' handle flow) (hdev : s'.device = s.device) :
    Offered s' (tl.erase handle) := by
  obtain ⟨hnp, hnt, hdisj⟩ := List.nodup_append.mp h.nodup
  have hpend : s'.pendingPacketTcp = s.pendingPacketTcp := by
    rw [hc.pending, List.filter_eq_self]
    intro p hp
    exact decide_eq_true (hdisj p hp handle hm)
  have hmem : ∀ p, p ∈ s'.pendingPacketTcp ++ tl.erase handle ↔
      p ≠ handle ∧ p ∈ s.pendingPacketTcp ++ tl := by
    intro p
    rw [hpend, List.mem_append, List.mem_append, hnt.mem_erase_iff]
    constructor
    · rintro (hp | ⟨hne, hp⟩)
      · exact ⟨hdisj p hp handle hm, .inl hp⟩
      · exact ⟨hne, .inr hp⟩
    · rintro ⟨hne, hp | hp⟩
      · exact .inl hp
      · exact .inr ⟨hne, hp⟩
  have hgone := (HandleTable.get_of_remove hc.entries).1
  have hget : ∀ {p}, p ≠ handle → s.packetTcpFlows.get p = s'.packetTcpFlows.get p :=
    fun hne => HandleTable.get_of_perm_cons hc.entries hne
  have hne : ∀ {p f}, s'.packetTcpFlows.get p = some f → p ≠ handle := by
    rintro p f hg rfl
    rw [hgone] at hg
    cases hg
  refine ⟨?_, fun p hp => ?_, fun p f hg hf => ?_, fun p f hg hf => ?_⟩
  · rw [hpend]
    exact h.nodup.sublist (List.Sublist.append_left List.erase_sublist _)
  · obtain ⟨hpne, hp⟩ := (hmem p).mp hp
    obtain ⟨f, hg, hf⟩ := h.live p hp
    exact ⟨f, (hget hpne).symm.trans hg, hf⟩
  · exact (hmem p).mpr ⟨hne hg, h.queued p f ((hget (hne hg)).trans hg) hf⟩
  · have hg₀ := (hget (hne hg)).trans hg
    obtain ⟨socket, hs, hor⟩ := h.waiting p f hg₀ hf
    refine ⟨socket, ?_, ?_⟩
    · rw [← hs]
      simp only [SocketSet.tcpAt, hc.sockets f.socket (Books.packetTcp_mem hg)]
    · unfold SynQueued at hor ⊢
      rw [hdev]
      exact hor

theorem packetTcp_socket_ne (hb : Books base {} s) {p q : Handle} {f g : PacketTcpFlow}
    (hf : s.packetTcpFlows.get p = some f) (hg : s.packetTcpFlows.get q = some g) (hne : p ≠ q) :
    f.socket ≠ g.socket := by
  intro heq
  have hnd : (s.packetTcpFlows.entries.map fun e => e.2.socket).Nodup := by
    have hall := hb.sockets.nodup
    simp only [StackBridge.heldTcp, List.nodup_append] at hall
    have hmine := hall.1.1.2.1
    rw [List.map_eq_flatMap]
    exact hmine
  have hpair := List.inj_on_of_nodup_map hnd (HandleTable.mem_entries.mpr hf)
    (HandleTable.mem_entries.mpr hg) heq
  exact hne (Prod.mk.inj hpair).1

theorem called {handle : Handle} {flow : PacketTcpFlow} {socket : TcpSocket T} (h : Offered s tl)
    (hb : Books base {} s) (hm : handle ∈ tl) (hg : s.packetTcpFlows.get handle = some flow) :
    Offered { s with sockets := s.sockets.setTcp flow.socket socket } tl := by
  refine ⟨h.nodup, h.live, h.queued, fun p f hp hf => ?_⟩
  obtain ⟨own, hs, hor⟩ := h.waiting p f hp hf
  have hne : handle ≠ p := by
    rintro rfl
    obtain ⟨g, hg', hq⟩ := h.live handle (List.mem_append_right _ hm)
    cases hp.symm.trans hg'
    rw [hf] at hq
    cases hq
  obtain ⟨old, hold⟩ := tcpAt_isSome.mp (hb.sockets.tcp flow.socket
    (List.mem_append_left _ (List.mem_append_right _ (Books.packetTcp_mem hg))))
  refine ⟨own, ?_, hor⟩
  rw [← hs]
  simp only [SocketSet.tcpAt, SocketSet.setTcp, slot_set _ _ _ _ (lt_of_slot hold),
    if_neg (packetTcp_socket_ne hb hg hp hne)]

end Offered

/-- Where no packet takes a socket off its way before its flow is queued, every call keeps the
flows offered, and every tick leaves none out. -/
theorem offered_rule {env : Smoltcp W T U} (henv : WaitsForPeer env) (base : ℕ) :
    RunRule env base (handshakesComplete env) (fun s tl => Offered s tl)
      (fun s tl => Offered s tl ∧ NoneMissed s) where
  tick tl := {
    maintain := fun _ _ h => ⟨h.nodup, h.live, h.queued, h.waiting⟩
    tcp := fun _ _ _ _ h hp => h.prepared hp
    dropTcp := fun _ _ _ _ hb h hp hd => h.dropTcp hb hp hd
    udp := fun _ _ _ _ h hp => h.same hp.tcp hp.device
    dropUdp := fun _ _ _ _ _ h hp hd => h.dropUdp hp hd
    ingress := fun _ _ _ _ _ _ h hg hin _ hr => h.ingested hg hin hr
    queue := fun _ hb h => h.queue env hb
    drain := fun _ _ _ _ _ _ h _ hdev hq _ => ⟨h.1.same hq hdev, h.2.quiet hq⟩
    egress := fun _ _ _ _ h _ hr => h.1.sent henv h.2 hr }
  keep _ _ h := h.1
  passed _ _ _ h hp := h.passed hp
  acceptTcp _ _ _ _ _ h hp := h.accept hp
  acceptUdp _ _ _ _ h _ := ⟨h.nodup, h.live, h.queued, h.waiting⟩
  dropTcp _ _ _ _ _ _ h hm hdev _ hc := h.close hm hc hdev
  staleTcp _ tl handle _ h hstale := by
    have hno : handle ∉ tl := by
      intro hm
      obtain ⟨flow, hf, -⟩ := h.live handle (List.mem_append_right _ hm)
      rw [hstale] at hf
      cases hf
    rw [List.erase_of_not_mem hno]
    exact h
  dropUdp _ _ _ _ _ h hdev hq _ := h.same hq hdev
  callTcp _ _ _ _ _ hb h hm hg _ := h.called hb hm hg
  sendUdp _ _ _ _ _ _ _ h _ _ hq := h.same hq rfl
  recvUdp _ _ _ _ h := ⟨h.nodup, h.live, h.queued, h.waiting⟩

structure AllReachable (s : SharedStackBridge W T U) : Prop where
  placed : ∀ handle flow, s.inner.packetTcpFlows.get handle = some flow →
    handle ∈ s.inner.pendingPacketTcp ∨ handle ∈ s.packetTcpLeases ∨
      ∃ socket, s.inner.sockets.tcpAt flow.socket = some socket ∧
        (socket.state = .synReceived ∨ socket.state = .listen ∧ SynQueued s.inner flow.tuple)
  once : (s.inner.pendingPacketTcp ++ s.packetTcpLeases).Nodup

theorem Offered.allReachable {s : SharedStackBridge W T U}
    (h : Offered s.inner s.packetTcpLeases) (hn : NoneMissed s.inner) : AllReachable s where
  placed handle flow hg := by
    cases hq : flow.queued with
    | true =>
      rcases List.mem_append.mp (h.queued handle flow hg hq) with hm | hm
      · exact .inl hm
      · exact .inr (.inl hm)
    | false =>
      obtain ⟨socket, hs, hor⟩ := h.waiting handle flow hg hq
      refine .inr (.inr ⟨socket, hs, ?_⟩)
      rcases hor with hst | hst | hst
      · exact .inl hst
      · exact absurd hst (hn handle flow hg hq socket hs)
      · exact .inr hst
  once := h.nodup

/-- After every tick of a run in which no packet takes a socket off its way before its flow is
queued, every packet TCP flow is reachable. -/
theorem packet_flows_reachable (env : Smoltcp W T U) (henv : WaitsForPeer env)
    (config : StackConfig) (maxFlows maxManagedBytes maxIngressPacketsPerTick : ℕ)
    (s₀ : StackBridge W T U)
    (hnew : StackBridge.new env config maxFlows maxManagedBytes maxIngressPacketsPerTick = .ok s₀)
    (calls : List (StackCall T U))
    (hguard : GuardedM (SharedStackBridge.step env) (CallGuard env (handshakesComplete env))
      ⟨s₀, [], []⟩ (calls ++ [.poll])) :
    ∃ s, SharedStackBridge.run env ⟨s₀, [], []⟩ (calls ++ [.poll]) = some s ∧ AllReachable s := by
  have hb := books_new hnew
  have hflows := (new_idle hnew).packetTcpFlows
  have hpending := (new_idle hnew).pendingPacketTcp
  have hstart : Offered s₀ [] := by
    have hnone : ∀ handle flow, s₀.packetTcpFlows.get handle ≠ some flow := by
      intro handle flow hg
      rw [← HandleTable.mem_entries, hflows] at hg
      cases hg
    exact ⟨by rw [hpending]; exact List.nodup_nil, by rw [hpending]; exact (fun _ h => nomatch h),
      fun handle flow hg => absurd hg (hnone handle flow),
      fun handle flow hg => absurd hg (hnone handle flow)⟩
  have rule := offered_rule henv s₀.managedBytes
  obtain ⟨hfront, hlast⟩ := hguard.split
  obtain ⟨s, e, hs, h⟩ := rule.run (s := ⟨s₀, [], []⟩) hb hstart hfront
  obtain ⟨s', e', -, h', hn⟩ := rule.poll hs h (hlast s e).1
  refine ⟨{ s with inner := s' }, ?_, h'.allReachable hn⟩
  rw [SharedStackBridge.run, List.foldlM_append, show calls.foldlM (SharedStackBridge.step env)
    ⟨s₀, [], []⟩ = some s from e]
  simp [SharedStackBridge.step, SharedStackBridge.onInner, e']

theorem sample_waitsForPeer : WaitsForPeer sampleSmoltcp := fun _ _ _ _ _ _ => rfl

instance (env : Smoltcp W T U) (s : StackBridge W T U) :
    Decidable ((handshakesComplete env).ingress s) :=
  inferInstanceAs (Decidable (Unbroken env s))

instance (env : Smoltcp W T U) (s : StackBridge W T U) (destination : IpEndpoint) :
    Decidable ((handshakesComplete env).drain s destination) :=
  isTrue trivial

instance (env : Smoltcp W T U) (s : StackBridge W T U) :
    Decidable ((handshakesComplete env).egress s) :=
  isTrue trivial

theorem sample_flow_reachable : ∃ s₀,
    StackBridge.new sampleSmoltcp sampleConfig 4 200000 8 = .ok s₀ ∧
    ∃ s, SharedStackBridge.run sampleSmoltcp ⟨s₀, [], []⟩
        ([.packetSend (segment synFlag) 0, .poll, .packetSend (segment ackFlag) 0, .poll,
          .acceptPacketTcp, .packetSend (segment finAckFlags) 0] ++ [.poll]) = some s ∧
      AllReachable s := by
  obtain ⟨s₀, hnew⟩ := sample_starts
  have hguard : ∀ s₀ ∈ (StackBridge.new sampleSmoltcp sampleConfig 4 200000 8).toOption,
      GuardedM (SharedStackBridge.step sampleSmoltcp)
        (CallGuard sampleSmoltcp (handshakesComplete sampleSmoltcp)) ⟨s₀, [], []⟩
        ([.packetSend (segment synFlag) 0, .poll, .packetSend (segment ackFlag) 0, .poll,
          .acceptPacketTcp, .packetSend (segment finAckFlags) 0] ++ [.poll]) := by
    decide +kernel
  exact ⟨s₀, hnew, packet_flows_reachable _ sample_waitsForPeer _ _ _ _ s₀ hnew _
    (hguard s₀ (by rw [hnew]; rfl))⟩

/-- The peer acknowledges and finishes within one tick: the flow is found past established, and
neither offered nor closed. -/
theorem fin_in_same_tick_unreachable : ∃ s₀,
    StackBridge.new sampleSmoltcp sampleConfig 4 200000 8 = .ok s₀ ∧
    ∃ s, SharedStackBridge.run sampleSmoltcp ⟨s₀, [], []⟩
        ([.packetSend (segment synFlag) 0, .poll, .packetSend (segment ackFlag) 0,
          .packetSend (segment finAckFlags) 0] ++ [.poll]) = some s ∧
      ¬ AllReachable s := by
  obtain ⟨s₀, hnew⟩ := sample_starts
  have hrun : (sampleRun ([.packetSend (segment synFlag) 0, .poll,
      .packetSend (segment ackFlag) 0, .packetSend (segment finAckFlags) 0] ++ [.poll])).map (fun s =>
      (s.inner.pendingPacketTcp, s.packetTcpLeases,
        (s.inner.packetTcpFlows.get ⟨0, 1⟩).bind fun flow =>
          (s.inner.sockets.tcpAt flow.socket).map (·.state))) =
      some ([], [], some .closeWait) := by decide +kernel
  obtain ⟨s, hs, heq⟩ := Option.map_eq_some_iff.mp hrun
  simp only [sampleRun, hnew] at hs
  simp only [Prod.mk.injEq] at heq
  obtain ⟨hpending, hleases, hstate⟩ := heq
  obtain ⟨flow, hflow, hsocket⟩ := Option.bind_eq_some_iff.mp hstate
  obtain ⟨socket, hat, hclose⟩ := Option.map_eq_some_iff.mp hsocket
  refine ⟨s₀, hnew, s, hs, fun hreach => ?_⟩
  rcases hreach.placed ⟨0, 1⟩ flow hflow with hm | hm | ⟨socket', hat', hst⟩
  · rw [hpending] at hm
    cases hm
  · rw [hleases] at hm
    cases hm
  · cases hat.symm.trans hat'
    rw [hclose] at hst
    rcases hst with hst | ⟨hst, -⟩ <;> cases hst

end Snolc.Stack
