import Snolc.EngineAnswers
import Snolc.EngineUserStreams
import Snolc.MuxPolicy

set_option autoImplicit false

namespace Snolc.Engine
open PollIo MuxFrame Mux AsyncTask WireFormat CoreIo GuardedRuns ScriptedIo

section Reaping
variable {W T : Type}

def Occurrence.closes : Occurrence T → Option (ℕ × UInt64)
  | .call (.adapterCloseFlow adapter flow) _ => some (adapter, flow)
  | _ => none

def Live.leaving (l : Live W T) : List ActiveServerFlow :=
  l.session.active.filter fun flow => !l.host.registry.isRegistered flow.muxHandle

def Live.staying (l : Live W T) : List ActiveServerFlow :=
  l.session.active.filter fun flow => l.host.registry.isRegistered flow.muxHandle

/-- The flows that leave with their stream still counted. -/
def Live.leaked (l : Live W T) : ℕ :=
  l.leaving.length -
    if l.session.mux.isSome then (l.leaving.filterMap ActiveServerFlow.adapterFlow).length else 0

/-- Every flow that leaves has an adapter flow, and the mux is at home when one does. -/
def Reapable (l : Live W T) : Prop :=
  ∀ flow ∈ l.leaving, flow.adapterFlow.isSome ∧ l.session.mux.isSome

instance (l : Live W T) : Decidable (Reapable l) :=
  inferInstanceAs (Decidable (∀ flow ∈ l.leaving, flow.adapterFlow.isSome ∧ l.session.mux.isSome))

structure Releases (l l' : Live W T) : Prop where
  released : ∃ n, l'.session.userStreams = some n ∧ l.session.userStreams = some (n + l.leaving.length)
  closed : (l.since l').filterMap Occurrence.closes = l.leaving.filterMap ActiveServerFlow.adapterFlow

/-- The count agrees with the flows that are active, being opened, pending or being accepted. -/
def InStep (s : EstablishedSession T) : Prop := s.userStreams = some (s.flows + s.reserved)

theorem leaked_eq_zero {l : Live W T} : l.leaked = 0 ↔ Reapable l := by
  have hle := List.length_filterMap_le ActiveServerFlow.adapterFlow l.leaving
  unfold Live.leaked Reapable
  by_cases hm : l.session.mux.isSome
  · rw [if_pos hm]
    constructor
    · intro h flow hflow
      have hall := List.filterMap_length_eq_length.mp (Nat.le_antisymm hle (by omega))
      exact ⟨hall flow hflow, hm⟩
    · intro h
      have hall := List.filterMap_length_eq_length.mpr fun flow hflow => (h flow hflow).1
      omega
  · rw [if_neg hm]
    constructor
    · intro h flow hflow
      have hpos := List.length_pos_of_mem hflow
      omega
    · intro h
      have hnil := List.eq_nil_iff_forall_not_mem.mpr fun flow hflow => hm (h flow hflow).2
      rw [hnil]
      rfl

theorem leaving_add_staying (l : Live W T) : l.staying.length + l.leaving.length = l.session.active.length := by
  have h := l.session.active.length_eq_length_filter_add fun flow => l.host.registry.isRegistered flow.muxHandle
  exact h.symm

variable [Modules W T] {b : TunnelBinding} {drift : ℕ} {l : Live W T}

theorem closeFlows_tended {kept : List ActiveServerFlow} (closed : List (ℕ × UInt64))
    (h : Tended b (drift + closed.length) kept l) : Tended b drift kept (l.closeFlows closed) := by
  induction closed generalizing l with
  | nil => exact h
  | cons flow rest ih => exact ih (h.call _).release

theorem closeFlows_frame (l : Live W T) (closed : List (ℕ × UInt64)) :
    (l.closeFlows closed).session.flows = l.session.flows ∧
    (l.closeFlows closed).session.active = l.session.active ∧
    ∃ more, (l.closeFlows closed).host.trace = l.host.trace ++ more ∧ more.filterMap Occurrence.closes = closed := by
  induction closed generalizing l with
  | nil => exact ⟨rfl, rfl, [], (List.append_nil _).symm, rfl⟩
  | cons flow rest ih =>
    obtain ⟨hflows, hactive, more, htrace, hmore⟩ :=
      ih ((l.call (.adapterCloseFlow flow.1 flow.2)).2.modify EstablishedSession.release)
    refine ⟨hflows, hactive,
      .call (.adapterCloseFlow flow.1 flow.2) (l.call (.adapterCloseFlow flow.1 flow.2)).1 :: more, ?_, ?_⟩
    · rw [Live.closeFlows, List.foldl_cons]
      exact htrace.trans (by simp [Live.modify, Live.call_trace])
    · simp [Occurrence.closes, hmore]

theorem reapClosed_lent (hm : l.session.mux = none) :
    l.reapClosed = l.modify fun s => { s with active := l.staying } := by
  unfold Live.reapClosed
  rw [if_neg (by simp [Live.modify, hm])]
  rfl

theorem reapClosed_home (hm : l.session.mux.isSome) :
    l.reapClosed = (l.modify fun s => { s with active := l.staying }).closeFlows
      (l.leaving.filterMap ActiveServerFlow.adapterFlow) := by
  unfold Live.reapClosed
  exact if_pos hm

theorem reapClosed_flows (l : Live W T) : l.reapClosed.session.active = l.staying ∧
    l.reapClosed.session.flows + l.leaving.length = l.session.flows := by
  have hsum := leaving_add_staying l
  have hflows : (l.modify fun s => { s with active := l.staying }).session.flows + l.leaving.length =
      l.session.flows := by
    simp only [EstablishedSession.flows, Live.modify]
    omega
  cases hm : l.session.mux with
  | none =>
    rw [reapClosed_lent hm]
    exact ⟨rfl, hflows⟩
  | some mux =>
    rw [reapClosed_home (by rw [hm]; rfl)]
    obtain ⟨hsame, hactive, -⟩ := closeFlows_frame (l.modify fun s => { s with active := l.staying })
      (l.leaving.filterMap ActiveServerFlow.adapterFlow)
    exact ⟨hactive, by rw [hsame]; exact hflows⟩

theorem reapClosed_tended {mux : MuxSession T} (h : l.session.Counted b drift mux) (hm : l.session.mux.isSome) :
    Tended b (drift + l.leaked) l.staying l.reapClosed := by
  have hle := List.length_filterMap_le ActiveServerFlow.adapterFlow l.leaving
  have hsum := leaving_add_staying l
  have hleaked : l.leaked = l.leaving.length - (l.leaving.filterMap ActiveServerFlow.adapterFlow).length := by
    rw [Live.leaked, if_pos hm]
  have hcount := h.count
  rw [reapClosed_home hm]
  refine closeFlows_tended _ ?_
  cases h.lends with
  | home hhome ha hr =>
    refine ⟨mux, hhome, ha, hr, h.role, h.policy, ?_, List.Subset.refl _⟩
    rw [EstablishedSession.reserved, ha] at hcount
    rw [hcount]
    simp only [EstablishedSession.flows, Live.modify, Option.elim_none]
    omega
  | accepting stage _ hnone => simp [hnone] at hm
  | responding stage stream _ hnone => simp [hnone] at hm

theorem reapClosed_counted {mux : MuxSession T} (h : l.session.Counted b drift mux) :
    ∃ mux', l.reapClosed.session.Counted b (drift + l.leaked) mux' := by
  by_cases hm : l.session.mux.isSome
  · obtain ⟨mux', hmux⟩ := reapClosed_tended h hm
    exact ⟨mux', hmux.counted⟩
  · have hnone : l.session.mux = none := by simpa using hm
    obtain ⟨-, hflows⟩ := reapClosed_flows l
    have hleaked : l.leaked = l.leaving.length := by rw [Live.leaked, if_neg hm, Nat.sub_zero]
    rw [reapClosed_lent hnone] at hflows ⊢
    refine ⟨mux, ?_, h.role, h.policy, ?_⟩
    · cases h.lends with
      | home hhome => simp [hhome] at hnone
      | accepting stage hs hm ha hr hp hc => exact .accepting stage hs hm ha hr hp hc
      | responding stage stream hs hm ha hr hp hc => exact .responding stage stream hs hm ha hr hp hc
    · rw [h.count, hleaked, ← hflows]
      change _ = _ + l.session.reserved + _
      omega

theorem reapClosed_reserved {mux : MuxSession T} (h : l.session.Counted b drift mux) :
    l.reapClosed.session.reserved = l.session.reserved := by
  by_cases hm : l.session.mux.isSome
  · obtain ⟨mux', hmux⟩ := reapClosed_tended h hm
    cases h.lends with
    | home hhome ha hr => rw [EstablishedSession.reserved, EstablishedSession.reserved, hmux.accepting, ha]
    | accepting stage _ hnone => simp [hnone] at hm
    | responding stage stream _ hnone => simp [hnone] at hm
  · rw [reapClosed_lent (by simpa using hm)]
    rfl

theorem reapClosed_closes (l : Live W T) : ∃ more, l.reapClosed.host.trace = l.host.trace ++ more ∧
    more.filterMap Occurrence.closes =
      if l.session.mux.isSome then l.leaving.filterMap ActiveServerFlow.adapterFlow else [] := by
  by_cases hm : l.session.mux.isSome
  · rw [reapClosed_home hm, if_pos hm]
    obtain ⟨-, -, more, htrace, hmore⟩ := closeFlows_frame (l.modify fun s => { s with active := l.staying })
      (l.leaving.filterMap ActiveServerFlow.adapterFlow)
    exact ⟨more, htrace, hmore⟩
  · rw [reapClosed_lent (by simpa using hm), if_neg hm]
    exact ⟨[], (List.append_nil _).symm, rfl⟩

theorem reapClosed_releases_iff {mux : MuxSession T} (h : l.session.Counted b drift mux) :
    Releases l l.reapClosed ↔ Reapable l := by
  obtain ⟨mux', hmux⟩ := reapClosed_counted h
  obtain ⟨-, hflows⟩ := reapClosed_flows l
  have hcount := h.count
  have hcount' := hmux.count
  rw [reapClosed_reserved h] at hcount'
  rw [← leaked_eq_zero]
  constructor
  · intro hreleases
    obtain ⟨n, hn, hbefore⟩ := hreleases.released
    rw [hmux.lends.userStreams] at hn
    rw [h.lends.userStreams] at hbefore
    cases hn
    have hb := Option.some.inj hbefore
    omega
  · intro hzero
    refine ⟨⟨mux'.userStreams, hmux.lends.userStreams, ?_⟩, ?_⟩
    · rw [h.lends.userStreams]
      congr 1
      omega
    · obtain ⟨more, htrace, hmore⟩ := reapClosed_closes l
      have hsince : l.since l.reapClosed = more := by simp [Live.since, htrace]
      rw [hsince, hmore]
      by_cases hm : l.session.mux.isSome
      · rw [if_pos hm]
      · have hnil := List.eq_nil_iff_forall_not_mem.mpr fun flow hflow =>
          hm (leaked_eq_zero.mp hzero flow hflow).2
        rw [if_neg hm, hnil]
        rfl

variable [AsyncIo T]

omit [AsyncIo T] in
theorem reapClosed_atLimit {mux : MuxSession T} (h : l.session.Counted b drift mux) :
    AtLimit l.reapClosed.session ↔ AtLimit l.session := by
  by_cases hm : l.session.mux.isSome
  · obtain ⟨mux', hmux⟩ := reapClosed_tended h hm
    have hnone : l.session.accepting = none := by
      cases h.lends with
      | home hhome ha hr => exact ha
      | accepting stage _ hnone => simp [hnone] at hm
      | responding stage stream _ hnone => simp [hnone] at hm
    simp [AtLimit, hmux.accepting, hnone]
  · rw [reapClosed_lent (by simpa using hm)]
    rfl

theorem poll_balances {mux : MuxSession T} (h : l.session.Counted b drift mux)
    (hlimit : b.role = .server → ¬ AtLimit l.session) :
    Balances b (drift + l.leaked) l.staying (Live.poll b l) := by
  unfold Live.poll
  cases hb : b.role with
  | client =>
    have hm : l.session.mux.isSome := by
      cases h.lends with
      | home hhome ha hr => rw [hhome]; rfl
      | accepting stage hs => rw [h.role, hb] at hs; cases hs
      | responding stage stream hs => rw [h.role, hb] at hs; cases hs
    exact pollClient_balances hb (reapClosed_tended h hm)
  | server =>
    obtain ⟨mux', hmux⟩ := reapClosed_counted h
    obtain ⟨hactive, -⟩ := reapClosed_flows l
    refine pollServer_balances hb hmux ?_ fun hat => hlimit hb ((reapClosed_atLimit h).mp hat)
    rw [hactive]
    exact List.Subset.refl _

theorem poll_atLimit (hb : b.role = .server) {mux : MuxSession T} (h : l.session.Counted b drift mux)
    (hlimit : AtLimit l.session) : (Live.poll b l).1 = .error (.mux .streamLimit) := by
  obtain ⟨mux', hmux⟩ := reapClosed_counted h
  unfold Live.poll
  rw [hb]
  exact pollServer_atLimit hb hmux ((reapClosed_atLimit h).mpr hlimit)

theorem poll_counted {mux : MuxSession T} (h : l.session.Counted b drift mux) (hok : (Live.poll b l).1 = .ok ()) :
    ∃ mux', (Live.poll b l).2.session.Counted b (drift + l.leaked) mux' := by
  refine (poll_balances h fun hb hlimit => ?_).counted hok
  rw [poll_atLimit hb h hlimit] at hok
  cases hok

end Reaping

/-- On its way to a session a tunnel has a mux for its role without streams, and the session
    satisfies `P`. -/
def TunnelState.Fit {T : Type} (b : TunnelBinding) (P : EstablishedSession T → Prop) : TunnelState T → Prop
  | .carrier => True
  | .protection _ => True
  | .handshake _ mux => mux.role = b.role ∧ mux.userStreams = 0
  | .policyAttach mux _ => ∀ m ∈ mux, m.role = b.role ∧ m.policyOpen = true ∧ m.userStreams = 0
  | .established s => P s

def TunnelState.session {T : Type} : TunnelState T → Option (EstablishedSession T)
  | .established s => some s
  | _ => none

theorem TunnelState.established_of_session {T : Type} {state : TunnelState T} {s : EstablishedSession T}
    (h : state.session = some s) : state = .established s := by
  cases state with
  | established s' =>
    cases h
    rfl
  | _ => cases h

/-- A property of fresh sessions that streams and modules do not change. -/
structure Inherited {T : Type} (b : TunnelBinding) (P : EstablishedSession T → Prop) : Prop where
  touch : ∀ s f, P s → P (s.touch f)
  new : ∀ mux policySession, mux.role = b.role → mux.policyOpen = true → mux.userStreams = 0 →
    P (.new mux policySession)

theorem Handshake.poll_settles {T : Type} [AsyncIo T] (family : String) (mux : MuxSession T) (stage : Handshake) :
    Settles mux (stage.poll family mux) := by
  cases stage with
  | client stage =>
    have h := OpenPolicy.poll_settles family mux stage
    unfold Handshake.poll
    dsimp only
    split <;> rename_i heq <;> rw [heq] at h
    · rename_i result _
      cases result <;> exact ⟨h.role, h.users, h.policy⟩
    · exact ⟨h.role, h.users, h.policy⟩
  | server stage =>
    have h := AcceptPolicy.poll_settles family mux stage
    unfold Handshake.poll
    dsimp only
    split <;> rename_i heq <;> rw [heq] at h
    · rename_i result _
      cases result <;> exact ⟨h.role, h.users, h.policy⟩
    · exact ⟨h.role, h.users, h.policy⟩

namespace Tunnel
variable {W T : Type} {b : TunnelBinding} {P : EstablishedSession T → Prop}

theorem touch_fit (hP : Inherited b P) {state : TunnelState T} (h : state.Fit b P) (f : Connection T → Connection T) :
    (state.touch f).Fit b P := by
  cases state with
  | carrier => trivial
  | protection lower => trivial
  | handshake stage mux => exact h
  | policyAttach mux stream =>
    intro m hm
    obtain ⟨m₀, hm₀, rfl⟩ := Option.map_eq_some_iff.mp hm
    exact h m₀ hm₀
  | established s => exact hP.touch s f h

variable [Modules W T] {t : Tunnel W T}

theorem reset_state (b : TunnelBinding) (t : Tunnel W T) : (t.reset b).state = .carrier := by
  unfold Tunnel.reset
  dsimp only
  split <;> rfl

theorem fail_state (b : TunnelBinding) (t : Tunnel W T) (error : TunnelError) (wasEstablished : Bool) :
    (t.fail b error wasEstablished).2.state = .carrier := by
  unfold Tunnel.fail
  dsimp only
  split
  · change (t.reset b).state.touch _ = _
    rw [reset_state]
    rfl
  · exact reset_state b t

theorem fail_fit (t : Tunnel W T) (error : TunnelError) (wasEstablished : Bool) :
    (t.fail b error wasEstablished).2.state.Fit b P := by
  rw [fail_state]
  trivial

theorem call_fit (hP : Inherited b P) (h : t.state.Fit b P) (c : ModuleCall) : (t.call c).2.state.Fit b P :=
  touch_fit hP h _

theorem reached_fit (hP : Inherited b P) (h : t.state.Fit b P) (instant : Option ℕ) :
    (t.reached instant).2.state.Fit b P := by
  unfold Tunnel.reached
  split
  · exact h
  · exact call_fit hP h _

theorem carrierAnswer_fit {answer : Poll (Except LoadError T) × Tunnel W T} (h : answer.2.state.Fit b P) :
    (match answer with
      | (.ready (.ok io), t) =>
        let now := ({ t with retryAt := none, state := .protection (some io) } : Tunnel W T).call .instantNow
        ((.ok .carrierReady, { now.2 with deadline := some (now.1 + b.handshakeTimeout) }) : TunnelReply W T)
      | (.ready (.error e), t) => t.fail b (.loader e) false
      | (.pending, t) => (.ok .none, t)).2.state.Fit b P := by
  split
  · trivial
  · exact fail_fit _ _ _
  · exact h

theorem pollCarrier_fit (hP : Inherited b P) (h : t.state.Fit b P) : (t.pollCarrier b).2.state.Fit b P := by
  have hretry := reached_fit hP h t.retryAt
  unfold Tunnel.pollCarrier
  dsimp only
  split
  · exact hretry
  · refine carrierAnswer_fit ?_
    split <;> exact call_fit hP hretry _

omit [Modules W T] in
theorem startHandshake_fit (t : Tunnel W T) (io : T) : (t.startHandshake b io).2.state.Fit b P :=
  ⟨rfl, rfl⟩

theorem pollProtection_fit (hP : Inherited b P) (h : t.state.Fit b P) (lower : Option T) :
    (t.pollProtection b lower).2.state.Fit b P := by
  have hcall := call_fit hP h (.protectionWrap b.protection b.role)
  unfold Tunnel.pollProtection
  split
  · split
    · exact fail_fit _ _ _
    · exact startHandshake_fit _ _
  · split <;> rename_i heq <;> rw [heq] at hcall
    · exact startHandshake_fit _ _
    · exact fail_fit _ _ _
    · exact hcall

theorem pollPolicyAttach_fit (hP : Inherited b P) (h : t.state.Fit b P) (stream : Option Handle) :
    (t.pollPolicyAttach b stream).2.state.Fit b P := by
  unfold Tunnel.pollPolicyAttach
  split
  · exact fail_fit _ _ _
  · rename_i handle
    have hcall := call_fit hP h (.policyAttachSession b.policy handle b.policyContext)
    split <;> rename_i heq <;> rw [heq] at hcall
    · rename_i policySession t₁
      split
      · rename_i mux _ hstate
        dsimp only at hcall
        rw [hstate] at hcall
        obtain ⟨hrole, hpolicy, husers⟩ := hcall mux rfl
        exact hP.new mux policySession hrole hpolicy husers
      · exact fail_fit _ _ _
    · exact fail_fit _ _ _
    · exact hcall

variable [AsyncIo T]

theorem pollHandshake_fit {stage : Handshake} {mux : MuxSession T} (hs : t.state = .handshake stage mux)
    (h : t.state.Fit b P) : (t.pollHandshake b stage mux).2.state.Fit b P := by
  rw [hs] at h
  obtain ⟨hrole, husers⟩ := h
  have hpoll := Handshake.poll_settles b.policyFamily mux stage
  unfold Tunnel.pollHandshake
  split <;> rename_i heq <;> rw [heq] at hpoll
  · exact ⟨hpoll.role.trans hrole, hpoll.users.trans husers⟩
  · exact fail_fit _ _ _
  · split
    · exact fail_fit _ _ _
    · intro m hm
      cases hm
      exact ⟨hpoll.role.trans hrole, hpoll.policy.trans (Bool.or_true _), hpoll.users.trans husers⟩

theorem react_fit (hP : Inherited b P) {event : EngineEvent T} (hs : Settled t) (h : t.state.Fit b P)
    (hpoll : event = .tunnel .poll → ∀ s, t.state = .established s → (Live.poll b ⟨t.host, s⟩).1 = .ok () →
      P (Live.poll b ⟨t.host, s⟩).2.session) :
    (t.react b event).state.Fit b P := by
  cases event with
  | networkChanged =>
    change (t.reset b).state.Fit b P
    rw [reset_state]
    trivial
  | tunnel event =>
    cases event with
    | disturb effect => exact touch_fit hP h _
    | poll =>
      have hr := reached_fit hP h t.deadline
      change (t.poll b).2.state.Fit b P
      by_cases hest : ∃ s, t.state = .established s
      · obtain ⟨s, hstate⟩ := hest
        have hok := hpoll rfl s hstate
        rw [poll_established hstate (hs s hstate), Tunnel.pollEstablished]
        split <;> rename_i heq <;> rw [heq] at hok
        · exact hok rfl
        · exact fail_fit _ _ _
      · unfold Tunnel.poll
        dsimp only
        split
        · rw [reset_state]
          trivial
        · split
          · exact pollCarrier_fit hP hr
          · exact pollProtection_fit hP hr _
          · rename_i hstate
            exact pollHandshake_fit hstate hr
          · exact pollPolicyAttach_fit hP hr _
          · rename_i s hstate
            have hbefore : ∃ s, t.state = .established s := by
              unfold Tunnel.reached at hstate
              split at hstate
              · exact ⟨_, hstate⟩
              · obtain ⟨s₀, hs₀, -⟩ := established_of_touch hstate
                exact ⟨s₀, hs₀⟩
            exact absurd hbefore hest

omit [AsyncIo T] in
theorem new_fit (b : TunnelBinding) (P : EstablishedSession T → Prop) (modules : W) (registry : Registry) :
    (Tunnel.new b modules registry : Tunnel W T).state.Fit b P := by
  unfold Tunnel.new
  dsimp only
  split <;> trivial

end Tunnel

theorem counted_inherited {T : Type} (b : TunnelBinding) :
    Inherited b fun s : EstablishedSession T => ∃ drift mux, s.Counted b drift mux where
  touch := by
    rintro s f ⟨drift, mux, h⟩
    exact ⟨drift, _, h.touch f⟩
  new mux _ hrole hpolicy husers := ⟨0, mux, .home rfl rfl rfl, hrole, hpolicy, husers⟩

theorem exact_inherited {T : Type} (b : TunnelBinding) :
    Inherited b fun s : EstablishedSession T => ∃ mux, s.Counted b 0 mux where
  touch := by
    rintro s f ⟨mux, h⟩
    exact ⟨_, h.touch f⟩
  new mux _ hrole hpolicy husers := ⟨mux, .home rfl rfl rfl, hrole, hpolicy, husers⟩

section Runs
variable {W T : Type} [Modules W T] [AsyncIo T]

def Tunnel.ReapsAll (t : Tunnel W T) : EngineEvent T → Prop
  | .tunnel .poll => ∀ s ∈ t.state.session, Reapable ⟨t.host, s⟩
  | .tunnel (.disturb _) => True
  | .networkChanged => True

instance (t : Tunnel W T) (event : EngineEvent T) : Decidable (t.ReapsAll event) :=
  match event with
  | .tunnel .poll => inferInstanceAs (Decidable (∀ s ∈ t.state.session, Reapable ⟨t.host, s⟩))
  | .tunnel (.disturb _) => isTrue trivial
  | .networkChanged => isTrue trivial

def Tunnel.Counting (b : TunnelBinding) (t : Tunnel W T) : Prop :=
  t.Settled ∧ t.state.Fit b fun s => ∃ drift mux, s.Counted b drift mux

def Tunnel.Exact (b : TunnelBinding) (t : Tunnel W T) : Prop :=
  t.Settled ∧ t.state.Fit b fun s => ∃ mux, s.Counted b 0 mux

theorem Tunnel.react_counting (b : TunnelBinding) (t : Tunnel W T) (event : EngineEvent T) (h : t.Counting b) :
    (t.react b event).Counting b := by
  refine ⟨react_settled t event h.1, react_fit (counted_inherited b) h.1 h.2 fun _ s hs hok => ?_⟩
  have hfit := h.2
  rw [hs] at hfit
  obtain ⟨drift, mux, hcounted⟩ := hfit
  exact ⟨_, poll_counted hcounted hok⟩

theorem Tunnel.react_exact (b : TunnelBinding) (t : Tunnel W T) (event : EngineEvent T) (h : t.Exact b)
    (hg : t.ReapsAll event) : (t.react b event).Exact b := by
  refine ⟨react_settled t event h.1, react_fit (exact_inherited b) h.1 h.2 fun hevent s hs hok => ?_⟩
  have hfit := h.2
  rw [hs] at hfit
  obtain ⟨mux, hcounted⟩ := hfit
  subst hevent
  have hnext := poll_counted hcounted hok
  rw [leaked_eq_zero.mpr (hg s (by rw [hs]; rfl))] at hnext
  exact hnext

theorem run_counted (b : TunnelBinding) (modules : W) (registry : Registry) (events : List (EngineEvent T))
    {s : EstablishedSession T}
    (hs : (run (Tunnel.react b) (Tunnel.new b modules registry) events).state = .established s) :
    ∃ drift mux, s.Counted b drift mux := by
  have hinv := run_always (Tunnel.Counting b) (Tunnel.react_counting b)
    ⟨(Tunnel.new_books b modules registry).1, Tunnel.new_fit b _ modules registry⟩ events
  have hfit := hinv.2
  rw [hs] at hfit
  exact hfit

theorem run_exact (b : TunnelBinding) (modules : W) (registry : Registry) {events : List (EngineEvent T)}
    (hg : Guarded (Tunnel.react b) Tunnel.ReapsAll (Tunnel.new b modules registry) events) {s : EstablishedSession T}
    (hs : (run (Tunnel.react b) (Tunnel.new b modules registry) events).state = .established s) :
    ∃ mux, s.Counted b 0 mux := by
  have hinv := run_invariant (Tunnel.Exact b) (Tunnel.react_exact b)
    ⟨(Tunnel.new_books b modules registry).1, Tunnel.new_fit b _ modules registry⟩ hg
  have hfit := hinv.2
  rw [hs] at hfit
  exact hfit

end Runs

/-- In every session of every run, whatever the modules answer and whenever handles go away,
    a poll releases each flow that leaves and tells its adapter exactly when it may; and if
    every poll of the run may, the count agrees with the flows. -/
theorem flows_released_iff {W T : Type} [Modules W T] [AsyncIo T] (b : TunnelBinding) (modules : W)
    (registry : Registry) (events : List (EngineEvent T)) (t : Tunnel W T)
    (ht : t = run (Tunnel.react b) (Tunnel.new b modules registry) events) (s : EstablishedSession T)
    (hs : t.state = .established s) :
    (Releases ⟨t.host, s⟩ (Live.reapClosed ⟨t.host, s⟩) ↔ Reapable ⟨t.host, s⟩) ∧
    (Guarded (Tunnel.react b) Tunnel.ReapsAll (Tunnel.new b modules registry) events → InStep s) := by
  subst ht
  constructor
  · obtain ⟨drift, mux, hcounted⟩ := run_counted b modules registry events hs
    exact reapClosed_releases_iff hcounted
  · intro hg
    obtain ⟨mux, hcounted⟩ := run_exact b modules registry hg hs
    rw [InStep, hcounted.lends.userStreams, hcounted.count]
    rfl

/-- A peer that opens the policy stream and one flow. -/
def openedFlow : FixedModules where
  carrier := .ready (.ok
    { incoming := (Frame.mk .frameOpen 1 []).bytes ++
        (Frame.mk .frameData 1 ((encodePolicy "local").toOption.getD [])).bytes ++
        (Frame.mk .frameOpen 3 []).bytes ++
        (Frame.mk .frameData 3 ((encodeOpen sampleRequest).toOption.getD [])).bytes })
  attachSession := .ready (.ok 1)

def polls (n : ℕ) : List (EngineEvent Script) := List.replicate n (.tunnel .poll)

def handleGone : EngineEvent Script := .tunnel (.disturb { registry := fun r => r.remove 4 .streams })

def serverRun (yamux : YamuxConfig) (events : List (EngineEvent Script)) : Tunnel FixedModules Script :=
  run (Tunnel.react { sampleBinding .server with yamux })
    (Tunnel.new { sampleBinding .server with yamux } openedFlow {}) events

def sampleYamux (maxStreams : ℕ) : YamuxConfig := ⟨maxStreams, 4194304, 16384⟩

theorem home_flow_released : ∃ s, (serverRun (sampleYamux 16) (polls 8 ++ [handleGone])).state = .established s ∧
    s.active.length = 1 ∧
    Releases ⟨(serverRun (sampleYamux 16) (polls 8 ++ [handleGone])).host, s⟩
      (Live.reapClosed ⟨(serverRun (sampleYamux 16) (polls 8 ++ [handleGone])).host, s⟩) ∧ InStep s := by
  have hsome : ∃ s ∈ (serverRun (sampleYamux 16) (polls 8 ++ [handleGone])).state.session,
      s.active.length = 1 ∧ Reapable ⟨(serverRun (sampleYamux 16) (polls 8 ++ [handleGone])).host, s⟩ := by
    decide +kernel
  obtain ⟨s, hs, hactive, hreap⟩ := hsome
  have hest := TunnelState.established_of_session hs
  obtain ⟨hiff, hcount⟩ := flows_released_iff { sampleBinding .server with yamux := sampleYamux 16 } openedFlow {}
    (polls 8 ++ [handleGone]) _ rfl s hest
  exact ⟨s, hest, hactive, hiff.mpr hreap, hcount (by decide +kernel)⟩

/-- The flow ends while the mux is lent to the future that accepts the next one: the flow
    leaves, and its stream stays counted. -/
theorem lent_flow_not_released :
    (∃ s, (serverRun (sampleYamux 16) (polls 10 ++ [handleGone])).state = .established s ∧
      ¬ Releases ⟨(serverRun (sampleYamux 16) (polls 10 ++ [handleGone])).host, s⟩
        (Live.reapClosed ⟨(serverRun (sampleYamux 16) (polls 10 ++ [handleGone])).host, s⟩)) ∧
    ∃ s, (serverRun (sampleYamux 16) (polls 10 ++ [handleGone] ++ polls 1)).state = .established s ∧ ¬ InStep s := by
  constructor
  · have hsome : ∃ s ∈ (serverRun (sampleYamux 16) (polls 10 ++ [handleGone])).state.session,
        ¬ (((⟨(serverRun (sampleYamux 16) (polls 10 ++ [handleGone])).host, s⟩ : Live FixedModules Script).since
          (Live.reapClosed ⟨(serverRun (sampleYamux 16) (polls 10 ++ [handleGone])).host, s⟩)).filterMap
            Occurrence.closes =
          (Live.leaving ⟨(serverRun (sampleYamux 16) (polls 10 ++ [handleGone])).host, s⟩).filterMap
            ActiveServerFlow.adapterFlow) := by
      decide +kernel
    obtain ⟨s, hs, hclosed⟩ := hsome
    exact ⟨s, TunnelState.established_of_session hs, fun h => hclosed h.closed⟩
  · have hsome : ∃ s ∈ (serverRun (sampleYamux 16) (polls 10 ++ [handleGone] ++ polls 1)).state.session,
        ¬ s.userStreams = some (s.flows + s.reserved) := by
      decide +kernel
    obtain ⟨s, hs, hcount⟩ := hsome
    exact ⟨s, TunnelState.established_of_session hs, hcount⟩

/-- The limit on the streams does not fail the poll, and the flows whose handle is registered
    stay active. -/
structure LimitScoped {W T : Type} [Modules W T] [AsyncIo T] (b : TunnelBinding) (l : Live W T) : Prop where
  mild : (Live.poll b l).1 ≠ .error (.mux .streamLimit)
  active : (Live.poll b l).1 = .ok () → l.staying ⊆ (Live.poll b l).2.session.active

/-- In every session of every run of a server the limit on the streams is left to the flow
    that exceeds it exactly when the session does not come to wait for a flow at the limit. -/
theorem stream_limit_scoped_iff {W T : Type} [Modules W T] [AsyncIo T] {b : TunnelBinding} (hb : b.role = .server)
    (modules : W) (registry : Registry) (events : List (EngineEvent T)) (t : Tunnel W T)
    (ht : t = run (Tunnel.react b) (Tunnel.new b modules registry) events) (s : EstablishedSession T)
    (hs : t.state = .established s) : LimitScoped b ⟨t.host, s⟩ ↔ ¬ AtLimit s := by
  obtain ⟨drift, mux, hcounted⟩ := run_counted b modules registry events (ht ▸ hs)
  constructor
  · intro h hlimit
    exact h.mild (poll_atLimit hb hcounted hlimit)
  · intro hlimit
    have hpoll := poll_balances (l := ⟨t.host, s⟩) hcounted fun _ => hlimit
    exact ⟨hpoll.mild hb, hpoll.active⟩

theorem roomy_server_scoped : ∃ s, (serverRun (sampleYamux 16) (polls 9)).state = .established s ∧
    s.active.length = 1 ∧
    LimitScoped { sampleBinding .server with yamux := sampleYamux 16 }
      ⟨(serverRun (sampleYamux 16) (polls 9)).host, s⟩ := by
  have hsome : ∃ s ∈ (serverRun (sampleYamux 16) (polls 9)).state.session, s.active.length = 1 ∧ ¬ AtLimit s := by
    decide +kernel
  obtain ⟨s, hs, hactive, hlimit⟩ := hsome
  have hest := TunnelState.established_of_session hs
  exact ⟨s, hest, hactive, (stream_limit_scoped_iff rfl openedFlow {} (polls 9) _ rfl s hest).mpr hlimit⟩

/-- With one flow of the one it may have active, the session fails without a further OPEN. -/
theorem full_server_unscoped : ∃ s, (serverRun (sampleYamux 2) (polls 9)).state = .established s ∧
    s.active.length = 2 - 1 ∧
    ¬ LimitScoped { sampleBinding .server with yamux := sampleYamux 2 }
      ⟨(serverRun (sampleYamux 2) (polls 9)).host, s⟩ := by
  have hsome : ∃ s ∈ (serverRun (sampleYamux 2) (polls 9)).state.session, s.active.length = 2 - 1 ∧
      (Live.poll { sampleBinding .server with yamux := sampleYamux 2 }
        ⟨(serverRun (sampleYamux 2) (polls 9)).host, s⟩).1 = .error (.mux .streamLimit) := by
    decide +kernel
  obtain ⟨s, hs, hactive, hpoll⟩ := hsome
  exact ⟨s, TunnelState.established_of_session hs, hactive, fun h => h.mild hpoll⟩

end Snolc.Engine
