import Snolc.EngineClientFlows
import Snolc.MuxUserStreams

set_option autoImplicit false

namespace Snolc.Engine
open PollIo MuxFrame Mux AsyncTask WireFormat CoreIo

namespace EstablishedSession
variable {T : Type}

def flows (s : EstablishedSession T) : ℕ :=
  s.active.length + s.openings.length + s.pending.toList.length

def reserved (s : EstablishedSession T) : ℕ := s.accepting.elim 0 fun a => a.1.started.toNat

def userStreams (s : EstablishedSession T) : Option ℕ :=
  (s.mux.or ((s.accepting.map Prod.snd).or (s.responding.map fun r => r.2.2))).map MuxSession.userStreams

/-- Where the mux is: only a server lends it. -/
inductive Lends (s : EstablishedSession T) (mux : MuxSession T) : Prop where
  | home : s.mux = some mux → s.accepting = none → s.responding = none → Lends s mux
  | accepting (stage : AcceptFlow) : mux.role = .server → s.mux = none → s.accepting = some (stage, mux) →
    s.responding = none → s.pending = none → stage.Calm → Lends s mux
  | responding (stage : RespondFlow) (stream : MuxStream) : mux.role = .server → s.mux = none →
    s.accepting = none → s.responding = some (stage, stream, mux) → s.pending.isSome → stage.Calm → Lends s mux

/-- The mux is set up for the role and counts the flows, and `drift` more. -/
structure Counted (b : TunnelBinding) (drift : ℕ) (s : EstablishedSession T) (mux : MuxSession T) : Prop where
  lends : s.Lends mux
  role : mux.role = b.role
  policy : mux.policyOpen = true
  count : mux.userStreams = s.flows + s.reserved + drift

@[simp] theorem touch_flows (s : EstablishedSession T) (f : Connection T → Connection T) :
    (s.touch f).flows = s.flows := rfl

@[simp] theorem touch_reserved (s : EstablishedSession T) (f : Connection T → Connection T) :
    (s.touch f).reserved = s.reserved := by
  unfold reserved EstablishedSession.touch
  cases s.accepting <;> rfl

theorem Lends.userStreams {s : EstablishedSession T} {mux : MuxSession T} (h : s.Lends mux) :
    s.userStreams = some mux.userStreams := by
  cases h with
  | home hm ha hr => simp [EstablishedSession.userStreams, hm]
  | accepting stage hs hm ha hr hp hc => simp [EstablishedSession.userStreams, hm, ha]
  | responding stage stream hs hm ha hr hp hc => simp [EstablishedSession.userStreams, hm, ha, hr]

theorem Counted.touch {b : TunnelBinding} {drift : ℕ} {s : EstablishedSession T} {mux : MuxSession T}
    (h : s.Counted b drift mux) (f : Connection T → Connection T) :
    (s.touch f).Counted b drift (mux.withConnection (f mux.connection)) := by
  refine ⟨?_, h.role, h.policy, by rw [touch_flows, touch_reserved]; exact h.count⟩
  cases h.lends with
  | home hm ha hr =>
    refine .home ?_ ?_ ?_ <;> simp [EstablishedSession.touch, hm, ha, hr]
  | accepting stage hs hm ha hr hp hc =>
    refine .accepting stage hs ?_ ?_ ?_ hp hc <;> simp [EstablishedSession.touch, hm, ha, hr]
  | responding stage stream hs hm ha hr hp hc =>
    refine .responding stage stream hs ?_ ?_ ?_ hp hc <;> simp [EstablishedSession.touch, hm, ha, hr]

end EstablishedSession

section Home
variable {W T : Type} {b : TunnelBinding} {drift : ℕ} {kept : List ActiveServerFlow}

structure AtHome (b : TunnelBinding) (drift : ℕ) (kept : List ActiveServerFlow) (s : EstablishedSession T)
    (mux : MuxSession T) : Prop where
  here : s.mux = some mux
  accepting : s.accepting = none
  responding : s.responding = none
  role : mux.role = b.role
  policy : mux.policyOpen = true
  count : mux.userStreams = s.flows + drift
  active : kept ⊆ s.active

def Tended (b : TunnelBinding) (drift : ℕ) (kept : List ActiveServerFlow) (l : Live W T) : Prop :=
  ∃ mux, AtHome b drift kept l.session mux

variable {l l' : Live W T}

theorem AtHome.counted {s : EstablishedSession T} {mux : MuxSession T} (h : AtHome b drift kept s mux) :
    s.Counted b drift mux := by
  refine ⟨.home h.here h.accepting h.responding, h.role, h.policy, ?_⟩
  rw [h.count, EstablishedSession.reserved, h.accepting]
  rfl

theorem Tended.around (h : Tended b drift kept l) (ha : Around l l') : Tended b drift kept l' := by
  obtain ⟨mux, h⟩ := h
  obtain ⟨f, hs⟩ := ha.session
  refine ⟨mux.withConnection (f mux.connection), ?_, ?_, ?_, h.role, h.policy, ?_, ?_⟩ <;> rw [hs]
  · simp [EstablishedSession.touch, h.here]
  · simp [EstablishedSession.touch, h.accepting]
  · simp [EstablishedSession.touch, h.responding]
  · exact h.count
  · exact h.active

theorem Tended.change {drift' : ℕ} (h : Tended b drift kept l) (hm : l'.session.mux = l.session.mux)
    (ha : l'.session.accepting = l.session.accepting) (hr : l'.session.responding = l.session.responding)
    (hc : l'.session.flows + drift' = l.session.flows + drift) (hk : l.session.active ⊆ l'.session.active) :
    Tended b drift' kept l' := by
  obtain ⟨mux, h⟩ := h
  exact ⟨mux, hm.trans h.here, ha.trans h.accepting, hr.trans h.responding, h.role, h.policy, h.count.trans hc.symm,
    List.Subset.trans h.active hk⟩

theorem Tended.setPending (h : Tended b drift kept l) (hp : l.session.pending.isSome) (pending : PendingServerFlow) :
    Tended b drift kept (l.setPending (some pending)) := by
  obtain ⟨old, hold⟩ := Option.isSome_iff_exists.mp hp
  refine h.change rfl rfl rfl ?_ (List.Subset.refl _)
  simp [EstablishedSession.flows, Live.setPending, Live.modify, hold]

theorem Tended.takePending (h : Tended b drift kept l) {pending : PendingServerFlow}
    (hp : l.session.pending = some pending) : Tended b (drift + 1) kept (l.setPending none) := by
  refine h.change rfl rfl rfl ?_ (List.Subset.refl _)
  simp only [EstablishedSession.flows, Live.setPending, Live.modify, hp, Option.toList_none, Option.toList_some,
    List.length_nil, List.length_singleton]
  omega

theorem Tended.activate (h : Tended b (drift + 1) kept l) (flow : ActiveServerFlow) :
    Tended b drift kept (l.activate flow) := by
  refine h.change rfl rfl rfl ?_ (List.subset_append_left _ _)
  simp only [EstablishedSession.flows, Live.activate, Live.modify, List.length_append, List.length_singleton]
  omega

theorem Tended.setClientPending (h : Tended b drift kept l) (pending : Option PendingClientFlow) :
    Tended b drift kept (l.setClientPending pending) :=
  h.change rfl rfl rfl rfl (List.Subset.refl _)

theorem Tended.takeFlow (h : Tended b drift kept l) (pending : PendingClientFlow) :
    Tended b drift kept (l.takeFlow pending) :=
  h.change rfl rfl rfl rfl (List.Subset.refl _)

theorem Tended.release (h : Tended b (drift + 1) kept l) :
    Tended b drift kept (l.modify EstablishedSession.release) := by
  obtain ⟨mux, h⟩ := h
  refine ⟨mux.releaseFlow, ?_, h.accepting, h.responding, h.role, h.policy, ?_, h.active⟩
  · simp [Live.modify, EstablishedSession.release, h.here]
  · change mux.userStreams - 1 = l.session.flows + drift
    rw [h.count]
    omega

theorem Tended.call [Modules W T] (h : Tended b drift kept l) (c : ModuleCall) :
    Tended b drift kept (l.call c).2 := by
  obtain ⟨mux, h⟩ := h
  exact Tended.around (l := ⟨(l.call c).2.host, l.session⟩) ⟨mux, h⟩
    ⟨⟨[], (List.append_nil _).symm, by simp⟩, l.call_session c⟩

end Home

/-- The limit on the streams is not what the reply fails for. -/
def Mild {W T α : Type} (r : Reply W T α) : Prop := r.1 ≠ .error (.mux .streamLimit)

section Mildness
variable {W T α : Type} {l : Live W T}

theorem mild_ok (a : α) (l : Live W T) : Mild ((.ok a, l) : Reply W T α) := by
  intro h
  cases h

theorem mild_error {e : SessionFlowError} (he : e ≠ .mux .streamLimit) (l : Live W T) :
    Mild ((.error e, l) : Reply W T α) := by
  intro h
  cases h
  exact he rfl

theorem registering_mild {table : Table} {limit : ℕ} {next : Handle → Live W T → Reply W T α}
    (h : ∀ handle l, Mild (next handle l)) : Mild (l.registering table limit next) := by
  unfold Live.registering
  split
  · exact mild_error (by simp) _
  · rename_i handle registry _
    have hn := h handle (l.withRegistry registry)
    split <;> rename_i heq <;> rw [heq] at hn
    · exact mild_ok _ _
    · exact hn

theorem attempt_mild {r : Except LoadError Unit × Live W T} {next : Live W T → Reply W T α}
    (h : ∀ l, Mild (next l)) : Mild (Live.attempt r next) := by
  unfold Live.attempt
  split
  · exact h _
  · exact mild_error (by simp) _

theorem attachPorts_mild [Modules W T] (b : TunnelBinding) (l : Live W T) (adapter : ℕ) (flow : UInt64)
    (ports : PendingPorts) : Mild (Live.attachPorts b l adapter flow ports) := by
  cases ports with
  | direct => exact registering_mild fun _ _ => attempt_mild fun _ => mild_ok _ _
  | tcp | udp =>
    exact registering_mild fun _ _ => registering_mild fun _ _ => registering_mild fun _ _ =>
      attempt_mild fun _ => attempt_mild fun _ => mild_ok _ _

end Mildness

section Balance
variable {W T : Type} {b : TunnelBinding} {drift : ℕ} {kept : List ActiveServerFlow}

/-- A poll that returns keeps the count and the flows of `kept`; on a server it does not fail
    for the limit. -/
structure Balances (b : TunnelBinding) (drift : ℕ) (kept : List ActiveServerFlow) (r : Reply W T Unit) : Prop where
  counted : r.1 = .ok () → ∃ mux, r.2.session.Counted b drift mux
  active : r.1 = .ok () → kept ⊆ r.2.session.active
  mild : b.role = .server → Mild r

variable {l : Live W T}

theorem Tended.balances (h : Tended b drift kept l) : Balances b drift kept (.ok (), l) := by
  obtain ⟨mux, h⟩ := h
  exact ⟨fun _ => ⟨mux, h.counted⟩, fun _ => h.active, fun _ => mild_ok _ _⟩

theorem balances_error {e : SessionFlowError} (he : b.role = .server → e ≠ .mux .streamLimit) (l : Live W T) :
    Balances b drift kept (.error e, l) :=
  ⟨by simp, by simp, fun hb => mild_error (he hb) l⟩

theorem attempt_balances {r : Except LoadError Unit × Live W T} {next : Live W T → Reply W T Unit}
    (h : Balances b drift kept (next r.2)) : Balances b drift kept (Live.attempt r next) := by
  unfold Live.attempt
  split
  · exact h
  · exact balances_error (by simp) _

section Server
variable (hb : b.role = .server)
include hb

theorem startResponse_balances (h : Tended b drift kept l) (status : OpenStatus) (reason : String) :
    Balances b drift kept (l.startResponse status reason) := by
  obtain ⟨mux, h⟩ := h
  unfold Live.startResponse
  split
  · exact balances_error (by simp) _
  · rename_i pending hp
    dsimp only
    split
    · exact balances_error (by simp) _
    · rename_i stream _
      rw [h.here]
      refine ⟨fun _ => ⟨mux, .responding _ stream (h.role.trans hb) rfl h.accepting rfl rfl trivial, h.role,
        h.policy, ?_⟩, fun _ => h.active, fun _ => mild_ok _ _⟩
      rw [h.count]
      simp [EstablishedSession.flows, EstablishedSession.reserved, Live.modify, hp, h.accepting]

variable [Modules W T]

omit hb in
theorem attachPending_balances (h : Tended b drift kept l) : Balances b drift kept (Live.attachPending b l) := by
  unfold Live.attachPending
  split
  · exact balances_error (by simp) _
  · rename_i pending hp
    dsimp only
    split
    · rename_i adapter flow ports _ _ _ _
      have hports := (h.takePending hp).around (Live.attachPorts_around b adapter flow ports (Around.refl _))
      have hmild := attachPorts_mild b (l.setPending none) adapter flow ports
      split <;> rename_i heq <;> rw [heq] at hports hmild
      · exact balances_error (fun _ he => hmild (by rw [he])) _
      · exact attempt_balances ((hports.call _).activate _).balances
    · exact balances_error (by simp) _

omit hb in
theorem rejectPending_tended (h : Tended b drift kept l) (hp : l.session.pending.isSome) :
    Tended b drift kept l.rejectPending := by
  obtain ⟨pending, hp⟩ := Option.isSome_iff_exists.mp hp
  have hnone := h.takePending hp
  unfold Live.rejectPending
  rw [hp]
  dsimp only
  refine Tended.around ?_ (Live.dropStream_around _ _)
  split
  · exact (hnone.call _).release
  · exact hnone.release

omit hb in
theorem Tended.call_pending (h : Tended b drift kept l) (hp : l.session.pending.isSome) (c : ModuleCall) :
    Tended b drift kept (l.call c).2 ∧ (l.call c).2.session.pending.isSome :=
  ⟨h.call c, hp⟩

theorem pendingOpen_balances (h : Tended b drift kept l) (hp : l.session.pending.isSome)
    (pending : PendingServerFlow) (adapter : ℕ) : Balances b drift kept (Live.pendingOpen b l pending adapter) := by
  have hcall := h.call_pending hp (.adapterOpen adapter pending.operation pending.metadata)
  unfold Live.pendingOpen
  split <;> rename_i heq <;> rw [heq] at hcall <;> obtain ⟨hl, hp⟩ := hcall
  · rename_i flow l₁
    dsimp only
    have hports := Live.openPorts_around b pending.request
      (Around.refl (l₁.setPending (some { pending with adapterFlow := some (adapter, flow) })))
    have hopen := (hl.setPending hp { pending with adapterFlow := some (adapter, flow) }).around hports
    have hpending := hports.pending
    split <;> rename_i heq <;> rw [heq] at hopen hpending
    · exact startResponse_balances hb (hopen.setPending (by rw [hpending]; rfl) _) _ _
    · exact startResponse_balances hb hopen _ _
  · split
    · exact (hl.setPending hp _).balances
    · exact startResponse_balances hb hl _ _
  · exact hl.balances

theorem advance_balances (h : Tended b drift kept l) (hp : l.session.pending.isSome) (adapter : ℕ)
    (addresses : List IpAddr) (pending : PendingServerFlow) :
    Balances b drift kept (Live.pendingAdmitResolved.advance b adapter addresses l pending) := by
  unfold Live.pendingAdmitResolved.advance
  split
  · exact pendingOpen_balances hb (h.setPending hp _) rfl _ _
  · exact (h.setPending hp _).balances

theorem pendingAdmitResolved_balances (h : Tended b drift kept l) (hp : l.session.pending.isSome)
    (pending : PendingServerFlow) (adapter : ℕ) (addresses : List IpAddr) :
    Balances b drift kept (Live.pendingAdmitResolved b l pending adapter addresses) := by
  unfold Live.pendingAdmitResolved
  split
  · exact advance_balances hb h hp _ _ _
  · rename_i address _
    have hcall := h.call_pending hp
      (.policyAdmitResolved b.policy l.session.policySession (pending.metadata.resolved address))
    split <;> rename_i heq <;> rw [heq] at hcall <;> obtain ⟨hl, hp⟩ := hcall
    · exact advance_balances hb hl hp _ _ _
    · exact startResponse_balances hb hl _ _
    · exact hl.balances

theorem pendingResolve_balances (h : Tended b drift kept l) (hp : l.session.pending.isSome)
    (pending : PendingServerFlow) (adapter : ℕ) :
    Balances b drift kept (Live.pendingResolve b l pending adapter) := by
  unfold Live.pendingResolve
  split
  · exact pendingOpen_balances hb h hp _ _
  · split
    · exact pendingAdmitResolved_balances hb h hp _ _ _
    · have hcall := h.call_pending hp (.adapterResolve adapter pending.operation pending.metadata)
      split <;> rename_i heq <;> rw [heq] at hcall <;> obtain ⟨hl, hp⟩ := hcall
      · exact pendingAdmitResolved_balances hb (hl.setPending hp _) rfl _ _ _
      · exact pendingOpen_balances hb (hl.setPending hp _) rfl _ _
      · exact startResponse_balances hb hl _ _
      · exact hl.balances

theorem pendingAdapter_balances (h : Tended b drift kept l) (hp : l.session.pending.isSome)
    (pending : PendingServerFlow) : Balances b drift kept (Live.pendingAdapter b l pending) := by
  unfold Live.pendingAdapter
  split
  · exact startResponse_balances hb h _ _
  · exact pendingResolve_balances hb h hp _ _

theorem pollPending_balances (h : Tended b drift kept l) : Balances b drift kept (Live.pollPending b l) := by
  unfold Live.pollPending
  split
  · exact balances_error (by simp) _
  · rename_i pending hp
    have hsome : l.session.pending.isSome := by rw [hp]; rfl
    split
    · exact attachPending_balances h
    · split
      · exact pendingAdapter_balances hb h hsome _
      · have hcall := h.call_pending hsome (.policyAdmitFlow b.policy l.session.policySession pending.metadata)
        split <;> rename_i heq <;> rw [heq] at hcall <;> obtain ⟨hl, hp⟩ := hcall
        · exact pendingAdapter_balances hb (hl.setPending hp _) rfl _
        · exact startResponse_balances hb hl _ _
        · exact hl.balances

variable [AsyncIo T]

theorem pollResponding_balances {stage : RespondFlow} {stream : MuxStream} {mux : MuxSession T}
    (hr : l.session.responding = some (stage, stream, mux)) (h : l.session.Counted b drift mux)
    (hk : kept ⊆ l.session.active) : Balances b drift kept (Live.pollResponding b l stage stream mux) := by
  cases h.lends with
  | home hm ha hnone => simp [hr] at hnone
  | accepting stage hs hm ha hnone hp hc => simp [hr] at hnone
  | responding stage' stream' hs hm ha hsome hp hc =>
    cases hr.symm.trans hsome
    have hpoll := RespondFlow.poll_advanced stream mux hc
    have hcount := hpoll.count.trans h.count
    unfold Live.pollResponding
    split <;> rename_i heq <;> rw [heq] at hpoll hcount
    · exact ⟨fun _ => ⟨_, .responding _ stream (hpoll.terms.role.trans hs) hm ha rfl hp (hpoll.waiting _ rfl),
        hpoll.terms.role.trans h.role, hpoll.terms.policyOpen.trans h.policy, hcount⟩, fun _ => hk,
        fun _ => mild_ok _ _⟩
    · rename_i result mux'
      have hhome : Tended b drift kept (l.modify fun s => { s with responding := none, mux := some mux' }) := by
        refine ⟨mux', rfl, ha, rfl, hpoll.terms.role.trans h.role, hpoll.terms.policyOpen.trans h.policy, ?_, hk⟩
        rw [EstablishedSession.reserved, ha] at hcount
        exact hcount
      dsimp only
      split
      · refine balances_error (fun _ he => hpoll.unlimited ?_) _
        cases he
        rfl
      · split
        · exact balances_error (by simp) _
        · have hsent := hhome.setPending hp
          split
          · exact pollPending_balances hb (hsent _)
          · exact (rejectPending_tended (hsent _) rfl).balances

theorem accepted_balances {mux : MuxSession T} {r : Progress AcceptFlow (OpenRequest × MuxStream) × MuxSession T}
    {stage : AcceptFlow} (hpoll : stage.poll mux = r) {before : MuxSession T} (hadv : AcceptFlow.Advanced before r)
    (hrole : before.role = b.role) (hpolicy : before.policyOpen = true)
    (hcount : before.userStreams = l.session.flows + 1 + drift) (hm : l.session.mux = none)
    (hr : l.session.responding = none) (hp : l.session.pending = none) (hk : kept ⊆ l.session.active) :
    Balances b drift kept (Live.pollAccepting b l stage mux) := by
  unfold Live.pollAccepting
  rw [hpoll]
  obtain ⟨progress, mux'⟩ := r
  have hrole' := hadv.terms.role.trans hrole
  have hpolicy' := hadv.terms.policyOpen.trans hpolicy
  cases progress with
  | waiting stage' =>
    obtain ⟨hstarted, hcalm, hsame⟩ := hadv.waiting stage' rfl
    refine ⟨fun _ => ⟨mux', .accepting stage' (hrole'.trans hb) hm rfl hr hp hcalm, hrole', hpolicy', ?_⟩, fun _ => hk,
      fun _ => mild_ok _ _⟩
    rw [hsame, hcount]
    simp [EstablishedSession.flows, EstablishedSession.reserved, Live.modify, hstarted]
  | finished result =>
    cases result with
    | error e =>
      refine balances_error (fun _ he => hadv.unlimited ?_) _
      cases he
      rfl
    | ok flow =>
      have hsame := (hadv.finished flow rfl).trans hcount
      dsimp only
      split
      · exact balances_error (by simp) _
      · refine pollPending_balances hb ⟨mux', rfl, rfl, hr, hrole', hpolicy', ?_, hk⟩
        rw [hsame]
        simp [EstablishedSession.flows, Live.setPending, Live.modify, hp]

def AtLimit (s : EstablishedSession T) : Prop :=
  s.responding.isNone ∧ s.pending.isNone ∧
    ∃ a ∈ s.accepting, a.1.started = false ∧ a.2.maxUserStreams ≤ a.2.userStreams

instance (s : EstablishedSession T) : Decidable (AtLimit s) :=
  inferInstanceAs (Decidable (s.responding.isNone ∧ s.pending.isNone ∧
    ∃ a ∈ s.accepting, a.1.started = false ∧ a.2.maxUserStreams ≤ a.2.userStreams))

theorem pollServer_balances {mux : MuxSession T} (h : l.session.Counted b drift mux)
    (hk : kept ⊆ l.session.active) (hlimit : ¬ AtLimit l.session) :
    Balances b drift kept (Live.pollServer b l) := by
  have hcount := h.count
  rw [EstablishedSession.reserved] at hcount
  unfold Live.pollServer
  cases h.lends with
  | home hm ha hr =>
    rw [ha] at hcount
    rw [hr, ha, hm]
    dsimp only
    split
    · exact pollPending_balances hb ⟨mux, hm, ha, hr, h.role, h.policy, hcount, hk⟩
    · rename_i hp
      have hnone : l.session.pending = none := by simpa using hp
      exact ⟨fun _ => ⟨mux, .accepting .start (h.role.trans hb) rfl rfl hr hnone trivial, h.role, h.policy, hcount⟩,
        fun _ => hk, fun _ => mild_ok _ _⟩
  | accepting stage hs hm ha hr hp hc =>
    rw [ha] at hcount
    rw [hr, ha, hp]
    rw [if_neg (by simp)]
    cases hstarted : stage.started with
    | true =>
      rw [Option.elim_some, hstarted] at hcount
      exact accepted_balances hb rfl (AcceptFlow.poll_started mux hstarted hc) h.role h.policy hcount hm hr hp hk
    | false =>
      rw [Option.elim_some, hstarted] at hcount
      cases stage with
      | start =>
        rcases AcceptFlow.poll_start (h.role.trans hb) h.policy with ⟨hfull, -⟩ | ⟨-, hadv⟩
        · exact absurd ⟨by rw [hr]; rfl, by rw [hp]; rfl, (.start, mux), ha, rfl, hfull⟩ hlimit
        · refine accepted_balances hb rfl hadv h.role h.policy ?_ hm hr hp hk
          change mux.userStreams + 1 = _
          rw [hcount]
          simp only [Bool.toNat_false]
          omega
      | accepting => simp [AcceptFlow.started] at hstarted
      | reading id task => simp [AcceptFlow.started] at hstarted
  | responding stage stream hs hm ha hr hp hc =>
    rw [hr]
    exact pollResponding_balances hb hr h hk

theorem pollServer_atLimit {mux : MuxSession T} (h : l.session.Counted b drift mux)
    (hlimit : AtLimit l.session) : (Live.pollServer b l).1 = .error (.mux .streamLimit) := by
  obtain ⟨hr, hp, ⟨stage, mux'⟩, ha, hstarted, hfull⟩ := hlimit
  rw [Option.isNone_iff_eq_none] at hr hp
  rw [Option.mem_def] at ha
  have hmux : mux' = mux := by
    cases h.lends with
    | home _ hnone _ => simp [ha] at hnone
    | accepting stage _ _ hsome _ _ _ =>
      cases ha.symm.trans hsome
      rfl
    | responding _ _ _ _ hnone _ _ _ => simp [ha] at hnone
  subst hmux
  have hstart : stage = .start := by
    cases stage with
    | start => rfl
    | accepting => cases hstarted
    | reading id task => cases hstarted
  subst hstart
  have hpoll : AcceptFlow.start.poll mux' = (.finished (.error .streamLimit), mux') := by
    rcases AcceptFlow.poll_start (h.role.trans hb) h.policy with ⟨-, heq⟩ | ⟨hroom, -⟩
    · exact heq
    · exact absurd hfull (Nat.not_le.mpr hroom)
  unfold Live.pollServer
  rw [hr, hp, ha, if_neg (by simp)]
  dsimp only
  unfold Live.pollAccepting
  rw [hpoll]

end Server

variable [Modules W T] [AsyncIo T]

omit [AsyncIo T] in
theorem acceptPacketTcp_tended (h : Tended b drift kept l) : Tended b drift kept (Live.acceptPacketTcp b l).2 := by
  have hcall := h.call .stackAcceptPacketTcp
  unfold Live.acceptPacketTcp
  split
  · split <;> rename_i heq <;> rw [heq] at hcall
    · exact hcall.takeFlow _
    · exact hcall
    · exact hcall
  · exact h

omit [AsyncIo T] in
theorem acceptPacketUdp_tended (h : Tended b drift kept l) : Tended b drift kept (Live.acceptPacketUdp b l).2 := by
  have hcall := h.call .stackAcceptPacketUdp
  unfold Live.acceptPacketUdp
  split
  · split <;> rename_i heq <;> rw [heq] at hcall
    · exact hcall.takeFlow _
    · exact hcall
    · exact hcall
  · exact h

omit [AsyncIo T] in
theorem acceptAdapter_tended (adapters : List ℕ) (h : Tended b drift kept l) :
    Tended b drift kept (l.acceptAdapter adapters).2 := by
  induction adapters generalizing l with
  | nil => exact h
  | cons adapter rest ih =>
    have hcall := h.call (.adapterAccept adapter)
    unfold Live.acceptAdapter
    split <;> rename_i heq <;> rw [heq] at hcall
    · exact hcall.takeFlow _
    · split
      · exact ih hcall
      · exact hcall
    · exact ih hcall

omit [AsyncIo T] in
theorem acceptClient_tended (h : Tended b drift kept l) : Tended b drift kept (Live.acceptClient b l).2 := by
  have htcp := acceptPacketTcp_tended h
  unfold Live.acceptClient
  split <;> rename_i heq <;> rw [heq] at htcp
  · exact htcp
  · have hudp := acceptPacketUdp_tended htcp
    split <;> rename_i heq <;> rw [heq] at hudp
    · exact hudp
    · split
      · exact acceptAdapter_tended _ hudp
      · exact hudp

section Client
variable (hb : b.role = .client)
include hb

omit [Modules W T] [AsyncIo T] in
theorem client_error (e : SessionFlowError) (l : Live W T) : Balances b drift kept (.error e, l) :=
  balances_error (fun hs => by simp [hb] at hs) l

omit [Modules W T] [AsyncIo T] in
theorem beginOpening_balances (h : Tended b drift kept l) (pending : PendingClientFlow) :
    Balances b drift kept (l.beginOpening pending) := by
  obtain ⟨mux, h⟩ := h
  have hbooks := mux.beginOpenFlowConfirmed_books pending.request
  have hmux : (l.setClientPending none).session.mux = some mux := h.here
  unfold Live.beginOpening
  dsimp only
  rw [hmux]
  dsimp only
  split <;> rename_i heq <;> rw [heq] at hbooks
  · exact client_error hb _ _
  · rename_i stream task mux'
    refine Tended.balances ⟨mux', rfl, h.accepting, h.responding, hbooks.1.role.trans h.role,
      hbooks.1.policyOpen.trans h.policy, ?_, h.active⟩
    rw [hbooks.2 _ rfl, h.count]
    simp only [EstablishedSession.flows, Live.note, Live.setClientPending, Live.modify, List.length_append,
      List.length_singleton]
    omega

omit [AsyncIo T] in
theorem openClient_balances (h : Tended b drift kept l) (pending : PendingClientFlow) :
    Balances b drift kept (Live.openClient b l pending) := by
  unfold Live.openClient
  split
  · exact beginOpening_balances hb h _
  · have hport := h.around (Live.clientPort_around b pending (Around.refl l))
    split <;> rename_i heq <;> rw [heq] at hport
    · exact client_error hb _ _
    · exact beginOpening_balances hb hport _

theorem admitClient_balances (h : Tended b drift kept l) : Balances b drift kept (Live.admitClient b l) := by
  unfold Live.admitClient
  split
  · obtain ⟨mux, h⟩ := h
    have hbooks := mux.pollDrive_books
    have htended (mux' : MuxSession T) (hm : SameTerms mux mux' ∧ mux'.userStreams = mux.userStreams) :
        Tended b drift kept (l.modify fun s => { s with mux := some mux' }) :=
      ⟨mux', rfl, h.accepting, h.responding, hm.1.role.trans h.role, hm.1.policyOpen.trans h.policy,
        hm.2.trans h.count, h.active⟩
    rw [h.here]
    dsimp only
    split <;> rename_i heq <;> rw [heq] at hbooks
    · exact client_error hb _ _
    · exact (htended _ hbooks).balances
  · rename_i pending _
    split
    · exact openClient_balances hb h _
    · have hcall := h.call (.policyAdmitFlow b.policy l.session.policySession pending.metadata)
      split <;> rename_i heq <;> rw [heq] at hcall
      · exact openClient_balances hb (hcall.setClientPending _) _
      · refine attempt_balances (Tended.balances (Tended.setClientPending ?_ _))
        exact hcall.around (Live.completeFlow_around pending _ _ (Around.refl _))
      · exact hcall.balances

omit [AsyncIo T] in
theorem finishOpening_balances (h : Tended b (drift + 1) kept l) (opening : ClientOpening)
    (result : Except MuxError OpenResponse) : Balances b drift kept (Live.finishOpening b l opening result) := by
  cases result with
  | error e => exact client_error hb _ _
  | ok response =>
    rw [Live.finishOpening]
    split
    · split
      · exact client_error hb _ _
      · rename_i port _
        have hports := h.around (Live.attachOpened_around b opening.pending port (Around.refl l))
        split <;> rename_i heq <;> rw [heq] at hports
        · exact client_error hb _ _
        · refine attempt_balances (Tended.balances (Tended.activate ?_ _))
          exact hports.around (Live.completeFlow_around opening.pending _ _ (Around.refl _))
    · refine attempt_balances (Tended.balances (Tended.around ?_ (Live.dropStream_around _ _)))
      exact (h.around (Live.completeFlow_around opening.pending _ _ (Around.refl l))).release

theorem nextFlow_balances (h : Tended b drift kept l) : Balances b drift kept (match Live.acceptClient b l with
    | (.error e, l) => (.error e, l)
    | (.ok (), l) => Live.admitClient b l) := by
  have haccept := acceptClient_tended h
  split <;> rename_i heq <;> rw [heq] at haccept
  · exact client_error hb _ _
  · exact admitClient_balances hb haccept

theorem pollClient_balances (h : Tended b drift kept l) : Balances b drift kept (Live.pollClient b l) := by
  obtain ⟨mux, h⟩ := h
  have hpending := pollOpenings_pending mux.connection l.session.openings
  have hfound := pollOpenings_found mux.connection l.session.openings
  unfold Live.pollClient
  rw [h.here]
  dsimp only
  generalize Live.pollOpenings mux.connection l.session.openings = polled at hpending hfound ⊢
  obtain ⟨found, openings, c⟩ := polled
  dsimp only at hpending hfound ⊢
  have hlength : openings.length = l.session.openings.length := by
    simpa using congrArg List.length hpending
  have hpolled : Tended b drift kept (l.modify fun s => { s with mux := some (mux.withConnection c), openings }) := by
    refine ⟨mux.withConnection c, rfl, h.accepting, h.responding, h.role, h.policy, ?_, h.active⟩
    change mux.userStreams = l.session.active.length + openings.length + _ + drift
    rw [hlength]
    exact h.count
  split
  · rename_i index opening result
    have hshort : (Live.swapRemove openings index).length + 1 = openings.length := by
      simpa using (swapRemove_pending hpending (hfound index opening result rfl)).length_eq
    have hremoved : Tended b (drift + 1) kept
        ((l.modify fun s => { s with mux := some (mux.withConnection c), openings }).modify
          fun s => { s with openings := Live.swapRemove s.openings index }) := by
      refine hpolled.change rfl rfl rfl ?_ (List.Subset.refl _)
      simp only [EstablishedSession.flows, Live.modify]
      omega
    exact finishOpening_balances hb hremoved opening result
  · exact nextFlow_balances hb hpolled

end Client
end Balance
end Snolc.Engine
