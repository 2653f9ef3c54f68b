import Snolc.EngineAdmission
import Snolc.EngineFlowScope
import Snolc.EngineSpares

set_option autoImplicit false

namespace Snolc.Engine
open PollIo MuxFrame Mux AsyncTask WireFormat CoreIo GuardedRuns ScriptedIo
open scoped List

def TunnelState.waiting {T : Type} : TunnelState T → List (ℕ × UInt64)
  | .established session => session.waiting
  | _ => []

inductive EngineEvent (T : Type) where
  | tunnel (event : TunnelEvent T)
  | networkChanged

namespace Tunnel
variable {W T : Type} [Modules W T]

def react [AsyncIo T] (b : TunnelBinding) (t : Tunnel W T) : EngineEvent T → Tunnel W T
  | .tunnel event => t.step b event
  | .networkChanged => t.reset b

/-- Every flow handed over so far has been answered once or still waits. -/
def Answered (t : Tunnel W T) : Prop :=
  t.host.trace.filterMap Occurrence.answered ++ t.state.waiting ~ t.host.trace.filterMap Occurrence.taken

/-- A session that ends leaves no flow behind. -/
def LeavesNone [AsyncIo T] (b : TunnelBinding) (t : Tunnel W T) : EngineEvent T → Prop
  | .tunnel .poll => ∀ s, t.state = .established s → Live.spares b ⟨t.host, s⟩
  | .tunnel (.disturb _) => True
  | .networkChanged => t.state.waiting = []

def Settled (t : Tunnel W T) : Prop := ∀ s, t.state = .established s → t.deadline = none

omit [Modules W T] in
theorem touch_waiting (state : TunnelState T) (f : Connection T → Connection T) :
    (state.touch f).waiting = state.waiting := by
  cases state <;> rfl

structure Idle (t t' : Tunnel W T) : Prop where
  taken : t'.host.trace.filterMap Occurrence.taken = t.host.trace.filterMap Occurrence.taken
  answered : t'.host.trace.filterMap Occurrence.answered = t.host.trace.filterMap Occurrence.answered
  waiting : t'.state.waiting = []
  settled : Settled t'

variable {b : TunnelBinding} {t t' t'' : Tunnel W T}

omit [Modules W T] in
theorem Idle.state (h : Idle t t') (ht : t''.host.trace = t'.host.trace) (hw : t''.state.waiting = [])
    (hs : Settled t'') : Idle t t'' :=
  ⟨by rw [ht, h.taken], by rw [ht, h.answered], hw, hs⟩

theorem call_settled (hs : Settled t) (c : ModuleCall) : Settled (t.call c).2 := by
  intro s h
  obtain ⟨s₀, hs₀, -⟩ := established_of_touch h
  exact hs s₀ hs₀

theorem Idle.call (h : Idle t t') {c : ModuleCall}
    (hc : ∀ answer : c.Answer T, (Occurrence.call c answer).taken = none ∧ (Occurrence.call c answer).answered = none) :
    Idle t (t'.call c).2 := by
  have htrace : (t'.call c).2.host.trace = t'.host.trace ++ [.call c (t'.call c).1] := rfl
  have hw : (t'.call c).2.state.waiting = t'.state.waiting := touch_waiting _ _
  refine ⟨?_, ?_, hw.trans h.waiting, call_settled h.settled c⟩
  · rw [htrace, List.filterMap_append, List.filterMap_cons_none (hc _).1, List.filterMap_nil, List.append_nil, h.taken]
  · rw [htrace, List.filterMap_append, List.filterMap_cons_none (hc _).2, List.filterMap_nil, List.append_nil,
      h.answered]

theorem reset_idle (b : TunnelBinding) (t : Tunnel W T) : Idle t (t.reset b) := by
  have hbase : Idle t ({ t with
      host := { t.host with
        registry := t.state.held.elim t.host.registry fun handle => t.host.registry.remove handle .streams }.note .reset
      state := .carrier, retryAt := none } : Tunnel W T) := by
    refine ⟨?_, ?_, rfl, fun s h => by cases h⟩
    · change (t.host.trace ++ [Occurrence.reset]).filterMap _ = _
      rw [List.filterMap_append]
      exact List.append_nil _
    · change (t.host.trace ++ [Occurrence.reset]).filterMap _ = _
      rw [List.filterMap_append]
      exact List.append_nil _
  unfold Tunnel.reset
  dsimp only
  split
  · have hcall := hbase.call (c := .instantNow) fun _ => ⟨rfl, rfl⟩
    exact hcall.state rfl hcall.waiting fun s h => by cases h
  · exact hbase.state rfl rfl fun s h => by cases h

theorem fail_idle (b : TunnelBinding) (t : Tunnel W T) (error : TunnelError) (wasEstablished : Bool) :
    Idle t (t.fail b error wasEstablished).2 := by
  unfold Tunnel.fail
  dsimp only
  split
  · have hcall := (reset_idle b t).call (c := .instantNow) fun _ => ⟨rfl, rfl⟩
    exact hcall.state rfl hcall.waiting hcall.settled
  · exact reset_idle b t

theorem Idle.fail (h : Idle t t') (error : TunnelError) (wasEstablished : Bool) :
    Idle t (t'.fail b error wasEstablished).2 := by
  have hf := fail_idle b t' error wasEstablished
  exact ⟨hf.taken.trans h.taken, hf.answered.trans h.answered, hf.waiting, hf.settled⟩

theorem Idle.reached (h : Idle t t') (instant : Option ℕ) : Idle t (t'.reached instant).2 := by
  unfold Tunnel.reached
  split
  · exact h
  · exact h.call fun _ => ⟨rfl, rfl⟩

theorem idle_carrierAnswer {answer : Poll (Except LoadError T) × Tunnel W T} (h : Idle t answer.2) :
    Idle t (match answer with
      | (.ready (.ok io), t) =>
        let now := ({ t with retryAt := none, state := .protection (some io) } : Tunnel W T).call .instantNow
        ((.ok .carrierReady, { now.2 with deadline := some (now.1 + b.handshakeTimeout) }) : TunnelReply W T)
      | (.ready (.error e), t) => t.fail b (.loader e) false
      | (.pending, t) => (.ok .none, t)).2 := by
  split
  · rename_i io t₁
    have hup : Idle t ({ t₁ with retryAt := none, state := .protection (some io) } : Tunnel W T) :=
      h.state rfl rfl fun s hs => by cases hs
    have hcall := hup.call (c := .instantNow) fun _ => ⟨rfl, rfl⟩
    exact hcall.state rfl hcall.waiting fun s hs => by cases hs
  · exact h.fail _ _
  · exact h

theorem Idle.pollCarrier (h : Idle t t') : Idle t (t'.pollCarrier b).2 := by
  have hretry := h.reached t'.retryAt
  unfold Tunnel.pollCarrier
  dsimp only
  split
  · exact hretry
  · apply idle_carrierAnswer
    split
    · exact hretry.call fun _ => ⟨rfl, rfl⟩
    · exact hretry.call fun _ => ⟨rfl, rfl⟩

theorem Idle.pollProtection (h : Idle t t') (lower : Option T) : Idle t (t'.pollProtection b lower).2 := by
  have hcall := h.call (c := .protectionWrap b.protection b.role) fun _ => ⟨rfl, rfl⟩
  unfold Tunnel.pollProtection
  split
  · split
    · exact h.fail _ _
    · exact h.state rfl rfl fun s hs => by cases hs
  · split <;> rename_i heq <;> rw [heq] at hcall
    · exact hcall.state rfl rfl fun s hs => by cases hs
    · exact hcall.fail _ _
    · exact hcall

theorem Idle.pollPolicyAttach (h : Idle t t') (stream : Option Handle) : Idle t (t'.pollPolicyAttach b stream).2 := by
  unfold Tunnel.pollPolicyAttach
  split
  · exact h.fail _ _
  · rename_i handle
    have hcall := h.call (c := .policyAttachSession b.policy handle b.policyContext) fun _ => ⟨rfl, rfl⟩
    split <;> rename_i heq <;> rw [heq] at hcall
    · rename_i policySession t₁
      split
      · exact hcall.state rfl rfl fun s hs => rfl
      · have hnone : Idle t ({ t₁ with state := .policyAttach none none } : Tunnel W T) :=
          hcall.state rfl rfl fun s hs => by cases hs
        exact hnone.fail _ _
    · exact hcall.fail _ _
    · exact hcall

omit [Modules W T] in
theorem Idle.answered_iff (h : Idle t t') (hw : t.state.waiting = []) : Answered t' ↔ Answered t := by
  unfold Answered
  rw [h.taken, h.answered, h.waiting, hw]

variable [AsyncIo T]

theorem Idle.pollHandshake (h : Idle t t') (stage : Handshake) (mux : MuxSession T) :
    Idle t (t'.pollHandshake b stage mux).2 := by
  unfold Tunnel.pollHandshake
  split
  · exact h.state rfl rfl fun s hs => by cases hs
  · rename_i e mux' _
    have hstage : Idle t ({ t' with state := .handshake stage mux' } : Tunnel W T) :=
      h.state rfl rfl fun s hs => by cases hs
    exact hstage.fail _ _
  · split
    · rename_i e registry _
      have hhost : Idle t ({ t' with host := { t'.host with registry } } : Tunnel W T) :=
        h.state rfl h.waiting h.settled
      exact hhost.fail _ _
    · exact h.state rfl rfl fun s hs => by cases hs

omit [Modules W T] [AsyncIo T] in
/-- Books that balance go on to balance exactly when the entries added to them do. -/
theorem books_iff {α : Type} {answered waiting taken answered' taken' : List α} (h : answered ++ waiting ~ taken) :
    answered ++ answered' ~ taken ++ taken' ↔ answered' ~ waiting ++ taken' := by
  have hright : taken ++ taken' ~ answered ++ (waiting ++ taken') := by
    rw [← List.append_assoc]
    exact h.symm.append_right taken'
  constructor
  · intro ha
    exact (List.perm_append_left_iff answered).mp (ha.trans hright)
  · intro ha
    exact (ha.append_left answered).trans hright.symm

theorem pollEstablished_answered (hb : b.role = .client) {s : EstablishedSession T} (hs : t.state = .established s)
    (h : Answered t) : Answered (t.pollEstablished b s).2 ↔ LeavesNone b t (.tunnel .poll) := by
  have hwent := poll_went (l := ⟨t.host, s⟩) hb
  have hends := poll_ends hb (⟨t.host, s⟩ : Live W T)
  have hbooks : t.host.trace.filterMap Occurrence.answered ++ s.waiting ~ t.host.trace.filterMap Occurrence.taken := by
    unfold Answered at h
    rw [hs] at h
    exact h
  have hleaves : LeavesNone b t (.tunnel .poll) ↔ Live.spares b ⟨t.host, s⟩ := by
    refine ⟨fun hl => hl s hs, fun hl s' hs' => ?_⟩
    cases hs.symm.trans hs'
    exact hl
  rw [hleaves]
  have htrace (l : Live W T) (hgrows : Live.Grows ⟨t.host, s⟩ l) (f : Occurrence T → Option (ℕ × UInt64)) :
      l.host.trace.filterMap f =
        t.host.trace.filterMap f ++ ((⟨t.host, s⟩ : Live W T).since l).filterMap f := by
    rw [← List.filterMap_append]
    exact congrArg _ hgrows
  unfold Tunnel.pollEstablished
  generalize Live.poll b ⟨t.host, s⟩ = r at hwent hends ⊢
  obtain ⟨result, l⟩ := r
  cases result with
  | ok _ =>
    have hpoll := hwent rfl
    have hflows := hpoll.flows
    rw [List.append_nil] at hflows
    refine ⟨fun _ => hends.returned () rfl, fun _ => ?_⟩
    change l.host.trace.filterMap Occurrence.answered ++ l.session.waiting ~ _
    rw [htrace l hpoll.grows, htrace l hpoll.grows, List.append_assoc]
    exact (books_iff hbooks).mpr (List.perm_append_comm.trans hflows)
  | error e =>
    obtain ⟨left, hleft, hiff⟩ := hends.failed e rfl
    dsimp only at hleft
    have hidle := fail_idle b ({ t with host := l.host, state := .established l.session } : Tunnel W T)
      (.session e) true
    have hflows := hleft.flows
    dsimp only
    unfold Answered
    rw [hidle.answered, hidle.taken, hidle.waiting, List.append_nil]
    dsimp only
    rw [htrace l hleft.grows, htrace l hleft.grows, books_iff hbooks, hiff]
    refine ⟨fun ha => ?_, fun hnone => ?_⟩
    · have hlength := (hflows.trans ha.symm).length_eq
      rw [List.length_append] at hlength
      exact List.eq_nil_of_length_eq_zero (by omega)
    · rw [hnone] at hflows
      exact hflows

theorem pollEstablished_settled (hd : t.deadline = none) (s : EstablishedSession T) :
    Settled (t.pollEstablished b s).2 := by
  unfold Tunnel.pollEstablished
  split
  · exact fun _ _ => hd
  · exact (fail_idle b _ _ _).settled

theorem poll_idle (hne : ∀ s, t.state ≠ .established s) : Idle t (t.poll b).2 := by
  have hw : t.state.waiting = [] := by
    cases hstate : t.state with
    | established s => exact absurd hstate (hne s)
    | _ => rfl
  have hstart : Idle t t := ⟨rfl, rfl, hw, fun s hs => absurd hs (hne s)⟩
  have hr := hstart.reached t.deadline
  unfold Tunnel.poll
  dsimp only
  split
  · have hreset := reset_idle b (t.reached t.deadline).2
    exact ⟨hreset.taken.trans hr.taken, hreset.answered.trans hr.answered, hreset.waiting, hreset.settled⟩
  · split
    · exact hr.pollCarrier
    · exact hr.pollProtection _
    · exact hr.pollHandshake _ _
    · exact hr.pollPolicyAttach _
    · rename_i s hs
      have hest : ∃ s, t.state = .established s := by
        unfold Tunnel.reached at hs
        split at hs
        · exact ⟨_, hs⟩
        · obtain ⟨s₀, hs₀, -⟩ := established_of_touch hs
          exact ⟨s₀, hs₀⟩
      obtain ⟨s₀, hs₀⟩ := hest
      exact absurd hs₀ (hne s₀)

theorem poll_established {s : EstablishedSession T} (hs : t.state = .established s) (hd : t.deadline = none) :
    t.poll b = t.pollEstablished b s := by
  unfold Tunnel.poll Tunnel.reached
  rw [hd]
  dsimp only
  rw [if_neg (by simp), hs]

theorem react_settled (t : Tunnel W T) (event : EngineEvent T) (h : Settled t) : Settled (t.react b event) := by
  cases event with
  | networkChanged => exact (reset_idle b t).settled
  | tunnel event =>
    cases event with
    | disturb effect =>
      intro s hs
      obtain ⟨s₀, hs₀, -⟩ := established_of_touch hs
      exact h s₀ hs₀
    | poll =>
      change Settled (t.poll b).2
      by_cases hest : ∃ s, t.state = .established s
      · obtain ⟨s, hs⟩ := hest
        rw [poll_established hs (h s hs)]
        exact pollEstablished_settled (h s hs) s
      · exact (poll_idle fun s hs => hest ⟨s, hs⟩).settled

/-- A step keeps the books exactly when it leaves no flow behind. -/
theorem react_answered (hb : b.role = .client) (t : Tunnel W T) (event : EngineEvent T) (hs : Settled t)
    (h : Answered t) : Answered (t.react b event) ↔ LeavesNone b t event := by
  cases event with
  | networkChanged =>
    have hidle := reset_idle b t
    change Answered (t.reset b) ↔ t.state.waiting = []
    unfold Answered at h ⊢
    rw [hidle.taken, hidle.answered, hidle.waiting, List.append_nil]
    refine ⟨fun ha => ?_, fun hw => ?_⟩
    · have hlen := (ha.trans h.symm).length_eq
      rw [List.length_append] at hlen
      exact List.eq_nil_of_length_eq_zero (by omega)
    · rw [hw, List.append_nil] at h
      exact h
  | tunnel event =>
    cases event with
    | disturb effect =>
      refine ⟨fun _ => trivial, fun _ => ?_⟩
      change t.host.trace.filterMap _ ++ (t.state.touch effect.connection).waiting ~ _
      rw [touch_waiting]
      exact h
    | poll =>
      change Answered (t.poll b).2 ↔ _
      by_cases hest : ∃ s, t.state = .established s
      · obtain ⟨s, hest⟩ := hest
        rw [poll_established hest (hs s hest)]
        exact pollEstablished_answered hb hest h
      · have hne : ∀ s, t.state ≠ .established s := fun s hx => hest ⟨s, hx⟩
        have hw : t.state.waiting = [] := by
          cases hstate : t.state with
          | established s => exact absurd hstate (hne s)
          | _ => rfl
        refine ⟨fun _ s hx => absurd hx (hne s), fun _ => ?_⟩
        exact ((poll_idle hne).answered_iff hw).mpr h

omit [AsyncIo T] in
theorem new_books (b : TunnelBinding) (modules : W) (registry : Registry) :
    Settled (Tunnel.new b modules registry : Tunnel W T) ∧ Answered (Tunnel.new b modules registry : Tunnel W T) := by
  unfold Tunnel.new
  dsimp only
  split
  · refine ⟨?_, List.Perm.refl _⟩
    intro s hs
    cases hs
  · refine ⟨?_, List.Perm.refl _⟩
    intro s hs
    cases hs

end Tunnel

/-- In every run of a client tunnel, whatever its modules answer, each flow an adapter hands
    over is answered once or still waits, in every state passed through, exactly when
    no step of the run ends a session with a flow left in it. -/
theorem flows_answered_iff {W T : Type} [Modules W T] [AsyncIo T] {b : TunnelBinding} (hb : b.role = .client)
    (modules : W) (registry : Registry) (events : List (EngineEvent T)) :
    (∀ front, front <+: events → (run (Tunnel.react b) (Tunnel.new b modules registry) front).Answered) ↔
      Guarded (Tunnel.react b) (Tunnel.LeavesNone b) (Tunnel.new b modules registry) events := by
  obtain ⟨hs, ha⟩ := Tunnel.new_books (T := T) b modules registry
  exact always_iff_guarded Tunnel.Settled Tunnel.Answered (fun t event hs _ => Tunnel.react_settled t event hs)
    (fun t event hs h => Tunnel.react_answered hb t event hs h) hs ha events

/-- A peer that answers the policy of the handshake, and an adapter with a flow. -/
def handedOver : FixedModules where
  carrier := .ready (.ok { incoming := (Frame.mk .frameData 1 ((encodePolicy "local").toOption.getD [])).bytes })
  attachSession := .ready (.ok 1)
  accept := .ready (.ok (7, sampleRequest))

theorem opened_flow_answered :
    Guarded (Tunnel.react (sampleBinding .client)) (Tunnel.LeavesNone (sampleBinding .client))
      (Tunnel.new (sampleBinding .client) handedOver {}) (List.replicate 5 (.tunnel .poll)) := by
  have hall : ∀ n < 6, (run (Tunnel.react (sampleBinding .client)) (Tunnel.new (sampleBinding .client) handedOver {})
      ((List.replicate 5 (.tunnel .poll)).take n)).Answered := by
    unfold Tunnel.Answered
    decide +kernel
  refine (flows_answered_iff rfl handedOver {} _).mp fun front hfront => ?_
  rw [List.prefix_iff_eq_take.mp hfront]
  exact hall _ (Nat.lt_succ_of_le hfront.length_le)

/-- Then the network changes and the flow is gone without an answer. -/
def networkChange : List (EngineEvent Script) := List.replicate 5 (.tunnel .poll) ++ [.networkChanged]

theorem network_change_unanswered :
    ¬ (run (Tunnel.react (sampleBinding .client)) (Tunnel.new (sampleBinding .client) handedOver {})
      networkChange).Answered := by
  intro h
  exact absurd h.length_eq (by decide +kernel)

end Snolc.Engine
