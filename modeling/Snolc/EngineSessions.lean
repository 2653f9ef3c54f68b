import Snolc.EngineLifecycle

set_option autoImplicit false

namespace Snolc.Engine
open PollIo MuxFrame Mux CoreIo GuardedRuns

namespace TunnelState
variable {T : Type}

@[simp] theorem touch_isEstablished (f : Connection T → Connection T) (s : TunnelState T) :
    (s.touch f).isEstablished = s.isEstablished := by
  cases s <;> rfl

@[simp] theorem touch_isCarrier (f : Connection T → Connection T) (s : TunnelState T) :
    (s.touch f).isCarrier = s.isCarrier := by
  cases s <;> rfl

/-- The states in which a tunnel of the role has no deadline. -/
def untimed (role : Mode) (s : TunnelState T) : Bool :=
  s.isEstablished || (s.isCarrier && decide (role = .server))

@[simp] theorem touch_untimed (f : Connection T → Connection T) (role : Mode) (s : TunnelState T) :
    (s.touch f).untimed role = s.untimed role := by
  simp [untimed]

end TunnelState

namespace Tunnel
variable {W T : Type} [Modules W T] {b : TunnelBinding} {t : Tunnel W T}

def Timed (b : TunnelBinding) (t : Tunnel W T) : Prop := t.deadline = none ↔ t.state.untimed b.role = true

/-- What a poll leaves: the deadline as the state asks for it, and a session more or less as
    the result says. -/
structure Reports (b : TunnelBinding) (was : Bool) (r : TunnelReply W T) : Prop where
  timed : Timed b r.2
  balance : r.2.state.isEstablished.toNat + closedBy r.1 = was.toNat + establishedBy r.1

theorem call_state (t : Tunnel W T) (c : ModuleCall) : ∃ f, (t.call c).2.state = t.state.touch f := ⟨_, rfl⟩

theorem call_deadline (t : Tunnel W T) (c : ModuleCall) : (t.call c).2.deadline = t.deadline := rfl

theorem Timed.call (h : Timed b t) (c : ModuleCall) : Timed b (t.call c).2 := by
  obtain ⟨f, hf⟩ := t.call_state c
  rw [Timed, hf, call_deadline, TunnelState.touch_untimed]
  exact h

theorem call_isEstablished (t : Tunnel W T) (c : ModuleCall) :
    (t.call c).2.state.isEstablished = t.state.isEstablished := by
  obtain ⟨f, hf⟩ := t.call_state c
  rw [hf, TunnelState.touch_isEstablished]

theorem reset_timed (b : TunnelBinding) (t : Tunnel W T) :
    (t.reset b).state.isEstablished = false ∧ Timed b (t.reset b) := by
  unfold reset Timed
  cases hrole : b.role with
  | client => exact ⟨rfl, by simp [TunnelState.untimed, call, disturb, TunnelState.touch, TunnelState.isEstablished]⟩
  | server => exact ⟨rfl, by simp [TunnelState.untimed, TunnelState.isCarrier]⟩

theorem fail_reports (b : TunnelBinding) (t : Tunnel W T) (error : TunnelError) (was : Bool) :
    Reports b was (t.fail b error was) := by
  obtain ⟨hgone, htimed⟩ := reset_timed b t
  have hbalance : false.toNat + closedBy (.error (error, was)) = was.toNat + establishedBy (.error (error, was)) := by
    cases was <;> rfl
  unfold fail
  cases hrole : b.role with
  | client =>
    refine ⟨htimed.call .instantNow, ?_⟩
    have hcall := call_isEstablished (t.reset b) .instantNow
    rw [hgone] at hcall
    dsimp only
    rw [hcall]
    exact hbalance
  | server =>
    refine ⟨htimed, ?_⟩
    dsimp only
    rw [hgone]
    exact hbalance

omit [Modules W T] in
theorem Reports.quiet {update : TunnelUpdate} {was : Bool} (h : Timed b t) (hs : t.state.isEstablished = was)
    (hu : update ≠ .established) : Reports b was ((.ok update, t) : TunnelReply W T) := by
  refine ⟨h, ?_⟩
  rw [hs]
  cases update <;> first | rfl | exact absurd rfl hu

theorem reached_timed (h : Timed b t) (instant : Option ℕ) : Timed b (t.reached instant).2 := by
  cases instant with
  | none => exact h
  | some instant => exact h.call .instantNow

theorem reached_isEstablished (t : Tunnel W T) (instant : Option ℕ) :
    (t.reached instant).2.state.isEstablished = t.state.isEstablished := by
  cases instant with
  | none => rfl
  | some instant => exact t.call_isEstablished .instantNow

omit [Modules W T] in
theorem timed_of_some {deadline : ℕ} (hd : t.deadline = some deadline) (hs : t.state.untimed b.role = false) :
    Timed b t := by
  rw [Timed, hd, hs]
  simp

theorem pollCarrier_reports (h : Timed b t) (hs : t.state.isEstablished = false) :
    Reports b false (t.pollCarrier b) := by
  have hretry := reached_timed h t.retryAt
  have hgone := (reached_isEstablished t t.retryAt).trans hs
  have hcall (c : ModuleCall) := And.intro (hretry.call c) ((call_isEstablished _ c).trans hgone)
  unfold pollCarrier
  dsimp only
  split
  · exact .quiet hretry hgone (by simp)
  · split
    · exact .quiet (timed_of_some rfl rfl) rfl (by simp)
    · exact fail_reports b _ _ false
    · rename_i t₁ heq
      have hkept : Timed b t₁ ∧ t₁.state.isEstablished = false := by
        split at heq
        · have hconnect := hcall (.carrierConnect b.carrier)
          rw [heq] at hconnect
          exact hconnect
        · have haccept := hcall (.carrierAccept b.carrier)
          rw [heq] at haccept
          exact haccept
      exact .quiet hkept.1 hkept.2 (by simp)

omit [Modules W T] in
theorem Timed.deadline (h : Timed b t) (hs : t.state.untimed b.role = false) :
    ∃ deadline, t.deadline = some deadline := by
  cases hd : t.deadline with
  | none =>
    have htrue := h.mp hd
    rw [hs] at htrue
    cases htrue
  | some deadline => exact ⟨deadline, rfl⟩

omit [Modules W T] in
theorem startHandshake_reports (h : Timed b t) (hs : t.state.untimed b.role = false) (io : T) :
    Reports b false (t.startHandshake b io) := by
  obtain ⟨deadline, hd⟩ := h.deadline hs
  exact .quiet (timed_of_some hd rfl) rfl (by simp)

theorem call_untimed (t : Tunnel W T) (c : ModuleCall) :
    (t.call c).2.state.untimed b.role = t.state.untimed b.role := by
  obtain ⟨f, hf⟩ := t.call_state c
  rw [hf, TunnelState.touch_untimed]

omit [Modules W T] in
theorem untimed_established (hs : t.state.untimed b.role = false) : t.state.isEstablished = false :=
  (Bool.or_eq_false_iff.mp hs).1

theorem pollProtection_reports (h : Timed b t) (hs : t.state.untimed b.role = false) (lower : Option T) :
    Reports b false (t.pollProtection b lower) := by
  have hcall := And.intro (h.call (.protectionWrap b.protection b.role))
    ((call_untimed t (.protectionWrap b.protection b.role)).trans hs)
  unfold pollProtection
  split
  · split
    · exact fail_reports b _ _ false
    · exact startHandshake_reports h hs _
  · split <;> rename_i heq <;> rw [heq] at hcall
    · exact startHandshake_reports hcall.1 hcall.2 _
    · exact fail_reports b _ _ false
    · exact .quiet hcall.1 (untimed_established hcall.2) (by simp)

theorem pollPolicyAttach_reports (h : Timed b t) (hs : t.state.untimed b.role = false) (stream : Option Handle) :
    Reports b false (t.pollPolicyAttach b stream) := by
  unfold pollPolicyAttach
  split
  · exact fail_reports b _ _ false
  · rename_i handle
    have hcall := And.intro (h.call (.policyAttachSession b.policy handle b.policyContext))
      ((call_untimed t (.policyAttachSession b.policy handle b.policyContext)).trans hs)
    split <;> rename_i heq <;> rw [heq] at hcall
    · split
      · exact ⟨⟨fun _ => rfl, fun _ => rfl⟩, rfl⟩
      · exact fail_reports b _ _ false
    · exact fail_reports b _ _ false
    · exact .quiet hcall.1 (untimed_established hcall.2) (by simp)

variable [AsyncIo T]

theorem pollHandshake_reports (h : Timed b t) (hs : t.state.untimed b.role = false) (stage : Handshake)
    (mux : MuxSession T) : Reports b false (t.pollHandshake b stage mux) := by
  obtain ⟨deadline, hd⟩ := h.deadline hs
  unfold pollHandshake
  split
  · exact .quiet (timed_of_some hd rfl) rfl (by simp)
  · exact fail_reports b _ _ false
  · split
    · exact fail_reports b _ _ false
    · exact .quiet (timed_of_some hd rfl) rfl (by simp)

theorem pollEstablished_reports (h : t.deadline = none) (session : EstablishedSession T) :
    Reports b true (t.pollEstablished b session) := by
  unfold pollEstablished
  split
  · exact .quiet ⟨fun _ => rfl, fun _ => h⟩ rfl (by simp)
  · exact fail_reports b _ _ true

theorem poll_reports (h : Timed b t) : Reports b t.state.isEstablished (t.poll b) := by
  have hr := reached_timed h t.deadline
  have hsame := reached_isEstablished t t.deadline
  unfold poll
  dsimp only
  split
  · -- a deadline that passes is not that of a session
    rename_i hexpired
    obtain ⟨hgone, htimed⟩ := reset_timed b (t.reached t.deadline).2
    have hnot : t.state.isEstablished = false := by
      by_contra hest
      rw [Bool.not_eq_false] at hest
      have hnone : t.deadline = none := h.mpr (by rw [TunnelState.untimed, hest]; rfl)
      rw [hnone] at hexpired
      cases hexpired
    rw [hnot]
    exact ⟨htimed, by rw [hgone]; rfl⟩
  · rw [← hsame]
    generalize (t.reached t.deadline).2 = t₁ at hr ⊢
    cases hstate : t₁.state with
    | carrier => exact pollCarrier_reports hr (by rw [hstate]; rfl)
    | protection lower => exact pollProtection_reports hr (by rw [hstate]; rfl) lower
    | handshake stage mux => exact pollHandshake_reports hr (by rw [hstate]; rfl) stage mux
    | policyAttach mux stream => exact pollPolicyAttach_reports hr (by rw [hstate]; rfl) stream
    | established session => exact pollEstablished_reports (hr.mpr (by rw [hstate]; rfl)) session

end Tunnel

namespace TunnelRuntime
variable {W T : Type}

def isEstablished (r : TunnelRuntime T) : Bool := r.state.isEstablished

def Timed (r : TunnelRuntime T) : Prop := r.deadline = none ↔ r.state.untimed r.binding.role = true

@[simp] theorem touch_established (f : Connection T → Connection T) (r : TunnelRuntime T) :
    (r.touch f).isEstablished = r.isEstablished :=
  r.state.touch_isEstablished f

theorem Timed.touch {r : TunnelRuntime T} (h : r.Timed) (f : Connection T → Connection T) : (r.touch f).Timed := by
  unfold Timed TunnelRuntime.touch at *
  rw [TunnelState.touch_untimed]
  exact h

end TunnelRuntime

def sessionCount {T : Type} (tunnels : List (TunnelRuntime T)) : ℕ := tunnels.countP TunnelRuntime.isEstablished

theorem sessionCount_mapIdx {T : Type} (tunnels : List (TunnelRuntime T)) (f : ℕ → Connection T → Connection T) :
    sessionCount (tunnels.mapIdx fun j r => r.touch (f j)) = sessionCount tunnels := by
  have hmap : (tunnels.mapIdx fun j r => r.touch (f j)).map TunnelRuntime.isEstablished =
      tunnels.map TunnelRuntime.isEstablished := by
    apply List.ext_getElem?
    intro j
    simp only [List.getElem?_map, List.getElem?_mapIdx]
    cases tunnels[j]? with
    | none => rfl
    | some r => simp
  have hcount (l : List (TunnelRuntime T)) : sessionCount l = (l.map TunnelRuntime.isEstablished).countP id := by
    rw [List.countP_map]
    rfl
  rw [hcount, hcount, hmap]

theorem sessionCount_set {T : Type} {tunnels : List (TunnelRuntime T)} {i : ℕ} {r : TunnelRuntime T}
    (h : tunnels[i]? = some r) (r' : TunnelRuntime T) :
    sessionCount (tunnels.set i r') + r.isEstablished.toNat = sessionCount tunnels + r'.isEstablished.toNat := by
  obtain ⟨hi, rfl⟩ := List.getElem?_eq_some_iff.mp h
  have hset := List.countP_set (p := TunnelRuntime.isEstablished) (a := r') hi
  have hpos : tunnels[i].isEstablished = true → 0 < sessionCount tunnels := fun hest =>
    List.countP_pos_iff.mpr ⟨_, List.getElem_mem hi, hest⟩
  unfold sessionCount at *
  rw [hset]
  cases hold : tunnels[i].isEstablished with
  | false => cases r'.isEstablished <;> simp
  | true =>
    have hone := hpos hold
    cases r'.isEstablished with
    | false => simp only [if_true, Bool.false_eq_true, if_false, Bool.toNat_true, Bool.toNat_false]; omega
    | true => simp only [if_true, Bool.toNat_true]; omega

namespace RunLoop
variable {W T : Type} [Modules W T] [AsyncIo T]

structure Counted (start : ℕ) (round : Round W T) : Prop where
  timed : ∀ r ∈ round.tunnels, r.Timed
  balance : sessionCount round.tunnels + round.totals.closed = start + round.totals.established

theorem Counted.pollTunnel {start : ℕ} {round : Round W T} (h : Counted start round)
    (meanwhile : ℕ → ℕ → Connection T → Connection T) (i : ℕ) : Counted start (round.pollTunnel meanwhile i) := by
  unfold Round.pollTunnel
  split
  · exact h
  · rename_i r hr
    have htimed : (r.onHost round.host).Timed r.binding := h.timed r (List.mem_of_getElem? hr)
    have hreports := Tunnel.poll_reports htimed
    generalize (r.onHost round.host).poll r.binding = reply at hreports
    obtain ⟨result, t⟩ := reply
    have htouched : (round.tunnels.mapIdx fun j other => other.touch (meanwhile i j))[i]? =
        some (r.touch (meanwhile i i)) := by
      rw [List.getElem?_mapIdx, hr]
      rfl
    constructor
    · intro r' hr'
      rcases List.mem_or_eq_of_mem_set hr' with hm | rfl
      · obtain ⟨j, hj, rfl⟩ := List.mem_mapIdx.mp hm
        exact (h.timed _ (List.getElem_mem hj)).touch _
      · exact hreports.timed
    · have hset := sessionCount_set htouched (r.after t)
      have hbalance := hreports.balance
      have hround := h.balance
      rw [sessionCount_mapIdx, TunnelRuntime.touch_established] at hset
      simp only [Totals.add]
      have hbefore : (r.onHost round.host).state.isEstablished = r.isEstablished := rfl
      have hafter : (r.after t).isEstablished = t.state.isEstablished := rfl
      dsimp only at hbalance
      rw [hbefore] at hbalance
      rw [hafter] at hset
      omega

theorem pollRound_counted (meanwhile : ℕ → ℕ → Connection T → Connection T) (host : Host W T)
    {tunnels : List (TunnelRuntime T)} (h : ∀ r ∈ tunnels, r.Timed) :
    Counted (sessionCount tunnels) (pollRound meanwhile host tunnels) := by
  unfold pollRound
  generalize List.range tunnels.length = indices
  have hstart : Counted (sessionCount tunnels) (⟨host, tunnels, {}⟩ : Round W T) := ⟨h, rfl⟩
  exact run_always (Counted (sessionCount tunnels)) (fun round i hc => hc.pollTunnel meanwhile i) hstart indices

theorem pollRound_established (meanwhile : ℕ → ℕ → Connection T → Connection T) (host : Host W T)
    (tunnels : List (TunnelRuntime T)) : (pollRound meanwhile host tunnels).totals.established ≤ tunnels.length := by
  have hstep (round : Round W T) (i : ℕ) :
      (round.pollTunnel meanwhile i).totals.established ≤ round.totals.established + 1 := by
    unfold Round.pollTunnel
    split
    · exact Nat.le_succ _
    · rename_i r hr
      generalize (r.onHost round.host).poll r.binding = reply
      obtain ⟨result, t⟩ := reply
      have hone : establishedBy result ≤ 1 := by
        unfold establishedBy
        split <;> decide
      exact Nat.add_le_add_left hone _
  have hrun (indices : List ℕ) (round : Round W T) :
      (indices.foldl (Round.pollTunnel meanwhile) round).totals.established ≤
        round.totals.established + indices.length := by
    induction indices generalizing round with
    | nil => exact Nat.le_refl _
    | cons i indices ih =>
      have hfirst := hstep round i
      have hrest := ih (round.pollTunnel meanwhile i)
      rw [List.foldl_cons, List.length_cons]
      omega
  have hall := hrun (List.range tunnels.length) ⟨host, tunnels, {}⟩
  rw [List.length_range] at hall
  exact Nat.le_trans hall (by simp)

theorem pollTunnel_length (meanwhile : ℕ → ℕ → Connection T → Connection T) (round : Round W T) (i : ℕ) :
    (round.pollTunnel meanwhile i).tunnels.length = round.tunnels.length := by
  unfold Round.pollTunnel
  split
  · rfl
  · simp

theorem pollRound_length (meanwhile : ℕ → ℕ → Connection T → Connection T) (host : Host W T)
    (tunnels : List (TunnelRuntime T)) : (pollRound meanwhile host tunnels).tunnels.length = tunnels.length :=
  run_always (fun round : Round W T => round.tunnels.length = tunnels.length)
    (fun round i h => (pollTunnel_length meanwhile round i).trans h) rfl (List.range tunnels.length)

/-- The counter is the number of established tunnels, and the deadlines are those of the stages. -/
structure Tracks (e : RunLoop W T) : Prop where
  sessions : e.snapshot.sessions = sessionCount e.tunnels
  timed : ∀ r ∈ e.tunnels, r.Timed
  length : e.tunnels.length ≤ e.validated.tunnels.length

/-- In a turn from `e` the counter is not taken below zero. -/
def SubtractsWithin (e : RunLoop W T) (i : Iteration T) : Prop :=
  (pollRound i.meanwhile (e.pollModules i).host (e.pollModules i).tunnels).totals.closed ≤
    raised (e.pollModules i).snapshot (pollRound i.meanwhile (e.pollModules i).host (e.pollModules i).tunnels).totals

omit [Modules W T] [AsyncIo T] in
theorem Tracks.emit {e : RunLoop W T} (h : Tracks e) (event : Event) : Tracks (e.emit event) := by
  cases event <;> exact ⟨h.sessions, h.timed, h.length⟩

omit [Modules W T] [AsyncIo T] in
theorem Tracks.foldl_emit {ι : Type} {e : RunLoop W T} (h : Tracks e) (event : ι → Event) (items : List ι) :
    Tracks (items.foldl (fun e item => e.emit (event item)) e) :=
  run_always Tracks (fun _ item h => h.emit (event item)) h items

omit [Modules W T] [AsyncIo T] in
theorem Tracks.emitErrors {e : RunLoop W T} (h : Tracks e) (errors : List (String × String)) :
    Tracks (e.emitErrors errors) :=
  h.foldl_emit (fun error : String × String => .moduleError error.1 error.2) errors

omit [AsyncIo T] in
/-- The two updates of the counter, where the first does not wrap. -/
theorem count_sessions {snapshot : Snapshot} (tunnels : List (TunnelRuntime T)) {totals : Totals} {left : ℕ}
    (hbalance : left + totals.closed = snapshot.sessions + totals.established)
    (hbound : snapshot.sessions + totals.established < 2 ^ 64) :
    (count snapshot tunnels totals).sessions = left ∧ totals.closed ≤ raised snapshot totals := by
  have hraised : raised snapshot totals = snapshot.sessions + totals.established := by
    unfold raised fetchAdd
    split
    · exact Nat.mod_eq_of_lt hbound
    · omega
  refine ⟨?_, by omega⟩
  simp only [count, hraised]
  split
  · unfold fetchSub
    omega
  · omega

omit [Modules W T] [AsyncIo T] in
theorem Tracks.pollModules {e : RunLoop W T} (h : Tracks e) (i : Iteration T) : Tracks (e.pollModules i) := by
  have htouched : Tracks ({ e with
      host := e.host.disturb i.effect
      tunnels := e.tunnels.mapIdx fun j r => r.touch (i.touched j) } : RunLoop W T) := by
    refine ⟨h.sessions.trans (sessionCount_mapIdx e.tunnels i.touched).symm, fun r hr => ?_, by simpa using h.length⟩
    obtain ⟨j, hj, rfl⟩ := List.mem_mapIdx.mp hr
    exact (h.timed _ (List.getElem_mem hj)).touch _
  exact htouched.emitErrors i.moduleErrors

theorem Tracks.pollTunnels {e : RunLoop W T} (h : Tracks e) (meanwhile : ℕ → ℕ → Connection T → Connection T) :
    Tracks (e.pollTunnels meanwhile) ∧
      (pollRound meanwhile e.host e.tunnels).totals.closed ≤
        raised e.snapshot (pollRound meanwhile e.host e.tunnels).totals := by
  have hcounted := pollRound_counted meanwhile e.host h.timed
  have hestablished := pollRound_established meanwhile e.host e.tunnels
  have hlength := pollRound_length meanwhile e.host e.tunnels
  have hbound := e.validated.bounded
  have hle : sessionCount e.tunnels ≤ e.tunnels.length := List.countP_le_length
  have hfew := h.length
  rw [← h.sessions] at hcounted hle
  obtain ⟨hsessions, hwithin⟩ := count_sessions (pollRound meanwhile e.host e.tunnels).tunnels
    hcounted.balance (by omega)
  have hcount : Tracks ({ e with
      host := (pollRound meanwhile e.host e.tunnels).host
      tunnels := (pollRound meanwhile e.host e.tunnels).tunnels
      snapshot := count e.snapshot (pollRound meanwhile e.host e.tunnels).tunnels
        (pollRound meanwhile e.host e.tunnels).totals } : RunLoop W T) :=
    ⟨hsessions, hcounted.timed, Nat.le_trans (Nat.le_of_eq hlength) h.length⟩
  refine ⟨?_, hwithin⟩
  exact (hcount.foldl_emit (fun transition : String × String => .tunnel transition.1 transition.2) _).foldl_emit
    (fun failure : String × TunnelError => .tunnelError failure.1 failure.2) _

theorem Tracks.turn {e : RunLoop W T} (h : Tracks e) (i : Iteration T) : Tracks (e.turn i) ∧ e.SubtractsWithin i :=
  (h.pollModules i).pollTunnels i.meanwhile

omit [Modules W T] [AsyncIo T] in
theorem stop_tracks (e : RunLoop W T) : Tracks e.stop :=
  ⟨rfl, fun _ hr => absurd hr List.not_mem_nil, Nat.zero_le _⟩

omit [AsyncIo T] in
theorem resetTunnels_spec (host : Host W T) (tunnels : List (TunnelRuntime T)) :
    sessionCount (resetTunnels host tunnels).1 = 0 ∧ (∀ r ∈ (resetTunnels host tunnels).1, r.Timed) ∧
      (resetTunnels host tunnels).1.length = tunnels.length := by
  induction tunnels generalizing host with
  | nil => exact ⟨rfl, fun _ hr => absurd hr List.not_mem_nil, rfl⟩
  | cons r tunnels ih =>
    obtain ⟨hgone, htimed⟩ := Tunnel.reset_timed r.binding (r.onHost host)
    obtain ⟨hcount, hall, hlength⟩ := ih ((r.onHost host).reset r.binding).host
    refine ⟨?_, fun r' hr' => ?_, congrArg Nat.succ hlength⟩
    · unfold sessionCount at hcount ⊢
      have hfirst : ¬ (r.after ((r.onHost host).reset r.binding)).isEstablished = true := by
        rw [Bool.not_eq_true]
        exact hgone
      rw [resetTunnels, List.countP_cons_of_neg hfirst, hcount]
    · rcases List.mem_cons.mp hr' with rfl | hm
      · exact htimed
      · exact hall r' hm

omit [AsyncIo T] in
theorem Tracks.networkChanged {e : RunLoop W T} (h : Tracks e) : Tracks e.networkChanged := by
  obtain ⟨hcount, hall, hlength⟩ := resetTunnels_spec e.host e.tunnels
  exact ⟨hcount.symm, hall, by rw [RunLoop.networkChanged, hlength]; exact h.length⟩

omit [AsyncIo T] in
theorem newTunnels_spec (host : Host W T) (bindings : List (String × TunnelBinding)) :
    sessionCount (newTunnels host bindings).1 = 0 ∧ (∀ r ∈ (newTunnels host bindings).1, r.Timed) ∧
      (newTunnels host bindings).1.length = bindings.length := by
  induction bindings generalizing host with
  | nil => exact ⟨rfl, fun _ hr => absurd hr List.not_mem_nil, rfl⟩
  | cons binding bindings ih =>
    obtain ⟨name, b⟩ := binding
    have hfirst : (TunnelRuntime.new name b host).1.isEstablished = false ∧
        (TunnelRuntime.new name b host).1.Timed := by
      unfold TunnelRuntime.new TunnelRuntime.Timed
      cases hrole : b.role with
      | client =>
        have hsame := Tunnel.call_untimed (b := b) (⟨host, .carrier, none, none⟩ : Tunnel W T) .instantNow
        rw [hrole] at hsame
        dsimp only
        refine ⟨rfl, fun hnone => absurd hnone (Option.some_ne_none _), fun htrue => ?_⟩
        rw [hrole, hsame] at htrue
        cases htrue
      | server => exact ⟨rfl, by simp [TunnelState.untimed, TunnelState.isCarrier, hrole]⟩
    obtain ⟨hcount, hall, hlength⟩ := ih (TunnelRuntime.new name b host).2
    refine ⟨?_, fun r hr => ?_, congrArg Nat.succ hlength⟩
    · unfold sessionCount at hcount ⊢
      rw [newTunnels, List.countP_cons_of_neg (by simpa using hfirst.1), hcount]
    · rcases List.mem_cons.mp hr with rfl | hm
      · exact hfirst.2
      · exact hall r hm

omit [AsyncIo T] in
theorem Tracks.start {e : RunLoop W T} (h : Tracks e) (hfresh : e.snapshot.sessions = 0) (startup : Startup) :
    Tracks (e.start startup) := by
  have hs := h.emit (.lifecycle .starting)
  unfold RunLoop.start
  dsimp only
  split
  · exact ⟨hs.sessions, hs.timed, hs.length⟩
  · split
    · exact ⟨hs.sessions, hs.timed, hs.length⟩
    · split
      · exact ⟨hs.sessions, hs.timed, hs.length⟩
      · split
        · exact ⟨hs.sessions, hs.timed, hs.length⟩
        · rename_i registry _
          obtain ⟨hcount, hall, hlength⟩ := newTunnels_spec { e.host with registry } e.validated.tunnels
          exact ⟨hfresh.trans hcount.symm, hall, Nat.le_of_eq hlength⟩

theorem Tracks.iterate {e : RunLoop W T} (h : Tracks e) (i : Iteration T) : Tracks (e.iterate i) := by
  unfold RunLoop.iterate RunLoop.receive
  cases i.received with
  | control => exact (h.turn i).1
  | empty => exact (h.turn i).1
  | shutdown => exact e.stop_tracks
  | closed => exact e.stop_tracks
  | platform event =>
    cases event with
    | networkChanged => exact ((h.emit (.platform .networkChanged)).networkChanged.turn i).1
    | vpnPermissionRevoked => exact stop_tracks _

omit [Modules W T] [AsyncIo T] in
theorem Tracks.windDown {e : RunLoop W T} (h : Tracks e) (stopped : List Bool) (errors : List (String × String))
    (round : ShutdownRound) : Tracks (e.windDown stopped errors round) := by
  have hfinish (errors : List (String × String)) : Tracks (e.finish errors) := by
    have hall := (h.emitErrors errors).emit (.lifecycle .stopped)
    exact ⟨hall.sessions, hall.timed, hall.length⟩
  unfold RunLoop.windDown
  dsimp only
  split
  · exact hfinish _
  · split
    · exact hfinish _
    · exact ⟨h.sessions, h.timed, h.length⟩

structure Runs (e : RunLoop W T) : Prop where
  tracks : Tracks e
  fresh : e.phase = .configured → e.tunnels = []

theorem Runs.step {e : RunLoop W T} (h : Runs e) (label : LoopStep T) : Runs (e.step label) := by
  refine ⟨?_, fun hp => ?_⟩
  · unfold RunLoop.step
    split
    · split
      · rename_i hp
        refine h.tracks.start ?_ _
        rw [h.tracks.sessions, h.fresh hp]
        rfl
      · exact h.tracks
    · split
      · exact h.tracks.iterate _
      · exact h.tracks
    · split
      · exact h.tracks.windDown _ _ _
      · exact h.tracks
  · rcases e.step_phase label with hsame | hstarted
    · rw [hsame] at hp ⊢
      exact h.fresh hp
    · exact absurd hp hstarted

end RunLoop

/-- In every state of a run the counter is the number of established tunnels, a tunnel is without
    a deadline exactly when it is established or a server at its carrier, and no turn that can
    follow takes the counter below zero. -/
theorem sessions_tracked {W T : Type} [Modules W T] [AsyncIo T] (validated : ValidatedConfig) (host : Host W T)
    (labels : List (LoopStep T)) :
    let e := run RunLoop.step ({ validated, host } : RunLoop W T) labels
    e.snapshot.sessions = e.tunnels.countP (fun r => r.state.isEstablished) ∧
      (∀ r ∈ e.tunnels, r.deadline = none ↔
        r.state.isEstablished = true ∨ r.state.isCarrier = true ∧ r.binding.role = .server) ∧
      ∀ i : Iteration T, (e.receive i.received).2 = true → (e.receive i.received).1.SubtractsWithin i := by
  intro e
  have hstart : RunLoop.Runs ({ validated, host } : RunLoop W T) :=
    ⟨⟨rfl, fun _ hr => absurd hr List.not_mem_nil, Nat.zero_le _⟩, fun _ => rfl⟩
  have hruns : e.Runs := run_always RunLoop.Runs (fun _ label h => h.step label) hstart labels
  refine ⟨hruns.tracks.sessions, fun r hr => ?_, fun i => ?_⟩
  · have htimed := hruns.tracks.timed r hr
    rw [TunnelRuntime.Timed, TunnelState.untimed, Bool.or_eq_true, Bool.and_eq_true, decide_eq_true_iff] at htimed
    exact htimed
  · cases i.received with
    | control => exact fun _ => (hruns.tracks.turn i).2
    | empty => exact fun _ => (hruns.tracks.turn i).2
    | shutdown => exact fun h => absurd h Bool.false_ne_true
    | closed => exact fun h => absurd h Bool.false_ne_true
    | platform event =>
      cases event with
      | networkChanged => exact fun _ => ((hruns.tracks.emit (.platform .networkChanged)).networkChanged.turn i).2
      | vpnPermissionRevoked => exact fun h => absurd h Bool.false_ne_true

end Snolc.Engine
