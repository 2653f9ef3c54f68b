import Snolc.EngineFrame
import Snolc.EngineTunnel
import Snolc.GuardedRuns
import Snolc.Precedence

set_option autoImplicit false

namespace Snolc.Engine
open PollIo MuxFrame Mux AsyncTask WireFormat CoreIo Precedence GuardedRuns

section Past
variable {T : Type}

namespace Occurrence

def EndsSession : Occurrence T → Prop
  | .reset => True
  | _ => False

def EndsFlow : Occurrence T → Prop
  | .reset | .serverFlow _ _ => True
  | _ => False

def EndsVerdict : Occurrence T → Prop
  | .reset | .serverFlow _ _ => True
  | .call (.adapterResolve _ _ _) _ => True
  | .call (.adapterOpen _ _ _) (.ready _) => True
  | _ => False

def EndsRequest : Occurrence T → Prop
  | .reset | .clientFlow _ => True
  | _ => False

theorem Neutral.not_endsVerdict {o : Occurrence T} (h : o.Neutral) : ¬ o.EndsVerdict := by
  cases o with
  | call call answer => cases call <;> first | exact h.elim | exact id
  | _ => exact h.elim

theorem Neutral.not_endsRequest {o : Occurrence T} (h : o.Neutral) : ¬ o.EndsRequest := by
  cases o with
  | call call answer => exact id
  | _ => exact h.elim

theorem EndsFlow.endsVerdict {o : Occurrence T} (h : o.EndsFlow) : o.EndsVerdict := by
  cases o <;> first | exact h.elim | trivial

theorem EndsSession.endsFlow {o : Occurrence T} (h : o.EndsSession) : o.EndsFlow := by
  cases o <;> first | exact h.elim | trivial

end Occurrence

variable (b : TunnelBinding) (session : UInt64)

def AttachedAs (o : Occurrence T) : Prop :=
  ∃ stream, o = .call (.policyAttachSession b.policy stream b.policyContext) (.ready (.ok session))

def admits (metadata : OwnedFlowMetadata) : Occurrence T :=
  .call (.policyAdmitFlow b.policy session metadata) (.ready (.ok ()))

def admitsResolved (metadata : OwnedFlowMetadata) : Occurrence T :=
  .call (.policyAdmitResolved b.policy session metadata) (.ready (.ok ()))

def resolves (adapter operation : ℕ) (metadata : OwnedFlowMetadata) (answer : Option (List IpAddr)) :
    Occurrence T :=
  .call (.adapterResolve adapter operation metadata) (.ready (.ok answer))

/-- The past of a session that is still the same. -/
def InSession (q : List (Occurrence T) → Prop) : List (Occurrence T) → Prop :=
  Once (AttachedAs b session) fun since => (∀ o ∈ since, ¬ o.EndsSession) ∧ q since

/-- A resolution that is still in force, and the addresses admitted under it. -/
def Verdict (adapter operation : ℕ) (metadata : OwnedFlowMetadata) (answer : Option (List IpAddr))
    (admitted : List IpAddr) : List (Occurrence T) → Prop :=
  Once (· = resolves adapter operation metadata answer) fun since =>
    (∀ o ∈ since, ¬ o.EndsVerdict) ∧
    ∀ address ∈ admitted, admitsResolved b session (metadata.resolved address) ∈ since

/-- The past that allows an adapter to open a flow. -/
def ServerCleared (adapter operation : ℕ) (metadata : OwnedFlowMetadata) (past : List (Occurrence T)) : Prop :=
  ∃ session request, metadata = .fromRequest request ∧
    InSession b session (Once (· = .serverFlow operation request) fun since =>
      (∀ o ∈ since, ¬ o.EndsFlow) ∧
      Once (· = admits b session metadata) (fun since =>
        ∃ answer, Verdict b session adapter operation metadata answer (answer.getD []) since) since) past

/-- The past that allows a client to open a flow on the mux. -/
def ClientCleared (request : OpenRequest) (past : List (Occurrence T)) : Prop :=
  ∃ session, InSession b session (Once (· = .clientFlow request) fun since =>
    (∀ o ∈ since, ¬ o.EndsRequest) ∧ admits b session (.fromRequest request) ∈ since) past

def Allowed (past : List (Occurrence T)) : Occurrence T → Prop
  | .call (.adapterOpen adapter operation metadata) _ => ServerCleared b adapter operation metadata past
  | .beginOpen request => ClientCleared b request past
  | _ => True

theorem Occurrence.Neutral.allowed {o : Occurrence T} (h : o.Neutral) (past : List (Occurrence T)) :
    Allowed b past o := by
  cases o with
  | call call answer => cases call <;> first | exact h.elim | trivial
  | beginOpen => exact h.elim
  | _ => trivial

def Resolution (p : PendingServerFlow) (since : List (Occurrence T)) : Prop :=
  p.resolvedAddresses.isSome ∨ p.resolutionComplete → ∃ adapter,
    b.adapters[p.adapterCursor]? = some adapter ∧
    (p.resolutionComplete → (p.resolvedAddresses.getD []).length ≤ p.resolvedCursor) ∧
    Verdict b session adapter p.operation p.metadata p.resolvedAddresses
      ((p.resolvedAddresses.getD []).take p.resolvedCursor) since

structure FlowStanding (p : PendingServerFlow) (since : List (Occurrence T)) : Prop where
  metadata : p.metadata = .fromRequest p.request
  unresolved : p.admitted = false → p.resolvedAddresses = none ∧ p.resolutionComplete = false
  cursor : p.resolvedAddresses = none → p.resolvedCursor = 0
  past : Once (· = .serverFlow p.operation p.request) (fun since =>
    (∀ o ∈ since, ¬ o.EndsFlow) ∧
    (p.admitted → Once (· = admits b session p.metadata) (Resolution b session p) since)) since

def ClientStanding (p : PendingClientFlow) (since : List (Occurrence T)) : Prop :=
  p.metadata = .fromRequest p.request ∧
  Once (· = .clientFlow p.request) (fun since =>
    (∀ o ∈ since, ¬ o.EndsRequest) ∧ (p.admitted → admits b session p.metadata ∈ since)) since

/-- A flow that has been answered, or is being answered, is not opened again. -/
def ServerPast (s : EstablishedSession T) (since : List (Occurrence T)) : Prop :=
  s.responding.isNone → ∀ p, s.pending = some p → p.responseSent = false →
    FlowStanding b s.policySession p since

def ClientPast (s : EstablishedSession T) (since : List (Occurrence T)) : Prop :=
  ∀ p, s.clientPending = some p → ClientStanding b s.policySession p since

theorem append_free {p : Occurrence T → Prop} {since more : List (Occurrence T)} (h : ∀ o ∈ since, ¬ p o)
    (hm : ∀ o ∈ more, ¬ p o) : ∀ o ∈ since ++ more, ¬ p o := by
  intro o ho
  rcases List.mem_append.mp ho with ho | ho
  · exact h o ho
  · exact hm o ho

variable {b session}

theorem InSession.later {q r : List (Occurrence T) → Prop} {past : List (Occurrence T)}
    (h : InSession b session q past) {more : List (Occurrence T)} (hm : ∀ o ∈ more, ¬ o.EndsSession)
    (hq : ∀ since, q since → r (since ++ more)) : InSession b session r (past ++ more) :=
  Once.later h more fun since hs => ⟨append_free hs.1 hm, hq since hs.2⟩

theorem Verdict.later {adapter operation : ℕ} {metadata : OwnedFlowMetadata} {answer : Option (List IpAddr)}
    {admitted : List IpAddr} {since : List (Occurrence T)}
    (h : Verdict b session adapter operation metadata answer admitted since) {more : List (Occurrence T)}
    (hm : ∀ o ∈ more, ¬ o.EndsVerdict) :
    Verdict b session adapter operation metadata answer admitted (since ++ more) :=
  Once.later h more fun _ hs =>
    ⟨append_free hs.1 hm, fun address ha => List.mem_append_left _ (hs.2 address ha)⟩

theorem Resolution.later {p : PendingServerFlow} {since : List (Occurrence T)} (h : Resolution b session p since)
    {more : List (Occurrence T)} (hm : ∀ o ∈ more, ¬ o.EndsVerdict) : Resolution b session p (since ++ more) := by
  intro hp
  obtain ⟨adapter, ha, hlen, hv⟩ := h hp
  exact ⟨adapter, ha, hlen, hv.later hm⟩

theorem FlowStanding.change {p p' : PendingServerFlow} {since : List (Occurrence T)}
    (h : FlowStanding b session p since) {more : List (Occurrence T)} (hm : ∀ o ∈ more, ¬ o.EndsFlow)
    (hrequest : p'.request = p.request) (hmetadata : p'.metadata = p.metadata)
    (hoperation : p'.operation = p.operation)
    (hunresolved : p'.admitted = false → p'.resolvedAddresses = none ∧ p'.resolutionComplete = false)
    (hcursor : p'.resolvedAddresses = none → p'.resolvedCursor = 0)
    (hadmitted : ∀ since, (p.admitted → Once (· = admits b session p.metadata) (Resolution b session p) since) →
      p'.admitted → Once (· = admits b session p.metadata) (Resolution b session p') (since ++ more)) :
    FlowStanding b session p' (since ++ more) := by
  refine ⟨by rw [hmetadata, hrequest, h.metadata], hunresolved, hcursor, ?_⟩
  rw [hrequest, hoperation, hmetadata]
  exact h.past.later more fun since hs => ⟨append_free hs.1 hm, hadmitted since hs.2⟩

theorem FlowStanding.later {p : PendingServerFlow} {since : List (Occurrence T)}
    (h : FlowStanding b session p since) {more : List (Occurrence T)} (hm : ∀ o ∈ more, ¬ o.EndsVerdict) :
    FlowStanding b session p (since ++ more) :=
  h.change (fun o ho he => hm o ho he.endsVerdict) rfl rfl rfl h.unresolved h.cursor fun _ hs ha =>
    (hs ha).later more fun _ hr => hr.later hm

theorem ClientStanding.later {p : PendingClientFlow} {since : List (Occurrence T)}
    (h : ClientStanding b session p since) {more : List (Occurrence T)} (hm : ∀ o ∈ more, ¬ o.EndsRequest) :
    ClientStanding b session p (since ++ more) :=
  ⟨h.1, h.2.later more fun _ hs =>
    ⟨append_free hs.1 hm, fun ha => List.mem_append_left _ (hs.2 ha)⟩⟩

end Past
section Sessions
variable {W T : Type} (b : TunnelBinding)

/-- The history is lawful, and belongs to this session and to the client flow at hand. -/
structure Seated (l : Live W T) : Prop where
  lawful : Lawful (Allowed b) l.host.trace
  past : InSession b l.session.policySession (ClientPast b l.session) l.host.trace

/-- Besides, it bears out the flags of the server flow at hand. -/
structure Standing (l : Live W T) : Prop where
  lawful : Lawful (Allowed b) l.host.trace
  past : InSession b l.session.policySession
    (fun since => ServerPast b l.session since ∧ ClientPast b l.session since) l.host.trace

/-- A poll keeps the history lawful, and the session in good standing unless it fails. -/
structure Kept {α : Type} (r : Reply W T α) : Prop where
  lawful : Lawful (Allowed b) r.2.host.trace
  standing : ∀ a, r.1 = .ok a → Standing b r.2

variable {b} {l l' : Live W T}

theorem Standing.seated (h : Standing b l) : Seated b l :=
  ⟨h.lawful, Once.imp h.past fun _ hs => ⟨hs.1, hs.2.2⟩⟩

theorem Standing.kept {α : Type} (a : α) (h : Standing b l) : Kept b (.ok a, l) :=
  ⟨h.lawful, fun _ _ => h⟩

theorem kept_error {α : Type} (e : SessionFlowError) (h : Lawful (Allowed b) l.host.trace) :
    Kept b ((.error e, l) : Reply W T α) :=
  ⟨h, by simp⟩

structure SameFlows (s s' : EstablishedSession T) : Prop where
  policySession : s'.policySession = s.policySession
  pending : s'.pending = s.pending
  clientPending : s'.clientPending = s.clientPending
  responding : s'.responding.isNone = s.responding.isNone

theorem Around.sameFlows (h : Around l l') : SameFlows l.session l'.session :=
  ⟨h.policySession, h.pending, h.clientPending, h.responding⟩

theorem Standing.later (h : Standing b l) (hs : SameFlows l.session l'.session) {more : List (Occurrence T)}
    (ht : l'.host.trace = l.host.trace ++ more) (hm : ∀ o ∈ more, ¬ o.EndsVerdict)
    (hc : ∀ o ∈ more, ¬ o.EndsRequest) (hl : Lawful (Allowed b) l'.host.trace) : Standing b l' := by
  refine ⟨hl, ?_⟩
  rw [ht, hs.policySession]
  refine h.past.later (fun o ho he => hm o ho he.endsFlow.endsVerdict) fun since hp => ⟨?_, ?_⟩
  · intro hr p hpending hsent
    rw [hs.responding] at hr
    rw [hs.pending] at hpending
    rw [hs.policySession]
    exact (hp.1 hr p hpending hsent).later hm
  · intro p hpending
    rw [hs.clientPending] at hpending
    rw [hs.policySession]
    exact (hp.2 p hpending).later hc

theorem Seated.later (h : Seated b l) (hp : l'.session.policySession = l.session.policySession)
    (hc : l'.session.clientPending = l.session.clientPending) {more : List (Occurrence T)}
    (ht : l'.host.trace = l.host.trace ++ more) (hm : ∀ o ∈ more, ¬ o.EndsFlow)
    (hr : ∀ o ∈ more, ¬ o.EndsRequest) (hl : Lawful (Allowed b) l'.host.trace) : Seated b l' := by
  refine ⟨hl, ?_⟩
  rw [ht, hp]
  refine h.past.later (fun o ho he => hm o ho he.endsFlow) fun since hs => ?_
  intro p hpending
  rw [hc] at hpending
  rw [hp]
  exact (hs p hpending).later hr

theorem Standing.around (h : Standing b l) (ha : Around l l') : Standing b l' := by
  obtain ⟨more, ht, hn⟩ := ha.trace
  refine h.later ha.sameFlows ht (fun o ho => (hn o ho).not_endsVerdict)
    (fun o ho => (hn o ho).not_endsRequest) ?_
  rw [ht]
  exact h.lawful.append more fun o ho past => (hn o ho).allowed b past

theorem Seated.around (h : Seated b l) (ha : Around l l') : Seated b l' := by
  obtain ⟨more, ht, hn⟩ := ha.trace
  refine h.later ha.policySession ha.clientPending ht
    (fun o ho he => (hn o ho).not_endsVerdict he.endsVerdict) (fun o ho => (hn o ho).not_endsRequest) ?_
  rw [ht]
  exact h.lawful.append more fun o ho past => (hn o ho).allowed b past

theorem Seated.standing (h : Seated b l)
    (hr : l.session.responding.isNone → ∀ p, l.session.pending = some p → p.responseSent = true) :
    Standing b l :=
  ⟨h.lawful, Once.imp h.past fun _ hs => ⟨hs.1, fun hnone p hp hsent => by simp [hr hnone p hp] at hsent, hs.2⟩⟩

theorem Seated.idle (h : Seated b l) (hp : l.session.pending = none) : Standing b l :=
  h.standing fun _ p hsome => by simp [hp] at hsome

theorem Standing.modify (h : Standing b l) {f : EstablishedSession T → EstablishedSession T}
    (hs : SameFlows l.session (f l.session)) : Standing b (l.modify f) :=
  h.later hs (List.append_nil _).symm (by simp) (by simp) h.lawful

theorem Seated.modify (h : Seated b l) {f : EstablishedSession T → EstablishedSession T}
    (hp : (f l.session).policySession = l.session.policySession)
    (hc : (f l.session).clientPending = l.session.clientPending) : Seated b (l.modify f) :=
  h.later hp hc (List.append_nil _).symm (by simp) (by simp) h.lawful

theorem startResponse_kept (h : Seated b l) (status : OpenStatus) (reason : String) :
    Kept b (l.startResponse status reason) := by
  unfold Live.startResponse
  split
  · exact kept_error _ h.lawful
  · dsimp only
    split
    · exact kept_error _ h.lawful
    · split
      · exact kept_error _ h.lawful
      · exact Standing.kept () ((h.modify rfl rfl).standing (by simp [Live.modify]))

theorem Live.call_sameFlows [Modules W T] (l : Live W T) (call : ModuleCall) :
    SameFlows l.session (l.call call).2.session := by
  obtain ⟨f, hf⟩ := l.call_session call
  rw [hf]
  exact ⟨rfl, rfl, rfl, EstablishedSession.touch_responding_isNone _ _⟩

/-- A session in good standing that has not answered the flow `p` yet. -/
structure Facing (b : TunnelBinding) (l : Live W T) (p : PendingServerFlow) : Prop where
  standing : Standing b l
  pending : l.session.pending = some p
  unsent : p.responseSent = false
  free : l.session.responding.isNone

theorem Facing.past {p : PendingServerFlow} (h : Facing b l p) :
    InSession b l.session.policySession (fun since =>
      FlowStanding b l.session.policySession p since ∧ ClientPast b l.session since) l.host.trace :=
  Once.imp h.standing.past fun _ hs => ⟨hs.1, hs.2.1 h.free p h.pending h.unsent, hs.2.2⟩

theorem Facing.change {p p' : PendingServerFlow} (h : Facing b l p) (hs : SameFlows l.session l'.session)
    (hsent : p'.responseSent = false) {more : List (Occurrence T)}
    (ht : l'.host.trace = l.host.trace ++ more) (hm : ∀ o ∈ more, ¬ o.EndsFlow)
    (hc : ∀ o ∈ more, ¬ o.EndsRequest) (hl : Lawful (Allowed b) l'.host.trace)
    (hflow : ∀ since, FlowStanding b l.session.policySession p since →
      FlowStanding b l.session.policySession p' (since ++ more)) : Facing b (l'.setPending (some p')) p' := by
  refine ⟨⟨hl, ?_⟩, rfl, hsent, hs.responding.trans h.free⟩
  change InSession b l'.session.policySession _ l'.host.trace
  rw [ht, hs.policySession]
  refine h.past.later (fun o ho he => hm o ho he.endsFlow) fun since hp => ⟨fun _ q hq _ => ?_, fun q hq => ?_⟩
  · cases hq
    change FlowStanding b l'.session.policySession _ _
    rw [hs.policySession]
    exact hflow since hp.1
  · change l'.session.clientPending = some q at hq
    rw [hs.clientPending] at hq
    change ClientStanding b l'.session.policySession _ _
    rw [hs.policySession]
    exact (hp.2 q hq).later hc

theorem Facing.setPending {p p' : PendingServerFlow} (h : Facing b l p) (hsent : p'.responseSent = false)
    (hflow : ∀ since : List (Occurrence T), FlowStanding b l.session.policySession p since →
      FlowStanding b l.session.policySession p' since) : Facing b (l.setPending (some p')) p' :=
  h.change ⟨rfl, rfl, rfl, rfl⟩ hsent (List.append_nil _).symm (by simp) (by simp) h.standing.lawful
    fun since hs => by
      rw [List.append_nil]
      exact hflow since hs

theorem Facing.answer [Modules W T] {p p' : PendingServerFlow} (h : Facing b l p) (call : ModuleCall)
    (hallowed : Allowed b l.host.trace (.call call (l.call call).1)) (hsent : p'.responseSent = false)
    (hflow : ∀ since, FlowStanding b l.session.policySession p since →
      FlowStanding b l.session.policySession p' (since ++ [.call call (l.call call).1])) :
    Facing b ((l.call call).2.setPending (some p')) p' :=
  h.change (l.call_sameFlows call) hsent (l.call_trace call) (by simp [Occurrence.EndsFlow])
    (by simp [Occurrence.EndsRequest]) (by rw [l.call_trace]; exact h.standing.lawful.snoc hallowed) hflow

theorem Facing.forget {p : PendingServerFlow} (h : Facing b (l.setPending (some p)) p)
    (hp : l.session.pending = some p) : Facing b l p := by
  have hsame : l.setPending (some p) = l := by
    obtain ⟨host, session⟩ := l
    cases session
    simp only [Live.setPending, Live.modify] at hp ⊢
    rw [hp]
  rwa [hsame] at h

theorem Facing.cleared {p : PendingServerFlow} (h : Facing b l p) (hadmitted : p.admitted)
    (hcomplete : p.resolutionComplete) {adapter : ℕ} (hadapter : b.adapters[p.adapterCursor]? = some adapter) :
    ServerCleared b adapter p.operation p.metadata l.host.trace := by
  obtain ⟨before, o, after, ht, hattached, hno, hflow, -⟩ := h.past
  refine ⟨l.session.policySession, p.request, hflow.metadata, before, o, after, ht, hattached, hno, ?_⟩
  refine hflow.past.imp fun since hs => ⟨hs.1, (hs.2 hadmitted).imp fun since hr => ?_⟩
  obtain ⟨adapter', hadapter', hlen, hverdict⟩ := hr (.inr hcomplete)
  rw [hadapter] at hadapter'
  cases hadapter'
  rw [List.take_of_length_le (hlen hcomplete)] at hverdict
  exact ⟨p.resolvedAddresses, hverdict⟩

variable [Modules W T]

theorem pendingOpen_kept {p : PendingServerFlow} (h : Facing b l p) (hadmitted : p.admitted)
    (hcomplete : p.resolutionComplete) {adapter : ℕ} (hadapter : b.adapters[p.adapterCursor]? = some adapter) :
    Kept b (Live.pendingOpen b l p adapter) := by
  have hallowed := h.cleared hadmitted hcomplete hadapter
  have htrace := l.call_trace (.adapterOpen adapter p.operation p.metadata)
  have hsame := l.call_sameFlows (.adapterOpen adapter p.operation p.metadata)
  have hlaw : Lawful (Allowed b) (l.call (.adapterOpen adapter p.operation p.metadata)).2.host.trace := by
    rw [htrace]
    exact h.standing.lawful.snoc hallowed
  have hseated : Seated b (l.call (.adapterOpen adapter p.operation p.metadata)).2 :=
    h.standing.seated.later hsame.policySession hsame.clientPending htrace (by simp [Occurrence.EndsFlow])
      (by simp [Occurrence.EndsRequest]) hlaw
  unfold Live.pendingOpen
  split <;> rename_i heq
  · -- the flow is open: ports are taken and the peer gets its answer
    rename_i flow l₁
    rw [heq] at hseated
    have hports := Live.openPorts_around b p.request
      (Around.refl (l₁.setPending (some { p with adapterFlow := some (adapter, flow) })))
    have hseated' : Seated b _ := Seated.around (hseated.modify rfl rfl) hports
    dsimp only
    split <;> rename_i heq' <;> rw [heq'] at hseated'
    · exact startResponse_kept (hseated'.modify rfl rfl) _ _
    · exact startResponse_kept hseated' _ _
  · split
    · -- the next adapter starts without a verdict
      let q : PendingServerFlow := { p with
        adapterCursor := p.adapterCursor + 1, resolvedAddresses := none, resolvedCursor := 0,
        resolutionComplete := false }
      have hnext : Facing b ((l.call (.adapterOpen adapter p.operation p.metadata)).2.setPending (some q)) q := by
        refine h.answer (.adapterOpen adapter p.operation p.metadata) hallowed h.unsent fun since hs => ?_
        refine hs.change (by simp [Occurrence.EndsFlow]) rfl rfl rfl (fun _ => ⟨rfl, rfl⟩) (fun _ => rfl) ?_
        intro since hs' ha
        exact (hs' ha).later _ fun _ _ hr => by simp [q] at hr
      rw [heq] at hnext
      exact hnext.standing.kept ()
    · rw [heq] at hseated
      exact startResponse_kept hseated _ _
  · refine Standing.kept () ?_
    rw [heq] at htrace hsame hlaw
    exact h.standing.later hsame htrace (by simp [Occurrence.EndsVerdict]) (by simp [Occurrence.EndsRequest]) hlaw

theorem advance_kept {p : PendingServerFlow} (h : Facing b (l.setPending (some p)) p) (hadmitted : p.admitted)
    {adapter : ℕ} (hadapter : b.adapters[p.adapterCursor]? = some adapter) {addresses : List IpAddr}
    (haddresses : p.resolvedAddresses = some addresses) :
    Kept b (Live.pendingAdmitResolved.advance b adapter addresses l p) := by
  unfold Live.pendingAdmitResolved.advance
  split
  · rename_i hlen
    have hnext : Facing b (l.setPending (some { p with resolutionComplete := true }))
        { p with resolutionComplete := true } := by
      refine h.setPending h.unsent fun since hs => ?_
      refine ⟨hs.metadata, fun ha => by simp [hadmitted] at ha, hs.cursor, hs.past.imp fun since hp =>
        ⟨hp.1, fun ha => (hp.2 ha).imp fun since hr _ => ?_⟩⟩
      obtain ⟨adapter', ha', -, hv⟩ := hr (.inl (by simp [haddresses]))
      exact ⟨adapter', ha', fun _ => by simpa [haddresses] using hlen, hv⟩
    exact pendingOpen_kept hnext hadmitted rfl hadapter
  · exact h.standing.kept ()

theorem pendingAdmitResolved_kept {p : PendingServerFlow} (h : Facing b l p) (hadmitted : p.admitted)
    {adapter : ℕ} (hadapter : b.adapters[p.adapterCursor]? = some adapter) {addresses : List IpAddr}
    (haddresses : p.resolvedAddresses = some addresses) (hopen : p.resolutionComplete = false) :
    Kept b (Live.pendingAdmitResolved b l p adapter addresses) := by
  unfold Live.pendingAdmitResolved
  split
  · exact advance_kept (h.setPending h.unsent fun _ hs => hs) hadmitted hadapter haddresses
  · rename_i address haddress
    let call : ModuleCall :=
      .policyAdmitResolved b.policy l.session.policySession (p.metadata.resolved address)
    have haround := Live.call_around (l := l) (c := call) (Around.refl l) fun _ => trivial
    split <;> rename_i heq
    · -- one more address of the verdict in force is admitted
      have hanswer : (l.call call).1 = .ready (.ok ()) := by rw [heq]
      have hnext : Facing b ((l.call call).2.setPending (some { p with resolvedCursor := p.resolvedCursor + 1 }))
          { p with resolvedCursor := p.resolvedCursor + 1 } := by
        refine h.answer call trivial h.unsent fun since hs => ?_
        refine hs.change (by simp [Occurrence.EndsFlow]) rfl rfl rfl hs.unresolved
          (fun hnone => by simp [haddresses] at hnone) fun since hs' ha => ?_
        refine (hs' ha).later _ fun since hr _ => ?_
        obtain ⟨adapter', ha', -, hv⟩ := hr (.inl (by simp [haddresses]))
        refine ⟨adapter', ha', fun hc => by simp [hopen] at hc, Once.later hv _ fun since hv' => ?_⟩
        refine ⟨append_free hv'.1 (by simp [call, Occurrence.EndsVerdict]), fun other hm => ?_⟩
        rw [haddresses, Option.getD_some, List.take_add_one, haddress, Option.toList_some] at hm
        rcases List.mem_append.mp hm with hm | hm
        · exact List.mem_append_left _ (hv'.2 other (by rw [haddresses, Option.getD_some]; exact hm))
        · rw [List.mem_singleton.mp hm, hanswer]
          exact List.mem_append_right _ (List.mem_singleton.mpr rfl)
      have hl : (l.call call).2 = _ := congrArg Prod.snd heq
      rw [hl] at hnext
      exact advance_kept hnext hadmitted hadapter haddresses
    · rw [show l.call call = _ from heq] at haround
      exact startResponse_kept (h.standing.seated.around haround) _ _
    · rw [show l.call call = _ from heq] at haround
      exact (h.standing.around haround).kept ()

theorem pendingResolve_kept {p : PendingServerFlow} (h : Facing b l p) (hadmitted : p.admitted)
    {adapter : ℕ} (hadapter : b.adapters[p.adapterCursor]? = some adapter) :
    Kept b (Live.pendingResolve b l p adapter) := by
  unfold Live.pendingResolve
  split
  · rename_i hcomplete
    exact pendingOpen_kept h hadmitted hcomplete hadapter
  · rename_i hopen
    have hopen' : p.resolutionComplete = false := by simpa using hopen
    split
    · rename_i addresses haddresses
      exact pendingAdmitResolved_kept h hadmitted hadapter haddresses hopen'
    · rename_i hnone
      let call : ModuleCall := .adapterResolve adapter p.operation p.metadata
      have htrace := l.call_trace call
      have hsame := l.call_sameFlows call
      have hlaw : Lawful (Allowed b) (l.call call).2.host.trace := by
        rw [htrace]
        exact h.standing.lawful.snoc trivial
      have hseated : Seated b (l.call call).2 :=
        h.standing.seated.later hsame.policySession hsame.clientPending htrace (by simp [Occurrence.EndsFlow])
          (by simp [Occurrence.EndsRequest]) hlaw
      -- the answer starts a verdict under which no address is admitted yet
      have hverdict (answer : Option (List IpAddr)) (ha : (l.call call).1 = .ready (.ok answer))
          (q : PendingServerFlow)
          (hq : q = { p with resolvedAddresses := answer, resolutionComplete := answer.isNone }) :
          Facing b ((l.call call).2.setPending (some q)) q := by
        subst hq
        refine h.answer call trivial h.unsent fun since hs => ?_
        refine hs.change (by simp [Occurrence.EndsFlow]) rfl rfl rfl (fun hx => by simp [hadmitted] at hx)
          (fun _ => hs.cursor hnone) fun since hs' hx => ?_
        refine (hs' hx).later _ fun since _ _ => ⟨adapter, hadapter, fun hc => ?_, ?_⟩
        · cases answer with
          | none => simp
          | some addresses => simp at hc
        · rw [ha]
          refine Once.now since rfl ⟨by simp, ?_⟩
          simp [hs.cursor hnone]
      split <;> rename_i heq
      · rename_i addresses l₁
        have hnext := hverdict (some addresses) (by rw [heq]) { p with resolvedAddresses := some addresses }
          (by simp [hopen'])
        have hl : (l.call call).2 = l₁ := congrArg Prod.snd heq
        rw [hl] at hnext
        exact pendingAdmitResolved_kept hnext hadmitted hadapter rfl hopen'
      · rename_i l₁
        have hnext := hverdict none (by rw [heq]) { p with resolutionComplete := true } (by simp [hnone])
        have hl : (l.call call).2 = l₁ := congrArg Prod.snd heq
        rw [hl] at hnext
        exact pendingOpen_kept hnext hadmitted rfl hadapter
      · rw [show l.call call = _ from heq] at hseated
        exact startResponse_kept hseated _ _
      · have hnext : Facing b ((l.call call).2.setPending (some p)) p := by
          refine h.answer call trivial h.unsent fun since hs => ?_
          refine hs.change (by simp [Occurrence.EndsFlow]) rfl rfl rfl hs.unresolved hs.cursor fun since hs' hx => ?_
          exact (hs' hx).later _ fun since _ hr => by simp [hnone, hopen'] at hr
        have hpend : (l.call call).2.session.pending = some p := hsame.pending.trans h.pending
        have hl : (l.call call).2 = _ := congrArg Prod.snd heq
        have hfacing := hnext.forget hpend
        rw [hl] at hfacing
        exact hfacing.standing.kept ()

theorem pendingAdapter_kept {p : PendingServerFlow} (h : Facing b l p) (hadmitted : p.admitted) :
    Kept b (Live.pendingAdapter b l p) := by
  unfold Live.pendingAdapter
  split
  · exact startResponse_kept h.standing.seated _ _
  · rename_i adapter hadapter
    exact pendingResolve_kept h hadmitted hadapter

theorem attachPending_kept (h : Seated b l) : Kept b (Live.attachPending b l) := by
  unfold Live.attachPending
  split
  · exact kept_error _ h.lawful
  · rename_i pending _
    have hfree : Standing b (l.setPending none) := Seated.idle (h.modify rfl rfl) rfl
    dsimp only
    split
    · rename_i adapter flow ports _ _ _ _
      have hports := hfree.around (Live.attachPorts_around b adapter flow ports (Around.refl _))
      split <;> rename_i heq <;> rw [heq] at hports
      · exact kept_error _ hports.lawful
      · rename_i muxHandle l₁
        have hdone := hports.around (Live.call_around (c := .adapterCompleteFlow adapter flow Status.ok.code [])
          (Around.refl l₁) fun _ => trivial)
        unfold Live.attempt
        split <;> rename_i heq' <;> rw [heq'] at hdone
        · exact (hdone.modify ⟨rfl, rfl, rfl, rfl⟩).kept ()
        · exact kept_error _ hdone.lawful
    · exact kept_error _ hfree.lawful

theorem rejectPending_standing (h : Seated b l) : Standing b l.rejectPending := by
  unfold Live.rejectPending
  split
  · rename_i hnone
    exact h.idle hnone
  · rename_i pending _
    have hfree : Standing b (l.setPending none) := Seated.idle (h.modify rfl rfl) rfl
    have hrelease {l : Live W T} (hl : Standing b l) :
        Standing b ((l.modify EstablishedSession.release).dropStream pending.stream) :=
      (hl.modify ⟨rfl, rfl, rfl, rfl⟩).around (Live.dropStream_around _ _)
    dsimp only
    split
    · exact hrelease (hfree.around (Live.call_around (Around.refl _) fun _ => trivial))
    · exact hrelease hfree

theorem pollPending_kept (h : Standing b l) (hr : l.session.responding.isNone) :
    Kept b (Live.pollPending b l) := by
  unfold Live.pollPending
  split
  · exact kept_error _ h.lawful
  · rename_i p hp
    split
    · exact attachPending_kept h.seated
    · rename_i hsent
      have hfacing : Facing b l p := ⟨h, hp, by simpa using hsent, hr⟩
      split
      · rename_i hadmitted
        exact pendingAdapter_kept hfacing hadmitted
      · rename_i hadmitted
        have hfresh : p.admitted = false := by simpa using hadmitted
        let call : ModuleCall := .policyAdmitFlow b.policy l.session.policySession p.metadata
        have haround := Live.call_around (l := l) (c := call) (Around.refl l) fun _ => trivial
        split <;> rename_i heq
        · have hanswer : (l.call call).1 = .ready (.ok ()) := by rw [heq]
          have hnext : Facing b ((l.call call).2.setPending (some { p with admitted := true }))
              { p with admitted := true } := by
            refine hfacing.answer call trivial hfacing.unsent fun since hs => ?_
            refine hs.change (by simp [Occurrence.EndsFlow]) rfl rfl rfl (by simp) hs.cursor fun since _ _ => ?_
            rw [hanswer]
            exact Once.now since rfl fun hx => by simp [hs.unresolved hfresh] at hx
          have hl : (l.call call).2 = _ := congrArg Prod.snd heq
          rw [hl] at hnext
          exact pendingAdapter_kept hnext rfl
        · rw [show l.call call = _ from heq] at haround
          exact startResponse_kept (h.seated.around haround) _ _
        · rw [show l.call call = _ from heq] at haround
          exact (h.around haround).kept ()

variable [AsyncIo T]

theorem pollResponding_kept (h : Standing b l) {stage : RespondFlow} {stream : MuxStream} {mux : MuxSession T}
    (hr : l.session.responding = some (stage, stream, mux)) :
    Kept b (Live.pollResponding b l stage stream mux) := by
  unfold Live.pollResponding
  split
  · exact (h.modify ⟨rfl, rfl, rfl, by simp [hr]⟩).kept ()
  · rename_i result mux' _
    have hfree : Seated b (l.modify fun s => { s with responding := none, mux := some mux' }) :=
      h.seated.modify rfl rfl
    dsimp only
    split
    · exact kept_error _ hfree.lawful
    · split
      · exact kept_error _ hfree.lawful
      · split
        · exact pollPending_kept ((hfree.modify rfl rfl).standing (by simp [Live.modify])) rfl
        · exact (rejectPending_standing (hfree.modify rfl rfl)).kept ()

theorem pollAccepting_kept (h : Standing b l) (hr : l.session.responding.isNone) (stage : AcceptFlow)
    (mux : MuxSession T) : Kept b (Live.pollAccepting b l stage mux) := by
  unfold Live.pollAccepting
  split
  · exact (h.modify ⟨rfl, rfl, rfl, rfl⟩).kept ()
  · rename_i result mux' _
    have hdone : Standing b (l.modify fun s => { s with accepting := none, mux := some mux' }) :=
      h.modify ⟨rfl, rfl, rfl, rfl⟩
    dsimp only
    split
    · exact kept_error _ hdone.lawful
    · rename_i request stream _
      have htrace := l.host.nextOperation_trace
      split <;> rename_i heq
      · refine kept_error _ ?_
        rw [show l.host.nextOperation = _ from heq] at htrace
        rw [htrace]
        exact h.lawful
      · rename_i operation host
        rw [show l.host.nextOperation = _ from heq] at htrace
        refine pollPending_kept ⟨?_, ?_⟩ hr
        · change Lawful _ (host.trace ++ [.serverFlow operation request])
          rw [htrace]
          exact h.lawful.snoc trivial
        · change InSession b l.session.policySession _ (host.trace ++ [.serverFlow operation request])
          rw [htrace]
          refine h.past.later (by simp [Occurrence.EndsSession]) fun since hs =>
            ⟨fun _ p hsome _ => ?_, fun p hsome => ?_⟩
          · cases hsome
            exact ⟨rfl, fun _ => ⟨rfl, rfl⟩, fun _ => rfl, Once.now since rfl ⟨by simp, by simp⟩⟩
          · exact (hs.2 p hsome).later (by simp [Occurrence.EndsRequest])

theorem pollServer_kept (h : Standing b l) : Kept b (Live.pollServer b l) := by
  unfold Live.pollServer
  split
  · rename_i hr
    exact pollResponding_kept h hr
  · rename_i hr
    split
    · exact pollPending_kept h (by simp [hr])
    · split
      · exact pollAccepting_kept h (by simp [hr]) _ _
      · split
        · exact kept_error _ h.lawful
        · exact (h.modify ⟨rfl, rfl, rfl, rfl⟩).kept ()

omit [AsyncIo T] in
theorem reapClosed_standing (h : Standing b l) : Standing b l.reapClosed := by
  have hclose (closed : List (ℕ × UInt64)) {l : Live W T} (hl : Standing b l) : Standing b (l.closeFlows closed) := by
    unfold Live.closeFlows
    induction closed generalizing l with
    | nil => exact hl
    | cons flow closed ih =>
      have hcall := hl.around
        (Live.call_around (c := .adapterCloseFlow flow.1 flow.2) (Around.refl l) fun _ => trivial)
      exact ih (hcall.modify ⟨rfl, rfl, rfl, rfl⟩)
  have hactive := h.modify (f := fun s =>
    { s with active := s.active.filter fun flow => l.host.registry.isRegistered flow.muxHandle })
    ⟨rfl, rfl, rfl, rfl⟩
  unfold Live.reapClosed
  dsimp only
  split
  · exact hclose _ hactive
  · exact hactive

omit [AsyncIo T] [Modules W T] in
theorem takeFlow_standing (h : Standing b l) {p : PendingClientFlow} (hm : p.metadata = .fromRequest p.request)
    (ha : p.admitted = false) : Standing b (l.takeFlow p) := by
  refine ⟨h.lawful.snoc trivial, ?_⟩
  refine h.past.later (by simp [Occurrence.EndsSession]) fun since hs => ⟨fun hr q hq hsent => ?_, fun q hq => ?_⟩
  · exact (hs.1 hr q hq hsent).later (by simp [Occurrence.EndsVerdict])
  · cases hq
    exact ⟨hm, Once.now since rfl ⟨by simp, by simp [ha]⟩⟩

omit [AsyncIo T] in
theorem acceptPacketTcp_kept (h : Standing b l) : Kept b (Live.acceptPacketTcp b l) := by
  have hcall := h.around (Live.call_around (c := .stackAcceptPacketTcp) (Around.refl l) fun _ => trivial)
  unfold Live.acceptPacketTcp
  split
  · split <;> rename_i heq <;> rw [heq] at hcall
    · exact (takeFlow_standing hcall rfl rfl).kept ()
    · exact hcall.kept ()
    · exact kept_error _ hcall.lawful
  · exact h.kept ()

omit [AsyncIo T] in
theorem acceptPacketUdp_kept (h : Standing b l) : Kept b (Live.acceptPacketUdp b l) := by
  have hcall := h.around (Live.call_around (c := .stackAcceptPacketUdp) (Around.refl l) fun _ => trivial)
  unfold Live.acceptPacketUdp
  split
  · split <;> rename_i heq <;> rw [heq] at hcall
    · exact (takeFlow_standing hcall rfl rfl).kept ()
    · exact hcall.kept ()
    · exact kept_error _ hcall.lawful
  · exact h.kept ()

omit [AsyncIo T] in
theorem acceptAdapter_kept (adapters : List ℕ) (h : Standing b l) : Kept b (l.acceptAdapter adapters) := by
  induction adapters generalizing l with
  | nil => exact h.kept ()
  | cons adapter rest ih =>
    have hcall := h.around (Live.call_around (c := .adapterAccept adapter) (Around.refl l) fun _ => trivial)
    unfold Live.acceptAdapter
    split <;> rename_i heq <;> rw [heq] at hcall
    · exact (takeFlow_standing hcall rfl rfl).kept ()
    · split
      · exact ih hcall
      · exact kept_error _ hcall.lawful
    · exact ih hcall

omit [AsyncIo T] in
theorem acceptClient_kept (h : Standing b l) : Kept b (Live.acceptClient b l) := by
  have htcp := acceptPacketTcp_kept h
  unfold Live.acceptClient
  split <;> rename_i heq <;> rw [heq] at htcp
  · exact kept_error _ htcp.lawful
  · have hudp := acceptPacketUdp_kept (htcp.standing () rfl)
    split <;> rename_i heq' <;> rw [heq'] at hudp
    · exact kept_error _ hudp.lawful
    · split
      · exact acceptAdapter_kept _ (hudp.standing () rfl)
      · exact (hudp.standing () rfl).kept ()

omit [AsyncIo T] [Modules W T] in
theorem Standing.clientCleared (h : Standing b l) {p : PendingClientFlow}
    (hp : l.session.clientPending = some p) (ha : p.admitted) : ClientCleared b p.request l.host.trace := by
  refine ⟨l.session.policySession, Once.imp h.past fun since hs => ⟨hs.1, ?_⟩⟩
  obtain ⟨hm, hpast⟩ := hs.2.2 p hp
  exact hpast.imp fun since hq => ⟨hq.1, hm ▸ hq.2 ha⟩

omit [AsyncIo T] [Modules W T] in
theorem Standing.setClientPending_none (h : Standing b l) : Standing b (l.setClientPending none) :=
  ⟨h.lawful, Once.imp h.past fun _ hs => ⟨hs.1, hs.2.1, by simp [ClientPast, Live.setClientPending, Live.modify]⟩⟩

omit [AsyncIo T] [Modules W T] in
theorem beginOpening_kept (h : Standing b l) {p : PendingClientFlow}
    (hcleared : ClientCleared b p.request l.host.trace) : Kept b (l.beginOpening p) := by
  have hfree := h.setClientPending_none
  have hnoted : Standing b ((l.setClientPending none).note (.beginOpen p.request)) :=
    hfree.later ⟨rfl, rfl, rfl, rfl⟩ rfl (by simp [Occurrence.EndsVerdict]) (by simp [Occurrence.EndsRequest])
      (hfree.lawful.snoc hcleared)
  unfold Live.beginOpening
  dsimp only
  split
  · exact kept_error _ hfree.lawful
  · split
    · exact kept_error _ hnoted.lawful
    · exact (hnoted.modify ⟨rfl, rfl, rfl, rfl⟩).kept ()

omit [AsyncIo T] in
theorem openClient_kept (h : Standing b l) {p : PendingClientFlow} (hp : l.session.clientPending = some p)
    (ha : p.admitted) : Kept b (Live.openClient b l p) := by
  unfold Live.openClient
  split
  · exact beginOpening_kept h (h.clientCleared hp ha)
  · have haround := Live.clientPort_around b p (Around.refl l)
    split <;> rename_i heq <;> rw [heq] at haround
    · exact kept_error _ (h.around haround).lawful
    · have hnext := h.around haround
      have hcleared := hnext.clientCleared (haround.clientPending.trans hp) ha
      exact beginOpening_kept hnext hcleared

omit [AsyncIo T] [Modules W T] in
theorem admitted_standing (h : Standing b l) {p : PendingClientFlow} (hp : l.session.clientPending = some p)
    (hs : SameFlows l.session l'.session)
    (ht : l'.host.trace = l.host.trace ++ [admits b l.session.policySession p.metadata])
    (hl : Lawful (Allowed b) l'.host.trace) :
    Standing b (l'.setClientPending (some { p with admitted := true })) := by
  refine ⟨hl, ?_⟩
  change InSession b l'.session.policySession _ l'.host.trace
  rw [ht, hs.policySession]
  refine h.past.later (by simp [admits, Occurrence.EndsSession]) fun since hq =>
    ⟨fun hr q hpend hsent => ?_, fun q hpend => ?_⟩
  · change l'.session.responding.isNone at hr
    change l'.session.pending = some q at hpend
    rw [hs.responding] at hr
    rw [hs.pending] at hpend
    change FlowStanding b l'.session.policySession q _
    rw [hs.policySession]
    exact (hq.1 hr q hpend hsent).later (by simp [admits, Occurrence.EndsVerdict])
  · cases hpend
    change ClientStanding b l'.session.policySession _ _
    rw [hs.policySession]
    obtain ⟨hm, hpast⟩ := hq.2 p hp
    refine ⟨hm, hpast.later _ fun since hc =>
      ⟨append_free hc.1 (by simp [admits, Occurrence.EndsRequest]), fun _ => ?_⟩⟩
    exact List.mem_append_right _ (List.mem_singleton.mpr rfl)

theorem admitClient_kept (h : Standing b l) : Kept b (Live.admitClient b l) := by
  unfold Live.admitClient
  split
  · split
    · exact h.kept ()
    · split
      · exact kept_error _ h.lawful
      · exact (h.modify ⟨rfl, rfl, rfl, rfl⟩).kept ()
  · rename_i p hp
    split
    · rename_i ha
      exact openClient_kept h hp ha
    · let call : ModuleCall := .policyAdmitFlow b.policy l.session.policySession p.metadata
      have haround := Live.call_around (l := l) (c := call) (Around.refl l) fun _ => trivial
      have htrace := l.call_trace call
      have hsame := l.call_sameFlows call
      have hcall := h.around haround
      split <;> rename_i heq
      · rw [show l.call call = _ from heq] at htrace hsame hcall
        exact openClient_kept (p := { p with admitted := true }) (admitted_standing h hp hsame htrace hcall.lawful)
          rfl rfl
      · rw [show l.call call = _ from heq] at hcall
        have hdone {e : LoadError} {l₁ : Live W T} (hl : Standing b l₁) := hl.around
          (Live.completeFlow_around p (abiStatus (openError e).1) (octets (openError e).2) (Around.refl l₁))
        unfold Live.attempt
        split <;> rename_i heq' <;> replace hdone := heq' ▸ hdone hcall
        · exact hdone.setClientPending_none.kept ()
        · exact kept_error _ hdone.lawful
      · rw [show l.call call = _ from heq] at hcall
        exact hcall.kept ()

omit [AsyncIo T] in
theorem finishOpening_kept (h : Standing b l) (opening : ClientOpening) (result : Except MuxError OpenResponse) :
    Kept b (Live.finishOpening b l opening result) := by
  have hcomplete {l : Live W T} (hl : Standing b l) (status : UInt32) (reason : List UInt8) :
      Standing b (l.completeFlow opening.pending status reason).2 :=
    hl.around (Live.completeFlow_around opening.pending status reason (Around.refl l))
  unfold Live.finishOpening
  split
  · rename_i response
    split
    · split
      · exact kept_error _ h.lawful
      · rename_i port _
        have hport := h.around (Live.attachOpened_around b opening.pending port (Around.refl l))
        split <;> rename_i heq <;> rw [heq] at hport
        · exact kept_error _ hport.lawful
        · have hdone := hcomplete hport Status.ok.code []
          unfold Live.attempt
          split <;> rename_i heq' <;> rw [heq'] at hdone
          · exact (hdone.modify ⟨rfl, rfl, rfl, rfl⟩).kept ()
          · exact kept_error _ hdone.lawful
    · have hdone := hcomplete h (abiStatus response.status) (octets response.reason)
      unfold Live.attempt
      split <;> rename_i heq' <;> rw [heq'] at hdone
      · exact ((hdone.modify ⟨rfl, rfl, rfl, rfl⟩).around (Live.dropStream_around _ _)).kept ()
      · exact kept_error _ hdone.lawful
  · exact kept_error _ (hcomplete h _ _).lawful

/-- The part of `poll_client` behind the openings. -/
theorem nextFlow_kept (h : Standing b l) : Kept b (match Live.acceptClient b l with
    | (.error e, l) => (.error e, l)
    | (.ok (), l) => Live.admitClient b l) := by
  have haccept := acceptClient_kept h
  split <;> rename_i heq <;> rw [heq] at haccept
  · exact kept_error _ haccept.lawful
  · exact admitClient_kept (haccept.standing () rfl)

theorem pollClient_kept (h : Standing b l) : Kept b (Live.pollClient b l) := by
  unfold Live.pollClient
  split
  · exact nextFlow_kept h
  · dsimp only
    split
    · exact finishOpening_kept ((h.modify ⟨rfl, rfl, rfl, rfl⟩).modify ⟨rfl, rfl, rfl, rfl⟩) _ _
    · exact nextFlow_kept (h.modify ⟨rfl, rfl, rfl, rfl⟩)

theorem poll_kept (h : Standing b l) : Kept b (Live.poll b l) := by
  unfold Live.poll
  split
  · exact pollClient_kept (reapClosed_standing h)
  · exact pollServer_kept (reapClosed_standing h)

end Sessions

inductive TunnelEvent (T : Type) where
  | poll
  | disturb (effect : Effect T)

namespace Tunnel
variable {W T : Type} [Modules W T] {b : TunnelBinding} {t : Tunnel W T}

def step [AsyncIo T] (b : TunnelBinding) (t : Tunnel W T) : TunnelEvent T → Tunnel W T
  | .poll => (t.poll b).2
  | .disturb effect => t.disturb effect

structure Orderly (b : TunnelBinding) (t : Tunnel W T) : Prop where
  lawful : Lawful (Allowed b) t.host.trace
  session : ∀ s, t.state = .established s → Standing b ⟨t.host, s⟩

omit [Modules W T] in
theorem established_of_touch {state : TunnelState T} {f : Connection T → Connection T}
    {s : EstablishedSession T} (h : state.touch f = .established s) :
    ∃ s₀, state = .established s₀ ∧ s = s₀.touch f := by
  cases state with
  | established s₀ =>
    cases h
    exact ⟨s₀, rfl, rfl⟩
  | _ => simp [TunnelState.touch] at h

omit [Modules W T] in
theorem Orderly.disturb (h : Orderly b t) (effect : Effect T) : Orderly b (t.disturb effect) := by
  refine ⟨h.lawful, fun s hs => ?_⟩
  obtain ⟨s₀, hs₀, rfl⟩ := established_of_touch hs
  exact (h.session s₀ hs₀).around ⟨⟨[], (List.append_nil _).symm, by simp⟩, effect.connection, rfl⟩

theorem Orderly.call (h : Orderly b t) {c : ModuleCall}
    (hn : ∀ answer : c.Answer T, (Occurrence.call c answer).Neutral) : Orderly b (t.call c).2 := by
  refine ⟨h.lawful.snoc ((hn _).allowed b _), fun s hs => ?_⟩
  obtain ⟨s₀, hs₀, rfl⟩ := established_of_touch hs
  exact (h.session s₀ hs₀).around ⟨⟨[.call c (t.call c).1], rfl, by simpa using hn _⟩, _, rfl⟩

omit [Modules W T] in
theorem Orderly.unestablished {t' : Tunnel W T} (h : Orderly b t) (ht : t'.host.trace = t.host.trace)
    (hs : ∀ s, t'.state ≠ .established s) : Orderly b t' :=
  ⟨ht ▸ h.lawful, fun s hx => absurd hx (hs s)⟩

theorem orderly_reset (h : Lawful (Allowed b) t.host.trace) : Orderly b (t.reset b) := by
  have hreset : Lawful (Allowed b) (t.host.trace ++ [.reset]) := h.snoc trivial
  unfold Tunnel.reset
  dsimp only
  split
  · refine Orderly.unestablished (Orderly.call (t := ⟨_, .carrier, t.deadline, none⟩) (c := .instantNow)
      ⟨hreset, by simp⟩ fun _ => trivial) rfl (by simp [Tunnel.call, Tunnel.disturb, TunnelState.touch])
  · exact ⟨hreset, by simp⟩

theorem orderly_fail (h : Lawful (Allowed b) t.host.trace) (error : TunnelError) (wasEstablished : Bool) :
    Orderly b (t.fail b error wasEstablished).2 := by
  unfold Tunnel.fail
  dsimp only
  split
  · have hcall := (orderly_reset h).call (c := .instantNow) fun _ => trivial
    exact ⟨hcall.lawful, hcall.session⟩
  · exact orderly_reset h

theorem Orderly.reached (h : Orderly b t) (instant : Option ℕ) : Orderly b (t.reached instant).2 := by
  unfold Tunnel.reached
  split
  · exact h
  · exact h.call fun _ => trivial

theorem orderly_carrierAnswer {answer : Poll (Except LoadError T) × Tunnel W T} (h : Orderly b answer.2) :
    Orderly b (match answer with
      | (.ready (.ok io), t) =>
        let now := ({ t with retryAt := none, state := .protection (some io) } : Tunnel W T).call .instantNow
        ((.ok .carrierReady, { now.2 with deadline := some (now.1 + b.handshakeTimeout) }) : TunnelReply W T)
      | (.ready (.error e), t) => t.fail b (.loader e) false
      | (.pending, t) => (.ok .none, t)).2 := by
  split
  · rename_i io t₁
    have hup : Orderly b ({ t₁ with retryAt := none, state := .protection (some io) } : Tunnel W T) :=
      h.unestablished rfl (by simp)
    have hcall := hup.call (c := .instantNow) fun _ => trivial
    exact ⟨hcall.lawful, hcall.session⟩
  · exact orderly_fail h.lawful _ _
  · exact h

theorem Orderly.pollCarrier (h : Orderly b t) : Orderly b (t.pollCarrier b).2 := by
  have hretry := h.reached t.retryAt
  unfold Tunnel.pollCarrier
  dsimp only
  split
  · exact hretry
  · apply orderly_carrierAnswer
    split
    · exact hretry.call fun _ => trivial
    · exact hretry.call fun _ => trivial

theorem Orderly.pollProtection (h : Orderly b t) (lower : Option T) : Orderly b (t.pollProtection b lower).2 := by
  have hcall := h.call (c := .protectionWrap b.protection b.role) fun _ => trivial
  unfold Tunnel.pollProtection
  split
  · split
    · exact orderly_fail h.lawful _ _
    · exact h.unestablished rfl (by simp [Tunnel.startHandshake])
  · split <;> rename_i heq <;> rw [heq] at hcall
    · exact hcall.unestablished rfl (by simp [Tunnel.startHandshake])
    · exact orderly_fail hcall.lawful _ _
    · exact hcall

/-- A session starts with the attachment of the policy as its whole past. -/
theorem Orderly.pollPolicyAttach (h : Orderly b t) (stream : Option Handle) :
    Orderly b (t.pollPolicyAttach b stream).2 := by
  unfold Tunnel.pollPolicyAttach
  split
  · exact orderly_fail h.lawful _ _
  · rename_i handle
    have hcall := h.call (c := .policyAttachSession b.policy handle b.policyContext) fun _ => trivial
    have htrace : (t.call (.policyAttachSession b.policy handle b.policyContext)).2.host.trace =
        t.host.trace ++ [.call (.policyAttachSession b.policy handle b.policyContext)
          (t.call (.policyAttachSession b.policy handle b.policyContext)).1] := rfl
    split <;> rename_i heq <;> rw [heq] at hcall htrace
    · rename_i policySession t₁
      split
      · refine ⟨hcall.lawful, fun s hs => ?_⟩
        cases hs
        refine ⟨hcall.lawful, ?_⟩
        change InSession b policySession _ t₁.host.trace
        rw [htrace]
        refine Once.now _ ⟨handle, rfl⟩ ⟨by simp, fun _ p hp => ?_, fun p hp => ?_⟩
        · cases hp
        · cases hp
      · exact orderly_fail (t := ⟨t₁.host, .policyAttach none none, t₁.deadline, t₁.retryAt⟩) hcall.lawful _ _
    · exact orderly_fail hcall.lawful _ _
    · exact hcall

variable [AsyncIo T]

theorem Orderly.pollHandshake (h : Orderly b t) (stage : Handshake) (mux : MuxSession T) :
    Orderly b (t.pollHandshake b stage mux).2 := by
  unfold Tunnel.pollHandshake
  split
  · exact h.unestablished rfl (by simp)
  · exact orderly_fail (t := ⟨t.host, .handshake stage _, t.deadline, t.retryAt⟩) h.lawful _ _
  · split
    · rename_i registry _
      exact orderly_fail (t := ⟨{ t.host with registry }, t.state, t.deadline, t.retryAt⟩) h.lawful _ _
    · exact h.unestablished rfl (by simp)

theorem Orderly.pollEstablished (h : Orderly b t) {s : EstablishedSession T} (hs : t.state = .established s) :
    Orderly b (t.pollEstablished b s).2 := by
  have hkept := poll_kept (h.session s hs)
  unfold Tunnel.pollEstablished
  split <;> rename_i heq <;> rw [heq] at hkept
  · refine ⟨hkept.lawful, fun s' hs' => ?_⟩
    cases hs'
    exact hkept.standing () rfl
  · rename_i e l
    exact orderly_fail (t := ⟨l.host, .established l.session, t.deadline, t.retryAt⟩) hkept.lawful _ _

theorem Orderly.poll (h : Orderly b t) : Orderly b (t.poll b).2 := by
  have hr := h.reached t.deadline
  unfold Tunnel.poll
  dsimp only
  split
  · exact orderly_reset hr.lawful
  · split
    · exact hr.pollCarrier
    · exact hr.pollProtection _
    · exact hr.pollHandshake _ _
    · exact hr.pollPolicyAttach _
    · rename_i hs
      exact hr.pollEstablished hs

theorem Orderly.step (t : Tunnel W T) (event : TunnelEvent T) (h : Orderly b t) : Orderly b (t.step b event) := by
  cases event with
  | poll => exact h.poll
  | disturb effect => exact h.disturb effect

omit [AsyncIo T] in
theorem Orderly.new (b : TunnelBinding) (modules : W) (registry : Registry) :
    Orderly b (Tunnel.new b modules registry : Tunnel W T) := by
  have hstart : Orderly b (⟨⟨modules, registry, 1, []⟩, .carrier, none, none⟩ : Tunnel W T) :=
    ⟨Lawful.nil, by simp⟩
  unfold Tunnel.new
  dsimp only
  split
  · have hcall := hstart.call (c := .instantNow) fun _ => trivial
    exact ⟨hcall.lawful, hcall.session⟩
  · exact hstart

end Tunnel

/-- In every run of a tunnel, whatever its modules answer, adapters open only cleared flows
    and a client opens only admitted ones. -/
theorem admission_precedes_networking {W T : Type} [Modules W T] [AsyncIo T] (b : TunnelBinding) (modules : W)
    (registry : Registry) (events : List (TunnelEvent T)) :
    Lawful (Allowed b) (run (Tunnel.step b) (Tunnel.new b modules registry) events).host.trace :=
  (run_always (Tunnel.Orderly b) Tunnel.Orderly.step (Tunnel.Orderly.new b modules registry) events).lawful

end Snolc.Engine
