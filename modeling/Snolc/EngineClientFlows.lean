import Snolc.EngineReplies
import Mathlib.Data.List.Perm.Basic

set_option autoImplicit false

namespace Snolc.Engine
open PollIo MuxFrame Mux AsyncTask WireFormat CoreIo
open scoped List

namespace Occurrence
variable {T : Type}

def FlowFailure : Occurrence T → Prop
  | .call (.stackOpenTcp _) (.error _) => True
  | .call (.stackOpenUdp _) (.error _) => True
  | .call (.adapterAttachFlow _ _ _) (.error _) => True
  | .call (.adapterAttachDatagram _ _ _) (.error _) => True
  | .call (.adapterCompleteFlow _ _ _ _) (.error _) => True
  | _ => False

def taken : Occurrence T → Option (ℕ × UInt64)
  | .call (.adapterAccept adapter) (.ready (.ok (flow, _))) => some (adapter, flow)
  | _ => none

def answered : Occurrence T → Option (ℕ × UInt64)
  | .call (.adapterCompleteFlow adapter flow _ _) _ => some (adapter, flow)
  | _ => none

/-- Calls that neither fail a flow nor move one. -/
structure Still (o : Occurrence T) : Prop where
  fine : ¬ o.FlowFailure
  taken : o.taken = none
  answered : o.answered = none

end Occurrence

def EstablishedSession.waiting {T : Type} (s : EstablishedSession T) : List (ℕ × UInt64) :=
  (s.clientPending.toList ++ s.openings.map ClientOpening.pending).filterMap PendingClientFlow.adapterFlow

@[simp] theorem EstablishedSession.touch_waiting {T : Type} (s : EstablishedSession T)
    (f : Connection T → Connection T) : (s.touch f).waiting = s.waiting := rfl

theorem Live.call_waiting {W T : Type} [Modules W T] (l : Live W T) (c : ModuleCall) :
    (l.call c).2.session.waiting = l.session.waiting := rfl

theorem adapterFlow_single (p : PendingClientFlow) :
    [p].filterMap PendingClientFlow.adapterFlow = p.adapterFlow.toList := by
  cases hf : p.adapterFlow with
  | none =>
    rw [List.filterMap_cons_none hf]
    rfl
  | some flow =>
    rw [List.filterMap_cons_some hf]
    rfl

/-- From `m` to `l` each flow that was waiting or came in still waits, has been answered, or is
    owed its answer. -/
structure Books {W T : Type} (m l : Live W T) (owed : List (ℕ × UInt64)) : Prop where
  grows : Live.Grows m l
  flows : (l.session.waiting ++ owed ++ (m.since l).filterMap Occurrence.answered).Perm
    (m.session.waiting ++ (m.since l).filterMap Occurrence.taken)

/-- Besides, no flow failed. -/
structure Went {W T : Type} (m l : Live W T) (owed : List (ℕ × UInt64)) : Prop extends Books m l owed where
  fine : ∀ o ∈ m.since l, ¬ o.FlowFailure

def Passes {W T α : Type} (m : Live W T) (owed : List (ℕ × UInt64)) (r : Reply W T α) : Prop :=
  ∀ a, r.1 = .ok a → Went m r.2 owed

namespace Books
variable {W T : Type} {m l l' : Live W T} {owed owed' : List (ℕ × UInt64)}

theorem more (h : Books m l owed) (more : List (Occurrence T)) (ht : l'.host.trace = l.host.trace ++ more)
    (hw : (l'.session.waiting ++ owed' ++ more.filterMap Occurrence.answered).Perm
      (l.session.waiting ++ owed ++ more.filterMap Occurrence.taken)) : Books m l' owed' := by
  have htrace : l'.host.trace = m.host.trace ++ (m.since l ++ more) := by rw [ht, h.grows, List.append_assoc]
  obtain ⟨hg, hs⟩ := Live.grows_of_append _ htrace
  refine ⟨hg, ?_⟩
  have hold := h.flows
  rw [hs, List.filterMap_append, List.filterMap_append]
  generalize (m.since l).filterMap Occurrence.answered = a at *
  generalize (m.since l).filterMap Occurrence.taken = t at *
  generalize more.filterMap Occurrence.answered = a' at *
  generalize more.filterMap Occurrence.taken = t' at *
  calc l'.session.waiting ++ owed' ++ (a ++ a') ~ l'.session.waiting ++ owed' ++ a' ++ a := by
        rw [List.append_assoc (l'.session.waiting ++ owed')]
        exact List.perm_append_comm.append_left _
    _ ~ l.session.waiting ++ owed ++ t' ++ a := hw.append_right a
    _ ~ l.session.waiting ++ owed ++ a ++ t' := by
        rw [List.append_assoc, List.append_assoc (l.session.waiting ++ owed) a]
        exact List.perm_append_comm.append_left _
    _ ~ m.session.waiting ++ t ++ t' := hold.append_right t'
    _ ~ m.session.waiting ++ (t ++ t') := by rw [List.append_assoc]

theorem same (h : Books m l owed) (ht : l'.host.trace = l.host.trace)
    (hw : l'.session.waiting = l.session.waiting) : Books m l' owed :=
  h.more [] (by rw [ht, List.append_nil]) (by simp [hw])

theorem call [Modules W T] (h : Books m l owed) {c : ModuleCall}
    (htaken : (Occurrence.call c (l.call c).1).taken = none)
    (hanswered : (Occurrence.call c (l.call c).1).answered = none) : Books m (l.call c).2 owed :=
  h.more _ (l.call_trace c) (by simp [htaken, hanswered, l.call_waiting])

theorem portSafe [Modules W T] (m : Live W T) (owed : List (ℕ × UInt64)) : PortSafe fun l => Books m l owed where
  call l c hc h := by
    refine h.call ?_ ?_ <;> cases c <;> first | rfl | cases hc
  registry _ _ h := h.same rfl rfl

end Books

namespace Went
variable {W T α : Type} {m l l' : Live W T} {owed owed' : List (ℕ × UInt64)}

theorem refl (l : Live W T) : Went l l [] := by
  obtain ⟨hg, hs⟩ := Live.grows_of_append (l := l) [] (List.append_nil l.host.trace).symm
  exact ⟨⟨hg, by simp [hs]⟩, by simp [hs]⟩

theorem more (h : Went m l owed) (more : List (Occurrence T)) (ht : l'.host.trace = l.host.trace ++ more)
    (hf : ∀ o ∈ more, ¬ o.FlowFailure)
    (hw : (l'.session.waiting ++ owed' ++ more.filterMap Occurrence.answered).Perm
      (l.session.waiting ++ owed ++ more.filterMap Occurrence.taken)) : Went m l' owed' := by
  refine ⟨h.toBooks.more more ht hw, fun o ho => ?_⟩
  have htrace : l'.host.trace = m.host.trace ++ (m.since l ++ more) := by rw [ht, h.grows, List.append_assoc]
  rw [(Live.grows_of_append _ htrace).2] at ho
  rcases List.mem_append.mp ho with ho | ho
  · exact h.fine o ho
  · exact hf o ho

theorem same (h : Went m l owed) (ht : l'.host.trace = l.host.trace) (hw : l'.session.waiting = l.session.waiting) :
    Went m l' owed :=
  h.more [] (by rw [ht, List.append_nil]) (by simp) (by simp [hw])

variable [Modules W T]

theorem still (h : Went m l owed) {c : ModuleCall} (hc : (Occurrence.call c (l.call c).1).Still) :
    Went m (l.call c).2 owed :=
  h.more _ (l.call_trace c) (by simpa using hc.fine) (by simp [hc.taken, hc.answered, l.call_waiting])

end Went

section Passing
variable {W T α : Type} {m l : Live W T} {owed : List (ℕ × UInt64)}

theorem Went.passes (h : Went m l owed) (a : α) : Passes m owed (.ok a, l) := fun _ _ => h

theorem passes_error (e : SessionFlowError) (l : Live W T) : Passes m owed ((.error e, l) : Reply W T α) := by
  intro a ha
  cases ha

theorem registering_passes (h : Went m l owed) {table : Table} {limit : ℕ}
    {next : Handle → Live W T → Reply W T α} (hnext : ∀ handle l, Went m l owed → Passes m owed (next handle l)) :
    Passes m owed (l.registering table limit next) := by
  unfold Live.registering
  split
  · exact passes_error _ _
  · rename_i handle registry _
    have hn := hnext handle (l.withRegistry registry) (h.same rfl rfl)
    split <;> rename_i heq <;> rw [heq] at hn
    · exact hn
    · exact passes_error _ _

theorem attempt_passes {r : Except LoadError Unit × Live W T} {next : Live W T → Reply W T α}
    {owed' : List (ℕ × UInt64)} (hok : r.1 = .ok () → Went m r.2 owed)
    (hnext : ∀ l, Went m l owed → Passes m owed' (next l)) :
    Passes m owed' (Live.attempt r next) := by
  unfold Live.attempt
  split
  · exact hnext _ (hok rfl)
  · exact passes_error _ _

variable [Modules W T]

theorem attachOpened_passes (b : TunnelBinding) (h : Went m l owed) (pending : PendingClientFlow)
    (port : ClientPolicyPort) : Passes m owed (Live.attachOpened b l pending port) := by
  cases port with
  | direct =>
    simp only [Live.attachOpened]
    split
    · exact passes_error _ _
    · refine registering_passes h fun mux l h => attempt_passes (fun hok => h.still ?_) fun l h => h.passes _
      rw [hok]
      exact ⟨id, rfl, rfl⟩
  | tcp | packetTcp | udp | packetUdp =>
    exact registering_passes h fun _ _ h => registering_passes h fun _ _ h =>
      attempt_passes (fun _ => h.still ⟨id, rfl, rfl⟩) fun _ h => h.passes _

theorem completeFlow_more (l : Live W T) (pending : PendingClientFlow) (status : UInt32) (reason : List UInt8) :
    ∃ more, (l.completeFlow pending status reason).2.host.trace = l.host.trace ++ more ∧
      more.filterMap Occurrence.answered = pending.adapterFlow.toList ∧
      more.filterMap Occurrence.taken = [] ∧
      ((l.completeFlow pending status reason).1 = .ok () → ∀ o ∈ more, ¬ o.FlowFailure) := by
  unfold Live.completeFlow
  cases pending.adapterFlow with
  | none => exact ⟨[], (List.append_nil _).symm, rfl, rfl, fun _ o ho => absurd ho List.not_mem_nil⟩
  | some flow =>
    refine ⟨_, l.call_trace (.adapterCompleteFlow flow.1 flow.2 status reason), rfl, rfl, fun hok o ho => ?_⟩
    rw [List.mem_singleton] at ho
    subst ho
    rw [hok]
    exact id

theorem completeFlow_books {pending : PendingClientFlow} (h : Books m l pending.adapterFlow.toList) (status : UInt32)
    (reason : List UInt8) : Books m (l.completeFlow pending status reason).2 [] ∧
      (l.completeFlow pending status reason).2.session.waiting = l.session.waiting := by
  obtain ⟨more, htrace, hanswered, htaken, -⟩ := completeFlow_more l pending status reason
  obtain ⟨f, hs⟩ := (Live.completeFlow_around pending status reason (Around.refl l)).session
  have hw : (l.completeFlow pending status reason).2.session.waiting = l.session.waiting := by
    rw [hs, EstablishedSession.touch_waiting]
  refine ⟨h.more more htrace ?_, hw⟩
  rw [hw, hanswered, htaken, List.append_nil, List.append_nil]

theorem completeFlow_went {pending : PendingClientFlow} (h : Went m l pending.adapterFlow.toList) {status : UInt32}
    {reason : List UInt8} (hok : (l.completeFlow pending status reason).1 = .ok ()) :
    Went m (l.completeFlow pending status reason).2 [] := by
  obtain ⟨more, htrace, hanswered, htaken, hfine⟩ := completeFlow_more l pending status reason
  refine h.more more htrace (hfine hok) ?_
  rw [(completeFlow_books h.toBooks status reason).2, hanswered, htaken, List.append_nil, List.append_nil]

omit [Modules W T] in
theorem dropStream_went (h : Went m l owed) (stream : Option MuxStream) : Went m (l.dropStream stream) owed := by
  unfold Live.dropStream
  split
  · exact h
  · exact h.same rfl rfl

theorem finishOpening_passes (b : TunnelBinding) {opening : ClientOpening}
    (h : Went m l opening.pending.adapterFlow.toList) (result : Except MuxError OpenResponse) :
    Passes m [] (Live.finishOpening b l opening result) := by
  cases result with
  | error e => exact passes_error _ _
  | ok response =>
    simp only [Live.finishOpening]
    split
    · split
      · exact passes_error _ _
      · rename_i port _
        have hattach := attachOpened_passes b h opening.pending port
        split <;> rename_i heq <;> rw [heq] at hattach
        · exact passes_error _ _
        · rename_i muxHandle l₁
          refine attempt_passes (fun hok => completeFlow_went (hattach _ rfl) hok) fun l h => ?_
          have hactive : Went m (l.activate ⟨opening.pending.adapterFlow, muxHandle⟩) [] := h.same rfl rfl
          exact hactive.passes _
    · refine attempt_passes (fun hok => completeFlow_went h hok) fun l h => ?_
      have hreleased : Went m (l.modify EstablishedSession.release) [] := h.same rfl rfl
      exact (dropStream_went hreleased _).passes _

omit [Modules W T] in
theorem takeFlow_went (h : Went m l owed) (hn : l.session.clientPending = none) {l₁ : Live W T}
    {pending : PendingClientFlow} (more : List (Occurrence T)) (ht : l₁.host.trace = l.host.trace ++ more)
    (hs : l₁.session.openings = l.session.openings) (hf : ∀ o ∈ more, ¬ o.FlowFailure)
    (ha : more.filterMap Occurrence.answered = [])
    (hp : more.filterMap Occurrence.taken = pending.adapterFlow.toList) : Went m (l₁.takeFlow pending) owed := by
  have hw : (l₁.takeFlow pending).session.waiting = pending.adapterFlow.toList ++ l.session.waiting := by
    change ([pending] ++ l₁.session.openings.map ClientOpening.pending).filterMap _ = _
    rw [EstablishedSession.waiting, hn, hs, List.filterMap_append, Option.toList_none, List.nil_append,
      adapterFlow_single]
  refine h.more (more ++ [.clientFlow pending.request]) ?_ (fun o ho => ?_) ?_
  · change l₁.host.trace ++ [_] = _
    rw [ht, List.append_assoc]
  · rcases List.mem_append.mp ho with ho | ho
    · exact hf o ho
    · rw [List.mem_singleton] at ho
      subst ho
      exact id
  · have hanswered : (more ++ [Occurrence.clientFlow pending.request]).filterMap Occurrence.answered = [] := by
      rw [List.filterMap_append, ha]
      rfl
    have htaken : (more ++ [Occurrence.clientFlow pending.request]).filterMap Occurrence.taken =
        pending.adapterFlow.toList := by
      rw [List.filterMap_append, hp]
      exact List.append_nil _
    rw [hanswered, htaken, hw, List.append_nil, List.append_assoc]
    exact List.perm_append_comm

/-- What a session that is `idle` makes of a packet flow of the stack. -/
def packetAnswer (idle : Prop) [Decidable idle] (l : Live W T) (r : Except StackError (Option FlowMetadata) × Live W T)
    (pending : FlowMetadata → PendingClientFlow) : Reply W T Unit :=
  if idle then
    match r with
    | (.ok (some metadata), l) => (.ok (), l.takeFlow (pending metadata))
    | (.ok none, l) => (.ok (), l)
    | (.error e, l) => (.error (.stack e), l)
  else (.ok (), l)

theorem acceptPacketTcp_eq (b : TunnelBinding) (l : Live W T) : Live.acceptPacketTcp b l =
    packetAnswer (l.session.clientPending.isNone ∧ Live.supportsPackets b l) l (l.call .stackAcceptPacketTcp)
      fun metadata => Live.pendingClientFlow (Live.packetRequest .tcp metadata) none (some .packetTcp) := rfl

theorem acceptPacketUdp_eq (b : TunnelBinding) (l : Live W T) : Live.acceptPacketUdp b l =
    packetAnswer (l.session.clientPending.isNone ∧ Live.supportsPackets b l) l (l.call .stackAcceptPacketUdp)
      fun metadata => Live.pendingClientFlow (Live.packetRequest .udp metadata) none (some .packetUdp) := rfl

omit [Modules W T] in
theorem packetAnswer_passes {idle : Prop} [Decidable idle] (h : Went m l owed)
    {r : Except StackError (Option FlowMetadata) × Live W T} (hr : Went m r.2 owed)
    (hn : idle → r.2.session.clientPending = none) {pending : FlowMetadata → PendingClientFlow}
    (hp : ∀ metadata, (pending metadata).adapterFlow = none) : Passes m owed (packetAnswer idle l r pending) := by
  unfold packetAnswer
  split
  · rename_i hidle
    split
    · rename_i metadata l'
      exact (takeFlow_went hr (hn hidle) [] (List.append_nil _).symm rfl (by simp) rfl (by rw [hp]; rfl)).passes _
    · exact hr.passes _
    · exact passes_error _ _
  · exact h.passes _

theorem acceptPacketTcp_passes (b : TunnelBinding) (h : Went m l owed) : Passes m owed (Live.acceptPacketTcp b l) := by
  rw [acceptPacketTcp_eq]
  exact packetAnswer_passes h (h.still ⟨id, rfl, rfl⟩) (fun hidle => Option.isNone_iff_eq_none.mp hidle.1) fun _ => rfl

theorem acceptPacketUdp_passes (b : TunnelBinding) (h : Went m l owed) : Passes m owed (Live.acceptPacketUdp b l) := by
  rw [acceptPacketUdp_eq]
  exact packetAnswer_passes h (h.still ⟨id, rfl, rfl⟩) (fun hidle => Option.isNone_iff_eq_none.mp hidle.1) fun _ => rfl

theorem acceptAdapter_passes (adapters : List ℕ) (h : Went m l owed) (hn : l.session.clientPending = none) :
    Passes m owed (l.acceptAdapter adapters) := by
  induction adapters generalizing l with
  | nil => exact h.passes _
  | cons adapter rest ih =>
    have htrace := l.call_trace (.adapterAccept adapter)
    have hstill : (Occurrence.call (.adapterAccept adapter) (l.call (.adapterAccept adapter)).1).taken = none →
        Went m (l.call (.adapterAccept adapter)).2 owed := fun ht => h.still ⟨id, ht, rfl⟩
    have hnext : (l.call (.adapterAccept adapter)).2.session.clientPending = none := hn
    have hopen : (l.call (.adapterAccept adapter)).2.session.openings = l.session.openings := rfl
    unfold Live.acceptAdapter
    split <;> rename_i heq <;> rw [heq] at htrace hstill hnext hopen
    · refine Went.passes (takeFlow_went h hn _ htrace hopen (fun o ho => ?_) rfl rfl) _
      rw [List.mem_singleton] at ho
      subst ho
      exact id
    · split
      · exact ih (hstill rfl) hnext
      · exact passes_error _ _
    · exact ih (hstill rfl) hnext

theorem acceptClient_passes (b : TunnelBinding) (h : Went m l owed) : Passes m owed (Live.acceptClient b l) := by
  have htcp := acceptPacketTcp_passes b h
  unfold Live.acceptClient
  split <;> rename_i heq <;> rw [heq] at htcp
  · exact passes_error _ _
  · have hudp := acceptPacketUdp_passes b (htcp _ rfl)
    split <;> rename_i heq <;> rw [heq] at hudp
    · exact passes_error _ _
    · split
      · rename_i hn
        exact acceptAdapter_passes _ (hudp _ rfl) (Option.isNone_iff_eq_none.mp hn)
      · exact hudp

theorem clientPort_passes (b : TunnelBinding) (h : Went m l owed) (pending : PendingClientFlow) :
    Passes m owed (Live.clientPort b l pending) := by
  have htcp : ∀ answer, (l.call (.stackOpenTcp (.ofRequest pending.request))).1 = .ok answer →
      Went m (l.call (.stackOpenTcp (.ofRequest pending.request))).2 owed := by
    intro answer hok
    exact h.still (by rw [hok]; exact ⟨id, rfl, rfl⟩)
  have hudp : ∀ answer, (l.call (.stackOpenUdp (.ofRequest pending.request))).1 = .ok answer →
      Went m (l.call (.stackOpenUdp (.ofRequest pending.request))).2 owed := by
    intro answer hok
    exact h.still (by rw [hok]; exact ⟨id, rfl, rfl⟩)
  unfold Live.clientPort
  split
  · exact passes_error _ _
  · split
    · split
      · exact h.passes _
      · split <;> rename_i heq <;> rw [heq] at htcp
        · exact passes_error _ _
        · refine registering_passes (htcp _ rfl) fun stack l h =>
            attempt_passes (fun hok => h.still ?_) fun l h => h.passes _
          rw [hok]
          exact ⟨id, rfl, rfl⟩
    · split <;> rename_i heq <;> rw [heq] at hudp
      · exact passes_error _ _
      · refine registering_passes (hudp _ rfl) fun stack l h =>
          attempt_passes (fun hok => h.still ?_) fun l h => h.passes _
        rw [hok]
        exact ⟨id, rfl, rfl⟩
    · exact passes_error _ _

omit [Modules W T] in
theorem beginOpening_passes (h : Went m l owed) {p pending : PendingClientFlow}
    (hp : l.session.clientPending = some p) (hflow : pending.adapterFlow = p.adapterFlow) :
    Passes m owed (l.beginOpening pending) := by
  unfold Live.beginOpening
  dsimp only
  split
  · exact passes_error _ _
  · split
    · exact passes_error _ _
    · rename_i mux _ stream task mux' _
      refine Went.passes (h.more [.beginOpen pending.request] rfl (by simp [Occurrence.FlowFailure]) ?_) _
      have hopened : ([] ++ (l.session.openings ++ [ClientOpening.mk stream task pending]).map
          ClientOpening.pending).filterMap PendingClientFlow.adapterFlow ~ l.session.waiting := by
        rw [EstablishedSession.waiting, hp, Option.toList_some, List.nil_append, List.map_append, List.map_singleton,
          List.filterMap_append, List.filterMap_append, adapterFlow_single, adapterFlow_single, hflow]
        exact List.perm_append_comm
      exact (hopened.append_right owed).append_right []

theorem openClient_passes (b : TunnelBinding) (h : Went m l owed) {p pending : PendingClientFlow}
    (hp : l.session.clientPending = some p) (hflow : pending.adapterFlow = p.adapterFlow) :
    Passes m owed (Live.openClient b l pending) := by
  have hport := clientPort_passes b h pending
  have hsame := (Live.clientPort_around b pending (Around.refl l)).clientPending
  unfold Live.openClient
  split
  · exact beginOpening_passes h hp hflow
  · split <;> rename_i heq <;> rw [heq] at hport hsame
    · exact passes_error _ _
    · exact beginOpening_passes (hport _ rfl) (hsame.trans hp) hflow

theorem refuse_passes (h : Went m l []) {p : PendingClientFlow} (hp : l.session.clientPending = some p)
    (status : UInt32) (reason : List UInt8) :
    Passes m [] (Live.attempt (l.completeFlow p status reason) fun l =>
      ((.ok (), l.setClientPending none) : Reply W T Unit)) := by
  obtain ⟨more, htrace, hanswered, htaken, hfine⟩ := completeFlow_more l p status reason
  obtain ⟨f, hs⟩ := (Live.completeFlow_around p status reason (Around.refl l)).session
  generalize hr : l.completeFlow p status reason = r at *
  obtain ⟨answer, l₁⟩ := r
  unfold Live.attempt
  split
  · rename_i heq
    cases heq
    have hw : (l₁.setClientPending none).session.waiting =
        (l.session.openings.map ClientOpening.pending).filterMap PendingClientFlow.adapterFlow := by
      change ([] ++ l₁.session.openings.map ClientOpening.pending).filterMap _ = _
      rw [hs, List.nil_append]
      rfl
    have hold : l.session.waiting = p.adapterFlow.toList ++
        (l.session.openings.map ClientOpening.pending).filterMap PendingClientFlow.adapterFlow := by
      rw [EstablishedSession.waiting, hp, Option.toList_some, List.filterMap_append, adapterFlow_single]
    have hlet : Went m (l₁.setClientPending none) [] := by
      refine h.more more htrace (hfine rfl) ?_
      rw [hw, hold, hanswered, htaken, List.append_nil, List.append_nil, List.append_nil]
      exact List.perm_append_comm
    exact hlet.passes ()
  · exact passes_error _ _

omit [Modules W T] in
theorem admitted_waiting {pending : PendingClientFlow} (hp : l.session.clientPending = some pending) :
    (l.setClientPending (some { pending with admitted := true })).session.waiting = l.session.waiting := by
  change ([{ pending with admitted := true }] ++ l.session.openings.map ClientOpening.pending).filterMap _ = _
  rw [EstablishedSession.waiting, hp, Option.toList_some, List.filterMap_append, List.filterMap_append,
    adapterFlow_single, adapterFlow_single]

variable [AsyncIo T]

theorem admitClient_passes (b : TunnelBinding) (h : Went m l []) : Passes m [] (Live.admitClient b l) := by
  unfold Live.admitClient
  split
  · split
    · exact h.passes _
    · split
      · exact passes_error _ _
      · rename_i mux _ _
        have hmux : Went m (l.modify fun s => { s with mux := some mux }) [] := h.same rfl rfl
        exact hmux.passes ()
  · rename_i pending hp
    have hcall : Went m (l.call (.policyAdmitFlow b.policy l.session.policySession pending.metadata)).2 [] :=
      h.still ⟨id, rfl, rfl⟩
    have hpc : (l.call (.policyAdmitFlow b.policy l.session.policySession pending.metadata)).2.session.clientPending =
      some pending := hp
    split
    · exact openClient_passes b h hp rfl
    · split <;> rename_i heq <;> rw [heq] at hcall hpc
      · rename_i l₁
        have hset : Went m (l₁.setClientPending (some { pending with admitted := true })) [] :=
          hcall.same rfl (admitted_waiting hpc)
        exact openClient_passes b hset rfl rfl
      · exact refuse_passes hcall hpc _ _
      · exact hcall.passes _

theorem nextFlow_passes (b : TunnelBinding) (h : Went m l []) : Passes m [] (match Live.acceptClient b l with
    | (.error e, l) => ((.error e, l) : Reply W T Unit)
    | (.ok (), l) => Live.admitClient b l) := by
  have haccept := acceptClient_passes b h
  split <;> rename_i heq <;> rw [heq] at haccept
  · exact passes_error _ _
  · exact admitClient_passes b (haccept _ rfl)

omit [Modules W T] [AsyncIo T] in
/-- `Vec::swap_remove` takes out one element. -/
theorem swapRemove_perm {β : Type} {items : List β} {index : ℕ} {x : β} (h : items[index]? = some x) :
    Live.swapRemove items index ++ [x] ~ items := by
  rcases List.eq_nil_or_concat items with rfl | ⟨front, last, rfl⟩
  · cases h
  · rw [List.concat_eq_append] at h ⊢
    have hswap : Live.swapRemove (front ++ [last]) index = ((front ++ [last]).set index last).dropLast := by
      simp [Live.swapRemove]
    rw [hswap]
    by_cases hi : index < front.length
    · have hx : front[index] = x := by
        rw [List.getElem?_append_left hi, List.getElem?_eq_getElem hi] at h
        exact Option.some.inj h
      have hfront : front = front.take index ++ x :: front.drop (index + 1) := by
        rw [← hx, List.getElem_cons_drop, List.take_append_drop]
      rw [List.set_append_left _ _ hi, List.dropLast_concat, List.set_eq_take_append_cons_drop, if_pos hi]
      calc front.take index ++ last :: front.drop (index + 1) ++ [x]
          ~ last :: (front.take index ++ front.drop (index + 1)) ++ [x] := List.perm_middle.append_right _
        _ ~ x :: last :: (front.take index ++ front.drop (index + 1)) := List.perm_append_singleton _ _
        _ ~ x :: (front.take index ++ front.drop (index + 1)) ++ [last] :=
          (List.perm_append_singleton _ _).symm.cons x
        _ ~ front ++ [last] := by
          refine List.Perm.append_right _ ?_
          conv => rhs; rw [hfront]
          exact List.perm_middle.symm
    · have hlt : index < (front ++ [last]).length := (List.getElem?_eq_some_iff.mp h).1
      have hend : index = front.length := by
        rw [List.length_append, List.length_singleton] at hlt
        omega
      subst hend
      rw [List.getElem?_concat_length] at h
      cases h
      rw [List.set_append_right _ _ (Nat.le_refl _), Nat.sub_self]
      simp

omit [Modules W T] in
theorem pollOpenings_pending (c : Connection T) (openings : List ClientOpening) :
    (Live.pollOpenings c openings).2.1.map ClientOpening.pending = openings.map ClientOpening.pending := by
  induction openings generalizing c with
  | nil => rfl
  | cons opening rest ih =>
    unfold Live.pollOpenings
    split
    · rfl
    · simp [ih]

omit [Modules W T] in
theorem pollOpenings_found (c : Connection T) (openings : List ClientOpening) (index : ℕ) (opening : ClientOpening)
    (result : Except MuxError OpenResponse) (h : (Live.pollOpenings c openings).1 = some (index, opening, result)) :
    openings[index]? = some opening := by
  induction openings generalizing c index with
  | nil => cases h
  | cons first rest ih =>
    unfold Live.pollOpenings at h
    split at h
    · cases h
      rfl
    · rename_i task s _
      dsimp only at h
      cases hr : (Live.pollOpenings s.connection rest).1 with
      | none =>
        rw [hr] at h
        cases h
      | some found =>
        rw [hr] at h
        obtain ⟨index', opening', result'⟩ := found
        cases h
        exact ih _ _ hr

omit [Modules W T] [AsyncIo T] in
theorem swapRemove_pending {openings polled : List ClientOpening} {index : ℕ} {opening : ClientOpening}
    (hp : polled.map ClientOpening.pending = openings.map ClientOpening.pending)
    (h : openings[index]? = some opening) :
    (Live.swapRemove polled index).map ClientOpening.pending ++ [opening.pending] ~
      polled.map ClientOpening.pending := by
  have hat : (polled.map ClientOpening.pending)[index]? = some opening.pending := by
    rw [hp, List.getElem?_map, h]
    rfl
  rw [List.getElem?_map, Option.map_eq_some_iff] at hat
  obtain ⟨x, hx, hxp⟩ := hat
  have hperm := (swapRemove_perm hx).map ClientOpening.pending
  rw [List.map_append, List.map_singleton, hxp] at hperm
  exact hperm

omit [Modules W T] [AsyncIo T] in
theorem polled_went (h : Went m l []) (mux : MuxSession T) {openings : List ClientOpening}
    (hpending : openings.map ClientOpening.pending = l.session.openings.map ClientOpening.pending) :
    Went m (l.modify fun s => { s with mux := some mux, openings }) [] := by
  refine h.same rfl ?_
  change (l.session.clientPending.toList ++ openings.map ClientOpening.pending).filterMap _ = _
  rw [hpending]
  rfl

omit [Modules W T] [AsyncIo T] in
theorem removed_went (h : Went m l []) {index : ℕ} {opening : ClientOpening}
    (hperm : (Live.swapRemove l.session.openings index).map ClientOpening.pending ++ [opening.pending] ~
      l.session.openings.map ClientOpening.pending) :
    Went m (l.modify fun s => { s with openings := Live.swapRemove s.openings index })
      opening.pending.adapterFlow.toList := by
  refine h.more [] (List.append_nil _).symm (by simp) ?_
  have hw := (hperm.append_left l.session.clientPending.toList).filterMap PendingClientFlow.adapterFlow
  rw [← List.append_assoc, List.filterMap_append, adapterFlow_single] at hw
  rw [List.filterMap_nil, List.filterMap_nil, List.append_nil, List.append_nil, List.append_nil]
  exact hw

theorem pollClient_passes (b : TunnelBinding) (h : Went m l []) : Passes m [] (Live.pollClient b l) := by
  unfold Live.pollClient
  split
  · exact nextFlow_passes b h
  · rename_i mux hmux
    have hpending := pollOpenings_pending mux.connection l.session.openings
    have hfound := pollOpenings_found mux.connection l.session.openings
    generalize Live.pollOpenings mux.connection l.session.openings = polled at hpending hfound ⊢
    obtain ⟨found, openings, c⟩ := polled
    dsimp only at hpending hfound ⊢
    have hpolled := polled_went h (mux.withConnection c) hpending
    split
    · rename_i index opening result
      exact finishOpening_passes b
        (removed_went hpolled (swapRemove_pending hpending (hfound index opening result rfl))) result
    · exact nextFlow_passes b hpolled

omit [AsyncIo T] in
theorem closeFlows_went (closed : List (ℕ × UInt64)) (h : Went m l owed) : Went m (l.closeFlows closed) owed := by
  induction closed generalizing l with
  | nil => exact h
  | cons flow rest ih =>
    have hcall : Went m (l.call (.adapterCloseFlow flow.1 flow.2)).2 owed := h.still ⟨id, rfl, rfl⟩
    exact ih (hcall.same rfl rfl)

omit [AsyncIo T] in
theorem reapClosed_went (h : Went m l owed) : Went m l.reapClosed owed := by
  unfold Live.reapClosed
  dsimp only
  split
  · exact closeFlows_went _ (h.same rfl rfl)
  · exact h.same rfl rfl

/-- A poll of a client that returns has met no failure of a flow and keeps its books of flows. -/
theorem poll_went {b : TunnelBinding} (hb : b.role = .client) (h : (Live.poll b l).1 = .ok ()) :
    Went l (Live.poll b l).2 [] := by
  unfold Live.poll at h ⊢
  rw [hb] at h ⊢
  exact pollClient_passes b (reapClosed_went (Went.refl l)) () h

end Passing
end Snolc.Engine
