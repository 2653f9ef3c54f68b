import Snolc.EngineClientFlows

set_option autoImplicit false

namespace Snolc.Engine
open PollIo MuxFrame Mux AsyncTask WireFormat CoreIo
open scoped List

section Conditions
variable {W T : Type} [Modules W T]

namespace Live

/-- An opened flow can be attached and its adapter takes the answer, or nothing else waits; a flow
    that cannot be attached is none of an adapter. -/
def openingSpares (b : TunnelBinding) (l : Live W T) (opening : ClientOpening) : Except MuxError OpenResponse → Prop
  | .ok response =>
    if response.status = .ok then
      match opening.pending.policyPort with
      | none => l.session.waiting = [] ∧ opening.pending.adapterFlow = none
      | some port =>
        match attachOpened b l opening.pending port with
        | (.error _, _) => l.session.waiting = [] ∧ opening.pending.adapterFlow = none
        | (.ok _, attached) =>
          (attached.completeFlow opening.pending Status.ok.code []).1 = .ok () ∨ l.session.waiting = []
    else
      (l.completeFlow opening.pending (abiStatus response.status) (octets response.reason)).1 = .ok () ∨
        l.session.waiting = []
  | .error _ => l.session.waiting = []

def muxTakes (l : Live W T) (request : OpenRequest) : Prop :=
  ∃ mux, l.session.mux = some mux ∧ ∀ e, (mux.beginOpenFlowConfirmed request).1 ≠ .error e

/-- The flow at hand gets its ports and its stream, or no flow waits, itself included. -/
def openSpares (b : TunnelBinding) (l : Live W T) (pending : PendingClientFlow) : Prop :=
  l.session.waiting = [] ∨
    match pending.policyPort with
    | some _ => l.muxTakes pending.request
    | none =>
      match clientPort b l pending with
      | (.error _, _) => False
      | (.ok _, ported) => ported.muxTakes pending.request

variable [AsyncIo T]

def admitSpares (b : TunnelBinding) (l : Live W T) : Prop :=
  match l.session.clientPending with
  | none => l.session.waiting = [] ∨ ∀ mux e, l.session.mux = some mux → mux.pollDrive.1 ≠ .ready (.error e)
  | some pending =>
    if pending.admitted then openSpares b l pending
    else
      match l.call (.policyAdmitFlow b.policy l.session.policySession pending.metadata) with
      | (.ready (.ok ()), l) =>
        let pending := { pending with admitted := true }
        openSpares b (l.setClientPending (some pending)) pending
      | (.ready (.error e), l) =>
        (l.completeFlow pending (abiStatus (openError e).1) (octets (openError e).2)).1 = .ok () ∨
          (l.setClientPending none).session.waiting = []
      | (.pending, _) => True

def flowSpares (b : TunnelBinding) (l : Live W T) : Prop :=
  match acceptClient b l with
  | (.error _, _) => l.session.waiting = []
  | (.ok (), l) => admitSpares b l

/-- Where a poll of the client comes to fail, no adapter flow waits but the one that it is telling its
    adapter about. -/
def spares (b : TunnelBinding) (l : Live W T) : Prop :=
  let l := l.reapClosed
  match l.session.mux with
  | none => flowSpares b l
  | some mux =>
    match pollOpenings mux.connection l.session.openings with
    | (found, openings, c) =>
      let l := l.modify fun s => { s with mux := some (mux.withConnection c), openings }
      match found with
      | some (index, opening, result) =>
        openingSpares b (l.modify fun s => { s with openings := swapRemove s.openings index }) opening result
      | none => flowSpares b l

end Live
end Conditions

/-- Of the flows that waited in `m` or came in since, `left` have not been answered. -/
structure Leaves {W T : Type} (m l : Live W T) (left : List (ℕ × UInt64)) : Prop where
  grows : Live.Grows m l
  flows : left ++ (m.since l).filterMap Occurrence.answered ~
    m.session.waiting ++ (m.since l).filterMap Occurrence.taken

/-- A reply that failed has left no flow unanswered exactly under `spares`. -/
structure Ends {W T α : Type} (m : Live W T) (spares : Prop) (r : Reply W T α) : Prop where
  returned : ∀ a, r.1 = .ok a → spares
  failed : ∀ e, r.1 = .error e → ∃ left, Leaves m r.2 left ∧ (spares ↔ left = [])

section Ending
variable {W T α : Type} {m l : Live W T} {owed : List (ℕ × UInt64)} {spares : Prop}

theorem Ends.ok (h : spares) (a : α) (l : Live W T) : Ends m spares ((.ok a, l) : Reply W T α) :=
  ⟨fun _ _ => h, fun _ he => (by cases he)⟩

theorem Ends.error (h : Books m l owed) (hs : spares ↔ l.session.waiting ++ owed = []) (e : SessionFlowError) :
    Ends m spares ((.error e, l) : Reply W T α) :=
  ⟨fun _ ha => (by cases ha), fun _ _ => ⟨_, ⟨h.grows, h.flows⟩, hs⟩⟩

variable [Modules W T]

theorem Ends.complete {pending : PendingClientFlow} (h : Books m l pending.adapterFlow.toList) (status : UInt32)
    (reason : List UInt8) {next : Live W T → Reply W T Unit} (hnext : ∀ l, (next l).1 = .ok ())
    {waiting : List (ℕ × UInt64)} (hw : l.session.waiting = waiting) :
    Ends m ((l.completeFlow pending status reason).1 = .ok () ∨ waiting = [])
      (Live.attempt (l.completeFlow pending status reason) next) := by
  obtain ⟨hbooks, hsame⟩ := completeFlow_books h status reason
  rcases hr : l.completeFlow pending status reason with ⟨e | ⟨⟩, l'⟩ <;> rw [hr] at hbooks hsame
  · refine .error hbooks ?_ _
    rw [List.append_nil, hsame, hw]
    simp
  · exact ⟨fun _ _ => .inl rfl, fun e he => by rw [Live.attempt, hnext] at he; cases he⟩

theorem attachOpened_waiting (b : TunnelBinding) (l : Live W T) (pending : PendingClientFlow)
    (port : ClientPolicyPort) : (Live.attachOpened b l pending port).2.session.waiting = l.session.waiting := by
  obtain ⟨f, hs⟩ := (Live.attachOpened_around b pending port (Around.refl l)).session
  rw [hs, EstablishedSession.touch_waiting]

theorem finishOpening_ends (b : TunnelBinding) {opening : ClientOpening}
    (h : Books m l opening.pending.adapterFlow.toList) (result : Except MuxError OpenResponse) :
    Ends m (Live.openingSpares b l opening result) (Live.finishOpening b l opening result) := by
  have hunattached (e : SessionFlowError) {l' : Live W T} (hbooks : Books m l' opening.pending.adapterFlow.toList)
      (hw : l'.session.waiting = l.session.waiting) :
      Ends m (l.session.waiting = [] ∧ opening.pending.adapterFlow = none) ((.error e, l') : Reply W T Unit) := by
    refine .error hbooks ?_ e
    rw [hw, List.append_eq_nil_iff, Option.toList_eq_nil_iff]
  cases result with
  | error e =>
    obtain ⟨hbooks, hw⟩ := completeFlow_books h Status.io.code (octets "tunnel stream failed")
    refine .error hbooks ?_ _
    rw [List.append_nil, hw]
    rfl
  | ok response =>
    simp only [Live.finishOpening, Live.openingSpares]
    split
    · cases opening.pending.policyPort with
      | none => exact hunattached _ h rfl
      | some port =>
        have hbooks := (Books.portSafe m opening.pending.adapterFlow.toList).attachOpened b h opening.pending port
        have hw := attachOpened_waiting b l opening.pending port
        dsimp only
        generalize Live.attachOpened b l opening.pending port = r at hbooks hw ⊢
        obtain ⟨e | handle, l'⟩ := r
        · exact hunattached e hbooks hw
        · refine Ends.complete hbooks _ _ ?_ hw
          exact fun _ => rfl
    · refine Ends.complete h _ _ ?_ rfl
      exact fun _ => rfl

theorem clientPort_waiting (b : TunnelBinding) (l : Live W T) (pending : PendingClientFlow) :
    (Live.clientPort b l pending).2.session.waiting = l.session.waiting := by
  obtain ⟨f, hs⟩ := (Live.clientPort_around b pending (Around.refl l)).session
  rw [hs, EstablishedSession.touch_waiting]

omit [Modules W T] in
theorem letGo_waiting {p : PendingClientFlow} (hp : l.session.clientPending = some p) :
    (l.setClientPending none).session.waiting ++ p.adapterFlow.toList ~ l.session.waiting := by
  rw [← adapterFlow_single]
  unfold EstablishedSession.waiting
  rw [hp, Option.toList_some, List.filterMap_append (l := [p])]
  exact List.perm_append_comm

omit [Modules W T] in
theorem beginOpening_ends (h : Books m l []) {p : PendingClientFlow} (hp : l.session.clientPending = some p)
    (pending : PendingClientFlow) :
    Ends m (l.session.waiting = [] ∨ l.muxTakes pending.request) (l.beginOpening pending) := by
  have hwaiting := letGo_waiting hp
  have howed (l' : Live W T) (more : List (Occurrence T)) (ht : l'.host.trace = l.host.trace ++ more)
      (ha : more.filterMap Occurrence.answered = []) (hm : more.filterMap Occurrence.taken = [])
      (hw : l'.session.waiting = (l.setClientPending none).session.waiting)
      (hno : ¬ l.muxTakes pending.request) (e : SessionFlowError) :
      Ends m (l.session.waiting = [] ∨ l.muxTakes pending.request) ((.error e, l') : Reply W T Unit) := by
    have hbooks : Books m l' p.adapterFlow.toList := h.more more ht (by
      rw [ha, hm, List.append_nil, List.append_nil, List.append_nil, hw]
      exact hwaiting)
    refine .error hbooks ?_ e
    rw [or_iff_left hno, hw, ← List.length_eq_zero_iff, ← hwaiting.length_eq, List.length_eq_zero_iff]
  unfold Live.beginOpening
  have hmux : (l.setClientPending none).session.mux = l.session.mux := rfl
  dsimp only
  rw [hmux]
  cases hm : l.session.mux with
  | none =>
    refine howed (l.setClientPending none) [] (List.append_nil _).symm rfl rfl rfl ?_ _
    rintro ⟨mux, hx, -⟩
    rw [hm] at hx
    cases hx
  | some mux =>
    dsimp only
    rcases hb : mux.beginOpenFlowConfirmed pending.request with ⟨e | ⟨stream, task⟩, mux'⟩
    · refine howed (((l.setClientPending none).note (.beginOpen pending.request)).modify fun s =>
        { s with mux := some mux' }) [.beginOpen pending.request] rfl rfl rfl rfl ?_ _
      rintro ⟨mux₀, hx, hne⟩
      cases hm.symm.trans hx
      exact hne e (by rw [hb])
    · exact .ok (.inr ⟨mux, hm, fun e he => by rw [hb] at he; cases he⟩) _ _

theorem openClient_ends (b : TunnelBinding) (h : Books m l []) {p : PendingClientFlow}
    (hp : l.session.clientPending = some p) (pending : PendingClientFlow) :
    Ends m (Live.openSpares b l pending) (Live.openClient b l pending) := by
  have hport := (Books.portSafe m []).clientPort b h pending
  have hw := clientPort_waiting b l pending
  have hsame := (Live.clientPort_around b pending (Around.refl l)).clientPending
  unfold Live.openClient Live.openSpares
  cases pending.policyPort with
  | some port => exact beginOpening_ends h hp pending
  | none =>
    dsimp only
    generalize Live.clientPort b l pending = r at hport hw hsame ⊢
    obtain ⟨e | port, l'⟩ := r
    · refine .error hport ?_ e
      rw [hw, List.append_nil]
      exact or_iff_left id
    · dsimp only at hport hw hsame ⊢
      have hbegin := beginOpening_ends hport (hsame.trans hp) { pending with policyPort := some port }
      rw [hw] at hbegin
      exact hbegin

theorem refuse_ends (h : Books m l []) {p : PendingClientFlow} (hp : l.session.clientPending = some p)
    (status : UInt32) (reason : List UInt8) :
    Ends m ((l.completeFlow p status reason).1 = .ok () ∨ (l.setClientPending none).session.waiting = [])
      (Live.attempt (l.completeFlow p status reason) fun l =>
        ((.ok (), l.setClientPending none) : Reply W T Unit)) := by
  obtain ⟨more, htrace, hanswered, htaken, -⟩ := completeFlow_more l p status reason
  rcases hr : l.completeFlow p status reason with ⟨e | ⟨⟩, l'⟩ <;> rw [hr] at htrace
  · have hbooks : Books m (l.setClientPending none) p.adapterFlow.toList := h.more [] (List.append_nil _).symm (by
      simpa using letGo_waiting hp)
    have hafter : Books m ⟨l'.host, (l.setClientPending none).session⟩ [] := hbooks.more more htrace (by
      rw [hanswered, htaken, List.append_nil, List.append_nil])
    refine ⟨fun _ ha => (by cases ha), fun _ _ => ⟨_, ⟨hafter.grows, hafter.flows⟩, ?_⟩⟩
    rw [List.append_nil]
    exact or_iff_right (fun he => by cases he)
  · exact .ok (.inl rfl) _ _

variable [AsyncIo T]

theorem admitClient_ends (b : TunnelBinding) (h : Books m l []) :
    Ends m (Live.admitSpares b l) (Live.admitClient b l) := by
  unfold Live.admitClient Live.admitSpares
  cases hp : l.session.clientPending with
  | none =>
    dsimp only
    cases hm : l.session.mux with
    | none => exact .ok (.inr fun mux e hx => by cases hx) _ _
    | some mux =>
      dsimp only
      have hother : (∀ e, mux.pollDrive.1 ≠ .ready (.error e)) → l.session.waiting = [] ∨
          ∀ mux₀ e, some mux = some mux₀ → mux₀.pollDrive.1 ≠ .ready (.error e) := by
        intro hne
        refine .inr fun mux₀ e hx => ?_
        cases hx
        exact hne e
      rcases hd : mux.pollDrive with ⟨(e | ⟨⟩) | _, mux'⟩
      · have hbooks : Books m (l.modify fun s => { s with mux := some mux' }) [] := h.same rfl rfl
        refine .error hbooks ?_ _
        rw [List.append_nil]
        exact or_iff_left fun hne => hne mux e rfl (by rw [hd])
      · exact .ok (hother fun e he => by rw [hd] at he; cases he) _ _
      · exact .ok (hother fun e he => by rw [hd] at he; cases he) _ _
  | some pending =>
    dsimp only
    split
    · exact openClient_ends b h hp pending
    · have hcall : Books m (l.call (.policyAdmitFlow b.policy l.session.policySession pending.metadata)).2 [] :=
        h.call rfl rfl
      have hpc : (l.call (.policyAdmitFlow b.policy l.session.policySession pending.metadata)).2.session.clientPending =
        some pending := hp
      generalize l.call (.policyAdmitFlow b.policy l.session.policySession pending.metadata) = r at hcall hpc ⊢
      obtain ⟨(e | ⟨⟩) | _, l₁⟩ := r <;> dsimp only at hcall hpc ⊢
      · exact refuse_ends hcall hpc _ _
      · have hset : Books m (l₁.setClientPending (some { pending with admitted := true })) [] :=
          hcall.same rfl (admitted_waiting hpc)
        exact openClient_ends b hset rfl _
      · exact .ok trivial _ _

section Accepting
omit [AsyncIo T]

structure Untaken (m l : Live W T) (owed : List (ℕ × UInt64)) (l' : Live W T) : Prop where
  books : Books m l' owed
  waiting : l'.session.waiting = l.session.waiting

omit [Modules W T] in
theorem packetAnswer_untaken {idle : Prop} [Decidable idle] (h : Books m l owed)
    {r : Except StackError (Option FlowMetadata) × Live W T} (hr : idle → Untaken m l owed r.2)
    {pending : FlowMetadata → PendingClientFlow}
    (hend : (∃ e, (packetAnswer idle l r pending).1 = .error e) ∨
      (packetAnswer idle l r pending).2.session.clientPending = none) :
    Untaken m l owed (packetAnswer idle l r pending).2 := by
  unfold packetAnswer at hend ⊢
  split at hend <;> rename_i hidle
  · rw [if_pos hidle]
    have huntaken := hr hidle
    obtain ⟨e | (_ | metadata), l'⟩ := r
    · exact huntaken
    · exact huntaken
    · rcases hend with ⟨e, he⟩ | hn
      · cases he
      · cases hn
  · rw [if_neg hidle]
    exact ⟨h, rfl⟩

omit [Modules W T] in
theorem packetAnswer_free {idle : Prop} [Decidable idle] (hidle : idle → l.session.clientPending = none)
    {r : Except StackError (Option FlowMetadata) × Live W T} {pending : FlowMetadata → PendingClientFlow}
    (hend : (∃ e, (packetAnswer idle l r pending).1 = .error e) ∨
      (packetAnswer idle l r pending).2.session.clientPending = none) : l.session.clientPending = none := by
  unfold packetAnswer at hend
  split at hend <;> rename_i hi
  · exact hidle hi
  · rcases hend with ⟨e, he⟩ | hn
    · cases he
    · exact hn

theorem acceptPacketTcp_untaken (b : TunnelBinding) (h : Books m l owed)
    (hend : (∃ e, (Live.acceptPacketTcp b l).1 = .error e) ∨
      (Live.acceptPacketTcp b l).2.session.clientPending = none) : Untaken m l owed (Live.acceptPacketTcp b l).2 := by
  rw [acceptPacketTcp_eq] at hend ⊢
  exact packetAnswer_untaken h (fun _ => ⟨h.call rfl rfl, l.call_waiting _⟩) hend

theorem acceptPacketUdp_untaken (b : TunnelBinding) (h : Books m l owed)
    (hend : (∃ e, (Live.acceptPacketUdp b l).1 = .error e) ∨
      (Live.acceptPacketUdp b l).2.session.clientPending = none) : Untaken m l owed (Live.acceptPacketUdp b l).2 := by
  rw [acceptPacketUdp_eq] at hend ⊢
  exact packetAnswer_untaken h (fun _ => ⟨h.call rfl rfl, l.call_waiting _⟩) hend

theorem acceptPacketUdp_free (b : TunnelBinding) (hend : (∃ e, (Live.acceptPacketUdp b l).1 = .error e) ∨
    (Live.acceptPacketUdp b l).2.session.clientPending = none) : l.session.clientPending = none := by
  rw [acceptPacketUdp_eq] at hend
  exact packetAnswer_free (fun hidle => Option.isNone_iff_eq_none.mp hidle.1) hend

omit [Modules W T] in
theorem Untaken.trans {l₁ l₂ : Live W T} (h : Untaken m l owed l₁) (h' : Untaken m l₁ owed l₂) : Untaken m l owed l₂ :=
  ⟨h'.books, h'.waiting.trans h.waiting⟩

theorem acceptAdapter_untaken (adapters : List ℕ) (h : Books m l owed) {e : SessionFlowError}
    (he : (l.acceptAdapter adapters).1 = .error e) : Untaken m l owed (l.acceptAdapter adapters).2 := by
  induction adapters generalizing l with
  | nil => cases he
  | cons adapter rest ih =>
    have hcall (htaken : (Occurrence.call (.adapterAccept adapter) (l.call (.adapterAccept adapter)).1).taken = none) :
        Untaken m l owed (l.call (.adapterAccept adapter)).2 := ⟨h.call htaken rfl, l.call_waiting _⟩
    unfold Live.acceptAdapter at he ⊢
    rcases hc : l.call (.adapterAccept adapter) with ⟨(e' | ⟨flow, request⟩) | _, l'⟩ <;> rw [hc] at he hcall
    · dsimp only at he ⊢
      split at he <;> rename_i hs
      · rw [if_pos hs]
        exact (hcall rfl).trans (ih (hcall rfl).books he)
      · rw [if_neg hs]
        exact hcall rfl
    · cases he
    · exact (hcall rfl).trans (ih (hcall rfl).books he)

theorem acceptClient_untaken (b : TunnelBinding) (h : Books m l owed) {e : SessionFlowError}
    (he : (Live.acceptClient b l).1 = .error e) : Untaken m l owed (Live.acceptClient b l).2 := by
  have htcp := acceptPacketTcp_untaken b h
  unfold Live.acceptClient at he ⊢
  generalize Live.acceptPacketTcp b l = r at htcp he ⊢
  obtain ⟨e₁ | ⟨⟩, l₁⟩ := r <;> dsimp only at htcp he ⊢
  · exact htcp (.inl ⟨e₁, rfl⟩)
  · have hudp (hend : (∃ e, (Live.acceptPacketUdp b l₁).1 = .error e) ∨
        (Live.acceptPacketUdp b l₁).2.session.clientPending = none) : Untaken m l owed (Live.acceptPacketUdp b l₁).2 :=
      have hfirst := htcp (.inr (acceptPacketUdp_free b hend))
      hfirst.trans (acceptPacketUdp_untaken b hfirst.books hend)
    generalize Live.acceptPacketUdp b l₁ = r at hudp he ⊢
    obtain ⟨e₂ | ⟨⟩, l₂⟩ := r <;> dsimp only at hudp he ⊢
    · exact hudp (.inl ⟨e₂, rfl⟩)
    · split at he <;> rename_i hn
      · rw [if_pos hn]
        have hsecond := hudp (.inr (Option.isNone_iff_eq_none.mp hn))
        exact hsecond.trans (acceptAdapter_untaken _ hsecond.books he)
      · cases he

end Accepting

theorem nextFlow_ends (b : TunnelBinding) (h : Went m l []) :
    Ends m (Live.flowSpares b l) (match Live.acceptClient b l with
      | (.error e, l) => ((.error e, l) : Reply W T Unit)
      | (.ok (), l) => Live.admitClient b l) := by
  have haccept := acceptClient_passes b h
  have huntaken (e : SessionFlowError) := acceptClient_untaken b h.toBooks (e := e)
  unfold Live.flowSpares
  generalize Live.acceptClient b l = r at haccept huntaken ⊢
  obtain ⟨e | ⟨⟩, l₁⟩ := r <;> dsimp only at haccept huntaken ⊢
  · obtain ⟨hbooks, hw⟩ := huntaken e rfl
    refine .error hbooks ?_ e
    rw [hw, List.append_nil]
  · exact admitClient_ends b (haccept () rfl).toBooks

/-- A poll that fails has left no flow unanswered exactly where it spares them. -/
theorem poll_ends {b : TunnelBinding} (hb : b.role = .client) (l : Live W T) :
    Ends l (Live.spares b l) (Live.poll b l) := by
  have h := reapClosed_went (Went.refl l)
  unfold Live.poll Live.spares
  rw [hb]
  dsimp only
  generalize l.reapClosed = l₀ at h ⊢
  unfold Live.pollClient
  cases l₀.session.mux with
  | none => exact nextFlow_ends b h
  | some mux =>
    have hpending := pollOpenings_pending mux.connection l₀.session.openings
    have hfound := pollOpenings_found mux.connection l₀.session.openings
    dsimp only
    generalize Live.pollOpenings mux.connection l₀.session.openings = polled at hpending hfound ⊢
    obtain ⟨found, openings, c⟩ := polled
    dsimp only at hpending hfound ⊢
    have hpolled := polled_went h (mux.withConnection c) hpending
    rcases found with _ | ⟨index, opening, result⟩
    · exact nextFlow_ends b hpolled
    · exact finishOpening_ends b
        (removed_went hpolled (swapRemove_pending hpending (hfound index opening result rfl))).toBooks result

end Ending
end Snolc.Engine
