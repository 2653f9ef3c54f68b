import Snolc.ControlRounds

set_option autoImplicit false

namespace Snolc.Control
open PollIo

namespace ControlEngine
variable {M : Type}

/-- Why a request is refused without a poll of any module. `admitted` says of each call of the handle
    whether the engine was running and its queue took the command. -/
inductive Refusal (running : Bool) (admitted : List Bool) (e : ControlEngine M) (ask : ControlCommand) :
    EngineError → Prop where
  | commandQueue (id : ℕ) (h : ask.response = .call id) (haway : admitted[id]? = some false) :
      Refusal running admitted e ask .commandQueue
  | instanceNotFound (h : e.instances.findIdx? (· == ask.name) = none) :
      Refusal running admitted e ask (.instanceNotFound ask.name)
  | stopped (h : running = false) : Refusal running admitted e ask .stopped

structure Starts (e : ControlEngine M) (limit : ℕ) (ask : ControlCommand) (control : PendingControl) : Prop where
  module : e.instances.findIdx? (· == ask.name) = some control.module
  request : control.request = ask.request
  maxResponse : control.maxResponse = limit
  response : control.response = ask.response

/-- What has become of a request; `todo` are those that still wait to be started. -/
inductive Course (running : Bool) (admitted : List Bool) (limit : ℕ) (todo : List ControlCommand) (e : ControlEngine M)
    (ask : ControlCommand) : Prop where
  | queued (h : ask ∈ todo) (hunstarted : e.Unstarted ask.response) (hnone : e.outcomesOf ask.response = [])
  | refused (error : EngineError) (h : ask ∉ todo) (hunstarted : e.Unstarted ask.response)
      (houtcome : e.outcomesOf ask.response = [.error error]) (hwhy : e.Refusal running admitted ask error)
  | started (control : PendingControl) (since : ℕ) (h : ask ∉ todo) (hstarted : (control, since) ∈ e.started)
      (hstarts : e.Starts limit ask control) (hprogress : e.Progress running control (e.rounds - since))

/-- The books of the engine over all requests asked so far. -/
structure Ledger (running : Bool) (admitted : List Bool) (limit : ℕ) (todo asked : List ControlCommand)
    (e : ControlEngine M) : Prop where
  distinct : (asked.map ControlCommand.response).Nodup
  once : todo.Nodup
  queued : todo ⊆ asked
  started : (e.started.map fun x => x.1.response).Nodup
  startedAsked : ∀ x ∈ e.started, x.1.response ∈ asked.map ControlCommand.response
  outcomesAsked : ∀ o ∈ e.outcomes, o.1 ∈ asked.map ControlCommand.response
  order : e.pending.Sublist (e.started.map Prod.fst)
  polled : ∀ p ∈ e.polls, p.1 ∈ e.started.map Prod.fst
  since : ∀ x ∈ e.started, x.2 ≤ e.rounds
  maxResponse : running = true → e.maxResponse = limit
  courses : ∀ ask ∈ asked, e.Course running admitted limit todo ask

section Books
variable {running : Bool} {admitted : List Bool} {limit : ℕ} {todo asked : List ControlCommand} {ask : ControlCommand}
  {e : ControlEngine M}

theorem Ledger.progress (h : e.Ledger running admitted limit todo asked) {x : PendingControl × ℕ} (hx : x ∈ e.started) :
    ∃ ask ∈ asked, ask ∉ todo ∧ e.Starts limit ask x.1 ∧ e.Progress running x.1 (e.rounds - x.2) := by
  obtain ⟨ask, hask, hresponse⟩ := List.mem_map.mp (h.startedAsked x hx)
  cases h.courses ask hask with
  | queued _ hunstarted => exact absurd hresponse.symm (hunstarted x hx)
  | refused _ _ hunstarted => exact absurd hresponse.symm (hunstarted x hx)
  | started control since htodo hstarted hstarts hprogress =>
    obtain rfl : (control, since) = x :=
      List.inj_on_of_nodup_map h.started hstarted hx (hstarts.response.trans hresponse)
    exact ⟨ask, hask, htodo, hstarts, hprogress⟩

theorem Ledger.pollControls [ControlModules M] (h : e.Ledger running admitted limit todo asked) :
    e.pollControls.Ledger running admitted limit todo asked := by
  have hbegin : Rounding running e e.pending [] e :=
    ⟨rfl, rfl, rfl, rfl, (List.append_nil _).symm, h.order, h.polled, fun _ _ => rfl, fun _ => .inl, fun x hx => by
      obtain ⟨_, _, _, _, hprogress⟩ := h.progress hx
      by_cases hin : x.1 ∈ e.pending
      · rwa [if_pos hin]
      · rw [if_neg hin]
        cases hprogress with
        | waiting hpending => exact absurd hpending hin
        | answered before result hgone hlate hp ho =>
          exact .answered before result hgone (by omega) hp ho
        | abandoned polled hstopped hgone hlate hp ho => exact .abandoned polled hstopped hgone (by omega) hp ho⟩
  obtain ⟨kept, hround⟩ := hbegin.all h.started h.since
  unfold ControlEngine.pollControls
  generalize pollFront^[e.pending.length] e = e' at hround
  have hstarted := hround.started
  refine ⟨h.distinct, h.once, h.queued, hstarted ▸ h.started, hstarted ▸ h.startedAsked, ?_, ?_, hround.polled,
    ?_, ?_, ?_⟩
  · intro o ho
    rcases hround.told o ho with ho | ⟨x, hx, hxo⟩
    · exact h.outcomesAsked o ho
    · exact hxo ▸ h.startedAsked x (hstarted ▸ hx)
  · have horder := hround.order
    rw [List.append_nil] at horder
    rwa [hround.pending, List.nil_append]
  · intro x hx
    have hx' := h.since x (hstarted ▸ hx)
    dsimp only
    rw [hround.rounds]
    omega
  · intro hrunning
    exact hround.maxResponse.trans (h.maxResponse hrunning)
  · intro ask hask
    have hunstarted : e.Unstarted ask.response → e'.Unstarted ask.response := fun hu x hx => hu x (hstarted ▸ hx)
    cases h.courses ask hask with
    | queued hin hu hnone => exact .queued hin (hunstarted hu) ((hround.outcomes _ (hunstarted hu)).trans hnone)
    | refused error hin hu ho hwhy =>
      refine .refused error hin (hunstarted hu) ((hround.outcomes _ (hunstarted hu)).trans ho) ?_
      cases hwhy with
      | commandQueue id hcall haway => exact .commandQueue id hcall haway
      | instanceNotFound hnot => exact .instanceNotFound (by rw [← hnot, hround.instances])
      | stopped hstopped => exact .stopped hstopped
    | started control since hin hmem hstarts hprogress =>
      refine .started control since hin (hstarted ▸ hmem)
        ⟨?_, hstarts.request, hstarts.maxResponse, hstarts.response⟩ ?_
      · rw [← hstarts.module, hround.instances]
      · have := hround.progress _ (hstarted ▸ hmem)
        cases this with
        | waiting hp hpolls hnone => exact .waiting hp hpolls hnone
        | answered before result hgone hlate hp ho => exact .answered before result hgone hlate hp ho
        | abandoned polled hstopped hgone hlate hp ho => exact .abandoned polled hstopped hgone hlate hp ho

structure Alike (ask : ControlCommand) (todo todo' : List ControlCommand) (e e' : ControlEngine M) : Prop where
  todo : ask ∈ todo' ↔ ask ∈ todo
  instances : e'.instances = e.instances
  rounds : e'.rounds = e.rounds
  started : ∀ x, x.1.response = ask.response → (x ∈ e'.started ↔ x ∈ e.started)
  pending : ∀ control, control.response = ask.response → (control ∈ e'.pending ↔ control ∈ e.pending)
  polls : ∀ control, control.response = ask.response → e'.pollsOf control = e.pollsOf control
  outcomes : e'.outcomesOf ask.response = e.outcomesOf ask.response

theorem Course.alike {todo' : List ControlCommand} {e' : ControlEngine M} (h : e.Course running admitted limit todo ask)
    (ha : Alike ask todo todo' e e') : e'.Course running admitted limit todo' ask := by
  have hunstarted : e.Unstarted ask.response → e'.Unstarted ask.response := fun hu x hx hr =>
    hu x ((ha.started x hr).mp hx) hr
  cases h with
  | queued hin hu hnone => exact .queued (ha.todo.mpr hin) (hunstarted hu) (ha.outcomes.trans hnone)
  | refused error hin hu ho hwhy =>
    refine .refused error (mt ha.todo.mp hin) (hunstarted hu) (ha.outcomes.trans ho) ?_
    cases hwhy with
    | commandQueue id hcall haway => exact .commandQueue id hcall haway
    | instanceNotFound hnot => exact .instanceNotFound (by rw [← hnot, ha.instances])
    | stopped hstopped => exact .stopped hstopped
  | started control since hin hmem hstarts hprogress =>
    have hr := hstarts.response
    have hpolls := ha.polls control hr
    have houtcomes : e'.outcomesOf control.response = e.outcomesOf control.response := by rw [hr, ha.outcomes]
    refine .started control since (mt ha.todo.mp hin) ((ha.started _ hr).mpr hmem)
      ⟨by rw [← hstarts.module, ha.instances], hstarts.request, hstarts.maxResponse, hr⟩ ?_
    rw [ha.rounds]
    cases hprogress with
    | waiting hp hpolls' hnone =>
      exact .waiting ((ha.pending _ hr).mpr hp) (hpolls.trans hpolls') (houtcomes.trans hnone)
    | answered before result hgone hlate hp ho =>
      exact .answered before result (mt (ha.pending _ hr).mp hgone) hlate (hpolls.trans hp) (houtcomes.trans ho)
    | abandoned polled hstopped hgone hlate hp ho =>
      exact .abandoned polled hstopped (mt (ha.pending _ hr).mp hgone) hlate (hpolls.trans hp) (houtcomes.trans ho)

theorem Ledger.response_ne (h : e.Ledger running admitted limit todo asked) {other : ControlCommand}
    (hask : ask ∈ asked) (hother : other ∈ asked) (hne : other ≠ ask) : ask.response ≠ other.response := fun heq =>
  hne (List.inj_on_of_nodup_map h.distinct hother hask heq.symm)

theorem Ledger.calls (h : e.Ledger running admitted limit todo asked) (taken : Bool) :
    e.Ledger running (admitted ++ [taken]) limit todo asked := by
  refine { h with courses := fun ask hask => ?_ }
  cases h.courses ask hask with
  | queued hin hu hnone => exact .queued hin hu hnone
  | refused error hin hu ho hwhy =>
    refine .refused error hin hu ho ?_
    cases hwhy with
    | commandQueue id hcall haway =>
      exact .commandQueue id hcall ((List.getElem?_append_left (List.getElem?_eq_some_iff.mp haway).1).trans haway)
    | instanceNotFound hnot => exact .instanceNotFound hnot
    | stopped hstopped => exact .stopped hstopped
  | started control since hin hmem hstarts hprogress => exact .started control since hin hmem hstarts hprogress

theorem Ledger.newcomer (h : e.Ledger running admitted limit todo asked)
    (hnew : ask.response ∉ asked.map ControlCommand.response) :
    e.Ledger running admitted limit (todo ++ [ask]) (asked ++ [ask]) := by
  have hmem : ∀ {response}, response ∈ asked.map ControlCommand.response →
      response ∈ (asked ++ [ask]).map ControlCommand.response := fun hin => by
    rw [List.map_append]
    exact List.mem_append_left _ hin
  have hfresh : ask ∉ asked := fun hin => hnew (List.mem_map_of_mem hin)
  refine ⟨?_, ?_, ?_, h.started, fun x hx => hmem (h.startedAsked x hx), fun o ho => hmem (h.outcomesAsked o ho),
    h.order, h.polled, h.since, h.maxResponse, ?_⟩
  · rw [List.map_append]
    exact h.distinct.append (List.nodup_singleton _) (List.disjoint_singleton.mpr hnew)
  · exact h.once.append (List.nodup_singleton _) (List.disjoint_singleton.mpr fun hin => hfresh (h.queued hin))
  · exact List.append_subset.mpr
      ⟨fun _ hin => List.mem_append_left _ (h.queued hin), fun _ hin => List.mem_append_right _ hin⟩
  · intro other hother
    rcases List.mem_append.mp hother with hin | hin
    · refine (h.courses other hin).alike ⟨?_, rfl, rfl, fun _ _ => Iff.rfl, fun _ _ => Iff.rfl, fun _ _ => rfl, rfl⟩
      rw [List.mem_append, List.mem_singleton, or_iff_left]
      rintro rfl
      exact hfresh hin
    · obtain rfl := List.mem_singleton.mp hin
      exact .queued (List.mem_append_right _ hin) (fun x hx heq => hnew (heq ▸ h.startedAsked x hx))
        (outcomesOf_eq_nil fun o ho heq => hnew (heq ▸ h.outcomesAsked o ho))

variable {front back : List ControlCommand}

theorem Ledger.queue (h : e.Ledger running admitted limit (front ++ ask :: back) asked) :
    ask ∈ asked ∧ ask ∉ front ++ back ∧ (front ++ back).Nodup ∧ front ++ back ⊆ asked ∧
      ∀ other, other ≠ ask → (other ∈ front ++ back ↔ other ∈ front ++ ask :: back) := by
  have hnodup := List.nodup_middle.mp h.once
  obtain ⟨hnot, hrest⟩ := List.nodup_cons.mp hnodup
  refine ⟨h.queued (by simp), hnot, hrest, fun x hx => h.queued ?_, fun other hne => ?_⟩
  · rcases List.mem_append.mp hx with hx | hx
    · exact List.mem_append_left _ hx
    · exact List.mem_append_right _ (List.mem_cons_of_mem _ hx)
  · simp [hne]

theorem Ledger.unasked (h : e.Ledger running admitted limit (front ++ ask :: back) asked) :
    e.Unstarted ask.response ∧ e.outcomesOf ask.response = [] := by
  have hin : ask ∈ front ++ ask :: back := by simp
  cases h.courses ask h.queue.1 with
  | queued _ hu hnone => exact ⟨hu, hnone⟩
  | refused _ hnot => exact absurd hin hnot
  | started _ _ hnot => exact absurd hin hnot

theorem Ledger.startControl (h : e.Ledger true admitted limit (front ++ ask :: back) asked) {e' : ControlEngine M}
    (hstart : e.startControl ask.name ask.request ask.response = (.ok (), e')) :
    e'.Ledger true admitted limit (front ++ back) asked := by
  obtain ⟨hask, hnot, honce, hqueued, hothers⟩ := h.queue
  obtain ⟨hunstarted, hnone⟩ := h.unasked
  unfold ControlEngine.startControl at hstart
  split at hstart
  · cases hstart
  · rename_i module hmodule
    cases hstart
    have hresponse : ask.response ∈ asked.map ControlCommand.response := List.mem_map_of_mem hask
    refine ⟨h.distinct, honce, hqueued, ?_, ?_, h.outcomesAsked, ?_, ?_, ?_, h.maxResponse, ?_⟩
    · dsimp only
      rw [List.map_append]
      refine h.started.append (List.nodup_singleton _) (List.disjoint_singleton.mpr fun hin => ?_)
      obtain ⟨x, hx, heq⟩ := List.mem_map.mp hin
      exact hunstarted x hx heq
    · intro x hx
      rcases List.mem_append.mp hx with hx | hx
      · exact h.startedAsked x hx
      · rw [List.mem_singleton.mp hx]
        exact hresponse
    · dsimp only
      rw [List.map_append]
      exact h.order.append (List.Sublist.refl _)
    · intro p hp
      dsimp only
      rw [List.map_append]
      exact List.mem_append_left _ (h.polled p hp)
    · intro x hx
      rcases List.mem_append.mp hx with hx | hx
      · exact h.since x hx
      · obtain rfl := List.mem_singleton.mp hx
        exact Nat.le_refl _
    · intro other hother
      by_cases hsame : other = ask
      · subst hsame
        refine .started _ e.rounds hnot (List.mem_append_right _ (List.mem_singleton_self _))
          ⟨hmodule, rfl, h.maxResponse rfl, rfl⟩
          (.waiting (List.mem_append_right _ (List.mem_singleton_self _)) ?_ hnone)
        rw [Nat.sub_self, List.replicate_zero]
        refine pollsOf_eq_nil fun p hp heq => ?_
        obtain ⟨x, hx, hxp⟩ := List.mem_map.mp (h.polled p hp)
        exact hunstarted x hx (congrArg PendingControl.response (hxp.trans heq))
      · have hne := h.response_ne hask hother hsame
        refine (h.courses other hother).alike
          ⟨hothers other hsame, rfl, rfl, fun x hx => ?_, fun c hc => ?_, fun _ _ => rfl, rfl⟩
        · rw [List.mem_append, List.mem_singleton, or_iff_left]
          rintro rfl
          exact hne hx
        · rw [List.mem_append, List.mem_singleton, or_iff_left]
          rintro rfl
          exact hne hc

theorem Ledger.refuse (h : e.Ledger running admitted limit (front ++ ask :: back) asked) {e' : ControlEngine M}
    (hsame : SameBooks e e') {error : EngineError} (ho : e'.outcomes = e.outcomes ++ [(ask.response, .error error)])
    (hwhy : e.Refusal running admitted ask error) : e'.Ledger running admitted limit (front ++ back) asked := by
  obtain ⟨hask, hnot, honce, hqueued, hothers⟩ := h.queue
  obtain ⟨hunstarted, hnone⟩ := h.unasked
  have houtcomes : ∀ response, e'.outcomesOf response =
      e.outcomesOf response ++ if ask.response = response then [.error error] else [] := by
    intro response
    rw [← outcomesOf_outcome, outcomesOf, outcomesOf, ho, outcome]
  have hpolls : ∀ control, e'.pollsOf control = e.pollsOf control := by
    intro control
    rw [pollsOf, pollsOf, hsame.polls]
  refine ⟨h.distinct, honce, hqueued, hsame.started ▸ h.started, hsame.started ▸ h.startedAsked, ?_, ?_, ?_, ?_, ?_, ?_⟩
  · intro o hin
    rw [ho] at hin
    rcases List.mem_append.mp hin with hin | hin
    · exact h.outcomesAsked o hin
    · rw [List.mem_singleton.mp hin]
      exact List.mem_map_of_mem hask
  · rw [hsame.pending, hsame.started]
    exact h.order
  · rw [hsame.polls, hsame.started]
    exact h.polled
  · rw [hsame.started, hsame.rounds]
    exact h.since
  · exact fun hrunning => hsame.maxResponse.trans (h.maxResponse hrunning)
  · intro other hother
    by_cases hsame' : other = ask
    · subst hsame'
      refine .refused error hnot (fun x hx => hunstarted x (hsame.started ▸ hx)) ?_ ?_
      · rw [houtcomes, hnone, if_pos rfl, List.nil_append]
      · cases hwhy with
        | commandQueue id hcall haway => exact .commandQueue id hcall haway
        | instanceNotFound hnone => exact .instanceNotFound (by rw [← hnone, hsame.instances])
        | stopped hstopped => exact .stopped hstopped
    · have hne := h.response_ne hask hother hsame'
      refine (h.courses other hother).alike ⟨hothers other hsame', hsame.instances, hsame.rounds,
        fun _ _ => by rw [hsame.started], fun _ _ => by rw [hsame.pending], fun control _ => hpolls control, ?_⟩
      rw [houtcomes, if_neg hne, List.append_nil]

theorem Ledger.sameBooks (h : e.Ledger running admitted limit todo asked) {e' : ControlEngine M}
    (hsame : SameBooks e e') (ho : e'.outcomes = e.outcomes) : e'.Ledger running admitted limit todo asked := by
  refine ⟨h.distinct, h.once, h.queued, hsame.started ▸ h.started, hsame.started ▸ h.startedAsked, ho ▸ h.outcomesAsked,
    ?_, ?_, ?_, fun hrunning => hsame.maxResponse.trans (h.maxResponse hrunning), fun ask hask => ?_⟩
  · rw [hsame.pending, hsame.started]
    exact h.order
  · rw [hsame.polls, hsame.started]
    exact h.polled
  · rw [hsame.started, hsame.rounds]
    exact h.since
  · exact (h.courses ask hask).alike ⟨Iff.rfl, hsame.instances, hsame.rounds, fun _ _ => by rw [hsame.started],
      fun _ _ => by rw [hsame.pending], fun _ _ => by rw [pollsOf, pollsOf, hsame.polls],
      by rw [outcomesOf, outcomesOf, ho]⟩

end Books

end ControlEngine
end Snolc.Control
