import Snolc.EngineControl
import Mathlib.Data.List.Nodup

set_option autoImplicit false

namespace Snolc.Control
open PollIo

namespace ControlEngine
variable {M : Type}

def pollsOf (e : ControlEngine M) (control : PendingControl) : List ModuleAnswer :=
  (e.polls.filter fun p => decide (p.1 = control)).map Prod.snd

def outcomesOf (e : ControlEngine M) (response : ControlSender) : List ControlResult :=
  (e.outcomes.filter fun o => decide (o.1 = response)).map Prod.snd

/-- How far a started request is after so many rounds. -/
inductive Progress (running : Bool) (e : ControlEngine M) (control : PendingControl) (count : ℕ) : Prop where
  | waiting (hpending : control ∈ e.pending) (hpolls : e.pollsOf control = List.replicate count .pending)
      (hnone : e.outcomesOf control.response = [])
  | answered (before : ℕ) (result : Except LoadError (List UInt8)) (hgone : control ∉ e.pending)
      (hlate : before < count) (hpolls : e.pollsOf control = List.replicate before .pending ++ [.ready result])
      (houtcome : e.outcomesOf control.response = [result.mapError .module])
  | abandoned (polled : ℕ) (hstopped : running = false) (hgone : control ∉ e.pending) (hlate : polled ≤ count)
      (hpolls : e.pollsOf control = List.replicate polled .pending)
      (houtcome : e.outcomesOf control.response = [.error .stopped])

def Unstarted (e : ControlEngine M) (response : ControlSender) : Prop := ∀ x ∈ e.started, x.1.response ≠ response

section History
variable (e : ControlEngine M) (control : PendingControl) (response : ControlSender)

@[simp] theorem pollsOf_poll (x : PendingControl) (answer : ModuleAnswer) :
    ({ e with polls := e.polls ++ [(x, answer)] } : ControlEngine M).pollsOf control =
      e.pollsOf control ++ if x = control then [answer] else [] := by
  by_cases h : x = control <;> simp [pollsOf, List.filter_append, h]

@[simp] theorem outcomesOf_outcome (other : ControlSender) (result : ControlResult) :
    (e.outcome other result).outcomesOf response =
      e.outcomesOf response ++ if other = response then [result] else [] := by
  by_cases h : other = response <;> simp [outcomesOf, outcome, List.filter_append, h]

theorem outcomesOf_eq_nil {e : ControlEngine M} {response : ControlSender} (h : ∀ o ∈ e.outcomes, o.1 ≠ response) :
    e.outcomesOf response = [] := by
  rw [outcomesOf, List.map_eq_nil_iff, List.filter_eq_nil_iff]
  intro o ho
  simpa using h o ho

theorem pollsOf_eq_nil {e : ControlEngine M} {control : PendingControl} (h : ∀ p ∈ e.polls, p.1 ≠ control) :
    e.pollsOf control = [] := by
  rw [pollsOf, List.map_eq_nil_iff, List.filter_eq_nil_iff]
  intro p hp
  simpa using h p hp

end History

structure SameBooks (e e' : ControlEngine M) : Prop where
  instances : e'.instances = e.instances
  pending : e'.pending = e.pending
  rounds : e'.rounds = e.rounds
  started : e'.started = e.started
  polls : e'.polls = e.polls
  maxResponse : e'.maxResponse = e.maxResponse

theorem maxResponse_withServer (e : ControlEngine M) {f : UnixControlServer → UnixControlServer}
    (hf : ∀ server, (f server).limit = server.limit) : (e.withServer f).maxResponse = e.maxResponse := by
  unfold maxResponse withServer
  cases e.server with
  | none => rfl
  | some server => exact congrArg Limit.bytes (hf server)

theorem outcome_sameBooks (e : ControlEngine M) (response : ControlSender) (result : ControlResult) :
    SameBooks e (e.outcome response result) := ⟨rfl, rfl, rfl, rfl, rfl, rfl⟩

theorem withServer_sameBooks (e : ControlEngine M) {f : UnixControlServer → UnixControlServer}
    (hf : ∀ server, (f server).limit = server.limit) : SameBooks e (e.withServer f) :=
  ⟨rfl, rfl, rfl, rfl, rfl, e.maxResponse_withServer hf⟩

theorem SameBooks.trans {e e' e'' : ControlEngine M} (h : SameBooks e e') (h' : SameBooks e' e'') : SameBooks e e'' :=
  ⟨h'.instances.trans h.instances, h'.pending.trans h.pending, h'.rounds.trans h.rounds, h'.started.trans h.started,
    h'.polls.trans h.polls, h'.maxResponse.trans h.maxResponse⟩

theorem send_sameBooks (e : ControlEngine M) (response : ControlSender) (result : ControlResult) :
    SameBooks e (e.send response result) := by
  cases response with
  | call id => exact e.outcome_sameBooks _ _
  | connection id => exact (e.outcome_sameBooks _ _).trans (withServer_sameBooks _ fun _ => rfl)

theorem send_outcomes (e : ControlEngine M) (response : ControlSender) (result : ControlResult) :
    (e.send response result).outcomes = e.outcomes ++ [(response, result)] := by
  cases response <;> rfl

/-- Who is told of an answer, and what. -/
def told (control : PendingControl) : ModuleAnswer → List (ControlSender × ControlResult)
  | .ready result => [(control.response, result.mapError .module)]
  | .pending => []

structure Polled (e e' : ControlEngine M) (control : PendingControl) (rest : List PendingControl)
    (answer : ModuleAnswer) : Prop where
  instances : e'.instances = e.instances
  rounds : e'.rounds = e.rounds
  started : e'.started = e.started
  maxResponse : e'.maxResponse = e.maxResponse
  polls : e'.polls = e.polls ++ [(control, answer)]
  outcomes : e'.outcomes = e.outcomes ++ told control answer
  pending : e'.pending = rest ++ if answer = .pending then [control] else []

theorem pollFront_polled [ControlModules M] {e : ControlEngine M} {control : PendingControl}
    {rest : List PendingControl} (h : e.pending = control :: rest) :
    ∃ answer, Polled e e.pollFront control rest answer := by
  unfold pollFront
  rw [h]
  dsimp only
  generalize ControlModules.pollControl e.modules control.module control.request control.maxResponse = r
  obtain ⟨answer, modules⟩ := r
  refine ⟨answer, ?_⟩
  cases answer with
  | pending => exact ⟨rfl, rfl, rfl, rfl, rfl, (List.append_nil _).symm, rfl⟩
  | ready result =>
    have hsame := send_sameBooks
      { e with pending := rest, modules := modules, polls := e.polls ++ [(control, .ready result)] }
      control.response (result.mapError .module)
    exact ⟨hsame.instances, hsame.rounds, hsame.started, hsame.maxResponse, hsame.polls, send_outcomes _ _ _,
      hsame.pending.trans (List.append_nil _).symm⟩

namespace Polled
variable {e e' : ControlEngine M} {control : PendingControl} {rest : List PendingControl} {answer : ModuleAnswer}

theorem pollsOf (h : Polled e e' control rest answer) (other : PendingControl) :
    e'.pollsOf other = e.pollsOf other ++ if control = other then [answer] else [] := by
  rw [← pollsOf_poll, ControlEngine.pollsOf, ControlEngine.pollsOf, h.polls]

theorem outcomesOf (h : Polled e e' control rest answer) (response : ControlSender) :
    e'.outcomesOf response = e.outcomesOf response ++
      if control.response = response then (told control answer).map Prod.snd else [] := by
  rw [ControlEngine.outcomesOf, h.outcomes, List.filter_append, List.map_append]
  congr 1
  cases answer with
  | pending => simp [told]
  | ready result => by_cases hr : control.response = response <;> simp [told, hr]

theorem other {running : Bool} {count : ℕ} {c : PendingControl} (h : Polled e e' control rest answer)
    (hp : e.pending = control :: rest) (hc : control ≠ c) (hr : control.response ≠ c.response)
    (hprogress : e.Progress running c count) : e'.Progress running c count := by
  have hpolls : e'.pollsOf c = e.pollsOf c := by rw [h.pollsOf, if_neg hc, List.append_nil]
  have houtcomes : e'.outcomesOf c.response = e.outcomesOf c.response := by
    rw [h.outcomesOf, if_neg hr, List.append_nil]
  have hpending : c ∈ e'.pending ↔ c ∈ e.pending := by
    rw [h.pending, hp, List.mem_append, List.mem_cons]
    split
    · simp [Ne.symm hc]
    · simp [Ne.symm hc]
  cases hprogress with
  | waiting hin hp' hnone => exact .waiting (hpending.mpr hin) (hpolls.trans hp') (houtcomes.trans hnone)
  | answered before result hgone hlate hp' ho =>
    exact .answered before result (mt hpending.mp hgone) hlate (hpolls.trans hp') (houtcomes.trans ho)
  | abandoned polled hstopped hgone hlate hp' ho =>
    exact .abandoned polled hstopped (mt hpending.mp hgone) hlate (hpolls.trans hp') (houtcomes.trans ho)

theorem front {running : Bool} {count : ℕ} (h : Polled e e' control rest answer) (hp : e.pending = control :: rest)
    (hrest : control ∉ rest) (hprogress : e.Progress running control count) :
    e'.Progress running control (count + 1) := by
  have hin : control ∈ e.pending := hp ▸ List.mem_cons_self
  have hpolls : e'.pollsOf control = e.pollsOf control ++ [answer] := by rw [h.pollsOf, if_pos rfl]
  have houtcomes : e'.outcomesOf control.response =
      e.outcomesOf control.response ++ (told control answer).map Prod.snd := by
    rw [h.outcomesOf, if_pos rfl]
  cases hprogress with
  | waiting _ hp' hnone =>
    rw [hp'] at hpolls
    rw [hnone, List.nil_append] at houtcomes
    cases answer with
    | pending =>
      refine .waiting ?_ (hpolls.trans List.replicate_succ'.symm) houtcomes
      rw [h.pending, if_pos rfl]
      exact List.mem_append_right _ (List.mem_singleton_self _)
    | ready result =>
      refine .answered count result ?_ (Nat.lt_succ_self _) hpolls houtcomes
      rw [h.pending, if_neg (by simp), List.append_nil]
      exact hrest
  | answered _ _ hgone => exact absurd hin hgone
  | abandoned _ _ hgone => exact absurd hin hgone

end Polled

/-- A round in which the requests `left` are still to be polled. -/
structure Rounding (running : Bool) (begun : ControlEngine M) (left kept : List PendingControl) (e : ControlEngine M) :
    Prop where
  instances : e.instances = begun.instances
  rounds : e.rounds = begun.rounds
  started : e.started = begun.started
  maxResponse : e.maxResponse = begun.maxResponse
  pending : e.pending = left ++ kept
  order : (kept ++ left).Sublist (e.started.map Prod.fst)
  polled : ∀ p ∈ e.polls, p.1 ∈ e.started.map Prod.fst
  outcomes : ∀ response, e.Unstarted response → e.outcomesOf response = begun.outcomesOf response
  told : ∀ o ∈ e.outcomes, o ∈ begun.outcomes ∨ ∃ x ∈ e.started, x.1.response = o.1
  progress : ∀ x ∈ e.started, e.Progress running x.1 ((if x.1 ∈ left then e.rounds else e.rounds + 1) - x.2)

theorem Rounding.next [ControlModules M] {running : Bool} {begun e : ControlEngine M} {control : PendingControl}
    {left kept : List PendingControl} (h : Rounding running begun (control :: left) kept e)
    (hdistinct : (e.started.map fun x => x.1.response).Nodup) (hsince : ∀ x ∈ e.started, x.2 ≤ e.rounds) :
    ∃ kept', Rounding running begun left kept' e.pollFront := by
  obtain ⟨answer, hpolled⟩ := pollFront_polled h.pending
  have hmember : control ∈ e.started.map Prod.fst := h.order.subset (by simp)
  obtain ⟨x, hx, rfl⟩ := List.mem_map.mp hmember
  have hnodup : (e.started.map Prod.fst).Nodup := by
    refine List.Nodup.of_map PendingControl.response ?_
    rw [List.map_map]
    exact hdistinct
  have hrotated : (kept ++ x.1 :: left).Nodup := h.order.nodup hnodup
  have hnew : x.1 ∉ left ++ kept := by
    rw [List.nodup_append] at hrotated
    intro hin
    rcases List.mem_append.mp hin with hl | hk
    · exact (List.nodup_cons.mp hrotated.2.1).1 hl
    · exact hrotated.2.2 _ hk _ List.mem_cons_self rfl
  refine ⟨kept ++ if answer = .pending then [x.1] else [], hpolled.instances.trans h.instances,
    hpolled.rounds.trans h.rounds, hpolled.started.trans h.started, hpolled.maxResponse.trans h.maxResponse,
    hpolled.pending.trans (List.append_assoc _ _ _), ?_, ?_, ?_, ?_, ?_⟩
  · rw [hpolled.started]
    refine List.Sublist.trans ?_ h.order
    split
    · simp
    · simp
  · rw [hpolled.started, hpolled.polls]
    intro p hp
    rcases List.mem_append.mp hp with hp | hp
    · exact h.polled p hp
    · obtain rfl := List.mem_singleton.mp hp
      exact hmember
  · intro response hunstarted
    have hne : x.1.response ≠ response := hunstarted x (hpolled.started.symm ▸ hx)
    rw [hpolled.outcomesOf, if_neg hne, List.append_nil]
    exact h.outcomes response fun y hy => hunstarted y (hpolled.started.symm ▸ hy)
  · rw [hpolled.outcomes, hpolled.started]
    intro o ho
    rcases List.mem_append.mp ho with ho | ho
    · exact h.told o ho
    · refine .inr ⟨x, hx, ?_⟩
      cases answer with
      | pending => cases ho
      | ready result =>
        obtain rfl := List.mem_singleton.mp ho
        rfl
  · rw [hpolled.started, hpolled.rounds]
    intro y hy
    have hprogress := h.progress y hy
    by_cases hyx : y = x
    · subst hyx
      rw [if_pos List.mem_cons_self] at hprogress
      rw [if_neg fun hl => hnew (List.mem_append_left _ hl), Nat.sub_add_comm (hsince y hy)]
      exact hpolled.front h.pending hnew hprogress
    · have hresponse : x.1.response ≠ y.1.response := fun heq =>
        hyx (List.inj_on_of_nodup_map hdistinct hx hy heq).symm
      have hne : x.1 ≠ y.1 := fun heq => hresponse (congrArg PendingControl.response heq)
      refine hpolled.other h.pending hne hresponse ?_
      simpa only [List.mem_cons, Ne.symm hne, false_or] using hprogress

theorem Rounding.all [ControlModules M] {running : Bool} {begun e : ControlEngine M} {left kept : List PendingControl}
    (h : Rounding running begun left kept e) (hdistinct : (begun.started.map fun x => x.1.response).Nodup)
    (hsince : ∀ x ∈ begun.started, x.2 ≤ begun.rounds) :
    ∃ kept', Rounding running begun [] kept' (pollFront^[left.length] e) := by
  induction left generalizing e kept with
  | nil => exact ⟨kept, h⟩
  | cons control left ih =>
    obtain ⟨kept', h'⟩ := h.next (h.started.symm ▸ hdistinct) (by rw [h.started, h.rounds]; exact hsince)
    exact ih h'

end ControlEngine
end Snolc.Control
