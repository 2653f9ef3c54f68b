import Snolc.ControlBooks
import Snolc.ControlSockets

set_option autoImplicit false

namespace Snolc.Control
open PollIo GuardedRuns

namespace ControlEngine
variable {M : Type} {e : ControlEngine M} {admitted : List Bool} {asked : List ControlSender} {limit : ℕ}

/-- The connections agree with the requests that are pending. -/
def Wired (asked : List ControlSender) (e : ControlEngine M) : Prop :=
  ∀ server, e.server = some server → Sockets server asked (e.pending.map PendingControl.response)

theorem Wired.pollFront [ControlModules M] (h : e.Wired asked)
    (hnodup : (e.pending.map PendingControl.response).Nodup) :
    e.pollFront.Wired asked ∧ (e.pollFront.pending.map PendingControl.response).Nodup := by
  unfold ControlEngine.pollFront
  split
  · exact ⟨h, hnodup⟩
  · rename_i control rest hpending
    rw [hpending, List.map_cons] at hnodup
    obtain ⟨hnot, hrest⟩ := List.nodup_cons.mp hnodup
    have hold : ∀ server, e.server = some server →
        Sockets server asked (control.response :: rest.map PendingControl.response) := by
      intro server hserver
      have hsockets := h server hserver
      rwa [hpending, List.map_cons] at hsockets
    dsimp only
    split
    · rename_i result hanswer
      refine ⟨?_, by rw [(send_sameBooks _ _ _).pending]; exact hrest⟩
      intro server hserver
      rw [(send_sameBooks _ _ _).pending]
      cases hresponse : control.response with
      | call id =>
        rw [hresponse] at hserver
        exact (hold server hserver).mono (List.subset_cons_self _ _)
      | connection c =>
        rw [hresponse] at hserver hnot hold
        obtain ⟨server', hserver', rfl⟩ := Option.map_eq_some_iff.mp hserver
        exact (hold server' hserver').answered c _ (List.subset_cons_self _ _) hnot
    · have hperm : ((rest ++ [control]).map PendingControl.response).Perm
          (control.response :: rest.map PendingControl.response) := by
        rw [List.map_append]
        exact List.perm_append_singleton _ _
      exact ⟨fun server hserver => (hold server hserver).mono hperm.subset, hperm.nodup_iff.mpr hnodup⟩

theorem Ledger.pending_nodup {running : Bool} {todo asked : List ControlCommand}
    (h : e.Ledger running admitted limit todo asked) : (e.pending.map PendingControl.response).Nodup := by
  refine (h.order.map PendingControl.response).nodup ?_
  rw [List.map_map]
  exact h.started

theorem Wired.pollControls [ControlModules M] (h : e.Wired asked)
    (hnodup : (e.pending.map PendingControl.response).Nodup) : e.pollControls.Wired asked := by
  have hturns : ∀ n, (ControlEngine.pollFront^[n] e).Wired asked ∧
      ((ControlEngine.pollFront^[n] e).pending.map PendingControl.response).Nodup := by
    intro n
    induction n with
    | zero => exact ⟨h, hnodup⟩
    | succ n ih =>
      rw [Function.iterate_succ_apply']
      exact ih.1.pollFront ih.2
  exact (hturns e.pending.length).1

theorem startControl_ok {e' : ControlEngine M} {name : String} {request : List UInt8} {response : ControlSender}
    (h : e.startControl name request response = (.ok (), e')) :
    e'.server = e.server ∧ e'.outcomes = e.outcomes ∧
      e'.pending.map PendingControl.response = e.pending.map PendingControl.response ++ [response] := by
  unfold startControl at h
  split at h
  · cases h
  · cases h
    exact ⟨rfl, rfl, List.map_append⟩

theorem startControl_error {e' : ControlEngine M} {name : String} {request : List UInt8} {response : ControlSender}
    {error : EngineError} (h : e.startControl name request response = (.error error, e')) :
    e' = e ∧ ∀ admitted, e.Refusal true admitted ⟨name, request, response⟩ error := by
  unfold startControl at h
  split at h
  · rename_i hmodule
    cases h
    exact ⟨rfl, fun _ => .instanceNotFound hmodule⟩
  · cases h

theorem Wired.startCall (h : e.Wired asked) {e' : ControlEngine M} {name : String} {request : List UInt8} {id : ℕ}
    (hstart : e.startControl name request (.call id) = (.ok (), e')) : e'.Wired asked := by
  intro server hserver
  obtain ⟨hserver', _, hpending'⟩ := startControl_ok hstart
  rw [hserver'] at hserver
  rw [hpending']
  refine (h server hserver).calls (fun _ hc => hc) fun c hc => ?_
  simpa using hc

theorem startControl_instances {e' : ControlEngine M} {name : String} {request : List UInt8} {response : ControlSender}
    {result : Except EngineError Unit} (h : e.startControl name request response = (result, e')) :
    e'.instances = e.instances := by
  cases result with
  | ok value =>
    unfold startControl at h
    split at h
    · cases h
    · cases h
      rfl
  | error error => rw [(startControl_error h).1]

theorem pollControls_instances [ControlModules M] (e : ControlEngine M) : e.pollControls.instances = e.instances := by
  have hturns : ∀ n, (ControlEngine.pollFront^[n] e).instances = e.instances := by
    intro n
    induction n with
    | zero => rfl
    | succ n ih =>
      rw [Function.iterate_succ_apply', ← ih]
      generalize ControlEngine.pollFront^[n] e = e'
      cases hpending : e'.pending with
      | nil =>
        unfold ControlEngine.pollFront
        rw [hpending]
      | cons control rest =>
        obtain ⟨_, hpolled⟩ := pollFront_polled hpending
        exact hpolled.instances
  exact hturns e.pending.length

theorem foldl_beginLocal_instances (e : ControlEngine M) (handed : List LocalRequest) :
    (handed.foldl beginLocal e).instances = e.instances := by
  induction handed generalizing e with
  | nil => rfl
  | cons r handed ih =>
    rw [List.foldl_cons, ih]
    unfold beginLocal
    cases hstart : e.startControl r.name r.request (.connection r.connection) with
    | mk result e' =>
      cases result with
      | ok value =>
        have hsame := startControl_instances hstart
        exact hsame
      | error error =>
        have hsame := startControl_instances hstart
        exact hsame

theorem beginLocal_kept {front back : List ControlCommand} {asked' : List ControlCommand} {r : LocalRequest}
    (h : e.Ledger true admitted limit (front ++ ControlDesk.command r :: back) asked') (hwired : e.Wired asked)
    (hdispatched : ∀ server, e.server = some server →
      KeyedList.get server.connections r.connection = some ⟨[], .dispatched⟩) :
    (e.beginLocal r).Ledger true admitted limit (front ++ back) asked' ∧ (e.beginLocal r).Wired asked ∧
      ∀ other, other ≠ r.connection → ∀ server, (e.beginLocal r).server = some server →
        ∃ server', e.server = some server' ∧
          KeyedList.get server.connections other = KeyedList.get server'.connections other := by
  unfold beginLocal
  have hunstarted := h.unasked.1
  cases hstart : e.startControl r.name r.request (.connection r.connection) with
  | mk result e' =>
    cases result with
    | ok value =>
      have hledger := h.startControl hstart
      obtain ⟨hserver₀, _, hpending₀⟩ := startControl_ok hstart
      refine ⟨hledger.sameBooks (withServer_sameBooks _ fun _ => rfl) rfl, ?_, ?_⟩
      · intro server hserver
        obtain ⟨server', hserver', rfl⟩ := Option.map_eq_some_iff.mp hserver
        rw [hserver₀] at hserver'
        have hsockets := (hwired server' hserver').waitFor (hdispatched server' hserver')
        rwa [← hpending₀] at hsockets
      · intro other hother server hserver
        obtain ⟨server', hserver', rfl⟩ := Option.map_eq_some_iff.mp hserver
        rw [hserver₀] at hserver'
        exact ⟨server', hserver', (KeyedList.get_modify _ _ _ _).trans (if_neg hother)⟩
    | error error =>
      obtain ⟨rfl, hwhy⟩ := startControl_error hstart
      have hlimit : ∀ server : UnixControlServer, (server.reject r.connection error.text).limit = server.limit :=
        fun _ => rfl
      refine ⟨h.refuse ((outcome_sameBooks _ _ _).trans (withServer_sameBooks _ hlimit)) rfl (hwhy _), ?_, ?_⟩
      · intro server hserver
        obtain ⟨server', hserver', rfl⟩ := Option.map_eq_some_iff.mp hserver
        have hsockets := hwired server' hserver'
        refine hsockets.reject r.connection error.text fun hin => ?_
        obtain ⟨control, hcontrol, hresponse⟩ := List.mem_map.mp hin
        obtain ⟨x, hx, rfl⟩ := List.mem_map.mp (h.order.subset hcontrol)
        exact hunstarted x hx hresponse
      · intro other hother server hserver
        obtain ⟨server', hserver', rfl⟩ := Option.map_eq_some_iff.mp hserver
        exact ⟨server', hserver', (server'.get_reject _ _ other).trans (if_neg hother)⟩

theorem foldl_beginLocal_kept {front asked' : List ControlCommand} (handed : List LocalRequest)
    (h : e.Ledger true admitted limit (front ++ handed.map ControlDesk.command) asked') (hwired : e.Wired asked)
    (honce : (handed.map LocalRequest.connection).Nodup)
    (hdispatched : ∀ r ∈ handed, ∀ server, e.server = some server →
      KeyedList.get server.connections r.connection = some ⟨[], .dispatched⟩) :
    (handed.foldl beginLocal e).Ledger true admitted limit front asked' ∧ (handed.foldl beginLocal e).Wired asked := by
  induction handed generalizing e with
  | nil =>
    rw [List.map_nil, List.append_nil] at h
    exact ⟨h, hwired⟩
  | cons r handed ih =>
    rw [List.map_cons] at h honce
    obtain ⟨hnot, hrest⟩ := List.nodup_cons.mp honce
    obtain ⟨hledger, hwired', hothers⟩ := beginLocal_kept h hwired (hdispatched r List.mem_cons_self)
    refine ih hledger hwired' hrest fun other hother server hserver => ?_
    have hne : other.connection ≠ r.connection := fun heq =>
      hnot (List.mem_map.mpr ⟨other, hother, heq⟩)
    obtain ⟨server', hserver', hget⟩ := hothers other.connection hne server hserver
    rw [hget]
    exact hdispatched other (List.mem_cons_of_mem _ hother) server' hserver'

/-- Requests are numbered, connections are asked once, and the books hold. -/
structure Holds (running : Bool) (admitted : List Bool) (limit : ℕ) (todo asked : List ControlCommand)
    (e : ControlEngine M) : Prop where
  ledger : e.Ledger running admitted limit todo asked
  wired : e.Wired (asked.map ControlCommand.response)

theorem Holds.pollControls [ControlModules M] {running : Bool} {todo asked : List ControlCommand}
    (h : e.Holds running admitted limit todo asked) : e.pollControls.Holds running admitted limit todo asked :=
  ⟨h.ledger.pollControls, h.wired.pollControls h.ledger.pending_nodup⟩

theorem Ledger.newcomers {running : Bool} {todo asked new : List ControlCommand}
    (h : e.Ledger running admitted limit todo asked)
    (honce : (new.map ControlCommand.response).Nodup)
    (hnew : ∀ ask ∈ new, ask.response ∉ asked.map ControlCommand.response) :
    e.Ledger running admitted limit (todo ++ new) (asked ++ new) := by
  induction new generalizing todo asked with
  | nil => simpa using h
  | cons ask new ih =>
    rw [List.map_cons] at honce
    obtain ⟨hnot, hrest⟩ := List.nodup_cons.mp honce
    have hnext := ih (h.newcomer (hnew ask List.mem_cons_self)) hrest fun other hother hin => by
      rw [List.map_append] at hin
      rcases List.mem_append.mp hin with hin | hin
      · exact hnew other (List.mem_cons_of_mem _ hother) hin
      · have heq : other.response = ask.response := by simpa using hin
        exact hnot (heq ▸ List.mem_map_of_mem hother)
    simpa using hnext

theorem Holds.handed {running : Bool} {todo asked : List ControlCommand} (h : e.Holds running admitted limit todo asked)
    {server : UnixControlServer} (hserver : e.server = some server) (incoming : List Bool) (io : ℕ → StreamIo) :
    ({ e with server := some (server.poll incoming io).2 } : ControlEngine M).Holds running admitted limit
        (todo ++ (server.poll incoming io).1.map ControlDesk.command)
        (asked ++ (server.poll incoming io).1.map ControlDesk.command) ∧
      Sockets.Hands (asked.map ControlCommand.response) (server.poll incoming io).2 (server.poll incoming io).1 := by
  obtain ⟨hsockets, hands⟩ := (h.wired server hserver).poll incoming io
  have hresponses : ((server.poll incoming io).1.map ControlDesk.command).map ControlCommand.response =
      (server.poll incoming io).1.map fun r => .connection r.connection := by
    rw [List.map_map]
    rfl
  have honce : (((server.poll incoming io).1.map ControlDesk.command).map ControlCommand.response).Nodup := by
    rw [hresponses]
    have hinj := hands.once.map (f := ControlSender.connection) fun _ _ heq => ControlSender.connection.inj heq
    rwa [List.map_map] at hinj
  have hledger := h.ledger.newcomers honce fun ask hask hin => by
    obtain ⟨r, hr, rfl⟩ := List.mem_map.mp hask
    exact hands.new r hr hin
  have hsame : SameBooks e { e with server := some (server.poll incoming io).2 } := by
    refine ⟨rfl, rfl, rfl, rfl, rfl, ?_⟩
    simp only [ControlEngine.maxResponse, hserver]
    exact congrArg Limit.bytes (UnixControlServer.poll_keeps (h.wired server hserver).sound
      (h.wired server hserver).numbered incoming io).1.limit
  refine ⟨⟨hledger.sameBooks hsame rfl, fun server' hserver' => ?_⟩, hands⟩
  obtain rfl := Option.some.inj hserver'
  rw [List.map_append, hresponses]
  exact hsockets

theorem Holds.pollLocalControl [ControlModules M] {todo asked : List ControlCommand}
    (h : e.Holds true admitted limit todo asked) (incoming : List Bool) (io : ℕ → StreamIo) :
    (e.pollLocalControl incoming io).2.Holds true admitted limit todo
      (asked ++ (e.pollLocalControl incoming io).1.map ControlDesk.command) := by
  unfold ControlEngine.pollLocalControl
  cases hserver : e.server with
  | none => simpa using h.pollControls
  | some server =>
    dsimp only
    obtain ⟨hholds, hands⟩ := h.handed hserver incoming io
    obtain ⟨hledger, hwired⟩ := foldl_beginLocal_kept _ hholds.ledger hholds.wired hands.once fun r hr _ heq => by
      cases heq
      exact hands.dispatched r hr
    exact (Holds.mk hledger hwired).pollControls

end ControlEngine

namespace ControlEngine
variable {M : Type}

theorem foldl_stopped (e : ControlEngine M) (responses : List ControlSender) :
    responses.foldl (fun e response => e.outcome response (.error .stopped)) e =
      { e with outcomes := e.outcomes ++ responses.map fun response => (response, .error .stopped) } := by
  induction responses generalizing e with
  | nil => simp
  | cons response responses ih =>
    rw [List.foldl_cons, ih]
    simp [outcome]

theorem outcomesOf_stopped (e : ControlEngine M) {responses : List ControlSender} (hnodup : responses.Nodup)
    (response : ControlSender) {e' : ControlEngine M}
    (h : e'.outcomes = e.outcomes ++ responses.map fun response => (response, .error .stopped)) :
    e'.outcomesOf response = e.outcomesOf response ++ if response ∈ responses then [.error .stopped] else [] := by
  rw [outcomesOf, h, List.filter_append, List.map_append]
  congr 1
  rw [List.filter_map, List.map_map]
  have hfilter : responses.filter (fun other => decide (other = response)) =
      if response ∈ responses then [response] else [] := by
    rw [List.filter_eq]
    split
    · rename_i hin
      rw [List.count_eq_one_of_mem hnodup hin, List.replicate_one]
    · rename_i hnot
      rw [List.count_eq_zero_of_not_mem hnot, List.replicate_zero]
  have hcomp : ((fun o : ControlSender × ControlResult => decide (o.1 = response)) ∘
      fun response => (response, .error .stopped)) = fun other => decide (other = response) := rfl
  rw [hcomp, hfilter]
  split <;> rfl

end ControlEngine

namespace ControlDesk
variable {M : Type} {d : ControlDesk M} {limit : ℕ}

structure Sound (limit : ℕ) (d : ControlDesk M) : Prop where
  holds : d.engine.Holds d.running d.admitted limit d.commands d.asked
  calls : ∀ id, .call id ∈ d.asked.map ControlCommand.response → id < d.calls
  admitted : d.admitted.length = d.calls
  callers : ∀ command ∈ d.commands, ∃ id, command.response = .call id
  left : d.running = false → d.commands = [] ∧ d.engine.pending = []

theorem Sound.control (h : d.Sound limit) (name : String) (request : List UInt8) (taken : Bool) :
    (d.control name request taken).Sound limit := by
  generalize hcommand : ControlCommand.mk name request (.call d.calls) = command
  have hresponse : command.response = .call d.calls := by rw [← hcommand]
  have hnew : command.response ∉ d.asked.map ControlCommand.response := fun hin => by
    rw [hresponse] at hin
    exact Nat.lt_irrefl _ (h.calls _ hin)
  have hledger := (h.holds.ledger.newcomer hnew).calls (d.running && taken)
  have hwired : d.engine.Wired ((d.asked ++ [command]).map ControlCommand.response) := by
    intro server hserver
    refine (h.holds.wired server hserver).calls (fun c hc => ?_) fun _ hc => hc
    rw [List.map_append, List.map_singleton, hresponse] at hc
    simpa using hc
  have hcalls : ∀ id, .call id ∈ (d.asked ++ [command]).map ControlCommand.response → id < d.calls + 1 := by
    intro id hin
    rw [List.map_append, List.map_singleton, hresponse] at hin
    rcases List.mem_append.mp hin with hin | hin
    · exact Nat.lt_succ_of_lt (h.calls id hin)
    · obtain rfl : id = d.calls := by simpa using hin
      exact Nat.lt_succ_self _
  have hcount : (d.admitted ++ [d.running && taken]).length = d.calls + 1 := by
    rw [List.length_append, List.length_singleton, h.admitted]
  unfold ControlDesk.control
  rw [hcommand]
  dsimp only
  split
  · rename_i htaken
    refine ⟨⟨hledger, hwired⟩, hcalls, hcount, fun other hother => ?_, fun hstopped => ?_⟩
    · rcases List.mem_append.mp hother with hin | hin
      · exact h.callers other hin
      · exact ⟨d.calls, by rw [List.mem_singleton.mp hin, hresponse]⟩
    · have hrunning : d.running = true := (Bool.and_eq_true_iff.mp htaken).1
      exact absurd (hrunning.symm.trans hstopped) (by simp)
  · rename_i haway
    refine ⟨⟨?_, hwired⟩, hcalls, hcount, h.callers, h.left⟩
    have hsame := ControlEngine.outcome_sameBooks d.engine command.response (.error .commandQueue)
    have hturned : (d.admitted ++ [d.running && taken])[d.calls]? = some false := by
      rw [← h.admitted, List.getElem?_concat_length, Bool.eq_false_iff.mpr haway]
    have hrefused := hledger.refuse hsame rfl (.commandQueue _ hresponse hturned)
    rw [List.append_nil, hresponse] at hrefused
    exact hrefused

theorem Sound.receive [ControlModules M] (h : d.Sound limit) (hrunning : d.running = true) : d.receive.Sound limit := by
  obtain ⟨⟨hledger, hwired⟩, hcalls, hcount, hcallers, hleft⟩ := h
  unfold ControlDesk.receive
  split
  · exact ⟨⟨hledger, hwired⟩, hcalls, hcount, hcallers, hleft⟩
  · rename_i command commands hcommands
    rw [hcommands] at hledger hcallers
    obtain ⟨id, hid⟩ := hcallers command List.mem_cons_self
    have hothers : ∀ other ∈ commands, ∃ id, other.response = .call id :=
      fun other hother => hcallers other (List.mem_cons_of_mem _ hother)
    have hnever : ∀ {p : Prop}, d.running = false → p := fun hstopped => absurd (hrunning.symm.trans hstopped) (by simp)
    dsimp only
    cases hstart : d.engine.startControl command.name command.request command.response with
    | mk result e' =>
      cases result with
      | ok value =>
        rw [hrunning] at hledger
        rw [← List.nil_append (command :: commands)] at hledger
        have hstarted := hledger.startControl hstart
        have hwired' := hwired.startCall (hid ▸ hstart)
        refine ⟨?_, hcalls, hcount, hothers, hnever⟩
        rw [hrunning]
        exact (ControlEngine.Holds.mk hstarted hwired').pollControls
      | error error =>
        obtain ⟨rfl, hwhy⟩ := ControlEngine.startControl_error hstart
        rw [hid]
        refine ⟨⟨?_, hwired⟩, hcalls, hcount, hothers, hnever⟩
        have hsame := ControlEngine.outcome_sameBooks d.engine (.call id) (.error error)
        rw [hrunning] at hledger ⊢
        rw [← List.nil_append (command :: commands)] at hledger
        exact hledger.refuse hsame (by rw [hid]; rfl) (hwhy _)

theorem Sound.pollLocal [ControlModules M] (h : d.Sound limit) (hrunning : d.running = true) (incoming : List Bool)
    (io : ℕ → StreamIo) : (d.pollLocal incoming io).Sound limit := by
  obtain ⟨hholds, hcalls, hcount, hcallers, hleft⟩ := h
  refine ⟨?_, fun id hin => ?_, hcount, hcallers, fun hstopped => absurd (hrunning.symm.trans hstopped) (by simp)⟩
  · rw [hrunning] at hholds
    unfold ControlDesk.pollLocal
    dsimp only
    rw [hrunning]
    exact hholds.pollLocalControl incoming io
  · unfold ControlDesk.pollLocal at hin
    dsimp only at hin
    rw [List.map_append] at hin
    rcases List.mem_append.mp hin with hin | hin
    · exact hcalls id hin
    · simp [ControlDesk.command] at hin

theorem Sound.outstanding_nodup (h : d.Sound limit) : d.outstanding.Nodup := by
  have hledger := h.holds.ledger
  refine hledger.pending_nodup.append ?_ ?_
  · refine List.Nodup.map_on (fun x hx y hy heq => ?_) hledger.once
    exact List.inj_on_of_nodup_map hledger.distinct (hledger.queued hx) (hledger.queued hy) heq
  · rw [List.disjoint_left]
    intro response hpending hcommand
    obtain ⟨control, hcontrol, rfl⟩ := List.mem_map.mp hpending
    obtain ⟨x, hx, rfl⟩ := List.mem_map.mp (hledger.order.subset hcontrol)
    obtain ⟨command, hin, heq⟩ := List.mem_map.mp hcommand
    cases hledger.courses command (hledger.queued hin) with
    | queued _ hu => exact hu x hx heq.symm
    | refused _ hnot => exact hnot hin
    | started _ _ hnot => exact hnot hin

theorem Sound.leave (h : d.Sound limit) : d.leave.Sound limit := by
  have hledger := h.holds.ledger
  have hnodup := h.outstanding_nodup
  unfold ControlDesk.leave
  rw [ControlEngine.foldl_stopped]
  dsimp only
  refine ⟨⟨?_, fun _ hserver => (by cases hserver)⟩, h.calls, h.admitted, fun _ hin => (by cases hin),
    fun _ => ⟨rfl, rfl⟩⟩
  have hasked : ∀ response ∈ d.outstanding, response ∈ d.asked.map ControlCommand.response := by
    intro response hin
    rcases List.mem_append.mp hin with hin | hin
    · obtain ⟨control, hcontrol, rfl⟩ := List.mem_map.mp hin
      obtain ⟨x, hx, rfl⟩ := List.mem_map.mp (hledger.order.subset hcontrol)
      exact hledger.startedAsked x hx
    · obtain ⟨command, hcommand, rfl⟩ := List.mem_map.mp hin
      exact List.mem_map_of_mem (hledger.queued hcommand)
  refine ⟨hledger.distinct, List.nodup_nil, List.nil_subset _, hledger.started, hledger.startedAsked, ?_,
    List.nil_sublist _, hledger.polled, hledger.since, fun hrunning => (by cases hrunning), fun ask hask => ?_⟩
  · intro o ho
    rcases List.mem_append.mp ho with ho | ho
    · exact hledger.outcomesAsked o ho
    · obtain ⟨response, hin, rfl⟩ := List.mem_map.mp ho
      exact hasked response hin
  have hcommand : ask ∉ d.commands → ask.response ∉ d.commands.map ControlCommand.response := by
    intro hnot hin
    obtain ⟨command, hcommand, heq⟩ := List.mem_map.mp hin
    obtain rfl := List.inj_on_of_nodup_map hledger.distinct (hledger.queued hcommand) hask heq
    exact hnot hcommand
  have hpending : ∀ response, response ∈ d.engine.pending.map PendingControl.response →
      ∃ x ∈ d.engine.started, x.1 ∈ d.engine.pending ∧ x.1.response = response := by
    intro response hin
    obtain ⟨control, hcontrol, rfl⟩ := List.mem_map.mp hin
    obtain ⟨x, hx, rfl⟩ := List.mem_map.mp (hledger.order.subset hcontrol)
    exact ⟨x, hx, hcontrol, rfl⟩
  have htold := d.engine.outcomesOf_stopped hnodup
  cases hledger.courses ask hask with
  | queued hin hu hnone =>
    refine .refused .stopped (by simp) hu ((htold _ rfl).trans ?_) (.stopped rfl)
    have hopen : ask.response ∈ d.outstanding := List.mem_append_right _ (List.mem_map_of_mem hin)
    rw [hnone, if_pos hopen, List.nil_append]
  | refused error hin hu ho hwhy =>
    refine .refused error (by simp) hu ((htold _ rfl).trans ?_) ?_
    · rw [ho, if_neg, List.append_nil]
      intro hmem
      rcases List.mem_append.mp hmem with hmem | hmem
      · obtain ⟨x, hx, _, heq⟩ := hpending _ hmem
        exact hu x hx heq
      · exact hcommand hin hmem
    · cases hwhy with
      | commandQueue id hcall haway => exact .commandQueue id hcall haway
      | instanceNotFound hnone => exact .instanceNotFound hnone
      | stopped _ => exact .stopped rfl
  | started control since hin hmem hstarts hprogress =>
    have hr := hstarts.response
    refine .started control since (by simp) hmem ⟨hstarts.module, hstarts.request, hstarts.maxResponse, hr⟩ ?_
    have hgone : ∀ response, response = control.response → control ∉ d.engine.pending → response ∉ d.outstanding := by
      rintro _ rfl hnot hin'
      rcases List.mem_append.mp hin' with hin' | hin'
      · obtain ⟨x, hx, hxin, heq⟩ := hpending _ hin'
        obtain rfl := List.inj_on_of_nodup_map hledger.started hx hmem heq
        exact hnot hxin
      · rw [hr] at hin'
        exact hcommand hin hin'
    cases hprogress with
    | waiting hp hpolls hnone =>
      refine .abandoned (d.engine.rounds - since) rfl (by simp) (Nat.le_refl _) hpolls ((htold _ rfl).trans ?_)
      have hopen : control.response ∈ d.outstanding := List.mem_append_left _ (List.mem_map_of_mem hp)
      rw [hnone, if_pos hopen, List.nil_append]
    | answered before result hnot hlate hpolls ho =>
      refine .answered before result (by simp) hlate hpolls ((htold _ rfl).trans ?_)
      rw [ho, if_neg (hgone _ rfl hnot), List.append_nil]
    | abandoned polled hstopped hnot hlate hpolls ho =>
      refine .abandoned polled rfl (by simp) hlate hpolls ((htold _ rfl).trans ?_)
      rw [ho, if_neg (hgone _ rfl hnot), List.append_nil]

theorem step_instances [ControlModules M] (d : ControlDesk M) (label : DeskStep M) :
    (d.step label).engine.instances = d.engine.instances := by
  cases label with
  | control name request taken =>
    unfold ControlDesk.step ControlDesk.control
    dsimp only
    split <;> rfl
  | receive =>
    by_cases hrunning : d.running = true
    · rw [show d.step .receive = d.receive from if_pos hrunning]
      unfold ControlDesk.receive
      split
      · rfl
      · rename_i command commands _
        dsimp only
        cases hstart : d.engine.startControl command.name command.request command.response with
        | mk result e' =>
          cases result with
          | ok value =>
            dsimp only
            rw [ControlEngine.pollControls_instances, ControlEngine.startControl_instances hstart]
          | error error =>
            dsimp only
            rw [(ControlEngine.send_sameBooks _ _ _).instances, ControlEngine.startControl_instances hstart]
    · rw [show d.step .receive = d from if_neg hrunning]
  | pollLocal incoming io =>
    by_cases hrunning : d.running = true
    · rw [show d.step (.pollLocal incoming io) = d.pollLocal incoming io from if_pos hrunning]
      unfold ControlDesk.pollLocal ControlEngine.pollLocalControl
      split
      · exact ControlEngine.pollControls_instances _
      · dsimp only
        rw [ControlEngine.pollControls_instances, ControlEngine.foldl_beginLocal_instances]
    · rw [show d.step (.pollLocal incoming io) = d from if_neg hrunning]
  | elsewhere modules => rfl
  | leave =>
    unfold ControlDesk.step ControlDesk.leave
    rw [ControlEngine.foldl_stopped]

theorem Sound.step [ControlModules M] (h : d.Sound limit) (label : DeskStep M) : (d.step label).Sound limit := by
  cases label with
  | control name request taken => exact h.control name request taken
  | receive =>
    by_cases hrunning : d.running = true
    · rw [show d.step .receive = d.receive from if_pos hrunning]
      exact h.receive hrunning
    · rw [show d.step .receive = d from if_neg hrunning]
      exact h
  | pollLocal incoming io =>
    by_cases hrunning : d.running = true
    · rw [show d.step (.pollLocal incoming io) = d.pollLocal incoming io from if_pos hrunning]
      exact h.pollLocal hrunning incoming io
    · rw [show d.step (.pollLocal incoming io) = d from if_neg hrunning]
      exact h
  | elsewhere modules =>
    refine ⟨⟨h.holds.ledger.sameBooks ⟨rfl, rfl, rfl, rfl, rfl, rfl⟩ rfl, h.holds.wired⟩, h.calls, h.admitted,
      h.callers, h.left⟩
  | leave => exact h.leave

theorem new_sound (instances : List String) (modules : M) (socket : Option (Limit × ℕ)) :
    (new instances modules socket).Sound (new instances modules socket).engine.maxResponse := by
  refine ⟨⟨⟨List.nodup_nil, List.nodup_nil, List.nil_subset _, List.nodup_nil, by simp [new], by simp [new],
    List.nil_sublist _, by simp [new], by simp [new], fun _ => rfl, by simp [new]⟩, ?_⟩, by simp [new], rfl,
    by simp [new],
    fun hstopped => by cases hstopped⟩
  intro server hserver
  obtain ⟨config, _, rfl⟩ := Option.map_eq_some_iff.mp hserver
  exact ⟨⟨List.nodup_nil, fun k hk => (by cases hk)⟩, Nat.one_pos, fun c hc => (by cases hc), fun c hc => (by cases hc)⟩

end ControlDesk

/-- For each call of the handle, in order: the engine had not left, and its queue took the command. -/
def DeskStep.admitted {M : Type} : Bool → List (DeskStep M) → List Bool
  | _, [] => []
  | running, .control _ _ taken :: steps => (running && taken) :: admitted running steps
  | running, .receive :: steps => admitted running steps
  | running, .pollLocal _ _ :: steps => admitted running steps
  | running, .elsewhere _ :: steps => admitted running steps
  | _, .leave :: steps => admitted false steps

theorem ControlDesk.run_admitted {M : Type} [ControlModules M] (d : ControlDesk M) (steps : List (DeskStep M)) :
    (run ControlDesk.step d steps).admitted = d.admitted ++ DeskStep.admitted d.running steps := by
  induction steps generalizing d with
  | nil => exact (List.append_nil _).symm
  | cons label steps ih =>
    rw [run_cons, ih]
    cases label with
    | control name request taken =>
      have hnext : (d.step (.control name request taken)).running = d.running ∧
          (d.step (.control name request taken)).admitted = d.admitted ++ [d.running && taken] := by
        unfold ControlDesk.step ControlDesk.control
        dsimp only
        split <;> exact ⟨rfl, rfl⟩
      rw [hnext.1, hnext.2, List.append_assoc]
      rfl
    | receive =>
      have hnext : (d.step .receive).running = d.running ∧ (d.step .receive).admitted = d.admitted := by
        unfold ControlDesk.step ControlDesk.receive
        dsimp only
        split_ifs
        · split
          · exact ⟨rfl, rfl⟩
          · split <;> exact ⟨rfl, rfl⟩
        · exact ⟨rfl, rfl⟩
      rw [hnext.1, hnext.2]
      rfl
    | pollLocal incoming io =>
      have hnext : (d.step (.pollLocal incoming io)).running = d.running ∧
          (d.step (.pollLocal incoming io)).admitted = d.admitted := by
        unfold ControlDesk.step
        dsimp only
        split <;> exact ⟨rfl, rfl⟩
      rw [hnext.1, hnext.2]
      rfl
    | elsewhere modules => rfl
    | leave => rfl

/-- In every run, whatever the modules answer and the connections bring: no two requests share a
    channel, and each waits in the queue, or was refused for a reason that holds (the queue did not take
    the command, or there is no such module, or the engine has stopped), or was started at the
    module of its name and polled with it once in every round since, up to the first answer, which is
    its only outcome. Requests are polled in the order in which they were started, nothing else is
    polled, and once the engine is gone every request has its outcome. -/
theorem controls_answered {M : Type} [ControlModules M] (instances : List String) (modules : M)
    (socket : Option (Limit × ℕ)) (steps : List (DeskStep M)) :
    let start := ControlDesk.new instances modules socket
    let d := run ControlDesk.step start steps
    d.engine.instances = instances ∧
    (d.asked.map ControlCommand.response).Nodup ∧
    (∀ ask ∈ d.asked,
      d.engine.Course d.running (DeskStep.admitted true steps) start.engine.maxResponse d.commands ask) ∧
    (∀ poll ∈ d.engine.polls, ∃ ask ∈ d.asked, d.engine.Starts start.engine.maxResponse ask poll.1) ∧
    d.engine.pending.Sublist (d.engine.started.map Prod.fst) ∧
    (d.running = false → ∀ ask ∈ d.asked, (d.engine.outcomesOf ask.response).length = 1) := by
  intro start d
  have hsound : d.Sound start.engine.maxResponse :=
    run_always (fun d => ControlDesk.Sound start.engine.maxResponse d) (fun _ label h => h.step label)
      (ControlDesk.new_sound instances modules socket) steps
  have hinstances : d.engine.instances = instances :=
    run_always (fun d : ControlDesk M => d.engine.instances = instances)
      (fun d label h => (d.step_instances label).trans h) rfl steps
  have hledger := hsound.holds.ledger
  rw [show d.admitted = DeskStep.admitted true steps from ControlDesk.run_admitted start steps] at hledger
  refine ⟨hinstances, hledger.distinct, hledger.courses, fun poll hpoll => ?_, hledger.order,
    fun hstopped ask hask => ?_⟩
  · obtain ⟨x, hx, hxp⟩ := List.mem_map.mp (hledger.polled poll hpoll)
    obtain ⟨ask, hask, _, hstarts, _⟩ := hledger.progress hx
    exact ⟨ask, hask, hxp ▸ hstarts⟩
  · obtain ⟨hcommands, hpending⟩ := hsound.left hstopped
    cases hledger.courses ask hask with
    | queued hin =>
      rw [hcommands] at hin
      cases hin
    | refused _ _ _ ho => exact congrArg List.length ho
    | started control _ _ _ hstarts hprogress =>
      rw [← hstarts.response]
      cases hprogress with
      | waiting hin =>
        rw [hpending] at hin
        cases hin
      | answered _ _ _ _ _ ho => exact congrArg List.length ho
      | abandoned _ _ _ _ _ ho => exact congrArg List.length ho

end Snolc.Control
