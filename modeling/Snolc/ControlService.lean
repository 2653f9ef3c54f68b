import Snolc.ControlDispatch

set_option autoImplicit false

namespace Snolc.Control
open PollIo GuardedRuns

/-- An engine with the client of one of its connections, and the bytes under way. -/
structure ControlService (M : Type) where
  desk : ControlDesk M
  client : Client
  toServer : List UInt8 := []
  toClient : List UInt8 := []

inductive ServiceStep (M : Type) where
  | write (count : ℕ)
  | read (count : ℕ)
  /-- The engine polls its socket, as in a link. -/
  | poll (incoming : List Bool) (chunks : List (ℕ × ℕ)) (written : ℕ) (others : ℕ → StreamIo)
  | control (name : String) (request : List UInt8) (taken : Bool)
  | receive
  | elsewhere (modules : M → M)

namespace ControlEngine
variable {M : Type}

def connection (e : ControlEngine M) (id : ℕ) : Option Connection :=
  e.server.bind fun server => KeyedList.get server.connections id

def given (e : ControlEngine M) (id : ℕ) : Option Answer := (e.outcomesOf (.connection id)).head?.map answerOf

end ControlEngine

namespace ControlCommand

def toLocal (command : ControlCommand) : Option LocalRequest :=
  match command.response with
  | .call _ => none
  | .connection id => some ⟨id, command.name, command.request⟩

end ControlCommand

namespace ControlService
variable {M : Type} [ControlModules M]

def step (id maxResponse : ℕ) (s : ControlService M) : ServiceStep M → ControlService M
  | .write count =>
    let result := Link.written s.client s.toServer count (s.desk.engine.connection id)
    { s with client := result.1, toServer := result.2 }
  | .read count =>
    let result := Link.received maxResponse s.client s.toClient count (s.desk.engine.connection id)
    { s with client := result.1, toClient := result.2 }
  | .poll incoming chunks written others =>
    let io := Link.streamIo s.client s.toServer chunks written (s.desk.engine.connection id)
    { desk := s.desk.step (.pollLocal incoming fun j => if j = id then io.1 else others j)
      client := io.2.1
      toServer := io.2.2.1
      toClient := s.toClient ++ io.2.2.2 }
  | .control name request taken => { s with desk := s.desk.step (.control name request taken) }
  | .receive => { s with desk := s.desk.step .receive }
  | .elsewhere modules => { s with desk := s.desk.step (.elsewhere modules) }

def view (id : ℕ) (s : ControlService M) : View where
  client := s.client
  toServer := s.toServer
  toClient := s.toClient
  connection := s.desk.engine.connection id
  emitted := (s.desk.asked.filterMap ControlCommand.toLocal).filter fun r => decide (r.connection = id)
  given := s.desk.engine.given id

end ControlService

namespace ControlEngine
variable {M : Type} {x : Exchange} {id : ℕ} {v : View} {e : ControlEngine M}

def sees (e : ControlEngine M) (id : ℕ) (v : View) : View :=
  { v with connection := e.connection id, given := e.given id }

theorem connection_modify (e : ControlEngine M) (id c : ℕ) (f : Connection → Connection) :
    (e.withServer fun server => { server with connections := KeyedList.modify server.connections c f }).connection id =
      if id = c then (e.connection id).map f else e.connection id := by
  unfold ControlEngine.connection withServer
  cases e.server with
  | none => simp
  | some server => exact KeyedList.get_modify server.connections c f id

theorem given_outcome (e : ControlEngine M) (id : ℕ) (response : ControlSender) (result : ControlResult) :
    (e.outcome response result).given id =
      (e.given id).or (if response = .connection id then some (answerOf result) else none) := by
  unfold given
  rw [outcomesOf_outcome]
  cases e.outcomesOf (.connection id) with
  | nil =>
    by_cases h : response = .connection id
    · simp [h]
    · simp [h]
  | cons first rest => simp

theorem given_of_waiting (h : Phase x id v) {input : List UInt8} (hwaits : v.connection = some ⟨input, .waiting none⟩) :
    v.given = none := by
  cases h with
  | waiting received =>
    cases hwaits
    rfl
  | _ => cases hwaits

theorem given_of_dispatched (h : Phase x id v) {input : List UInt8}
    (hasked : v.connection = some ⟨input, .dispatched⟩) : v.given = none := by
  cases h with
  | dispatched => rfl
  | _ => cases hasked

theorem send_phase (h : Phase x id (e.sees id v)) {response : ControlSender} (result : ControlResult)
    (hwaits : response = .connection id → ∃ input, e.connection id = some ⟨input, .waiting none⟩) :
    Phase x id ((e.send response result).sees id v) := by
  cases response with
  | call call =>
    have hgiven : (e.send (.call call) result).given id = e.given id := by
      rw [send, given_outcome, if_neg (by simp), Option.or_none]
    have hsees : (e.send (.call call) result).sees id v = e.sees id v := by
      rw [sees, hgiven]
      rfl
    rwa [hsees]
  | connection c =>
    have hconnection : (e.send (.connection c) result).connection id =
        if id = c then (e.connection id).map (Connection.answered (answerOf result)) else e.connection id :=
      (e.outcome (.connection c) result).connection_modify id c _
    have hgiven : (e.send (.connection c) result).given id =
        (e.given id).or (if ControlSender.connection c = .connection id then some (answerOf result) else none) :=
      e.given_outcome id (.connection c) result
    by_cases hc : id = c
    · subst hc
      obtain ⟨input, hwaiting⟩ := hwaits rfl
      have hnone : e.given id = none := given_of_waiting h hwaiting
      rw [if_pos rfl, hwaiting] at hconnection
      rw [if_pos rfl, hnone] at hgiven
      have hanswer := (h.answer (answerOf result)).phase
      unfold sees View.answer at hanswer
      rw [hwaiting] at hanswer
      rw [sees, hconnection, hgiven]
      exact hanswer
    · rw [if_neg hc] at hconnection
      rw [if_neg (by simpa using Ne.symm hc), Option.or_none] at hgiven
      rw [sees, hconnection, hgiven]
      exact h

def Serves (id : ℕ) (limit : Limit) (e : ControlEngine M) : Prop :=
  ∃ server, e.server = some server ∧ id < server.nextConnection ∧ server.limit = limit

theorem Serves.withServer {limit : Limit} (h : e.Serves id limit) {f : UnixControlServer → UnixControlServer}
    (hf : ∀ server, (f server).nextConnection = server.nextConnection ∧ (f server).limit = server.limit) :
    (e.withServer f).Serves id limit := by
  obtain ⟨server, hserver, hknown, hlimit⟩ := h
  refine ⟨f server, ?_, (hf server).1.symm ▸ hknown, (hf server).2.trans hlimit⟩
  rw [ControlEngine.withServer, hserver]
  rfl

theorem Serves.send {limit : Limit} (h : e.Serves id limit) (response : ControlSender) (result : ControlResult) :
    (e.send response result).Serves id limit := by
  cases response with
  | call _ => exact h
  | connection _ => exact Serves.withServer (e := e.outcome _ result) h fun _ => ⟨rfl, rfl⟩

/-- The exchange is in order, and so are the connections. -/
structure Along (x : Exchange) (id : ℕ) (v : View) (asked : List ControlSender) (e : ControlEngine M) : Prop where
  phase : Phase x id (e.sees id v)
  serves : e.Serves id x.limit
  wired : e.Wired asked
  distinct : (e.pending.map PendingControl.response).Nodup

variable {asked : List ControlSender}

theorem Along.pollFront [ControlModules M] (h : e.Along x id v asked) : e.pollFront.Along x id v asked := by
  obtain ⟨hwired, hdistinct⟩ := h.wired.pollFront h.distinct
  refine ⟨?_, ?_, hwired, hdistinct⟩
  · unfold ControlEngine.pollFront
    split
    · exact h.phase
    · rename_i control rest hpending
      dsimp only
      split
      · refine send_phase (v := v) (e := { e with pending := rest, modules := _, polls := _ }) h.phase _
          fun hresponse => ?_
        change ∃ input, e.connection id = some ⟨input, .waiting none⟩
        obtain ⟨server, hserver, _, _⟩ := h.serves
        rw [ControlEngine.connection, hserver]
        refine (h.wired server hserver).waiting id ?_
        rw [hpending, List.map_cons, hresponse]
        exact List.mem_cons_self
      · exact h.phase
  · unfold ControlEngine.pollFront
    split
    · exact h.serves
    · dsimp only
      split
      · refine Serves.send ?_ _ _
        exact h.serves
      · exact h.serves

theorem Along.pollControls [ControlModules M] (h : e.Along x id v asked) : e.pollControls.Along x id v asked := by
  have hturns : ∀ n, (ControlEngine.pollFront^[n] e).Along x id v asked := by
    intro n
    induction n with
    | zero => exact h
    | succ n ih =>
      rw [Function.iterate_succ_apply']
      exact ih.pollFront
  obtain ⟨hphase, hserves, hwired, hdistinct⟩ := hturns e.pending.length
  exact ⟨hphase, hserves, hwired, hdistinct⟩

theorem waitFor_phase (h : Phase x id (e.sees id v)) {c : ℕ}
    (hdispatched : c = id → e.connection id = some ⟨[], .dispatched⟩) :
    Phase x id ((e.withServer fun server => server.waitFor c).sees id v) := by
  have hconnection : (e.withServer fun server => server.waitFor c).connection id =
      if id = c then (e.connection id).map Connection.waitFor else e.connection id := e.connection_modify id c _
  have hgiven : (e.withServer fun server => server.waitFor c).given id = e.given id := rfl
  by_cases hc : id = c
  · subst hc
    have hget := hdispatched rfl
    rw [if_pos rfl, hget] at hconnection
    have hbegin := (h.begin none).phase
    unfold sees View.begin at hbegin
    rw [hget] at hbegin
    rw [sees, hconnection, hgiven]
    exact hbegin
  · rw [if_neg hc] at hconnection
    rw [sees, hconnection, hgiven]
    exact h

theorem reject_phase (h : Phase x id (e.sees id v)) (hserves : e.Serves id x.limit) {c : ℕ} (error : EngineError)
    (hdispatched : c = id → e.connection id = some ⟨[], .dispatched⟩) :
    Phase x id (((e.outcome (.connection c) (.error error)).withServer fun server =>
      server.reject c error.text).sees id v) := by
  generalize he' : ((e.outcome (.connection c) (.error error)).withServer fun server => server.reject c error.text) = e'
  obtain ⟨server, hserver, _, hlimit⟩ := hserves
  have hconnection : e'.connection id = if id = c then
      (e.connection id).map fun connection => connection.response x.limit.bytes (.error error.text)
      else e.connection id := by
    rw [← he', ControlEngine.connection, ControlEngine.connection, ControlEngine.withServer, outcome]
    dsimp only
    rw [hserver, ← hlimit]
    exact server.get_reject c error.text id
  have hgiven : e'.given id = (e.given id).or
      (if ControlSender.connection c = .connection id then some (answerOf (.error error)) else none) := by
    rw [← he']
    exact e.given_outcome id (.connection c) (.error error)
  by_cases hc : id = c
  · subst hc
    have hget := hdispatched rfl
    have hnone : e.given id = none := given_of_dispatched h hget
    rw [if_pos rfl, hget] at hconnection
    rw [if_pos rfl, hnone] at hgiven
    have hbegin := (h.begin (some error.text)).phase
    unfold sees View.begin at hbegin
    rw [hget] at hbegin
    rw [sees, hconnection, hgiven]
    exact hbegin
  · rw [if_neg hc] at hconnection
    rw [if_neg (by simpa using Ne.symm hc), Option.or_none] at hgiven
    rw [sees, hconnection, hgiven]
    exact h

theorem Along.beginLocal {limit : ℕ} {admitted : List Bool} {front back asked' : List ControlCommand} {r : LocalRequest}
    (h : e.Along x id v asked) (hledger : e.Ledger true admitted limit (front ++ ControlDesk.command r :: back) asked')
    (hdispatched : ∀ server, e.server = some server →
      KeyedList.get server.connections r.connection = some ⟨[], .dispatched⟩) :
    (e.beginLocal r).Along x id v asked := by
  obtain ⟨hledger', hwired, _⟩ := beginLocal_kept hledger h.wired hdispatched
  have hconnection : r.connection = id → e.connection id = some ⟨[], .dispatched⟩ := by
    rintro rfl
    obtain ⟨server, hserver, _, _⟩ := h.serves
    rw [ControlEngine.connection, hserver]
    exact hdispatched server hserver
  refine ⟨?_, ?_, hwired, hledger'.pending_nodup⟩
  · unfold ControlEngine.beginLocal
    cases hstart : e.startControl r.name r.request (.connection r.connection) with
    | mk result e' =>
      cases result with
      | ok value =>
        obtain ⟨hserver', houtcomes', _⟩ := startControl_ok hstart
        have hsame : e'.connection id = e.connection id := by
          rw [ControlEngine.connection, hserver', ControlEngine.connection]
        have hsees : e'.sees id v = e.sees id v := by
          rw [sees, hsame, given, outcomesOf, houtcomes']
          rfl
        exact waitFor_phase (hsees ▸ h.phase) (hsame ▸ hconnection)
      | error error =>
        obtain ⟨rfl, _⟩ := startControl_error hstart
        exact reject_phase h.phase h.serves error hconnection
  · unfold ControlEngine.beginLocal
    cases hstart : e.startControl r.name r.request (.connection r.connection) with
    | mk result e' =>
      cases result with
      | ok value =>
        obtain ⟨hserver', _⟩ := startControl_ok hstart
        refine Serves.withServer ?_ fun _ => ⟨rfl, rfl⟩
        rw [Serves, hserver']
        exact h.serves
      | error error =>
        obtain ⟨rfl, _⟩ := startControl_error hstart
        refine Serves.withServer ?_ fun _ => ⟨rfl, rfl⟩
        exact h.serves

theorem Along.foldl_beginLocal {limit : ℕ} {admitted : List Bool} {front asked' : List ControlCommand}
    (handed : List LocalRequest) (h : e.Along x id v asked)
    (hledger : e.Ledger true admitted limit (front ++ handed.map ControlDesk.command) asked')
    (honce : (handed.map LocalRequest.connection).Nodup)
    (hdispatched : ∀ r ∈ handed, ∀ server, e.server = some server →
      KeyedList.get server.connections r.connection = some ⟨[], .dispatched⟩) :
    (handed.foldl ControlEngine.beginLocal e).Along x id v asked := by
  induction handed generalizing e with
  | nil => exact h
  | cons r handed ih =>
    rw [List.map_cons] at hledger honce
    obtain ⟨hnot, hrest⟩ := List.nodup_cons.mp honce
    have hfirst := hdispatched r List.mem_cons_self
    obtain ⟨hledger', _, hothers⟩ := beginLocal_kept hledger h.wired hfirst
    refine ih (h.beginLocal hledger hfirst) hledger' hrest fun other hother server hserver => ?_
    have hne : other.connection ≠ r.connection := fun heq => hnot (List.mem_map.mpr ⟨other, hother, heq⟩)
    obtain ⟨server', hserver', hget⟩ := hothers other.connection hne server hserver
    rw [hget]
    exact hdispatched other (List.mem_cons_of_mem _ hother) server' hserver'

end ControlEngine

namespace ControlService
variable {M : Type} {x : Exchange} {id : ℕ} {s : ControlService M}

/-- The engine runs with its books in order, and so does the exchange. -/
structure Serving (x : Exchange) (id : ℕ) (s : ControlService M) : Prop where
  sound : s.desk.Sound x.limit.bytes
  running : s.desk.running = true
  serves : s.desk.engine.Serves id x.limit
  phase : Phase x id (s.view id)

theorem filterMap_toLocal (handed : List LocalRequest) :
    (handed.map ControlDesk.command).filterMap ControlCommand.toLocal = handed := by
  induction handed with
  | nil => rfl
  | cons r handed ih => exact congrArg (r :: ·) ih

variable [ControlModules M]

theorem Serving.poll (h : s.Serving x id) (incoming : List Bool) (chunks : List (ℕ × ℕ)) (written : ℕ)
    (others : ℕ → StreamIo) : (s.step id x.maxResponse (.poll incoming chunks written others)).Serving x id := by
  obtain ⟨server, hserver, hknown, hlimit⟩ := h.serves
  have hrunning := h.running
  have hholds := h.sound.holds
  rw [hrunning] at hholds
  have hconnection : s.desk.engine.connection id = KeyedList.get server.connections id := by
    rw [ControlEngine.connection, hserver, Option.bind_some]
  have hphase := (h.phase.poll chunks written).phase
  generalize hv : (s.view id).poll id x.limit.bytes chunks written = v at hphase
  generalize hio : Link.streamIo s.client s.toServer chunks written (s.desk.engine.connection id) = io
  generalize hios : (fun j => if j = id then io.1 else others j) = ios
  have hmine : ios id = io.1 := by
    rw [← hios]
    exact if_pos rfl
  obtain ⟨hkeeps, hget, hfilter⟩ := UnixControlServer.poll_keeps (hholds.wired server hserver).sound hknown incoming ios
  obtain ⟨hnext, hands⟩ := hholds.handed hserver incoming ios
  -- the poll of the server is the poll of the view
  have hsees : ({ s.desk.engine with
      server := some (server.poll incoming ios).2 } : ControlEngine M).sees id v = v := by
    rw [← hv]
    unfold View.poll ControlEngine.sees ControlService.view
    dsimp only
    rw [hio, hconnection, ControlEngine.connection, Option.bind_some, hget, hmine, hlimit]
    rfl
  have hemitted : ((s.desk.asked ++ (server.poll incoming ios).1.map ControlDesk.command).filterMap
      ControlCommand.toLocal).filter (fun r => decide (r.connection = id)) = v.emitted := by
    rw [List.filterMap_append, List.filter_append, filterMap_toLocal, hfilter, ← hv]
    unfold View.poll ControlService.view
    dsimp only
    rw [hio, hconnection, hmine, hlimit]
  have halong : ({ s.desk.engine with server := some (server.poll incoming ios).2 } : ControlEngine M).Along x id v
      ((s.desk.asked ++ (server.poll incoming ios).1.map ControlDesk.command).map ControlCommand.response) :=
    ⟨hsees.symm ▸ hphase, ⟨_, rfl, hkeeps.known, hkeeps.limit.trans hlimit⟩, hnext.wired, hnext.ledger.pending_nodup⟩
  have hafter := (halong.foldl_beginLocal _ hnext.ledger hands.once fun r hr _ heq => by
    cases heq
    exact hands.dispatched r hr).pollControls
  have hdesk : s.desk.step (.pollLocal incoming ios) = s.desk.pollLocal incoming ios := if_pos hrunning
  have hpolled : s.desk.engine.pollLocalControl incoming ios = ((server.poll incoming ios).1,
      ((server.poll incoming ios).1.foldl ControlEngine.beginLocal
        { s.desk.engine with server := some (server.poll incoming ios).2 }).pollControls) := by
    rw [ControlEngine.pollLocalControl, hserver]
  have hstep : s.step id x.maxResponse (.poll incoming chunks written others) =
      ⟨s.desk.pollLocal incoming ios, io.2.1, io.2.2.1, s.toClient ++ io.2.2.2⟩ := by
    rw [← hdesk, ← hios, ← hio]
    rfl
  rw [hstep]
  refine ⟨?_, hrunning, ?_, ?_⟩
  · dsimp only
    rw [← hdesk]
    exact h.sound.step _
  · unfold ControlDesk.pollLocal
    rw [hpolled]
    exact hafter.serves
  · have hview : view id ⟨s.desk.pollLocal incoming ios, io.2.1, io.2.2.1, s.toClient ++ io.2.2.2⟩ =
        (((server.poll incoming ios).1.foldl ControlEngine.beginLocal
          { s.desk.engine with server := some (server.poll incoming ios).2 }).pollControls).sees id v := by
      unfold ControlDesk.pollLocal ControlService.view ControlEngine.sees
      rw [hpolled]
      dsimp only
      rw [hemitted, ← hv]
      unfold View.poll ControlService.view
      dsimp only
      rw [hio]
    rw [hview]
    exact hafter.phase

omit [ControlModules M] in
theorem Serving.along (h : s.Serving x id) :
    s.desk.engine.Along x id (s.view id) (s.desk.asked.map ControlCommand.response) :=
  ⟨h.phase, h.serves, h.sound.holds.wired, h.sound.holds.ledger.pending_nodup⟩

omit [ControlModules M] in
theorem Serving.control (h : s.Serving x id) (name : String) (request : List UInt8) (taken : Bool) :
    Serving x id { s with desk := s.desk.control name request taken } := by
  have hsound := h.sound.control name request taken
  unfold ControlDesk.control at hsound ⊢
  have hview : ∀ engine : ControlEngine M, engine.connection id = s.desk.engine.connection id →
      engine.given id = s.desk.engine.given id → ∀ commands running admitted,
      view id ⟨⟨engine, commands, running, s.desk.calls + 1, admitted,
        s.desk.asked ++ [⟨name, request, .call s.desk.calls⟩]⟩, s.client, s.toServer, s.toClient⟩ = s.view id := by
    intro engine hconnection hgiven commands running admitted
    unfold ControlService.view
    dsimp only
    rw [hconnection, hgiven, List.filterMap_append]
    simp [ControlCommand.toLocal]
  dsimp only at hsound ⊢
  split at hsound
  · rename_i htaken
    rw [if_pos htaken]
    exact ⟨hsound, h.running, h.serves, (hview _ rfl rfl _ _ _).symm ▸ h.phase⟩
  · rename_i htaken
    rw [if_neg htaken]
    refine ⟨hsound, h.running, h.serves, ?_⟩
    have hgiven : (s.desk.engine.outcome (.call s.desk.calls) (.error .commandQueue)).given id =
        s.desk.engine.given id := by
      rw [ControlEngine.given_outcome, if_neg (by simp), Option.or_none]
    exact (hview (s.desk.engine.outcome _ _) rfl hgiven _ _ _).symm ▸ h.phase

theorem Serving.receive (h : s.Serving x id) : Serving x id { s with desk := s.desk.receive } := by
  have hsound := h.sound.receive h.running
  have hcallers := h.sound.callers
  have halong := h.along
  have hledger := h.sound.holds.ledger
  unfold ControlDesk.receive at hsound ⊢
  split at hsound
  · exact h
  · rename_i command commands hcommands
    rw [hcommands] at hcallers hledger
    obtain ⟨call, hcall⟩ := hcallers command List.mem_cons_self
    dsimp only at hsound ⊢
    cases hstart : s.desk.engine.startControl command.name command.request command.response with
    | mk result e' =>
      rw [hstart] at hsound
      cases result with
      | ok value =>
        rw [h.running] at hledger
        rw [← List.nil_append (command :: commands)] at hledger
        have hledger' := hledger.startControl hstart
        obtain ⟨hserver', houtcomes', _⟩ := ControlEngine.startControl_ok hstart
        have hsees : e'.sees id (s.view id) = s.desk.engine.sees id (s.view id) := by
          rw [ControlEngine.sees, ControlEngine.connection, hserver', ControlEngine.given, ControlEngine.outcomesOf,
            houtcomes']
          rfl
        have hserves' : e'.Serves id x.limit := by
          rw [ControlEngine.Serves, hserver']
          exact h.serves
        have halong' : e'.Along x id (s.view id) (s.desk.asked.map ControlCommand.response) :=
          ⟨hsees ▸ halong.phase, hserves', halong.wired.startCall (hcall ▸ hstart), hledger'.pending_nodup⟩
        exact ⟨hsound, h.running, halong'.pollControls.serves, halong'.pollControls.phase⟩
      | error error =>
        obtain ⟨rfl, _⟩ := ControlEngine.startControl_error hstart
        rw [hcall] at hsound ⊢
        refine ⟨hsound, h.running, h.serves, ?_⟩
        exact ControlEngine.send_phase (v := s.view id) halong.phase _ fun heq => (by cases heq)

theorem Serving.step (h : s.Serving x id) (label : ServiceStep M) : (s.step id x.maxResponse label).Serving x id := by
  cases label with
  | write count => exact ⟨h.sound, h.running, h.serves, (h.phase.write count).phase⟩
  | read count => exact ⟨h.sound, h.running, h.serves, (h.phase.read count).phase⟩
  | poll incoming chunks written others => exact h.poll incoming chunks written others
  | control name request taken => exact h.control name request taken
  | receive =>
    have hdesk : s.desk.step .receive = s.desk.receive := if_pos h.running
    have hreceive := h.receive
    rw [← hdesk] at hreceive
    exact hreceive
  | elsewhere modules => exact ⟨h.sound.step (.elsewhere modules), h.running, h.serves, h.phase⟩

theorem step_instances (maxResponse : ℕ) (s : ControlService M) (label : ServiceStep M) :
    (s.step id maxResponse label).desk.engine.instances = s.desk.engine.instances := by
  cases label with
  | write count => rfl
  | read count => rfl
  | poll incoming chunks written others => exact s.desk.step_instances _
  | control name request taken => exact s.desk.step_instances _
  | receive => exact s.desk.step_instances _
  | elsewhere modules => rfl

omit [ControlModules M] in
theorem Serving.reply (h : s.Serving x id) {result : Except ControlError (List UInt8)}
    (hresult : s.client = .returned result) :
    ∃ reply, s.desk.engine.outcomesOf (.connection id) = [reply] ∧ (answerOf reply).Yields x.limit.bytes result ∧
      match s.desk.engine.instances.findIdx? (· == x.name) with
      | none => reply = .error (.instanceNotFound x.name)
      | some index => ∃ polls answer, reply = answer.mapError .module ∧
          s.desk.engine.pollsOf ⟨index, x.request, x.limit.bytes, .connection id⟩ =
            List.replicate polls .pending ++ [.ready answer] := by
  obtain ⟨hemitted, answer, hgiven, hyields⟩ := h.phase.yields hresult
  have hmem : x.request? id ∈ (s.desk.asked.filterMap ControlCommand.toLocal).filter
      (fun r => decide (r.connection = id)) := by
    change x.request? id ∈ (s.view id).emitted
    rw [hemitted]
    exact List.mem_singleton_self _
  obtain ⟨ask, hask, hlocal⟩ := List.mem_filterMap.mp (List.mem_of_mem_filter hmem)
  have hnamed : ask = ⟨x.name, x.request, .connection id⟩ := by
    obtain ⟨name, request, response⟩ := ask
    cases response with
    | call _ => cases hlocal
    | connection c =>
      cases hlocal
      rfl
  subst hnamed
  have htold : s.desk.engine.given id = some answer := hgiven
  have hone : ∀ reply, s.desk.engine.outcomesOf (.connection id) = [reply] → answer = answerOf reply := by
    intro reply hreply
    rw [ControlEngine.given, hreply] at htold
    exact (Option.some.inj htold).symm
  have hsome : s.desk.engine.outcomesOf (.connection id) ≠ [] := by
    intro hnone
    rw [ControlEngine.given, hnone] at htold
    cases htold
  have hnever : s.desk.running ≠ false := by
    rw [h.running]
    exact Bool.noConfusion
  cases h.sound.holds.ledger.courses _ hask with
  | queued _ _ hnone => exact absurd hnone hsome
  | refused error _ _ houtcome hwhy =>
    refine ⟨.error error, houtcome, hone _ houtcome ▸ hyields, ?_⟩
    cases hwhy with
    | commandQueue _ hcall => cases hcall
    | instanceNotFound hnone =>
      rw [hnone]
    | stopped hstopped => exact absurd hstopped hnever
  | started control since _ _ hstarts hprogress =>
    obtain ⟨hmodule, hrequest, hmax, hresponse⟩ := hstarts
    obtain ⟨index, request, maxResponse, response⟩ := control
    cases hrequest
    cases hmax
    cases hresponse
    cases hprogress with
    | waiting _ _ hnone => exact absurd hnone hsome
    | answered polls result _ _ hpolls houtcome =>
      refine ⟨_, houtcome, hone _ houtcome ▸ hyields, ?_⟩
      rw [hmodule]
      exact ⟨polls, result, rfl, hpolls⟩
    | abandoned _ hstopped => exact absurd hstopped hnever

omit [ControlModules M] in
theorem serving_start {d : ControlDesk M} (x : Exchange) {id : ℕ} (hsound : d.Sound x.limit.bytes)
    (hrunning : d.running = true) (hfresh : d.engine.connection id = some {}) :
    Serving x id ⟨d, Client.request x.name x.request, [], []⟩ := by
  obtain ⟨server, hserver, hget⟩ := Option.bind_eq_some_iff.mp hfresh
  have hsockets := hsound.holds.wired server hserver
  have hknown : id < server.nextConnection := hsockets.sound.known id (KeyedList.key_mem (KeyedList.mem_of_get hget))
  have hlimit : server.limit = x.limit := by
    have hbytes := hsound.holds.ledger.maxResponse hrunning
    rw [ControlEngine.maxResponse, hserver] at hbytes
    dsimp only at hbytes
    cases hs : server.limit with
    | mk bytes _ _ =>
      rw [hs] at hbytes
      cases hx : x.limit with
      | mk bytes' _ _ =>
        rw [hx] at hbytes
        cases hbytes
        rfl
  have hunasked : ControlSender.connection id ∉ d.asked.map ControlCommand.response := fun hin =>
    (hsockets.asked id hin).2 [] hget
  have hemitted : (d.asked.filterMap ControlCommand.toLocal).filter (fun r => decide (r.connection = id)) = [] := by
    rw [List.filter_eq_nil_iff]
    intro r hr
    obtain ⟨ask, hask, hlocal⟩ := List.mem_filterMap.mp hr
    unfold ControlCommand.toLocal at hlocal
    split at hlocal
    · cases hlocal
    · rename_i c hresponse
      cases hlocal
      simp only [decide_eq_true_eq]
      rintro rfl
      exact hunasked (hresponse ▸ List.mem_map_of_mem hask)
  have hnothing : d.engine.outcomesOf (.connection id) = [] :=
    ControlEngine.outcomesOf_eq_nil fun o ho heq => hunasked (heq ▸ hsound.holds.ledger.outcomesAsked o ho)
  have hgiven : d.engine.given id = none := by
    rw [ControlEngine.given, hnothing]
    rfl
  refine ⟨hsound, hrunning, ⟨server, hserver, hknown, hlimit⟩, ?_⟩
  have hphase := x.phase_start ⟨server, id, hsockets.sound, hknown, hlimit, hget⟩
  rw [Accepted.view] at hphase
  unfold ControlService.view
  dsimp only
  rw [hfresh, hemitted, hgiven]
  exact hphase

end ControlService

/-- Over any engine that runs, with other callers and connections around and whatever the modules
    answer: a client of the socket returns either that no module has the name it gave, or what the first
    module of that name answered when it was last polled, each time with the client's own bytes. -/
theorem control_served {M : Type} [ControlModules M] (instances : List String) (modules : M) (x : Exchange)
    (maxConnections : ℕ) (before : List (DeskStep M)) (id : ℕ)
    (hrunning : (run ControlDesk.step (.new instances modules (some (x.limit, maxConnections))) before).running = true)
    (hfresh : (run ControlDesk.step (.new instances modules (some (x.limit, maxConnections)))
      before).engine.connection id = some {}) (steps : List (ServiceStep M)) :
    let s := run (ControlService.step id x.maxResponse)
      ⟨run ControlDesk.step (.new instances modules (some (x.limit, maxConnections))) before,
        Client.request x.name x.request, [], []⟩ steps
    ∀ result, s.client = .returned result →
      ∃ reply, s.desk.engine.outcomesOf (.connection id) = [reply] ∧ (answerOf reply).Yields x.limit.bytes result ∧
        match instances.findIdx? (· == x.name) with
        | none => reply = .error (.instanceNotFound x.name)
        | some index => ∃ polls answer, reply = answer.mapError .module ∧
            s.desk.engine.pollsOf ⟨index, x.request, x.limit.bytes, .connection id⟩ =
              List.replicate polls .pending ++ [.ready answer] := by
  intro s result hresult
  have hstart : ControlDesk.Sound x.limit.bytes
      (run ControlDesk.step (.new instances modules (some (x.limit, maxConnections))) before) :=
    run_always (fun d => ControlDesk.Sound x.limit.bytes d) (fun _ label h => h.step label)
      (ControlDesk.new_sound instances modules (some (x.limit, maxConnections))) before
  have hserving : s.Serving x id :=
    run_always (fun s => ControlService.Serving x id s) (fun _ label h => h.step label)
      (ControlService.serving_start x hstart hrunning hfresh) steps
  have hinstances : s.desk.engine.instances = instances :=
    run_always (fun s : ControlService M => s.desk.engine.instances = instances)
      (fun s label h => (s.step_instances x.maxResponse label).trans h)
      (run_always (fun d : ControlDesk M => d.engine.instances = instances)
        (fun d label h => (d.step_instances label).trans h) rfl before) steps
  have hreply := hserving.reply hresult
  rwa [hinstances] at hreply

deriving instance DecidableEq for Client

instance sampleModules : ControlModules ℕ where
  pollControl polls _ _ _ := (if polls = 0 then .pending else .ready (.ok [111, 107]), polls + 1)

/-- The connection is accepted while another caller waits for the same module. -/
def sampleBefore : List (DeskStep ℕ) := [.control "adapter" [] true, .pollLocal [true] fun _ => ⟨[], .wouldBlock⟩]

def sampleService : List (ServiceStep ℕ) :=
  let quiet : ℕ → StreamIo := fun _ => ⟨[], .wouldBlock⟩
  [.poll [] [(9, 5)] 0 quiet, .write 100, .poll [] [(0, 4096)] 0 quiet, .poll [] [] 0 quiet, .poll [] [] 0 quiet,
    .poll [] [] 3 quiet, .read 2, .poll [] [] 9 quiet, .read 9, .read 9]

theorem policy_status_served :
    let s := run (ControlService.step 1 sampleExchange.maxResponse)
      ⟨run ControlDesk.step (.new ["adapter", "policy"] 0 (some (sampleExchange.limit, 2))) sampleBefore,
        Client.request sampleExchange.name sampleExchange.request, [], []⟩ sampleService
    ∃ reply, s.desk.engine.outcomesOf (.connection 1) = [reply] ∧
      (answerOf reply).Yields 1024 (.ok [111, 107]) := by
  intro s
  obtain ⟨reply, houtcome, hyields, _⟩ := control_served ["adapter", "policy"] 0 sampleExchange 2 sampleBefore 1
    rfl rfl sampleService (.ok [111, 107]) (by decide +kernel)
  exact ⟨reply, houtcome, hyields⟩

end Snolc.Control
