import Snolc.GuardedRuns
import Snolc.MuxRules
import Snolc.MuxSession
import Snolc.ScriptedIo

set_option autoImplicit false

namespace Snolc.Mux
open PollIo SlotTable MuxFrame AsyncTask WireFormat GuardedRuns ScriptedIo

namespace StreamState

def chunks (state : StreamState) : List (List UInt8) :=
  match state.input with
  | [] => []
  | front :: rest => front.drop state.offset :: rest

theorem chunks_advance {state : StreamState} {front : List UInt8} {rest : List (List UInt8)}
    (hi : state.input = front :: rest) (count : ℕ) :
    (state.advance count).chunks =
      if state.offset + count = front.length then rest else front.drop (state.offset + count) :: rest := by
  have hadv : state.advance count = if state.offset + count = front.length
      then { state with offset := 0, input := rest } else { state with offset := state.offset + count } := by
    rw [advance, hi]
  rw [hadv]
  split
  · cases rest <;> simp [chunks]
  · simp [chunks, hi]

theorem advance_eof (state : StreamState) (count : ℕ) : (state.advance count).eof = state.eof := by
  unfold advance
  split
  · rfl
  · split <;> rfl

end StreamState

def Holds {T : Type} (ended : Bool) (s : StreamEnd T) (bytes : List UInt8) : Prop :=
  ∃ state, s.connection.stream s.id = some state ∧ state.eof = ended ∧
    (∀ chunk ∈ state.chunks, chunk ≠ []) ∧ state.chunks.flatten = bytes

theorem holds_stocked {T : Type} [AsyncIo T] (ended : Bool) : Stocked (Holds (T := T) ended) ended where
  more s bytes room := by
    rintro ⟨state, hs, heof, hfull, rfl⟩ hne hroom
    cases hi : state.input with
    | nil => simp [StreamState.chunks, hi] at hne
    | cons front rest =>
      have hchunks : state.chunks = front.drop state.offset :: rest := by simp [StreamState.chunks, hi]
      have hfront : front.drop state.offset ≠ [] := hfull _ (by simp [hchunks])
      have hlt : state.offset < front.length := by simpa using hfront
      set count := min room (front.length - state.offset) with hcount
      have hpos : 0 < count := by omega
      have hle : count ≤ (front.drop state.offset).length := by rw [List.length_drop]; omega
      have hpoll : AsyncIo.pollRead s room = (.ready (.ok ((front.drop state.offset).take count)),
          { s with connection := { s.connection.modifyStream s.id (fun state => state.advance count) with
              receivedBytes := s.connection.receivedBytes - count } }) := by
        change ((s.connection.pollRead s.id room).1, _) = _
        unfold Connection.pollRead
        simp only [if_neg hroom, hs, hi, ← hcount, if_pos (Nat.ne_of_gt hpos)]
        rfl
      have hstream : ({ s.connection.modifyStream s.id (fun state => state.advance count) with
          receivedBytes := s.connection.receivedBytes - count } : Connection T).stream s.id =
            some (state.advance count) := by
        have hslot : slot s.connection.streams s.id.toNat = some state := hs
        simp [Connection.stream, Connection.modifyStream, hslot]
      have hadv := StreamState.chunks_advance hi count
      have hdrop : (front.drop state.offset).drop count = front.drop (state.offset + count) := List.drop_drop
      rw [hpoll]
      refine ⟨count, hpos, Nat.min_le_left _ _, ?_, state.advance count, hstream,
        (state.advance_eof count).trans heof, ?_, ?_⟩
      · rw [hchunks, List.flatten_cons, List.take_append_of_le_length hle]
      · intro chunk hm
        rw [hadv] at hm
        split at hm
        · exact hfull chunk (by rw [hchunks]; exact List.mem_cons_of_mem _ hm)
        · rename_i hend
          rcases List.mem_cons.mp hm with rfl | hm
          · rw [Ne, List.drop_eq_nil_iff]; omega
          · exact hfull chunk (by rw [hchunks]; exact List.mem_cons_of_mem _ hm)
      · rw [hadv, hchunks, List.flatten_cons, List.drop_append_of_le_length hle, hdrop]
        split
        · rename_i hend
          rw [List.drop_eq_nil_of_le (Nat.le_of_eq hend.symm), List.nil_append]
        · rfl
  last hended s room := by
    rintro ⟨state, hs, heof, hfull, hempty⟩ hroom
    have hi : state.input = [] := by
      cases hi : state.input with
      | nil => rfl
      | cons front rest =>
        have hchunks : state.chunks = front.drop state.offset :: rest := by simp [StreamState.chunks, hi]
        have hfront := hfull _ (by rw [hchunks]; exact List.mem_cons_self)
        rw [hchunks, List.flatten_cons, List.append_eq_nil_iff] at hempty
        exact absurd hempty.1 hfront
    have hpoll : AsyncIo.pollRead s room = (.ready (.ok []), s) := by
      change ((s.connection.pollRead s.id room).1, _) = _
      unfold Connection.pollRead
      simp only [if_neg hroom, hs, hi, heof, hended, if_true]
    rw [hpoll]
    exact ⟨rfl, state, hs, heof, hfull, hempty⟩

namespace Connection
variable {T : Type} [AsyncIo T] {α : Type}

theorem sending_closed (closed : Bool) : Sending fun c : Connection T => c.closed = closed :=
  .of_updates (fun _ _ _ _ h => h) (fun _ _ _ h => h)

/-- What a task has to do next ends in an error without waiting for the peer: bytes to
    write on a closed connection, a flush the io refuses, or a read that the queue of the
    stream decides. -/
def Fails (c : Connection T) (id : StreamId) : Task MuxError α → Prop
  | .done result => ∃ e, result = .error e
  | .writeAll bytes _ => c.closed ∧ bytes ≠ []
  | .flush _ => ∃ e, c.pollFlushWrite.1 = .ready (.error e)
  | .readExact missing got next => ∃ state, c.stream id = some state ∧ (∀ chunk ∈ state.chunks, chunk ≠ []) ∧
      ∃ e, (Task.readExact missing got next).onStock state.eof (.io ⟨.unexpectedEof, ""⟩) state.chunks.flatten =
        some (.error e)

theorem Fails.driveOperation {c : Connection T} {id : StreamId} {task : Task MuxError α} (h : c.Fails id task) :
    ∃ e, (c.driveOperation id task).1 = .ready (.error e) := by
  have hpoll : ∃ e, (task.poll MuxError.io (StreamEnd.mk id c)).1 = .ready (.error e) := by
    cases task with
    | done result =>
      obtain ⟨e, rfl⟩ := h
      exact ⟨e, rfl⟩
    | writeAll bytes next =>
      have hwrite : AsyncIo.pollWrite (StreamEnd.mk id c) bytes =
          (.ready (.error ⟨.brokenPipe, ""⟩), StreamEnd.mk id c) := by
        change ((c.pollData id bytes).1, _) = _
        rw [pollData, if_pos h.1]
      exact ⟨.io ⟨.brokenPipe, ""⟩, by rw [Task.poll_writeAll_error MuxError.io h.2 hwrite]⟩
    | flush next =>
      obtain ⟨e, he⟩ := h
      have hflush : AsyncIo.pollFlush (StreamEnd.mk id c) =
          (.ready (.error e), StreamEnd.mk id c.pollFlushWrite.2) := by
        rw [← he]
        rfl
      exact ⟨.io e, by rw [Task.poll, hflush]⟩
    | readExact missing got next =>
      obtain ⟨state, hs, hfull, e, he⟩ := h
      exact ⟨e, Task.poll_onStock MuxError.io (holds_stocked state.eof) _ _ ⟨state, hs, rfl, hfull, rfl⟩ he⟩
  obtain ⟨e, he⟩ := hpoll
  refine ⟨e, ?_⟩
  unfold Connection.driveOperation
  split
  · rename_i heq
    rw [heq] at he
    exact he
  · rename_i hno heq
    rw [heq] at he
    exact absurd he (hno e)

/-- The OPEN frame of a closed connection is written or refused, not held up. -/
def Announces (c : Connection T) (id : StreamId) : Prop :=
  c.closed ∧ (c.pollControl .frameOpen id).1 ≠ .pending

/-- No OPEN is queued, or the bytes behind the first one decide the read. -/
def Awaits (c : Connection T) (task : Task MuxError α) : Prop :=
  match c.inbound with
  | [] => True
  | id :: inbound => Fails { c with inbound } id task

theorem awaits_empty {c : Connection T} (h : c.inbound = []) {task : Task MuxError α} : c.Awaits task := by
  unfold Awaits
  rw [h]
  trivial

end Connection

def Progress.Failed {σ ρ : Type} (p : Progress σ ρ) : Prop := ∃ e, p = .finished (.error e)

def Reports {T σ ρ : Type} (r : Progress σ ρ × MuxSession T) : Prop :=
  r.2.connection.closed → r.1.Failed

namespace MuxSession
variable {T : Type} [AsyncIo T] {σ ρ α : Type} {s : MuxSession T} {id : StreamId}
  {failed : MuxSession T → MuxError → Progress σ ρ × MuxSession T}

theorem awaitDrive_failed {task : Task MuxError α} {stage : Task MuxError α → σ}
    {next : MuxSession T → α → Progress σ ρ × MuxSession T} (h : s.connection.Fails id task)
    (hfailed : ∀ s e, (failed s e).1.Failed) : (s.awaitDrive id task stage failed next).1.Failed := by
  obtain ⟨e, he⟩ := h.driveOperation
  unfold awaitDrive
  split <;> rename_i heq <;> rw [heq] at he
  · simp at he
  · exact hfailed _ _
  · simp at he

theorem awaitControl_failed {stage : σ} {next : MuxSession T → Progress σ ρ × MuxSession T}
    (h : s.connection.Announces id) (hfailed : ∀ s e, (failed s e).1.Failed)
    (hnext : ∀ s, s.connection.closed → (next s).1.Failed) :
    (s.awaitControl id stage failed next).1.Failed := by
  have hclosed := (Connection.sending_closed _).pollControl s.connection rfl .frameOpen id
  have hready := h.2
  unfold awaitControl
  split <;> rename_i heq <;> rw [heq] at hclosed hready
  · exact hnext _ (hclosed.trans h.1)
  · exact hfailed _ _
  · exact absurd rfl hready

theorem awaitAccept_reports {task : Task MuxError α} {stage : σ}
    {next : MuxSession T → StreamId → Progress σ ρ × MuxSession T} (h : s.connection.Awaits task)
    (hfailed : ∀ s e, (failed s e).1.Failed)
    (hnext : ∀ s id, s.connection.Fails id task → (next s id).1.Failed) :
    Reports (s.awaitAccept stage failed next) := by
  unfold Connection.Awaits at h
  unfold Reports awaitAccept Connection.pollAcceptStream
  cases hi : s.connection.inbound with
  | cons id inbound =>
    rw [hi] at h
    exact fun _ => hnext _ id h
  | nil =>
    dsimp only
    rcases hd : s.connection.pollDrive with ⟨(e | u) | _, c⟩
    · exact fun _ => hfailed _ _
    · dsimp only
      split <;> rename_i heq <;> split at heq <;> cases heq
      · exact fun _ => hfailed _ _
      · rename_i hopen
        exact fun hclosed => absurd hclosed hopen
    · dsimp only
      split <;> rename_i heq <;> split at heq <;> cases heq
      · exact fun _ => hfailed _ _
      · rename_i hopen
        exact fun hclosed => absurd hclosed hopen

end MuxSession

inductive Operation where
  | openPolicy (family : String) (stage : OpenPolicy)
  | acceptPolicy (family : String) (stage : AcceptPolicy)
  | openFlowConfirmed (request : OpenRequest) (stage : OpenFlow)
  | acceptFlow (stage : AcceptFlow)
  | respondFlow (stream : MuxStream) (stage : RespondFlow)

namespace Operation
variable {T : Type} [AsyncIo T]

def answer {σ ρ : Type} (wait : σ → Operation) (r : Progress σ ρ × MuxSession T) :
    Progress Operation Unit × MuxSession T :=
  match r with
  | (.finished (.ok _), s) => (.finished (.ok ()), s)
  | (.finished (.error e), s) => (.finished (.error e), s)
  | (.waiting stage, s) => (.waiting (wait stage), s)

def poll (s : MuxSession T) : Operation → Progress Operation Unit × MuxSession T
  | .openPolicy family stage => answer (.openPolicy family) (stage.poll family s)
  | .acceptPolicy family stage => answer (.acceptPolicy family) (stage.poll family s)
  | .openFlowConfirmed request stage => answer (.openFlowConfirmed request) (stage.poll request true s)
  | .acceptFlow stage => answer .acceptFlow (stage.poll s)
  | .respondFlow stream stage => answer (.respondFlow stream) (stage.poll stream s)

end Operation

theorem writeFrame_fails {T : Type} [AsyncIo T] {c : Connection T} (hc : c.closed) (id : StreamId)
    {frame : Except WireError (List UInt8)} (hne : frame ≠ .ok []) : c.Fails id (writeFrame frame) := by
  cases frame with
  | error e => exact ⟨.wire e, rfl⟩
  | ok bytes => exact ⟨hc, by rintro rfl; exact hne rfl⟩

theorem encodePolicy_ne_nil (family : String) : encodePolicy family ≠ .ok [] := by
  unfold encodePolicy
  cases validateFamily family <;> simp [bind, Except.bind, pure, Except.pure, encodeHeader, magic]

theorem encodeOpenResponse_ne_nil (response : OpenResponse) : encodeOpenResponse response ≠ .ok [] := by
  unfold encodeOpenResponse
  split <;> simp

theorem encodeOpen_ne_nil (request : OpenRequest) : encodeOpen request ≠ .ok [] := by
  unfold encodeOpen
  simp only [bind, Except.bind, pure, Except.pure, throw, throwThe, MonadExceptOf.throw]
  repeat' split
  all_goals simp [encodeHeader, magic]

def Connection.Opens {T : Type} [AsyncIo T] (c : Connection T) : Prop :=
  match c.queueStream with
  | (.error _, _) => True
  | (.ok stream, c) => c.Announces stream.id

namespace OpenPolicy
variable {T : Type} [AsyncIo T]

def Attentive (s : MuxSession T) : OpenPolicy → Prop
  | .start => s.role ≠ .client ∨ s.policyOpen ∨ s.connection.Opens
  | .opening id => s.connection.Announces id
  | .writing id task => s.connection.Fails id task
  | .reading id task => s.connection.Fails id task

theorem opened_failed (family : String) {s : MuxSession T} {id : StreamId} (h : s.connection.Announces id) :
    (opened family s id).1.Failed :=
  MuxSession.awaitControl_failed h (fun _ e => ⟨e, rfl⟩) fun _ hc =>
    MuxSession.awaitDrive_failed (writeFrame_fails hc id (encodePolicy_ne_nil family)) fun _ e => ⟨e, rfl⟩

theorem poll_failed (family : String) {s : MuxSession T} {stage : OpenPolicy} (h : stage.Attentive s) :
    (stage.poll family s).1.Failed := by
  cases stage with
  | start =>
    rw [poll]
    split
    · exact ⟨.protocol, rfl⟩
    · rename_i hallowed
      have hopens := h.resolve_left (fun hx => hallowed (.inl hx))
        |>.resolve_left (fun hx => hallowed (.inr hx))
      unfold Connection.Opens at hopens
      split <;> rename_i heq <;> rw [heq] at hopens
      · exact ⟨_, rfl⟩
      · exact opened_failed family hopens
  | opening id => exact opened_failed family h
  | writing id task => exact MuxSession.awaitDrive_failed h fun _ e => ⟨e, rfl⟩
  | reading id task => exact MuxSession.awaitDrive_failed h fun _ e => ⟨e, rfl⟩

end OpenPolicy

namespace AcceptPolicy
variable {T : Type} [AsyncIo T]

def Attentive (s : MuxSession T) : AcceptPolicy → Prop
  | .start => s.role ≠ .server ∨ s.policyOpen ∨ s.connection.Awaits readPolicy
  | .accepting => s.connection.Awaits readPolicy
  | .reading id task => s.connection.Fails id task
  | .writing id task => s.connection.Fails id task

theorem accept_reports (family : String) {s : MuxSession T} (h : s.connection.Awaits readPolicy) :
    Reports (accept family s) :=
  MuxSession.awaitAccept_reports h (fun _ e => ⟨e, rfl⟩) fun _ _ hf =>
    MuxSession.awaitDrive_failed hf fun _ e => ⟨e, rfl⟩

theorem poll_reports (family : String) {s : MuxSession T} {stage : AcceptPolicy} (h : stage.Attentive s) :
    Reports (stage.poll family s) := by
  cases stage with
  | start =>
    rw [poll]
    split
    · exact fun _ => ⟨.protocol, rfl⟩
    · rename_i hallowed
      exact accept_reports family (h.resolve_left (fun hx => hallowed (.inl hx))
        |>.resolve_left (fun hx => hallowed (.inr hx)))
  | accepting => exact accept_reports family h
  | reading id task => exact fun _ => MuxSession.awaitDrive_failed h fun _ e => ⟨e, rfl⟩
  | writing id task => exact fun _ => MuxSession.awaitDrive_failed h fun _ e => ⟨e, rfl⟩

end AcceptPolicy

namespace OpenFlow
variable {T : Type} [AsyncIo T]

def Attentive (s : MuxSession T) : OpenFlow → Prop
  | .start => s.role ≠ .client ∨ ¬ s.policyOpen ∨ s.maxUserStreams ≤ s.userStreams ∨ s.connection.Opens
  | .opening id => s.connection.Announces id
  | .writing id task => s.connection.Fails id task
  | .reading id task => s.connection.Fails id task

theorem opened_failed (request : OpenRequest) (confirmed : Bool) {s : MuxSession T} {id : StreamId}
    (h : s.connection.Announces id) : (opened request confirmed s id).1.Failed :=
  MuxSession.awaitControl_failed h (fun _ e => ⟨e, rfl⟩) fun _ hc =>
    MuxSession.awaitDrive_failed (writeFrame_fails hc id (encodeOpen_ne_nil request)) fun _ e => ⟨e, rfl⟩

theorem poll_failed (request : OpenRequest) (confirmed : Bool) {s : MuxSession T} {stage : OpenFlow}
    (h : stage.Attentive s) : (stage.poll request confirmed s).1.Failed := by
  cases stage with
  | start =>
    rw [poll]
    split
    · exact ⟨.policyRequired, rfl⟩
    · rename_i hallowed
      have hrest := h.resolve_left (fun hx => hallowed (.inl hx))
        |>.resolve_left (fun hx => hallowed (.inr hx))
      unfold MuxSession.reserveUserStream
      split <;> rename_i heq <;> split at heq <;> cases heq
      · exact ⟨.streamLimit, rfl⟩
      · rename_i hroom
        have hopens := hrest.resolve_left hroom
        unfold Connection.Opens at hopens
        dsimp only
        split <;> rename_i heq <;> rw [heq] at hopens
        · exact ⟨_, rfl⟩
        · exact opened_failed request confirmed hopens
  | opening id => exact opened_failed request confirmed h
  | writing id task => exact MuxSession.awaitDrive_failed h fun _ e => ⟨e, rfl⟩
  | reading id task => exact MuxSession.awaitDrive_failed h fun _ e => ⟨e, rfl⟩

end OpenFlow

namespace AcceptFlow
variable {T : Type} [AsyncIo T]

def Attentive (s : MuxSession T) : AcceptFlow → Prop
  | .start => s.role ≠ .server ∨ ¬ s.policyOpen ∨ s.maxUserStreams ≤ s.userStreams ∨
      s.connection.Awaits readOpen
  | .accepting => s.connection.Awaits readOpen
  | .reading id task => s.connection.Fails id task

theorem accept_reports {s : MuxSession T} (h : s.connection.Awaits readOpen) : Reports (accept s) :=
  MuxSession.awaitAccept_reports h (fun _ e => ⟨e, rfl⟩) fun _ _ hf =>
    MuxSession.awaitDrive_failed hf fun _ e => ⟨e, rfl⟩

theorem poll_reports {s : MuxSession T} {stage : AcceptFlow} (h : stage.Attentive s) :
    Reports (stage.poll s) := by
  cases stage with
  | start =>
    rw [poll]
    split
    · exact fun _ => ⟨.policyRequired, rfl⟩
    · rename_i hallowed
      have hrest := h.resolve_left (fun hx => hallowed (.inl hx))
        |>.resolve_left (fun hx => hallowed (.inr hx))
      unfold MuxSession.reserveUserStream
      split <;> rename_i heq <;> split at heq <;> cases heq
      · exact fun _ => ⟨.streamLimit, rfl⟩
      · rename_i hroom
        exact accept_reports (hrest.resolve_left hroom)
  | accepting => exact accept_reports h
  | reading id task => exact fun _ => MuxSession.awaitDrive_failed h fun _ e => ⟨e, rfl⟩

end AcceptFlow

namespace RespondFlow
variable {T : Type} [AsyncIo T]

def Attentive (stream : MuxStream) (s : MuxSession T) : RespondFlow → Prop
  | .start _ => s.role ≠ .server ∨ ¬ s.policyOpen ∨ s.connection.closed
  | .writing task => s.connection.Fails stream.id task

theorem poll_failed {stream : MuxStream} {s : MuxSession T} {stage : RespondFlow}
    (h : stage.Attentive stream s) : (stage.poll stream s).1.Failed := by
  cases stage with
  | start response =>
    rw [poll]
    split
    · exact ⟨.policyRequired, rfl⟩
    · rename_i hallowed
      have hclosed := h.resolve_left (fun hx => hallowed (.inl hx))
        |>.resolve_left (fun hx => hallowed (.inr hx))
      exact MuxSession.awaitDrive_failed
        (writeFrame_fails hclosed stream.id (encodeOpenResponse_ne_nil response)) fun _ e => ⟨e, rfl⟩
  | writing task => exact MuxSession.awaitDrive_failed h fun _ e => ⟨e, rfl⟩

end RespondFlow

namespace Operation
variable {T : Type} [AsyncIo T]

/-- The next poll does not depend on `drive_operation` to notice the end of the peer's bytes. -/
def Attentive (s : MuxSession T) : Operation → Prop
  | .openPolicy _ stage => stage.Attentive s
  | .acceptPolicy _ stage => stage.Attentive s
  | .openFlowConfirmed _ stage => stage.Attentive s
  | .acceptFlow stage => stage.Attentive s
  | .respondFlow stream stage => stage.Attentive stream s

omit [AsyncIo T] in
theorem answer_reports {σ ρ : Type} (wait : σ → Operation) {r : Progress σ ρ × MuxSession T}
    (h : Reports r) : Reports (answer wait r) := by
  obtain ⟨progress, s⟩ := r
  rcases progress with (e | a) | stage
  · exact fun _ => ⟨e, rfl⟩
  · intro hc
    obtain ⟨e, he⟩ := h hc
    cases he
  · intro hc
    obtain ⟨e, he⟩ := h hc
    cases he

theorem poll_reports {s : MuxSession T} {operation : Operation} (h : operation.Attentive s) :
    Reports (operation.poll s) := by
  cases operation with
  | openPolicy family stage => exact answer_reports _ fun _ => OpenPolicy.poll_failed family h
  | acceptPolicy family stage => exact answer_reports _ (AcceptPolicy.poll_reports family h)
  | openFlowConfirmed request stage => exact answer_reports _ fun _ => OpenFlow.poll_failed request true h
  | acceptFlow stage => exact answer_reports _ (AcceptFlow.poll_reports h)
  | respondFlow stream stage => exact answer_reports _ fun _ => RespondFlow.poll_failed h

end Operation

/-- A session and the operation that borrows it. -/
structure Station (T : Type) where
  session : MuxSession T
  operation : Option Operation

inductive Event where
  | openPolicy (family : String)
  | acceptPolicy (family : String)
  | openFlowConfirmed (request : OpenRequest)
  | acceptFlow
  | respondFlow (stream : MuxStream) (response : OpenResponse)
  | poll
  | cancel
  | beginOpen (request : OpenRequest)
  | drive
  | release
  | read (id : StreamId) (room : ℕ)
  | write (id : StreamId) (input : List UInt8)
  | flush
  | close (stream : MuxStream)
  | drop (stream : MuxStream)

def Operation.held : Operation → Option StreamId
  | .openPolicy _ (.opening id) => some id
  | .openPolicy _ (.writing id _) => some id
  | .openPolicy _ (.reading id _) => some id
  | .acceptPolicy _ (.reading id _) => some id
  | .acceptPolicy _ (.writing id _) => some id
  | .openFlowConfirmed _ (.opening id) => some id
  | .openFlowConfirmed _ (.writing id _) => some id
  | .openFlowConfirmed _ (.reading id _) => some id
  | .acceptFlow (.reading id _) => some id
  | _ => none

namespace Station
variable {T : Type} [AsyncIo T]

def begin (st : Station T) (operation : Operation) : Station T :=
  { st with operation := some (st.operation.getD operation) }

def whenFree (st : Station T) (f : MuxSession T → MuxSession T) : Station T :=
  if st.operation.isSome then st else { st with session := f st.session }

def touch (st : Station T) (f : Connection T → Connection T) : Station T :=
  { st with session := st.session.withConnection (f st.session.connection) }

def poll (st : Station T) : Station T :=
  match st.operation with
  | none => st
  | some operation =>
    match operation.poll st.session with
    | (.finished _, session) => ⟨session, none⟩
    | (.waiting operation, session) => ⟨session, some operation⟩

def cancel (st : Station T) : Station T :=
  match st.operation.bind Operation.held with
  | none => { st with operation := none }
  | some id => ⟨st.session.dropStream id, none⟩

def step (st : Station T) : Event → Station T
  | .openPolicy family => st.begin (.openPolicy family .start)
  | .acceptPolicy family => st.begin (.acceptPolicy family .start)
  | .openFlowConfirmed request => st.begin (.openFlowConfirmed request .start)
  | .acceptFlow => st.begin (.acceptFlow .start)
  | .respondFlow stream response => st.begin (.respondFlow stream (.start response))
  | .poll => st.poll
  | .cancel => st.cancel
  | .beginOpen request => st.whenFree fun s => (s.beginOpenFlowConfirmed request).2
  | .drive => st.whenFree fun s => s.pollDrive.2
  | .release => st.whenFree MuxSession.releaseFlow
  | .read id room => st.touch fun c => (c.pollRead id room).2
  | .write id input => st.touch fun c => (c.pollData id input).2
  | .flush => st.touch fun c => c.pollFlushWrite.2
  | .close stream => st.touch fun c => (stream.pollClose c).2.2
  | .drop stream => st.touch stream.drop

def new (io : T) (role : Mode) (config : YamuxConfig) : Station T := ⟨MuxSession.new io role config, none⟩

def Attentive (st : Station T) : Prop :=
  ∀ operation, st.operation = some operation → operation.Attentive st.session

/-- The next poll of the outstanding operation does not swallow the end of the peer's bytes. -/
def Reports (st : Station T) : Prop :=
  ∀ operation, st.operation = some operation → Mux.Reports (operation.poll st.session)

def swallows (st : Station T) : Bool :=
  match st.operation with
  | none => false
  | some operation =>
    match operation.poll st.session with
    | (.finished (.error _), _) => false
    | (_, s) => s.connection.closed

theorem reports_iff (st : Station T) : st.swallows = false ↔ st.Reports := by
  unfold swallows Reports
  cases st.operation with
  | none => simp
  | some operation =>
    have hsome : (∀ op, some operation = some op → Mux.Reports (op.poll st.session)) ↔
        Mux.Reports (operation.poll st.session) :=
      ⟨fun h => h operation rfl, fun h op hop => by cases hop; exact h⟩
    rw [hsome]
    unfold Mux.Reports Progress.Failed
    rcases hr : operation.poll st.session with ⟨(e | a) | stage, s⟩ <;> simp [hr]

instance (st : Station T) : Decidable st.Reports := decidable_of_iff _ st.reports_iff

end Station

/-- In every state of every run, an outstanding operation that is attentive answers the end
    of the peer's bytes with an error. -/
theorem peer_close_reported {T : Type} [AsyncIo T] (io : T) (role : Mode) (config : YamuxConfig)
    (events : List Event) (h : (run Station.step (Station.new io role config) events).Attentive) :
    (run Station.step (Station.new io role config) events).Reports :=
  fun operation hop => Operation.poll_reports (h operation hop)

def policyBytes : List UInt8 :=
  (Frame.control .frameOpen 1).bytes ++
    (⟨.frameData, 1, encodeHeader .policy ++ [0, 1] ++ octets "f"⟩ : Frame).bytes

def leftBehind (bytes : List UInt8) : Station Script :=
  Station.new { incoming := policyBytes ++ bytes, ended := true, reads := [9, 9, 14, 1, 0, 0] } .server
    ⟨16, 4194304, 16384⟩

theorem left_between_flows :
    (run Station.step (leftBehind []) [.acceptPolicy "f", .poll, .poll, .acceptFlow]).Reports := by
  refine peer_close_reported _ _ _ _ fun operation hop => ?_
  have hfree : (run Station.step (leftBehind []) [.acceptPolicy "f", .poll, .poll]).operation.isNone := by
    decide +kernel
  have hinbound : (run Station.step (leftBehind [])
      [.acceptPolicy "f", .poll, .poll, .acceptFlow]).session.connection.inbound = [] := by
    decide +kernel
  change some ((run Station.step (leftBehind []) [.acceptPolicy "f", .poll, .poll]).operation.getD
    (.acceptFlow .start)) = some operation at hop
  rw [Option.isNone_iff_eq_none.mp hfree] at hop
  cases hop
  exact .inr (.inr (.inr (Connection.awaits_empty hinbound)))

/-- The peer goes away behind the OPEN frame of a flow: `accept_flow` has taken the stream,
    the connection is closed, and the poll is pending. -/
theorem left_before_open_body :
    ¬ (run Station.step (leftBehind (Frame.control .frameOpen 3).bytes)
      [.acceptPolicy "f", .poll, .poll, .acceptFlow, .poll]).Reports := by
  decide +kernel

end Snolc.Mux
