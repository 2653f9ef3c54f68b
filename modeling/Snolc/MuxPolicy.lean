import Snolc.GuardedRuns
import Snolc.MuxEndpointBooks
import Snolc.MuxTaskWrites
import Snolc.MuxUserStreams
import Snolc.ScriptedIo

set_option autoImplicit false

namespace Snolc.Mux
open PollIo SlotTable MuxFrame AsyncTask WireFormat ByteFeed GuardedRuns ScriptedIo

def Progress.succeeded {σ ρ : Type} : Progress σ ρ → Bool
  | .finished (.ok _) => true
  | _ => false

def Progress.over {σ ρ : Type} : Progress σ ρ → Bool
  | .finished _ => true
  | .waiting _ => false

inductive SessionCall where
  | openFlow (request : OpenRequest) (confirmed : Bool) (stage : OpenFlow)
  | beginOpenFlowConfirmed (request : OpenRequest)
  | acceptFlow (stage : AcceptFlow)
  | respondFlow (stream : MuxStream) (stage : RespondFlow)
  | drive

namespace SessionCall
variable {T : Type} [AsyncIo T]

def poll (s : MuxSession T) : SessionCall → MuxSession T
  | .openFlow request confirmed stage => (OpenFlow.poll request confirmed s stage).2
  | .beginOpenFlowConfirmed request => (s.beginOpenFlowConfirmed request).2
  | .acceptFlow stage => (AcceptFlow.poll s stage).2
  | .respondFlow stream stage => (RespondFlow.poll stream s stage).2
  | .drive => s.pollDrive.2

def fresh : SessionCall → Bool
  | .openFlow _ _ .start => true
  | .beginOpenFlowConfirmed _ => true
  | .acceptFlow .start => true
  | .respondFlow _ (.start _) => true
  | _ => false

/-- Flow operations go past their first poll behind the handshake only, and nothing but the
    handshake drives the session until it is over. -/
def allowed {σ ρ : Type} (handshake : Progress σ ρ) : SessionCall → Bool
  | .drive => handshake.over
  | call => call.fresh || handshake.succeeded

omit [AsyncIo T] in
theorem allowed_cases {σ ρ : Type} {handshake : Progress σ ρ} (hp : handshake.succeeded = false) {call : SessionCall}
    (h : call.allowed handshake) : call.fresh ∨ call = .drive ∧ handshake.over := by
  cases call with
  | drive => exact .inr ⟨rfl, h⟩
  | openFlow request confirmed stage => exact .inl (by simpa [allowed, hp] using h)
  | beginOpenFlowConfirmed request => exact .inl rfl
  | acceptFlow stage => exact .inl (by simpa [allowed, hp] using h)
  | respondFlow stream stage => exact .inl (by simpa [allowed, hp] using h)

end SessionCall

structure Handshake (T : Type) where
  client : MuxSession T
  opening : Progress OpenPolicy MuxStream
  server : MuxSession T
  accepting : Progress AcceptPolicy MuxStream

/-- Polls come with the transport that answers them. The holders of streams may do anything to
    the connection. -/
inductive HandshakeStep (T : Type) where
  | client (io : T)
  | server (io : T)
  | clientCall (io : T) (call : SessionCall)
  | serverCall (io : T) (call : SessionCall)
  | clientStreams (connection : Connection T)
  | serverStreams (connection : Connection T)

def MuxSession.withIo {T : Type} (s : MuxSession T) (io : T) : MuxSession T :=
  s.withConnection { s.connection with io := s.connection.io.map (fun _ => io) }

namespace Handshake
variable {T : Type}

def start (io₁ io₂ : T) (config₁ config₂ : YamuxConfig) : Handshake T where
  client := .new io₁ .client config₁
  opening := .waiting .start
  server := .new io₂ .server config₂
  accepting := .waiting .start

section Step
variable [AsyncIo T] (family₁ family₂ : String)

def step (h : Handshake T) : HandshakeStep T → Handshake T
  | .client io =>
    match h.opening with
    | .waiting stage =>
      let r := OpenPolicy.poll family₁ (h.client.withIo io) stage
      { h with opening := r.1, client := r.2 }
    | .finished _ => h
  | .server io =>
    match h.accepting with
    | .waiting stage =>
      let r := AcceptPolicy.poll family₂ (h.server.withIo io) stage
      { h with accepting := r.1, server := r.2 }
    | .finished _ => h
  | .clientCall io call => { h with client := call.poll (h.client.withIo io) }
  | .serverCall io call => { h with server := call.poll (h.server.withIo io) }
  | .clientStreams connection => { h with client := h.client.withConnection connection }
  | .serverStreams connection => { h with server := h.server.withConnection connection }

end Step

variable [TracedIo T]

/-- What each side took is the front of what the other one wrote. -/
def Joined (h : Handshake T) : Prop :=
  h.client.connection.takenBytes <+: h.server.connection.sentBytes ∧
    h.server.connection.takenBytes <+: h.client.connection.sentBytes

def Continues (s : MuxSession T) (io : T) : Prop :=
  TracedIo.received io = s.connection.takenBytes ∧ TracedIo.written io = s.connection.sentBytes

def Possible (h : Handshake T) : HandshakeStep T → Prop
  | .client io => Continues h.client io
  | .server io => Continues h.server io
  | .clientCall io call => Continues h.client io ∧ call.allowed h.opening
  | .serverCall io call => Continues h.server io ∧ call.allowed h.accepting
  | .clientStreams _ => h.opening.succeeded
  | .serverStreams _ => h.accepting.succeeded

def Reliable (family₁ family₂ : String) (h : Handshake T) (label : HandshakeStep T) : Prop :=
  h.Possible label ∧ (h.step family₁ family₂ label).Joined

end Handshake

namespace MuxSession
variable {T : Type} [AsyncIo T]

/-- No user flow is open, and every operation on one is refused without any effect. -/
structure Closed (s : MuxSession T) : Prop where
  none : s.userStreams = 0
  openFlow : ∀ request confirmed, OpenFlow.poll request confirmed s .start = (.finished (.error .policyRequired), s)
  beginOpenFlow : ∀ request, s.beginOpenFlowConfirmed request = (.error .policyRequired, s)
  acceptFlow : AcceptFlow.poll s .start = (.finished (.error .policyRequired), s)
  respondFlow : ∀ stream response,
    RespondFlow.poll stream s (.start response) = (.finished (.error .policyRequired), s)

/-- Every further policy stream is refused without any effect. -/
structure Settled (s : MuxSession T) : Prop where
  openPolicy : ∀ family, OpenPolicy.poll family s .start = (.finished (.error .protocol), s)
  acceptPolicy : ∀ family, AcceptPolicy.poll family s .start = (.finished (.error .protocol), s)

theorem closed_of_policy {s : MuxSession T} (h : s.policyOpen = false) (hu : s.userStreams = 0) : s.Closed := by
  refine ⟨hu, fun request confirmed => ?_, fun request => ?_, ?_, fun stream response => ?_⟩
  · rw [OpenFlow.poll, if_pos (.inr (by simp [h]))]
  · rw [beginOpenFlowConfirmed, if_pos (.inr (by simp [h]))]
  · rw [AcceptFlow.poll, if_pos (.inr (by simp [h]))]
  · rw [RespondFlow.poll, if_pos (.inr (by simp [h]))]

theorem settled_of_policy {s : MuxSession T} (h : s.policyOpen = true) : s.Settled := by
  refine ⟨fun family => ?_, fun family => ?_⟩
  · rw [OpenPolicy.poll, if_pos (.inr h)]
  · rw [AcceptPolicy.poll, if_pos (.inr h)]

theorem Closed.poll {s : MuxSession T} (h : s.Closed) {call : SessionCall} (hf : call.fresh) : call.poll s = s := by
  cases call with
  | openFlow request confirmed stage =>
    cases stage with
    | start => rw [SessionCall.poll, h.openFlow]
    | _ => simp [SessionCall.fresh] at hf
  | beginOpenFlowConfirmed request => rw [SessionCall.poll, h.beginOpenFlow]
  | acceptFlow stage =>
    cases stage with
    | start => rw [SessionCall.poll, h.acceptFlow]
    | _ => simp [SessionCall.fresh] at hf
  | respondFlow stream stage =>
    cases stage with
    | start response => rw [SessionCall.poll, h.respondFlow]
    | writing task => simp [SessionCall.fresh] at hf
  | drive => simp [SessionCall.fresh] at hf

end MuxSession

namespace MuxSession
variable {T σ ρ α : Type} [AsyncIo T]

theorem pollDrive_connection (s : MuxSession T) : s.pollDrive.2.connection = s.connection.pollDrive.2 := by
  unfold pollDrive
  split <;> rename_i heq <;> rw [heq]
  · rfl
  · rfl
  · split <;> rfl

theorem awaitDrive_cases (P : Progress σ ρ × MuxSession T → Prop) {s : MuxSession T} {id : StreamId}
    {task : Task MuxError α} {stage : Task MuxError α → σ}
    {failed : MuxSession T → MuxError → Progress σ ρ × MuxSession T}
    {next : MuxSession T → α → Progress σ ρ × MuxSession T}
    (hn : ∀ c a, P (next (s.withConnection c) a)) (hf : ∀ c e, P (failed (s.withConnection c) e))
    (hw : ∀ c task, P (.waiting (stage task), s.withConnection c)) : P (s.awaitDrive id task stage failed next) := by
  unfold awaitDrive
  split
  · exact hn _ _
  · exact hf _ _
  · exact hw _ _

theorem awaitControl_cases (P : Progress σ ρ × MuxSession T → Prop) {s : MuxSession T} {id : StreamId} {stage : σ}
    {failed : MuxSession T → MuxError → Progress σ ρ × MuxSession T} {next : MuxSession T → Progress σ ρ × MuxSession T}
    (hn : ∀ c, P (next (s.withConnection c))) (hf : ∀ c e, P (failed (s.withConnection c) e))
    (hw : ∀ c, P (.waiting stage, s.withConnection c)) : P (s.awaitControl id stage failed next) := by
  unfold awaitControl
  split
  · exact hn _
  · exact hf _ _
  · exact hw _

theorem awaitAccept_cases (P : Progress σ ρ × MuxSession T → Prop) {s : MuxSession T} {stage : σ}
    {failed : MuxSession T → MuxError → Progress σ ρ × MuxSession T}
    {next : MuxSession T → StreamId → Progress σ ρ × MuxSession T}
    (hn : ∀ c id, P (next (s.withConnection c) id)) (hf : ∀ c e, P (failed (s.withConnection c) e))
    (hw : ∀ c, P (.waiting stage, s.withConnection c)) : P (s.awaitAccept stage failed next) := by
  unfold awaitAccept
  split
  · exact hn _ _
  · exact hf _ _
  · exact hw _

end MuxSession

namespace OpenFlow
variable {T : Type} [AsyncIo T] (request : OpenRequest) (confirmed : Bool)

theorem poll_policy (s : MuxSession T) (stage : OpenFlow) :
    (stage.poll request confirmed s).2.policyOpen = s.policyOpen := by
  have hread (s : MuxSession T) (id : StreamId) (task : Task MuxError OpenResponse) :
      (read s id task).2.policyOpen = s.policyOpen :=
    MuxSession.awaitDrive_cases (fun r => r.2.policyOpen = s.policyOpen) (fun _ _ => rfl) (fun _ _ => rfl)
      (fun _ _ => rfl)
  have hwrite (s : MuxSession T) (id : StreamId) (task : Task MuxError Unit) :
      (write confirmed s id task).2.policyOpen = s.policyOpen := by
    refine MuxSession.awaitDrive_cases (fun r => r.2.policyOpen = s.policyOpen) (fun c _ => ?_) (fun _ _ => rfl)
      (fun _ _ => rfl)
    split
    · exact hread (s.withConnection c) id _
    · rfl
  have hopened (s : MuxSession T) (id : StreamId) : (opened request confirmed s id).2.policyOpen = s.policyOpen :=
    MuxSession.awaitControl_cases (fun r => r.2.policyOpen = s.policyOpen) (fun c => hwrite (s.withConnection c) id _)
      (fun _ _ => rfl) (fun _ => rfl)
  cases stage with
  | start =>
    rw [poll]
    split
    · rfl
    · unfold MuxSession.reserveUserStream
      split <;> rename_i heq <;> split at heq <;> cases heq
      · rfl
      · dsimp only
        split
        · rfl
        · exact hopened _ _
  | opening id => exact hopened s id
  | writing id task => exact hwrite s id task
  | reading id task => exact hread s id task

end OpenFlow

namespace AcceptFlow
variable {T : Type} [AsyncIo T]

theorem poll_policy (s : MuxSession T) (stage : AcceptFlow) : (stage.poll s).2.policyOpen = s.policyOpen := by
  have hread (s : MuxSession T) (id : StreamId) (task : Task MuxError OpenRequest) :
      (read s id task).2.policyOpen = s.policyOpen :=
    MuxSession.awaitDrive_cases (fun r => r.2.policyOpen = s.policyOpen) (fun _ _ => rfl) (fun _ _ => rfl)
      (fun _ _ => rfl)
  have haccept (s : MuxSession T) : (accept s).2.policyOpen = s.policyOpen :=
    MuxSession.awaitAccept_cases (fun r => r.2.policyOpen = s.policyOpen)
      (fun c id => hread (s.withConnection c) id _) (fun _ _ => rfl) (fun _ => rfl)
  cases stage with
  | start =>
    rw [poll]
    split
    · rfl
    · unfold MuxSession.reserveUserStream
      split <;> rename_i heq <;> split at heq <;> cases heq
      · rfl
      · exact haccept _
  | accepting => exact haccept s
  | reading id task => exact hread s id task

end AcceptFlow

theorem RespondFlow.poll_policy {T : Type} [AsyncIo T] (stream : MuxStream) (s : MuxSession T) (stage : RespondFlow) :
    (stage.poll stream s).2.policyOpen = s.policyOpen := by
  have hwrite (s : MuxSession T) (task : Task MuxError Unit) : (write stream s task).2.policyOpen = s.policyOpen :=
    MuxSession.awaitDrive_cases (fun r => r.2.policyOpen = s.policyOpen) (fun _ _ => rfl) (fun _ _ => rfl)
      (fun _ _ => rfl)
  cases stage with
  | start response =>
    rw [poll]
    split
    · rfl
    · exact hwrite s _
  | writing task => exact hwrite s task

theorem SessionCall.poll_policy {T : Type} [AsyncIo T] (call : SessionCall) (s : MuxSession T) :
    (call.poll s).policyOpen = s.policyOpen := by
  cases call with
  | openFlow request confirmed stage => exact OpenFlow.poll_policy request confirmed s stage
  | beginOpenFlowConfirmed request => exact (s.beginOpenFlowConfirmed_books request).1.policyOpen
  | acceptFlow stage => exact AcceptFlow.poll_policy s stage
  | respondFlow stream stage => exact RespondFlow.poll_policy stream s stage
  | drive => exact s.pollDrive_books.1.policyOpen

structure Settles {σ ρ T : Type} (s : MuxSession T) (r : Progress σ ρ × MuxSession T) : Prop where
  role : r.2.role = s.role
  users : r.2.userStreams = s.userStreams
  policy : r.2.policyOpen = (s.policyOpen || r.1.succeeded)

theorem Settles.kept {σ ρ T : Type} {s s' : MuxSession T} {p : Progress σ ρ} (hr : s'.role = s.role)
    (hu : s'.userStreams = s.userStreams) (hp : s'.policyOpen = s.policyOpen) (hf : p.succeeded = false) :
    Settles s (p, s') :=
  ⟨hr, hu, by rw [hp, hf, Bool.or_false]⟩

theorem Settles.same {σ ρ T : Type} {s s' : MuxSession T} {r : Progress σ ρ × MuxSession T} (h : Settles s' r)
    (hr : s'.role = s.role) (hu : s'.userStreams = s.userStreams) (hp : s'.policyOpen = s.policyOpen) : Settles s r :=
  ⟨h.role.trans hr, h.users.trans hu, by rw [h.policy, hp]⟩

theorem OpenPolicy.poll_settles {T : Type} [AsyncIo T] (family : String) (s : MuxSession T) (stage : OpenPolicy) :
    Settles s (stage.poll family s) := by
  have hread (s : MuxSession T) (id : StreamId) (task : Task MuxError String) : Settles s (read family s id task) := by
    refine MuxSession.awaitDrive_cases (Settles s) (fun c response => ?_) (fun _ _ => .kept rfl rfl rfl rfl)
      (fun _ _ => .kept rfl rfl rfl rfl)
    split
    · exact .kept rfl rfl rfl rfl
    · exact ⟨rfl, rfl, (Bool.or_true _).symm⟩
  have hwrite (s : MuxSession T) (id : StreamId) (task : Task MuxError Unit) : Settles s (write family s id task) := by
    refine MuxSession.awaitDrive_cases (Settles s) (fun c _ => ?_) (fun _ _ => .kept rfl rfl rfl rfl)
      (fun _ _ => .kept rfl rfl rfl rfl)
    exact (hread (s.withConnection c) id _).same rfl rfl rfl
  have hopened (s : MuxSession T) (id : StreamId) : Settles s (opened family s id) := by
    refine MuxSession.awaitControl_cases (Settles s) (fun c => ?_) (fun _ _ => .kept rfl rfl rfl rfl)
      (fun _ => .kept rfl rfl rfl rfl)
    exact (hwrite (s.withConnection c) id _).same rfl rfl rfl
  cases stage with
  | start =>
    rw [poll]
    split
    · exact .kept rfl rfl rfl rfl
    · split
      · exact .kept rfl rfl rfl rfl
      · exact (hopened _ _).same rfl rfl rfl
  | opening id => exact hopened s id
  | writing id task => exact hwrite s id task
  | reading id task => exact hread s id task

theorem AcceptPolicy.poll_settles {T : Type} [AsyncIo T] (family : String) (s : MuxSession T) (stage : AcceptPolicy) :
    Settles s (stage.poll family s) := by
  have hwrite (s : MuxSession T) (id : StreamId) (task : Task MuxError Unit) : Settles s (write s id task) :=
    MuxSession.awaitDrive_cases (Settles s) (fun _ _ => ⟨rfl, rfl, (Bool.or_true _).symm⟩)
      (fun _ _ => .kept rfl rfl rfl rfl) (fun _ _ => .kept rfl rfl rfl rfl)
  have hread (s : MuxSession T) (id : StreamId) (task : Task MuxError String) : Settles s (read family s id task) := by
    refine MuxSession.awaitDrive_cases (Settles s) (fun c request => ?_) (fun _ _ => .kept rfl rfl rfl rfl)
      (fun _ _ => .kept rfl rfl rfl rfl)
    split
    · exact .kept rfl rfl rfl rfl
    · exact (hwrite (s.withConnection c) id _).same rfl rfl rfl
  have haccept (s : MuxSession T) : Settles s (accept family s) := by
    refine MuxSession.awaitAccept_cases (Settles s) (fun c id => ?_) (fun _ _ => .kept rfl rfl rfl rfl)
      (fun _ => .kept rfl rfl rfl rfl)
    exact (hread (s.withConnection c) id _).same rfl rfl rfl
  cases stage with
  | start =>
    rw [poll]
    split
    · exact .kept rfl rfl rfl rfl
    · exact haccept s
  | accepting => exact haccept s
  | reading id task => exact hread s id task
  | writing id task => exact hwrite s id task

end Snolc.Mux
