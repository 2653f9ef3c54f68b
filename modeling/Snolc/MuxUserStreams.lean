import Snolc.MuxSession

set_option autoImplicit false

namespace Snolc.Mux
open PollIo MuxFrame AsyncTask WireFormat

/-- Two sessions that differ in their connection and their count only. -/
structure SameTerms {T : Type} (s s' : MuxSession T) : Prop where
  role : s'.role = s.role
  policyOpen : s'.policyOpen = s.policyOpen
  limit : s'.maxUserStreams = s.maxUserStreams

theorem SameTerms.refl {T : Type} (s : MuxSession T) : SameTerms s s := ⟨rfl, rfl, rfl⟩

def Unlimited {α : Type} (task : Task MuxError α) : Prop := task.ErrorsIn (· ≠ .streamLimit)

theorem writeFrame_unlimited (frame : Except WireError (List UInt8)) : Unlimited (writeFrame frame) := by
  cases frame with
  | ok bytes => exact trivial
  | error e =>
    intro h
    cases h

theorem wireResult_unlimited {α : Type} (result : Except WireError α) :
    Unlimited (.done (wireResult result) : Task MuxError α) := by
  cases result with
  | ok a => exact trivial
  | error e =>
    intro h
    cases h

theorem readOpen_unlimited : Unlimited readOpen := by
  intro start
  dsimp only
  split
  · intro h
    cases h
  · exact fun body => wireResult_unlimited _

namespace Connection
variable {T : Type} [AsyncIo T] {α : Type}

theorem driveOperation_unlimited (c : Connection T) (id : StreamId) {task : Task MuxError α} (h : Unlimited task) :
    (c.driveOperation id task).1 ≠ .ready (.error .streamLimit) ∧ Unlimited (c.driveOperation id task).2.1 := by
  obtain ⟨herror, hrest⟩ :=
    Task.poll_errorsIn MuxError.io (P := (· ≠ .streamLimit)) (by simp) task (StreamEnd.mk id c) h
  unfold driveOperation
  split
  · rename_i e rest s heq
    rw [heq] at herror hrest
    exact ⟨fun hx => by cases hx; exact herror _ rfl rfl, hrest⟩
  · rename_i result rest s hno heq
    rw [heq] at herror hrest
    split
    · exact ⟨by simp, hrest⟩
    · exact ⟨fun hx => herror _ hx rfl, hrest⟩

theorem pollAcceptStream_unlimited (c : Connection T) : c.pollAcceptStream.1 ≠ .ready (.error .streamLimit) := by
  unfold pollAcceptStream
  split
  · simp
  · split
    · simp
    · split <;> simp

end Connection

namespace AcceptFlow
variable {T : Type} [AsyncIo T]

def started : AcceptFlow → Bool
  | .start => false
  | .accepting => true
  | .reading _ _ => true

def Calm : AcceptFlow → Prop
  | .start => True
  | .accepting => True
  | .reading _ task => Unlimited task

/-- What a poll of a started `accept_flow` leaves behind. -/
structure Advanced (s : MuxSession T) (r : Progress AcceptFlow (OpenRequest × MuxStream) × MuxSession T) : Prop where
  terms : SameTerms s r.2
  waiting : ∀ stage, r.1 = .waiting stage → stage.started ∧ stage.Calm ∧ r.2.userStreams = s.userStreams
  finished : ∀ flow, r.1 = .finished (.ok flow) → r.2.userStreams = s.userStreams
  unlimited : r.1 ≠ .finished (.error .streamLimit)

theorem read_advanced (s : MuxSession T) (id : StreamId) {task : Task MuxError OpenRequest} (h : Unlimited task) :
    Advanced s (read s id task) := by
  have hdrive := s.connection.driveOperation_unlimited id h
  unfold read MuxSession.awaitDrive
  split <;> rename_i heq <;> rw [heq] at hdrive
  · exact ⟨⟨rfl, rfl, rfl⟩, by simp, fun _ _ => rfl, by simp⟩
  · rename_i e _ _
    refine ⟨⟨rfl, rfl, rfl⟩, by simp [MuxSession.failFlow, MuxSession.failStream], by
      simp [MuxSession.failFlow, MuxSession.failStream], fun hx => hdrive.1 ?_⟩
    simp only [MuxSession.failFlow, MuxSession.failStream, Progress.finished.injEq, Except.error.injEq] at hx
    rw [hx]
  · refine ⟨⟨rfl, rfl, rfl⟩, fun stage hs => ?_, by simp, by simp⟩
    cases hs
    exact ⟨rfl, hdrive.2, rfl⟩

theorem accept_advanced (s : MuxSession T) : Advanced s (accept s) := by
  have haccept := s.connection.pollAcceptStream_unlimited
  unfold accept MuxSession.awaitAccept
  split <;> rename_i heq <;> rw [heq] at haccept
  · rename_i id c
    have hread := read_advanced (s.withConnection c) id readOpen_unlimited
    exact ⟨⟨hread.terms.role, hread.terms.policyOpen, hread.terms.limit⟩, hread.waiting, hread.finished,
      hread.unlimited⟩
  · rename_i e _
    refine ⟨⟨rfl, rfl, rfl⟩, by simp, by simp, fun hx => haccept ?_⟩
    simp only [Progress.finished.injEq, Except.error.injEq] at hx
    rw [hx]
  · refine ⟨⟨rfl, rfl, rfl⟩, fun stage hs => ?_, by simp, by simp⟩
    cases hs
    exact ⟨rfl, trivial, rfl⟩

theorem poll_started (s : MuxSession T) {stage : AcceptFlow} (hs : stage.started) (hc : stage.Calm) :
    Advanced s (stage.poll s) := by
  cases stage with
  | start => simp [started] at hs
  | accepting => exact accept_advanced s
  | reading id task => exact read_advanced s id hc

theorem poll_start {s : MuxSession T} (hrole : s.role = .server) (hpolicy : s.policyOpen) :
    (s.maxUserStreams ≤ s.userStreams ∧ AcceptFlow.start.poll s = (.finished (.error .streamLimit), s)) ∨
    (s.userStreams < s.maxUserStreams ∧
      Advanced { s with userStreams := s.userStreams + 1 } (AcceptFlow.start.poll s)) := by
  have hallowed : ¬ (s.role ≠ .server ∨ ¬ s.policyOpen) := by simp [hrole, hpolicy]
  rw [poll, if_neg hallowed, MuxSession.reserveUserStream]
  by_cases hlimit : s.maxUserStreams ≤ s.userStreams
  · rw [if_pos hlimit]
    exact .inl ⟨hlimit, rfl⟩
  · rw [if_neg hlimit]
    exact .inr ⟨by omega, accept_advanced _⟩

end AcceptFlow

namespace RespondFlow
variable {T : Type} [AsyncIo T]

def Calm : RespondFlow → Prop
  | .start _ => True
  | .writing task => Unlimited task

structure Advanced (s : MuxSession T) (r : Progress RespondFlow Unit × MuxSession T) : Prop where
  terms : SameTerms s r.2
  count : r.2.userStreams = s.userStreams
  waiting : ∀ stage, r.1 = .waiting stage → stage.Calm
  unlimited : r.1 ≠ .finished (.error .streamLimit)

theorem write_advanced (stream : MuxStream) (s : MuxSession T) {task : Task MuxError Unit} (h : Unlimited task) :
    Advanced s (write stream s task) := by
  have hdrive := s.connection.driveOperation_unlimited stream.id h
  unfold write MuxSession.awaitDrive
  split <;> rename_i heq <;> rw [heq] at hdrive
  · exact ⟨⟨rfl, rfl, rfl⟩, rfl, by simp, by simp⟩
  · refine ⟨⟨rfl, rfl, rfl⟩, rfl, by simp, fun hx => hdrive.1 ?_⟩
    simp only [Progress.finished.injEq, Except.error.injEq] at hx
    rw [hx]
  · refine ⟨⟨rfl, rfl, rfl⟩, rfl, fun stage hs => ?_, by simp⟩
    cases hs
    exact hdrive.2

theorem poll_advanced (stream : MuxStream) (s : MuxSession T) {stage : RespondFlow} (hc : stage.Calm) :
    Advanced s (stage.poll stream s) := by
  cases stage with
  | start response =>
    rw [poll]
    split
    · exact ⟨SameTerms.refl s, rfl, by simp, by simp⟩
    · exact write_advanced stream s (writeFrame_unlimited _)
  | writing task => exact write_advanced stream s hc

end RespondFlow

namespace MuxSession
variable {T : Type}

theorem beginOpenFlowConfirmed_books (s : MuxSession T) (request : OpenRequest) :
    SameTerms s (s.beginOpenFlowConfirmed request).2 ∧
    ∀ opened, (s.beginOpenFlowConfirmed request).1 = .ok opened →
      (s.beginOpenFlowConfirmed request).2.userStreams = s.userStreams + 1 := by
  unfold beginOpenFlowConfirmed reserveUserStream
  split
  · exact ⟨SameTerms.refl s, by simp⟩
  · split <;> rename_i heq <;> split at heq <;> cases heq
    · exact ⟨SameTerms.refl s, by simp⟩
    · dsimp only
      split
      · exact ⟨⟨rfl, rfl, rfl⟩, by simp⟩
      · exact ⟨⟨rfl, rfl, rfl⟩, fun _ _ => rfl⟩

theorem pollDrive_books [AsyncIo T] (s : MuxSession T) :
    SameTerms s s.pollDrive.2 ∧ s.pollDrive.2.userStreams = s.userStreams := by
  unfold pollDrive
  split
  · exact ⟨⟨rfl, rfl, rfl⟩, rfl⟩
  · exact ⟨⟨rfl, rfl, rfl⟩, rfl⟩
  · split <;> exact ⟨⟨rfl, rfl, rfl⟩, rfl⟩

end MuxSession
end Snolc.Mux
