import Snolc.MuxSession

set_option autoImplicit false

namespace Snolc.Mux
open PollIo MuxFrame AsyncTask WireFormat

/-- Calls on the stream `id`: each write offers the rest of `bytes` and takes off it what was accepted. -/
inductive Offering {T : Type} [AsyncIo T] (id : StreamId) (c : Connection T) (bytes : List UInt8) :
    Connection T → List UInt8 → Prop where
  | idle : Offering id c bytes c bytes
  | write {d : Connection T} {rest : List UInt8} : Offering id c bytes d rest → rest ≠ [] →
    Offering id c bytes (d.pollData id rest).2 (rest.drop (writeCount (d.pollData id rest).1))
  | flush {d : Connection T} {rest : List UInt8} : Offering id c bytes d rest →
    Offering id c bytes d.pollFlushWrite.2 rest
  | drive {d : Connection T} {rest : List UInt8} : Offering id c bytes d rest → Offering id c bytes d.pollDrive.2 rest

/-- A task that has to write `rest` and flush it, and nothing else. -/
inductive Says : Task MuxError Unit → List UInt8 → Prop where
  | write (rest : List UInt8) : Says (.writeAll rest (.flush (.done (.ok ())))) rest
  | flush : Says (.flush (.done (.ok ()))) []

section Calls
variable {T : Type} [AsyncIo T] {id : StreamId} {c d : Connection T} {bytes rest : List UInt8}

structure Spoke (id : StreamId) (c : Connection T) (bytes : List UInt8) (result : Poll (Except MuxError Unit))
    (task : Task MuxError Unit) (d : Connection T) (rest : List UInt8) : Prop where
  offers : Offering id c bytes d rest
  ready : result = .ready (.ok ()) → rest = []
  pending : result = .pending → Says task rest

theorem flush_spoke {s : StreamEnd T} (h : Offering id c bytes s.connection []) :
    let r := (Task.flush (.done (.ok ()))).poll MuxError.io s
    Spoke id c bytes r.1 r.2.1 r.2.2.connection [] := by
  have hflush : Offering id c bytes (AsyncIo.pollFlush s).2.connection [] := h.flush
  dsimp only
  rw [Task.poll]
  split <;> rename_i heq <;> rw [heq] at hflush
  · exact ⟨hflush, fun _ => rfl, fun hp => by cases hp⟩
  · exact ⟨hflush, fun hr => (by cases hr), fun hp => by cases hp⟩
  · exact ⟨hflush, fun hr => (by cases hr), fun _ => .flush⟩

theorem drain_offers (fuel : ℕ) {s : StreamEnd T} (hid : s.id = id) (h : Offering id c bytes s.connection rest)
    (hne : rest ≠ []) : (drain fuel s rest).2.1.id = id ∧
      Offering id c bytes (drain fuel s rest).2.1.connection (rest.drop (drain fuel s rest).2.2) := by
  refine drain_moves (fun s rest => s.id = id ∧ Offering id c bytes s.connection rest) (fun s rest hne h => ?_)
    fuel s rest hne ⟨hid, h⟩
  obtain ⟨rfl, h⟩ := h
  exact ⟨rfl, h.write hne⟩

theorem poll_spoke {task : Task MuxError Unit} (ht : Says task rest) {s : StreamEnd T} (hid : s.id = id)
    (h : Offering id c bytes s.connection rest) :
    let r := task.poll MuxError.io s
    ∃ rest', Spoke id c bytes r.1 r.2.1 r.2.2.connection rest' := by
  cases ht with
  | flush => exact ⟨[], flush_spoke h⟩
  | write =>
    dsimp only
    rw [Task.poll]
    split
    · rename_i hempty
      subst hempty
      exact ⟨[], flush_spoke h⟩
    · rename_i hne
      obtain ⟨hid', hdrain⟩ := drain_offers (rest.length + 1) hid h hne
      have hall := drain_ok (rest.length + 1) s rest
      split <;> rename_i heq <;> rw [heq] at hid' hdrain hall
      · rw [List.drop_eq_nil_of_le (hall rfl)] at hdrain
        exact ⟨[], flush_spoke hdrain⟩
      · exact ⟨_, hdrain, fun hr => (by cases hr), fun hp => by cases hp⟩
      · exact ⟨_, hdrain, fun hr => (by cases hr), fun _ => .write _⟩

theorem driveOperation_spoke {task : Task MuxError Unit} (ht : Says task rest) (h : Offering id c bytes d rest) :
    let r := d.driveOperation id task
    ∃ rest', Spoke id c bytes r.1 r.2.1 r.2.2 rest' := by
  obtain ⟨rest', hspoke⟩ := poll_spoke ht (s := ⟨id, d⟩) rfl h
  refine ⟨rest', ?_⟩
  unfold Connection.driveOperation
  dsimp only at hspoke ⊢
  split <;> rename_i heq <;> rw [heq] at hspoke
  · exact hspoke
  · rename_i result task' s _
    have hdrive := hspoke.offers.drive
    split <;> rename_i hpoll <;> rw [hpoll] at hdrive
    · exact ⟨hdrive, fun hr => (by cases hr), fun hp => by cases hp⟩
    · exact ⟨hdrive, hspoke.ready, hspoke.pending⟩

end Calls

namespace RespondFlow
variable {T : Type} [AsyncIo T] {stream : MuxStream} {s : MuxSession T} {rest : List UInt8}

def Owes : RespondFlow → List UInt8 → Prop
  | .start response, rest => encodeOpenResponse response = .ok rest
  | .writing task, rest => Says task rest

structure Answered (s : MuxSession T) (stream : MuxStream) (rest : List UInt8)
    (r : Progress RespondFlow Unit × MuxSession T) (rest' : List UInt8) : Prop where
  offers : Offering stream.id s.connection rest r.2.connection rest'
  finished : r.1 = .finished (.ok ()) → rest' = []
  waiting : ∀ stage, r.1 = .waiting stage → stage.Owes rest'

theorem write_answered {task : Task MuxError Unit} (ht : Says task rest) :
    ∃ rest', Answered s stream rest (write stream s task) rest' := by
  obtain ⟨rest', hspoke⟩ := driveOperation_spoke ht (.idle : Offering stream.id s.connection rest s.connection rest)
  refine ⟨rest', ?_⟩
  unfold write MuxSession.awaitDrive
  split <;> rename_i heq <;> rw [heq] at hspoke
  · exact ⟨hspoke.offers, fun _ => hspoke.ready rfl, fun stage hs => by cases hs⟩
  · exact ⟨hspoke.offers, fun hr => (by cases hr), fun stage hs => by cases hs⟩
  · refine ⟨hspoke.offers, fun hr => (by cases hr), fun stage hs => ?_⟩
    cases hs
    exact hspoke.pending rfl

theorem poll_answered (stream : MuxStream) (s : MuxSession T) {stage : RespondFlow} (h : stage.Owes rest) :
    ∃ rest', Answered s stream rest (stage.poll stream s) rest' := by
  cases stage with
  | start response =>
    rw [poll]
    split
    · exact ⟨rest, .idle, fun hr => (by cases hr), fun stage hs => by cases hs⟩
    · unfold writeOpenResponse
      rw [show encodeOpenResponse response = .ok rest from h]
      exact write_answered (.write rest)
  | writing task => exact write_answered h

theorem encoded_of_poll {response : OpenResponse}
    (h : ∀ e, ((start response).poll stream s).1 ≠ .finished (.error e)) :
    ∃ bytes, (start response).Owes bytes := by
  cases henc : encodeOpenResponse response with
  | ok bytes => exact ⟨bytes, henc⟩
  | error e =>
    rw [poll] at h
    split at h
    · exact absurd rfl (h _)
    · unfold writeOpenResponse at h
      rw [henc] at h
      exact absurd rfl (h _)

end RespondFlow
end Snolc.Mux
