import Snolc.MuxFaithfulReads
import Snolc.MuxIoInvariants
import Snolc.MuxReaders

set_option autoImplicit false

namespace Snolc.Mux
open PollIo SlotTable MuxFrame AsyncTask ByteFeed

/-- Frames as one side sends them: its DATA frames all carry bytes, or none does. -/
def Uniform (split : ℕ) (sent : List Frame) : Prop :=
  ∀ f ∈ sent, f.Regular ∧ (f.kind = .frameData → (f.payload = [] ↔ split = 0))

theorem Uniform.fits {split : ℕ} {sent : List Frame} (h : Uniform split sent) : ∀ f ∈ sent, f.Fits :=
  fun f hf => (h f hf).1.fits

theorem Uniform.dataOf {split : ℕ} {sent : List Frame} (h : Uniform split sent) (id : StreamId) :
    dataOf id (flat sent) = dataIn id sent := by
  have hall := dataOf_flat id (fun f hf => (h f hf).1) []
  rw [List.append_nil] at hall
  rw [hall]
  exact List.append_nil _

namespace Connection
variable {T : Type} [TracedIo T] {c : Connection T} {got : List Frame} {part : List UInt8}

theorem Inbox.no_gap (h : c.Inbox got part) {split : ℕ} {sent : List Frame} (hu : Uniform split sent)
    (hpipe : c.takenBytes <+: flat sent) {id : StreamId} {state : StreamState} {rest : List (List UInt8)}
    (hs : c.stream id = some state) (hi : state.input = [] :: rest) : state.queued = [] := by
  have hsub : got ⊆ sent := by
    have htaken : flat got <+: c.takenBytes := ⟨part, h.taken.symm⟩
    exact (flat_initial (fun f hf => (h.regular f hf).fits) hu.fits (htaken.trans hpipe)).subset
  apply StreamState.queued_of_used _ hi
  · exact split
  · intro chunk hm
    obtain ⟨f, hf, hk, hx⟩ := h.chunks id state hs chunk hm
    exact hx.trans ((hu f (hsub hf)).2 hk)

theorem received_invariant (front : List UInt8) : IoInvariant (fun io : T => front <+: TracedIo.received io) where
  read io n h := by
    rw [TracedIo.read_received]
    exact h.trans (List.prefix_append _ _)
  write io bytes h := by
    rw [TracedIo.write_received]
    exact h
  flush io h := by
    rw [TracedIo.flush_received]
    exact h

structure Past (c : Connection T) (front : List UInt8) : Prop where
  io : c.io.isSome
  sound : ∀ w, c.write = some w → w.Sound
  taken : front <+: c.takenBytes

variable {front : List UInt8}

theorem Outbox.past {sent : List Frame} (h : c.Outbox sent) : c.Past c.takenBytes :=
  ⟨h.io, h.sound, List.prefix_refl _⟩

theorem Past.reads (h : c.Past front) : IoHas (fun io : T => front <+: TracedIo.received io) c := by
  intro io hio
  have htaken := h.taken
  rw [takenBytes, hio] at htaken
  exact htaken

theorem Past.of_reads {d : Connection T} (hio : d.io.isSome) (hw : ∀ w, d.write = some w → w.Sound)
    (h : IoHas (fun io : T => front <+: TracedIo.received io) d) : d.Past front := by
  refine ⟨hio, hw, ?_⟩
  obtain ⟨io, hd⟩ := Option.isSome_iff_exists.mp hio
  rw [takenBytes, hd]
  exact h io hd

theorem Past.sends (h : c.Past front) {d : Connection T} (hs : Sends c d) : d.Past front :=
  ⟨by rw [hs.inbound.io]; exact h.io, hs.sound, by rw [hs.inbound.taken]; exact h.taken⟩

theorem Past.drive (h : c.Past front) : c.pollDrive.2.Past front := by
  obtain ⟨hio, hw⟩ := (reading_sound true).pollDrive c ⟨h.io, h.sound⟩
  exact .of_reads hio hw ((reading_ioHas (received_invariant front)).pollDrive c h.reads)

theorem Past.read (h : c.Past front) (id : StreamId) (room : ℕ) : (c.pollRead id room).2.Past front := by
  obtain ⟨hio, hw⟩ := (reading_sound true).pollRead c ⟨h.io, h.sound⟩ id room
  exact .of_reads hio hw ((reading_ioHas (received_invariant front)).pollRead c h.reads id room)

theorem readDirect_bound (c : Connection T) (frame : PendingRead) (room : ℕ) :
    (readBytes (c.readDirect frame room).1).length ≤ room := by
  unfold readDirect
  split
  · exact Nat.zero_le _
  · rename_i io hio
    have hbound := TracedIo.read_bound io (min room (frame.length - frame.wireConsumed))
    split <;> rename_i heq <;> rw [heq] at hbound
    · exact Nat.zero_le _
    · exact Nat.le_trans hbound (Nat.min_le_left _ _)
    · exact Nat.zero_le _
    · exact Nat.zero_le _

theorem pollReadStream_bound (c : Connection T) (id : StreamId) (room : ℕ) :
    (readBytes (c.pollReadStream id room).1).length ≤ room := by
  unfold pollReadStream
  split
  · exact Nat.zero_le _
  · exact Nat.zero_le _
  · split
    · exact Nat.zero_le _
    · split
      · split <;> exact Nat.zero_le _
      · exact readDirect_bound _ _ room

theorem pollRead_bound (c : Connection T) (id : StreamId) (room : ℕ) :
    (readBytes (c.pollRead id room).1).length ≤ room := by
  unfold pollRead
  split
  · exact Nat.zero_le _
  · split
    · exact Nat.zero_le _
    · split
      · split
        · exact Nat.zero_le _
        · exact pollReadStream_bound c id room
      · dsimp only
        split
        · rw [readBytes_ok, List.length_take]
          omega
        · exact pollReadStream_bound _ id room

structure Fed (c : Connection T) (delivered : StreamId → List UInt8) : Prop where
  outbox : ∃ sent, c.Outbox sent
  inbox : ∃ got part, c.Inbox got part ∧ Delivery c got part delivered

variable {delivered : StreamId → List UInt8}

/-- What the readers got is the front of the data the peer sent. -/
theorem Fed.within (h : c.Fed delivered) {split : ℕ} {sent : List Frame} (hu : Uniform split sent)
    (hpipe : c.takenBytes <+: flat sent) (id : StreamId) : delivered id <+: dataIn id sent := by
  obtain ⟨got, part, hin, hdel⟩ := h.inbox
  rw [← hu.dataOf]
  exact (hin.delivered hdel id).trans (dataOf_initial id hpipe)

theorem Fed.same (h : c.Fed delivered) {d : Connection T} (hs : SameInbound c d) {sent : List Frame}
    (hout : d.Outbox sent) : d.Fed delivered := by
  obtain ⟨got, part, hin, hdel⟩ := h.inbox
  exact ⟨⟨sent, hout⟩, got, part, hin.same hs, (hin.took_same hs).delivery_quiet hdel⟩

theorem Fed.drive (h : c.Fed delivered) (hok : ∀ e, c.pollDrive.1 ≠ .ready (.error e)) :
    c.pollDrive.2.Fed delivered := by
  obtain ⟨sent, hout⟩ := h.outbox
  obtain ⟨got, part, hin, hdel⟩ := h.inbox
  obtain ⟨sent', hout', -⟩ := pollDrive_step c sent hout
  rcases hin.drive hout.sound with ⟨got', part', pushed, htook⟩ | ⟨e, he, -⟩
  · exact ⟨⟨sent', hout'⟩, got', part', htook.inbox, htook.delivery_quiet hdel⟩
  · exact absurd he (hok e)

variable {split : ℕ} {sent : List Frame}

theorem Fed.read (h : c.Fed delivered) (hu : Uniform split sent) (hpipe : c.takenBytes <+: flat sent)
    (id : StreamId) (room : ℕ) (hok : ∀ e, (c.pollRead id room).1 ≠ .ready (.error e)) :
    (c.pollRead id room).2.Fed
      (Function.update delivered id (delivered id ++ readBytes (c.pollRead id room).1)) := by
  obtain ⟨out, hout⟩ := h.outbox
  obtain ⟨got, part, hin, hdel⟩ := h.inbox
  obtain ⟨out', hout', -⟩ := pollRead_step c id room out hout
  rcases hin.read hout.sound hdel id room (fun state rest hs hi => .inr (hin.no_gap hu hpipe hs hi)) with
    ⟨got', part', hin', hdel'⟩ | ⟨e, he, -⟩
  · rw [update_handed] at hdel'
    exact ⟨⟨out', hout'⟩, got', part', hin', hdel'⟩
  · exact absurd he (hok e)

end Connection

theorem writes_of_readsOnly {ε α : Type} {task : Task ε α} (h : ReadsOnly task) {n : ℕ} : task.Writes n := by
  induction task with
  | done result => trivial
  | writeAll bytes next ih => exact h.elim
  | flush next ih => exact h.elim
  | readExact missing got next ih => exact fun bytes => ih bytes (h bytes)

namespace StreamEnd
variable {T : Type} [TracedIo T] {split : ℕ} {sent : List Frame}

theorem fill_id (fuel : ℕ) (s : StreamEnd T) (want : ℕ) : (fill fuel s want).2.1.id = s.id :=
  fill_invariant (fun s' : StreamEnd T => s'.id = s.id) (fun _ _ h => h) fuel s want rfl

theorem fill_past (fuel : ℕ) (s : StreamEnd T) (want : ℕ) {front : List UInt8} (h : s.connection.Past front) :
    (fill fuel s want).2.1.connection.Past front :=
  fill_invariant (fun s : StreamEnd T => s.connection.Past front) (fun s room h => h.read s.id room) fuel s want h

theorem fill_fed (hu : Uniform split sent) (fuel : ℕ) (s : StreamEnd T) (want : ℕ) (hfuel : want < fuel)
    {delivered : StreamId → List UInt8} (h : s.connection.Fed delivered)
    (hpipe : (fill fuel s want).2.1.connection.takenBytes <+: flat sent)
    (hok : (fill fuel s want).1 = .full ∨ (fill fuel s want).1 = .pending) :
    (fill fuel s want).2.1.connection.Fed
        (Function.update delivered s.id (delivered s.id ++ (fill fuel s want).2.2)) ∧
      (fill fuel s want).2.2.length ≤ want ∧
      ((fill fuel s want).1 = .full → (fill fuel s want).2.2.length = want) := by
  induction fuel generalizing s want delivered with
  | zero => omega
  | succ fuel ih =>
    cases want with
    | zero => exact ⟨by simpa [fill] using h, Nat.le_refl _, fun _ => rfl⟩
    | succ want =>
      obtain ⟨out, hout⟩ := h.outbox
      have hread := h.read hu ((fill_past (fuel + 1) s (want + 1) hout.past).taken.trans hpipe) s.id (want + 1)
      have hbound := s.connection.pollRead_bound s.id (want + 1)
      have hpoll : AsyncIo.pollRead s (want + 1) = ((s.connection.pollRead s.id (want + 1)).1,
          { s with connection := (s.connection.pollRead s.id (want + 1)).2 }) := rfl
      rw [fill, hpoll] at hpipe hok ⊢
      generalize s.connection.pollRead s.id (want + 1) = r at hread hbound hpipe hok ⊢
      rcases r with ⟨(e | bytes) | _, d⟩ <;> dsimp only at hread hbound hpipe hok ⊢
      · simp at hok
      · cases hbytes : bytes with
        | nil =>
          rw [hbytes] at hok
          simp at hok
        | cons first more =>
          rw [← hbytes]
          rw [hbytes] at hpipe hok
          dsimp only at hpipe hok
          rw [← hbytes] at hpipe hok
          have hd := hread (by simp)
          rw [readBytes_ok] at hd hbound
          have hpos : 0 < bytes.length := by rw [hbytes]; exact Nat.succ_pos _
          obtain ⟨hfed, hlen, hfull⟩ := ih { s with connection := d } (want + 1 - bytes.length) (by omega) hd hpipe hok
          simp only [Function.update_self, Function.update_idem, List.append_assoc] at hfed
          refine ⟨?_, ?_, ?_⟩
          · rw [hbytes] at hfed ⊢
            exact hfed
          · rw [hbytes] at hlen hbound hpos ⊢
            dsimp only
            rw [List.length_append]
            omega
          · rw [hbytes] at hfull hbound hpos ⊢
            intro hx
            have hx := hfull hx
            dsimp only
            rw [List.length_append]
            omega
      · exact ⟨by simpa using hread (by simp), Nat.zero_le _, by simp⟩

variable {ε α : Type} (lift : IoError → ε)

theorem poll_past {task : Task ε α} {n : ℕ} (ht : task.Writes n) (s : StreamEnd T) {front : List UInt8}
    (h : s.connection.Past front) : (task.poll lift s).2.2.connection.Past front := by
  refine (Task.poll_invariant lift (fun s : StreamEnd T => s.connection.Past front) n ?_ ?_ ?_ task s ht h).1
  · exact fun s bytes _ _ h => h.sends (Connection.pollData_sends h.sound s.id bytes)
  · exact fun s h => h.sends (Connection.pollFlushWrite_sends h.sound)
  · exact fun s room h => h.read s.id room

/-- One poll of a reading task on a stream that does not fail: `more` went to its stream, and the task
    is done with it or waits for what comes behind it. -/
theorem poll_heard (hu : Uniform split sent) (task : Task ε α) (ht : ReadsOnly task) (s : StreamEnd T)
    {delivered : StreamId → List UInt8} (h : s.connection.Fed delivered)
    (hpipe : (task.poll lift s).2.2.connection.takenBytes <+: flat sent)
    (hok : ∀ e, (task.poll lift s).1 ≠ .ready (.error (lift e))) :
    ∃ more, (task.poll lift s).2.2.connection.Fed (Function.update delivered s.id (delivered s.id ++ more)) ∧
      (∀ a, (task.poll lift s).1 = .ready (.ok a) → ∀ rest, consume task (more ++ rest) = some (.ok a, rest)) ∧
      ((task.poll lift s).1 = .pending → ReadsOnly (task.poll lift s).2.1 ∧
        ∀ rest, consume (task.poll lift s).2.1 rest = consume task (more ++ rest)) := by
  induction task generalizing s delivered with
  | done result =>
    refine ⟨[], by simpa [Task.poll] using h, fun a ha rest => ?_, by simp [Task.poll]⟩
    rw [Task.poll] at ha
    cases ha
    rfl
  | writeAll bytes next ih => exact ht.elim
  | flush next ih => exact ht.elim
  | readExact missing got next ih =>
    obtain ⟨out, hout⟩ := h.outbox
    have hid := fill_id (missing + 1) s missing
    have hkept := fill_past (missing + 1) s missing hout.past
    have hfed := fill_fed hu (missing + 1) s missing (Nat.lt_succ_self _) h
    rw [Task.poll] at hpipe hok ⊢
    generalize fill (missing + 1) s missing = r at hid hkept hfed hpipe hok ⊢
    obtain ⟨kind, s', bytes⟩ := r
    dsimp only at hid hkept hfed
    rw [← hid] at hfed ⊢
    cases kind with
    | full =>
      have hlater := poll_past lift (n := 0) (writes_of_readsOnly (ht (got ++ bytes))) s'
        ⟨hkept.io, hkept.sound, List.prefix_refl _⟩
      obtain ⟨hs', -, hlen⟩ := hfed (hlater.taken.trans hpipe) (.inl rfl)
      obtain ⟨more, hmore, hready, hpending⟩ := ih (got ++ bytes) (ht _) s' hs' hpipe hok
      have hstep (rest : List UInt8) : consume (.readExact missing got next) (bytes ++ more ++ rest) =
          consume (next (got ++ bytes)) (more ++ rest) := by
        have hcount : bytes.length = missing := hlen rfl
        rw [consume, List.append_assoc, ← hcount, if_pos (by simp), List.take_left, List.drop_left]
      simp only [Function.update_self, Function.update_idem, List.append_assoc] at hmore
      refine ⟨bytes ++ more, hmore, fun a ha rest => ?_, fun hp => ⟨(hpending hp).1, fun rest => ?_⟩⟩
      · rw [hstep, hready a ha]
      · rw [hstep]
        exact (hpending hp).2 rest
    | ended => exact absurd rfl (hok _)
    | failed e => exact absurd rfl (hok _)
    | pending =>
      obtain ⟨hs', hshort, -⟩ := hfed hpipe (.inr rfl)
      refine ⟨bytes, hs', by simp, fun _ => ⟨ht, fun rest => ?_⟩⟩
      have htake : (bytes ++ rest).take missing = bytes ++ rest.take (missing - bytes.length) := by
        rw [List.take_append, List.take_of_length_le hshort]
      have hdrop : (bytes ++ rest).drop missing = rest.drop (missing - bytes.length) := by
        rw [List.drop_append, List.drop_of_length_le hshort, List.nil_append]
      rw [consume, consume, htake, hdrop, List.append_assoc, List.length_append]
      exact if_congr (by omega) rfl rfl

theorem poll_fed (hu : Uniform split sent) (task : Task ε α) (ht : ReadsOnly task) (s : StreamEnd T)
    {delivered : StreamId → List UInt8} (h : s.connection.Fed delivered)
    (hpipe : (task.poll lift s).2.2.connection.takenBytes <+: flat sent)
    (hok : ∀ e, (task.poll lift s).1 ≠ .ready (.error e)) :
    ∃ more, (task.poll lift s).2.2.connection.Fed (Function.update delivered s.id (delivered s.id ++ more)) ∧
      (∀ a, (task.poll lift s).1 = .ready (.ok a) → ∀ rest, consume task (more ++ rest) = some (.ok a, rest)) ∧
      ((task.poll lift s).1 = .pending → ReadsOnly (task.poll lift s).2.1 ∧
        ∀ rest, consume (task.poll lift s).2.1 rest = consume task (more ++ rest)) :=
  poll_heard lift hu task ht s h hpipe fun e => hok (lift e)

end StreamEnd

namespace Connection
variable {T : Type} [TracedIo T] {split : ℕ} {sent : List Frame}

theorem Past.driveOperation {α : Type} {c : Connection T} {front : List UInt8} (h : c.Past front) (id : StreamId)
    {task : Task MuxError α} {n : ℕ} (ht : task.Writes n) : (c.driveOperation id task).2.2.Past front := by
  have hpoll := StreamEnd.poll_past MuxError.io ht ⟨id, c⟩ h
  unfold Connection.driveOperation
  generalize task.poll MuxError.io (StreamEnd.mk id c) = r at hpoll ⊢
  obtain ⟨(e | a) | _, task', s⟩ := r
  · exact hpoll
  all_goals
    have hdrive := hpoll.drive
    dsimp only at hdrive ⊢
    generalize s.connection.pollDrive = d at hdrive ⊢
    rcases d with ⟨(e | _) | _, d⟩ <;> exact hdrive

theorem Fed.driveOperation {α : Type} {c : Connection T} {delivered : StreamId → List UInt8} (h : c.Fed delivered)
    (hu : Uniform split sent) (id : StreamId) {task : Task MuxError α} (ht : ReadsOnly task)
    (hpipe : (c.driveOperation id task).2.2.takenBytes <+: flat sent)
    (hok : ∀ e, (c.driveOperation id task).1 ≠ .ready (.error e)) :
    ∃ more, (c.driveOperation id task).2.2.Fed (Function.update delivered id (delivered id ++ more)) ∧
      (∀ a, (c.driveOperation id task).1 = .ready (.ok a) →
        ∀ rest, consume task (more ++ rest) = some (.ok a, rest)) ∧
      ((c.driveOperation id task).1 = .pending → ReadsOnly (c.driveOperation id task).2.1 ∧
        ∀ rest, consume (c.driveOperation id task).2.1 rest = consume task (more ++ rest)) := by
  obtain ⟨out, hout⟩ := h.outbox
  have hfed := StreamEnd.poll_fed MuxError.io hu task ht ⟨id, c⟩ h
  have hkept := StreamEnd.poll_past MuxError.io (n := 0) (writes_of_readsOnly ht) ⟨id, c⟩ hout.past
  unfold Connection.driveOperation at hpipe hok ⊢
  generalize task.poll MuxError.io (StreamEnd.mk id c) = r at hfed hkept hpipe hok ⊢
  obtain ⟨result, task', s⟩ := r
  dsimp only at hfed hkept
  have hnow : s.connection.Past s.connection.takenBytes := ⟨hkept.io, hkept.sound, List.prefix_refl _⟩
  have hdriven (hfailed : ∀ e, s.connection.pollDrive.1 ≠ .ready (.error e)) (hresult : ∀ e, result ≠ .ready (.error e))
      (htaken : s.connection.pollDrive.2.takenBytes <+: flat sent) :
      ∃ more, s.connection.pollDrive.2.Fed (Function.update delivered id (delivered id ++ more)) ∧
        (∀ a, result = .ready (.ok a) → ∀ rest, consume task (more ++ rest) = some (.ok a, rest)) ∧
        (result = .pending → ReadsOnly task' ∧ ∀ rest, consume task' rest = consume task (more ++ rest)) := by
    obtain ⟨more, hmore, hrest⟩ := hfed (hnow.drive.taken.trans htaken) hresult
    exact ⟨more, hmore.drive hfailed, hrest⟩
  rcases result with (e | a) | _
  · exact absurd rfl (hok e)
  all_goals
    dsimp only at hpipe hok ⊢
    generalize s.connection.pollDrive = d at hdriven hpipe hok ⊢
    rcases d with ⟨(e | _) | _, d⟩
    · exact absurd rfl (hok _)
    · exact hdriven (by simp) (by simp) hpipe
    · exact hdriven (by simp) (by simp) hpipe

end Connection
end Snolc.Mux
