import Snolc.MuxFaithfulReads
import Snolc.MuxTaskReads

set_option autoImplicit false

namespace Snolc.Mux
open PollIo SlotTable MuxFrame AsyncTask

theorem Uniform.control {split : ℕ} {sent : List Frame} (h : Uniform split sent) {kind : FrameKind}
    (hk : kind ≠ .frameData) (id : StreamId) : Uniform split (sent ++ [Frame.control kind id]) := by
  intro f hf
  rcases List.mem_append.mp hf with hf | hf
  · exact h f hf
  · rw [List.mem_singleton.mp hf]
    exact ⟨Frame.control_regular kind id, fun hx => absurd hx hk⟩

theorem Uniform.shifted {split : ℕ} {sent sent' : List Frame} {controls controls' : List (FrameKind × StreamId)}
    (h : Uniform split sent) (hkinds : ∀ q ∈ controls, q.1 ≠ .frameData)
    (hs : Shifted sent controls sent' controls') : Uniform split sent' := by
  cases hs with
  | same => exact h
  | pop kind stream rest hc => exact h.control (hkinds (kind, stream) (by simp [hc])) stream

namespace Connection
variable {T : Type} [TracedIo T]

structure Carries (c : Connection T) (message : List UInt8) (sent : List Frame) : Prop where
  outbox : c.Outbox sent
  ledger : c.Ledger
  uniform : Uniform c.splitSendSize sent
  front : ∀ id, dataIn id sent <+: message

/-- The message of a stream, of which `rest` was not accepted yet. -/
structure Posts (c : Connection T) (id : StreamId) (message rest : List UInt8) (sent : List Frame) : Prop where
  outbox : c.Outbox sent
  ledger : c.Ledger
  uniform : Uniform c.splitSendSize sent
  known : (c.stream id).isSome
  data : dataIn id sent ++ rest.drop (c.outstanding id) = message
  others : ∀ other, other ≠ id → dataIn other sent = []

variable {c d : Connection T} {id : StreamId} {message rest : List UInt8} {sent : List Frame}

theorem Posts.carries (h : c.Posts id message rest sent) : c.Carries message sent where
  outbox := h.outbox
  ledger := h.ledger
  uniform := h.uniform
  front other := by
    by_cases he : other = id
    · rw [he]
      exact ⟨_, h.data⟩
    · rw [h.others other he]
      exact List.nil_prefix

theorem Carries.step (h : c.Carries message sent) (hs : DriveStep c d) : ∃ sent', d.Carries message sent' := by
  obtain ⟨sent', hout, hshift, hb⟩ := hs sent h.outbox
  refine ⟨sent', hout, hb.ledger h.ledger, ?_, fun other => ?_⟩
  · rw [hb.split]
    exact h.uniform.shifted h.ledger.kinds hshift
  · rw [hshift.dataIn]
    exact h.front other

theorem Carries.drop (h : c.Carries message sent) (stream : MuxStream) : (stream.drop c).Carries message sent := by
  unfold MuxStream.drop
  split
  · exact h
  · refine ⟨⟨h.outbox.io, h.outbox.wire, h.outbox.pending⟩, ⟨fun q hq => ?_, h.ledger.single⟩, h.uniform, h.front⟩
    rcases List.mem_append.mp hq with hq | hq
    · exact h.ledger.kinds q hq
    · rw [List.mem_singleton.mp hq]
      simp

theorem Posts.step (h : c.Posts id message rest sent) (hs : DriveStep c d) :
    ∃ sent', d.Posts id message rest sent' := by
  obtain ⟨sent', hout, hshift, hb⟩ := hs sent h.outbox
  refine ⟨sent', hout, hb.ledger h.ledger, ?_, hb.kept id h.known, ?_, fun other he => ?_⟩
  · rw [hb.split]
    exact h.uniform.shifted h.ledger.kinds hshift
  · rw [hshift.dataIn, hb.books h.ledger id h.known]
    exact h.data
  · rw [hshift.dataIn]
    exact h.others other he

theorem Posts.control (h : c.Posts id message rest sent) {kind : FrameKind} (hk : kind ≠ .frameData)
    (stream : StreamId) : ∃ sent', (c.pollControl kind stream).2.Posts id message rest sent' := by
  obtain ⟨hstep, hframe⟩ := pollControl_spec h.outbox hk stream
  have hledger := hframe.balanced.ledger h.ledger
  have hknown := hframe.balanced.kept id h.known
  have hbooks := hframe.balanced.books h.ledger id h.known
  have hsplit := hframe.balanced.split
  rcases hstep with ⟨hout, -⟩ | ⟨-, hout, -⟩
  · exact ⟨sent, hout, hledger, by rw [hsplit]; exact h.uniform, hknown, by rw [hbooks]; exact h.data, h.others⟩
  · refine ⟨_, hout, hledger, by rw [hsplit]; exact h.uniform.control hk stream, hknown, ?_, fun other he => ?_⟩
    · rw [dataIn_control, hbooks]
      exact h.data
    · rw [dataIn_control]
      exact h.others other he

theorem Posts.write (h : c.Posts id message rest sent) (hne : rest ≠ []) (hlen : rest.length < 2 ^ 32) :
    ∃ sent', (c.pollData id rest).2.Posts id message (rest.drop (writeCount (c.pollData id rest).1)) sent' := by
  by_cases hclosed : c.closed
  · have hpoll : c.pollData id rest = (.ready (.error ⟨.brokenPipe, ""⟩), c) := by
      rw [pollData, if_pos hclosed]
    rw [hpoll]
    exact ⟨sent, h⟩
  · obtain ⟨sent', hshift, hstep, hkept⟩ := pollData_spec h.outbox h.ledger (by simpa using hclosed) id h.known hne
    have huniform := h.uniform.shifted h.ledger.kinds hshift
    have hknown : ((c.pollData id rest).2.stream id).isSome := by
      rw [hkept.inbound.isSome]
      exact h.known
    have hdata := h.data
    have hothers := h.others
    rw [← hshift.dataIn] at hdata
    simp only [← hshift.dataIn] at hothers
    have hsplit := hkept.inbound.split
    rcases hstep with ⟨hres, hzero, hout⟩ | ⟨hres, hsame, hout⟩ | ⟨hfree, hout, hres⟩
    · -- an earlier frame is reported
      refine ⟨sent', hout, hkept.ledger, by rw [hsplit]; exact huniform, hknown, ?_, hothers⟩
      rw [hres, hzero, writeCount_ok, List.drop_zero]
      exact hdata
    · refine ⟨sent', hout, hkept.ledger, by rw [hsplit]; exact huniform, hknown, ?_, hothers⟩
      rw [writeCount_unanswered hres, List.drop_zero, hsame]
      exact hdata
    · -- the front of the rest becomes a frame
      have hframe : Uniform c.splitSendSize (sent' ++ [⟨.frameData, id, rest.take c.splitSendSize⟩]) := by
        intro f hf
        rcases List.mem_append.mp hf with hf | hf
        · exact huniform f hf
        · rw [List.mem_singleton.mp hf]
          refine ⟨Frame.data_regular id (by rw [List.length_take]; omega), fun _ => ?_⟩
          simp [List.take_eq_nil_iff, hne]
      have hcut : dataIn id (sent' ++ [⟨.frameData, id, rest.take c.splitSendSize⟩]) ++
          rest.drop (min rest.length c.splitSendSize) = message := by
        have hdrop : rest.drop (min rest.length c.splitSendSize) = rest.drop c.splitSendSize := by
          rw [List.drop_eq_drop_iff]
          omega
        rw [hfree, List.drop_zero] at hdata
        rw [dataIn_snoc, if_pos ⟨rfl, rfl⟩, hdrop, List.append_assoc, List.take_append_drop]
        exact hdata
      have helse (other : StreamId) (he : other ≠ id) :
          dataIn other (sent' ++ [⟨.frameData, id, rest.take c.splitSendSize⟩]) = [] := by
        rw [dataIn_snoc, if_neg (fun hx => he hx.2.symm), List.append_nil]
        exact hothers other he
      refine ⟨_, hout, hkept.ledger, by rw [hsplit]; exact hframe, hknown, ?_, helse⟩
      rcases hres with ⟨hok, hzero⟩ | ⟨hno, howed⟩
      · rw [hok, hzero, writeCount_ok, List.drop_zero]
        exact hcut
      · rw [writeCount_unanswered hno, List.drop_zero, howed]
        exact hcut

end Connection

/-- What is left of a task that writes a frame and flushes it, with the bytes not accepted yet. -/
inductive Posting : Task MuxError Unit → List UInt8 → Prop where
  | write (rest : List UInt8) : Posting (.writeAll rest (.flush (.done (.ok ())))) rest
  | flush : Posting (.flush (.done (.ok ()))) []

namespace StreamEnd
variable {T : Type} [TracedIo T] {message rest : List UInt8} {delivered : StreamId → List UInt8}

structure Sending (s : StreamEnd T) (id : StreamId) (message rest : List UInt8)
    (delivered : StreamId → List UInt8) : Prop where
  same : s.id = id
  posts : ∃ sent, s.connection.Posts id message rest sent
  fed : s.connection.Fed delivered

variable {s : StreamEnd T} {id : StreamId}

theorem Sending.write (h : s.Sending id message rest delivered) (hne : rest ≠ []) (hlen : rest.length < 2 ^ 32) :
    (AsyncIo.pollWrite s rest).2.Sending id message (rest.drop (writeCount (AsyncIo.pollWrite s rest).1))
      delivered := by
  obtain ⟨rfl, ⟨sent, hposts⟩, hfed⟩ := h
  obtain ⟨sent', hposts'⟩ := hposts.write hne hlen
  have hsends := Connection.pollData_sends hposts.outbox.sound s.id rest
  exact ⟨rfl, ⟨sent', hposts'⟩, hfed.same hsends.inbound hposts'.outbox⟩

theorem Sending.flush (h : s.Sending id message rest delivered) :
    (AsyncIo.pollFlush s).2.Sending id message rest delivered := by
  obtain ⟨rfl, ⟨sent, hposts⟩, hfed⟩ := h
  obtain ⟨sent', hposts'⟩ := hposts.step (Connection.pollFlushWrite_step s.connection)
  have hsends := Connection.pollFlushWrite_sends hposts.outbox.sound
  exact ⟨rfl, ⟨sent', hposts'⟩, hfed.same hsends.inbound hposts'.outbox⟩

theorem Sending.drain (fuel : ℕ) (h : s.Sending id message rest delivered) (hne : rest ≠ [])
    (hlen : rest.length < 2 ^ 32) :
    (PollIo.drain fuel s rest).2.1.Sending id message (rest.drop (PollIo.drain fuel s rest).2.2) delivered := by
  induction fuel generalizing s rest with
  | zero => simpa [PollIo.drain] using h
  | succ fuel ih =>
    have hwrite := h.write hne hlen
    rw [PollIo.drain]
    split <;> rename_i heq <;> rw [heq] at hwrite
    · exact hwrite
    · rename_i count s' hcount
      split
      · exact hwrite
      · rename_i hlt
        have hrest := ih hwrite (by simpa using hlt) (by rw [writeCount_ok, List.length_drop]; omega)
        rw [writeCount_ok, List.drop_drop] at hrest
        exact hrest
    · exact hwrite
    · exact hwrite

variable (lift : IoError → MuxError)

theorem Sending.poll {task : Task MuxError Unit} (ht : Posting task rest) (h : s.Sending id message rest delivered)
    (hlen : rest.length < 2 ^ 32) :
    ∃ rest', rest'.length < 2 ^ 32 ∧ (task.poll lift s).2.2.Sending id message rest' delivered ∧
      ((task.poll lift s).1 = .pending → Posting (task.poll lift s).2.1 rest') := by
  have hflush {s : StreamEnd T} {rest : List UInt8} (h : s.Sending id message rest delivered) :
      ((Task.flush (.done (.ok ())) : Task MuxError Unit).poll lift s).2.2.Sending id message rest delivered := by
    have hf := h.flush
    rw [Task.poll]
    generalize AsyncIo.pollFlush s = r at hf ⊢
    rcases r with ⟨(e | _) | _, s'⟩ <;> exact hf
  have hstays {s : StreamEnd T} (hp : ((Task.flush (.done (.ok ())) : Task MuxError Unit).poll lift s).1 = .pending) :
      Posting ((Task.flush (.done (.ok ())) : Task MuxError Unit).poll lift s).2.1 [] := by
    rw [Task.poll] at hp ⊢
    generalize AsyncIo.pollFlush s = r at hp ⊢
    rcases r with ⟨(e | _) | _, s'⟩
    · cases hp
    · cases hp
    · exact .flush
  cases ht with
  | flush => exact ⟨[], hlen, hflush h, hstays⟩
  | write =>
    rw [Task.poll]
    split
    · rename_i hnil
      subst hnil
      exact ⟨[], hlen, hflush h, hstays⟩
    · rename_i hne
      have hd := h.drain (rest.length + 1) hne hlen
      have hall := drain_ok (rest.length + 1) s rest
      have hshort (n : ℕ) : (rest.drop n).length < 2 ^ 32 := by
        rw [List.length_drop]
        omega
      split <;> rename_i heq <;> rw [heq] at hd hall
      · rw [List.drop_eq_nil_of_le (hall rfl)] at hd
        exact ⟨[], Nat.two_pow_pos 32, hflush hd, hstays⟩
      · exact ⟨_, hshort _, hd, by simp⟩
      · exact ⟨_, hshort _, hd, fun _ => .write _⟩

end StreamEnd

namespace Connection
variable {T : Type} [TracedIo T] {message rest : List UInt8} {delivered : StreamId → List UInt8}

/-- The same while the connection is driven. Where something fails, the frames are still those
    of the message. -/
theorem Posts.driveOperation {c : Connection T} {id : StreamId} {sent : List Frame} (h : c.Posts id message rest sent)
    (hfed : c.Fed delivered) {task : Task MuxError Unit} (ht : Posting task rest) (hlen : rest.length < 2 ^ 32) :
    ∃ rest' sent', rest'.length < 2 ^ 32 ∧ (c.driveOperation id task).2.2.Posts id message rest' sent' ∧
      ((∀ e, (c.driveOperation id task).1 ≠ .ready (.error e)) → (c.driveOperation id task).2.2.Fed delivered) ∧
      ((c.driveOperation id task).1 = .pending → Posting (c.driveOperation id task).2.1 rest') := by
  have hpoll := StreamEnd.Sending.poll MuxError.io ht (s := ⟨id, c⟩) ⟨rfl, ⟨sent, h⟩, hfed⟩ hlen
  unfold Connection.driveOperation
  generalize task.poll MuxError.io (StreamEnd.mk id c) = r at hpoll ⊢
  obtain ⟨result, task', s⟩ := r
  obtain ⟨rest', hshort, ⟨rfl, ⟨sent', hposts⟩, hfed'⟩, hwaits⟩ := hpoll
  obtain ⟨sent'', hdriven⟩ := hposts.step (pollDrive_step s.connection)
  have hdrive := hfed'.drive
  dsimp only at hwaits hposts
  rcases result with (e | a) | _
  · exact ⟨rest', sent', hshort, hposts, fun hok => absurd rfl (hok e), by simp⟩
  all_goals
    dsimp only
    generalize s.connection.pollDrive = d at hdriven hdrive ⊢
    rcases d with ⟨(e | _) | _, d⟩
    · exact ⟨rest', sent'', hshort, hdriven, fun hok => absurd rfl (hok _), by simp⟩
    · exact ⟨rest', sent'', hshort, hdriven, fun _ => hdrive (by simp), hwaits⟩
    · exact ⟨rest', sent'', hshort, hdriven, fun _ => hdrive (by simp), hwaits⟩

end Connection
end Snolc.Mux
