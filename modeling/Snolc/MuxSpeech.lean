import Snolc.MuxTaskWrites
import Snolc.MuxTraffic

set_option autoImplicit false

namespace Snolc.Mux
open PollIo SlotTable MuxFrame AsyncTask ByteFeed

namespace Connection
variable {T : Type} [TracedIo T] {touched : StreamId → Prop} {c d : Connection T} {sent sent' : List Frame}

/-- Some calls later: only the touched streams sent data or owe their writers something else. -/
structure Carry (touched : StreamId → Prop) (c : Connection T) (sent : List Frame) (d : Connection T)
    (sent' : List Frame) : Prop where
  outbox : d.Outbox sent'
  ledger : d.Ledger
  uniform : Uniform d.splitSendSize sent'
  split : d.splitSendSize = c.splitSendSize
  arrivals : Arrivals c d
  data : ∀ id, ¬ touched id → dataIn id sent' = dataIn id sent
  owed : ∀ id, ¬ touched id → (c.stream id).isSome ∨ c.outstanding id = 0 → d.outstanding id = c.outstanding id

theorem Carry.refl (hout : c.Outbox sent) (hl : c.Ledger) (hu : Uniform c.splitSendSize sent) :
    Carry touched c sent c sent :=
  ⟨hout, hl, hu, rfl, .refl c, fun _ _ => rfl, fun _ _ _ => rfl⟩

theorem Carry.trans {b : Connection T} {sent₁ : List Frame} (h : Carry touched c sent b sent₁)
    (h' : Carry touched b sent₁ d sent') : Carry touched c sent d sent' where
  outbox := h'.outbox
  ledger := h'.ledger
  uniform := h'.uniform
  split := h'.split.trans h.split
  arrivals := h.arrivals.trans h'.arrivals
  data id hid := (h'.data id hid).trans (h.data id hid)
  owed id hid hs := by
    have hmid := h.owed id hid hs
    rw [← hmid]
    refine h'.owed id hid ?_
    rcases hs with hs | hz
    · exact .inl (h.arrivals.kept hs)
    · exact .inr (hmid.trans hz)

theorem Carry.mono {wider : StreamId → Prop} (h : Carry touched c sent d sent') (hw : ∀ id, touched id → wider id) :
    Carry wider c sent d sent' :=
  ⟨h.outbox, h.ledger, h.uniform, h.split, h.arrivals, fun id hid => h.data id fun ht => hid (hw id ht),
    fun id hid => h.owed id fun ht => hid (hw id ht)⟩

abbrev Quiet (c : Connection T) (sent : List Frame) (d : Connection T) (sent' : List Frame) : Prop :=
  Carry (fun _ => False) c sent d sent'

theorem Quiet.carry (h : Quiet c sent d sent') : Carry touched c sent d sent' := h.mono fun _ hf => hf.elim

variable (hout : c.Outbox sent) (hl : c.Ledger) (hu : Uniform c.splitSendSize sent)
include hout hl hu

theorem DriveStep.quiet (h : DriveStep c d) (harr : Arrivals c d) : ∃ sent', Quiet c sent d sent' := by
  obtain ⟨sent', hout', hshift, hb⟩ := h sent hout
  refine ⟨sent', hout', hb.ledger hl, ?_, hb.split, harr, fun id _ => hshift.dataIn id,
    fun id _ hs => hb.outstanding hl id hs⟩
  rw [hb.split]
  exact hu.shifted hl.kinds hshift

theorem pollControl_quiet {kind : FrameKind} (hk : kind ≠ .frameData) (stream : StreamId) :
    ∃ sent', Quiet c sent (c.pollControl kind stream).2 sent' := by
  obtain ⟨hstep, hframe⟩ := pollControl_spec hout hk stream
  have hb := hframe.balanced
  have harr := pollControl_arrivals c kind stream
  rcases hstep with ⟨hout', -⟩ | ⟨-, hout', -⟩
  · exact ⟨sent, hout', hb.ledger hl, by rw [hb.split]; exact hu, hb.split, harr, fun _ _ => rfl,
      fun id _ hs => hb.outstanding hl id hs⟩
  · exact ⟨_, hout', hb.ledger hl, by rw [hb.split]; exact hu.control hk stream, hb.split, harr,
      fun id _ => dataIn_control id stream sent kind, fun id _ hs => hb.outstanding hl id hs⟩

theorem drop_quiet (stream : MuxStream) : Quiet c sent (stream.drop c) sent := by
  unfold MuxStream.drop
  split
  · exact .refl hout hl hu
  · refine ⟨⟨hout.io, hout.wire, hout.pending⟩, ⟨fun q hq => ?_, hl.single⟩, hu, rfl, .of_fields rfl rfl rfl,
      fun _ _ => rfl, fun _ _ _ => rfl⟩
    rcases List.mem_append.mp hq with hq | hq
    · exact hl.kinds q hq
    · rw [List.mem_singleton.mp hq]
      simp

def Covered (c : Connection T) (sent : List Frame) (id : StreamId) : Prop := c.outstanding id ≤ (dataIn id sent).length

/-- A write puts bytes behind the data of its stream. What was not accepted of its input and is not owed
    to its writer is what is missing on the stream. -/
theorem pollData_carry {id : StreamId} (hs : (c.stream id).isSome) {input : List UInt8} (hne : input ≠ [])
    (hlen : min input.length c.splitSendSize < 2 ^ 32) (hcover : Covered c sent id) :
    ∃ sent', Carry (· = id) c sent (c.pollData id input).2 sent' ∧ dataIn id sent <+: dataIn id sent' ∧
      Covered (c.pollData id input).2 sent' id ∧
      dataIn id sent' ++ (input.drop (writeCount (c.pollData id input).1)).drop
        ((c.pollData id input).2.outstanding id) = dataIn id sent ++ input.drop (c.outstanding id) := by
  by_cases hclosed : c.closed
  · have hpoll : c.pollData id input = (.ready (.error ⟨.brokenPipe, ""⟩), c) := by
      rw [pollData, if_pos hclosed]
    rw [hpoll]
    exact ⟨sent, .refl hout hl hu, List.prefix_refl _, hcover, by rw [writeCount_error, List.drop_zero]⟩
  · obtain ⟨sent', hshift, hstep, hkept⟩ := pollData_spec hout hl (by simpa using hclosed) id hs hne
    have huniform := hu.shifted hl.kinds hshift
    have hsplit := hkept.inbound.split
    have harr := pollData_arrivals c id input
    have hdata := hshift.dataIn
    rcases hstep with ⟨hres, hzero, hout'⟩ | ⟨hres, hsame, hout'⟩ | ⟨hfree, hout', hres⟩
    · -- an earlier frame is reported
      refine ⟨sent', ⟨hout', hkept.ledger, by rw [hsplit]; exact huniform, hsplit, harr, fun other _ => hdata other,
        hkept.others⟩, by simp [hdata], by simp [Covered, hzero], ?_⟩
      rw [hres, hzero, writeCount_ok, List.drop_zero, hdata]
    · refine ⟨sent', ⟨hout', hkept.ledger, by rw [hsplit]; exact huniform, hsplit, harr, fun other _ => hdata other,
        hkept.others⟩, by simp [hdata], ?_, ?_⟩
      · rw [Covered, hsame, hdata]
        exact hcover
      · rw [writeCount_unanswered hres, List.drop_zero, hsame, hdata]
    · -- the front of the input becomes a frame
      have hframe : Uniform c.splitSendSize (sent' ++ [⟨.frameData, id, input.take c.splitSendSize⟩]) := by
        intro f hf
        rcases List.mem_append.mp hf with hf | hf
        · exact huniform f hf
        · rw [List.mem_singleton.mp hf]
          refine ⟨Frame.data_regular id (by rw [List.length_take, Nat.min_comm]; exact hlen), fun _ => ?_⟩
          simp [List.take_eq_nil_iff, hne]
      have hown : dataIn id (sent' ++ [⟨.frameData, id, input.take c.splitSendSize⟩]) =
          dataIn id sent ++ input.take c.splitSendSize := by
        rw [dataIn_snoc, if_pos ⟨rfl, rfl⟩, hdata]
      have hcut : input.drop (min input.length c.splitSendSize) = input.drop c.splitSendSize := by
        rw [List.drop_eq_drop_iff]
        omega
      have helse (other : StreamId) (he : other ≠ id) :
          dataIn other (sent' ++ [⟨.frameData, id, input.take c.splitSendSize⟩]) = dataIn other sent := by
        rw [dataIn_snoc, if_neg (fun hx => he hx.2.symm), List.append_nil]
        exact hdata other
      refine ⟨_, ⟨hout', hkept.ledger, by rw [hsplit]; exact hframe, hsplit, harr, helse, hkept.others⟩, ?_, ?_, ?_⟩
      · rw [hown]
        exact List.prefix_append _ _
      · rw [Covered, hown, List.length_append, List.length_take]
        rcases hres with ⟨-, hzero⟩ | ⟨-, howed⟩ <;> omega
      · rw [hown, hfree, List.drop_zero, List.append_assoc]
        rcases hres with ⟨hok, hzero⟩ | ⟨hno, howed⟩
        · rw [hok, hzero, writeCount_ok, List.drop_zero, hcut, List.take_append_drop]
        · rw [writeCount_unanswered hno, List.drop_zero, howed, hcut, List.take_append_drop]

end Connection

inductive Speaks {α : Type} : Task MuxError α → List UInt8 → Prop where
  | write (rest : List UInt8) (next : Task MuxError α) (h : ReadsOnly next) :
      Speaks (.writeAll rest (.flush next)) rest
  | flush (next : Task MuxError α) (h : ReadsOnly next) : Speaks (.flush next) []
  | listen (task : Task MuxError α) (h : ReadsOnly task) : Speaks task []

def listening {ε α : Type} : Task ε α → Task ε α
  | .writeAll _ next => listening next
  | .flush next => listening next
  | task => task

theorem listening_of_readsOnly {ε α : Type} {task : Task ε α} (h : ReadsOnly task) : listening task = task := by
  cases task with
  | done result => rfl
  | writeAll bytes next => exact h.elim
  | flush next => exact h.elim
  | readExact missing got next => rfl

namespace StreamEnd
variable {T : Type} [TracedIo T] {α : Type} {c : Connection T} {sent peer : List Frame} {id : StreamId}
  {bytes rest : List UInt8} {delivered : StreamId → List UInt8} {s : StreamEnd T} {split : ℕ}

/-- A stream whose holder has to say `bytes`, all but `rest` of it accepted, some calls behind the state `c`
of its connection. -/
structure Told (c : Connection T) (sent : List Frame) (id : StreamId) (bytes rest : List UInt8) (s : StreamEnd T) :
    Prop where
  same : s.id = id
  books : ∃ sent', Connection.Carry (· = id) c sent s.connection sent' ∧ s.connection.Covered sent' id ∧
    dataIn id sent' ++ rest.drop (s.connection.outstanding id) = bytes

theorem Told.step (h : Told c sent id bytes rest s) (hs : (c.stream id).isSome) {d : Connection T}
    (hd : Connection.DriveStep s.connection d) (harr : Connection.Arrivals s.connection d) :
    Told c sent id bytes rest { s with connection := d } := by
  obtain ⟨rfl, sent', hcarry, hcover, hdata⟩ := h
  obtain ⟨sent'', hquiet⟩ := hd.quiet hcarry.outbox hcarry.ledger hcarry.uniform harr
  refine ⟨rfl, sent'', hcarry.trans hquiet.carry, ?_⟩
  rw [Connection.Covered, hquiet.data s.id not_false, hquiet.owed s.id not_false (.inl (hcarry.arrivals.kept hs))]
  exact ⟨hcover, hdata⟩

theorem Told.flush (h : Told c sent id bytes rest s) (hs : (c.stream id).isSome) :
    Told c sent id bytes rest (AsyncIo.pollFlush s).2 :=
  h.step hs (Connection.pollFlushWrite_step _) (Connection.pollFlushWrite_arrivals _)

theorem Told.write (h : Told c sent id bytes rest s) (hs : (c.stream id).isSome) (hne : rest ≠ [])
    (hlen : rest.length < 2 ^ 32) :
    Told c sent id bytes (rest.drop (writeCount (AsyncIo.pollWrite s rest).1)) (AsyncIo.pollWrite s rest).2 := by
  obtain ⟨rfl, sent', hcarry, hcover, hdata⟩ := h
  obtain ⟨sent'', hwrite, -, hcover', hrest⟩ := Connection.pollData_carry hcarry.outbox hcarry.ledger hcarry.uniform
    (hcarry.arrivals.kept hs) hne (Nat.lt_of_le_of_lt (Nat.min_le_left _ _) hlen) hcover
  exact ⟨rfl, sent'', hcarry.trans hwrite, hcover', hrest.trans hdata⟩

theorem Told.drain (fuel : ℕ) (h : Told c sent id bytes rest s) (hs : (c.stream id).isSome) (hne : rest ≠ [])
    (hlen : rest.length < 2 ^ 32) :
    Told c sent id bytes (rest.drop (PollIo.drain fuel s rest).2.2) (PollIo.drain fuel s rest).2.1 := by
  refine (PollIo.drain_moves (fun s rest => Told c sent id bytes rest s ∧ rest.length < 2 ^ 32)
    (fun s rest hne h => ⟨h.1.write hs hne h.2, ?_⟩) fuel s rest hne ⟨h, hlen⟩).1
  rw [List.length_drop]
  exact Nat.lt_of_le_of_lt (Nat.sub_le _ _) h.2

theorem Told.reads {task : Task MuxError α} (ht : ReadsOnly task) (h : Told c sent id bytes rest s)
    (hs : (c.stream id).isSome) (lift : IoError → MuxError) :
    Told c sent id bytes rest (task.poll lift s).2.2 := by
  refine (Task.poll_invariant lift (Told c sent id bytes rest) 0 ?_ (fun s h => h.flush hs) ?_ task s
    (writes_of_readsOnly ht) h).1
  · intro s input hne hlen
    exact absurd (List.length_eq_zero_iff.mp (Nat.le_zero.mp hlen)) hne
  · exact fun s room h => h.step hs (Connection.pollRead_step _ _ _) (Connection.pollRead_arrivals _ _ _)

theorem Told.outbox (h : Told c sent id bytes rest s) : ∃ sent', s.connection.Outbox sent' :=
  h.books.elim fun sent' h => ⟨sent', h.1.outbox⟩

theorem drain_fed (fuel : ℕ) (h : Told c sent id bytes rest s) (hs : (c.stream id).isSome) (hne : rest ≠ [])
    (hlen : rest.length < 2 ^ 32) (hfed : s.connection.Fed delivered) :
    (PollIo.drain fuel s rest).2.1.connection.Fed delivered := by
  obtain ⟨sent', hout⟩ := (h.drain fuel hs hne hlen).outbox
  obtain ⟨before, hbefore⟩ := h.outbox
  have hsends := drain_invariant (fun s' : StreamEnd T => Connection.Sends s.connection s'.connection) rest.length
    (fun s' input _ _ hs' => hs'.trans (Connection.pollData_sends hs'.sound s'.id input)) fuel s rest hne le_rfl
    (.refl hbefore.sound)
  exact hfed.same hsends.inbound hout

/-- A poll of a task that still had to say `rest`: it said some of that, the stream was handed `more`, and the task
is done with `more` or waits for what comes behind it. -/
structure Polled (c : Connection T) (sent : List Frame) (id : StreamId) (bytes : List UInt8)
    (delivered : StreamId → List UInt8) (task : Task MuxError α)
    (r : Poll (Except MuxError α) × Task MuxError α × StreamEnd T) (rest more : List UInt8) : Prop where
  short : rest.length < 2 ^ 32
  told : Told c sent id bytes rest r.2.2
  fed : r.2.2.connection.Fed (Function.update delivered id (delivered id ++ more))
  ready : ∀ a, r.1 = .ready (.ok a) → rest = [] ∧
    ∀ tail, consume (listening task) (more ++ tail) = some (.ok a, tail)
  pending : r.1 = .pending → Speaks r.2.1 rest ∧
    ∀ tail, consume (listening r.2.1) tail = consume (listening task) (more ++ tail)

variable {task : Task MuxError α} {lift : IoError → MuxError}

theorem Polled.waits {r : Poll (Except MuxError α) × Task MuxError α × StreamEnd T} (hr : r.1 = .pending)
    (hlen : rest.length < 2 ^ 32) (h : Told c sent id bytes rest r.2.2) (hfed : r.2.2.connection.Fed delivered)
    (hs : Speaks r.2.1 rest) (hsame : listening r.2.1 = listening task) :
    Polled c sent id bytes delivered task r rest [] where
  short := hlen
  told := h
  fed := by simpa using hfed
  ready a ha := by
    rw [hr] at ha
    cases ha
  pending _ := ⟨hs, fun tail => by rw [hsame, List.nil_append]⟩

theorem poll_listen (hu : Uniform split peer) (ht : ReadsOnly task) (h : Told c sent id bytes [] s)
    (hs : (c.stream id).isSome) (hfed : s.connection.Fed delivered)
    (hpipe : (task.poll lift s).2.2.connection.takenBytes <+: flat peer)
    (hok : ∀ e, (task.poll lift s).1 ≠ .ready (.error (lift e))) :
    ∃ more, Polled c sent id bytes delivered task (task.poll lift s) [] more := by
  obtain ⟨more, hmore, hready, hpending⟩ := poll_heard lift hu task ht s hfed hpipe hok
  have hlisten := listening_of_readsOnly ht
  rw [h.same] at hmore
  refine ⟨more, by simp, h.reads ht hs lift, hmore, fun a ha => ⟨rfl, ?_⟩, fun hp => ?_⟩
  · rw [hlisten]
    exact hready a ha
  · obtain ⟨hreads, hrest⟩ := hpending hp
    rw [hlisten, listening_of_readsOnly hreads]
    exact ⟨.listen _ hreads, hrest⟩

theorem poll_flush (hu : Uniform split peer) (ht : ReadsOnly task) (h : Told c sent id bytes [] s)
    (hs : (c.stream id).isSome) (hfed : s.connection.Fed delivered)
    (hpipe : ((Task.flush task).poll lift s).2.2.connection.takenBytes <+: flat peer)
    (hok : ∀ e, ((Task.flush task).poll lift s).1 ≠ .ready (.error (lift e))) :
    ∃ more, Polled c sent id bytes delivered (.flush task) ((Task.flush task).poll lift s) [] more := by
  obtain ⟨before, hbefore⟩ := h.outbox
  have htold := h.flush hs
  obtain ⟨after, hafter⟩ := htold.outbox
  have hkept : (AsyncIo.pollFlush s).2.connection.Fed delivered :=
    hfed.same (Connection.pollFlushWrite_sends hbefore.sound).inbound hafter
  rw [Task.poll] at hpipe hok ⊢
  split at hpipe <;> rename_i heq <;> rw [heq] at htold hkept hok
  · obtain ⟨more, hmore⟩ := poll_listen hu ht htold hs hkept hpipe hok
    exact ⟨more, hmore.short, hmore.told, hmore.fed, hmore.ready, hmore.pending⟩
  · exact absurd rfl (hok _)
  · exact ⟨[], .waits rfl (by simp) htold hkept (.flush task ht) rfl⟩

theorem poll_speaks (hu : Uniform split peer) (ht : Speaks task rest) (h : Told c sent id bytes rest s)
    (hs : (c.stream id).isSome) (hlen : rest.length < 2 ^ 32) (hfed : s.connection.Fed delivered)
    (hpipe : (task.poll lift s).2.2.connection.takenBytes <+: flat peer)
    (hok : ∀ e, (task.poll lift s).1 ≠ .ready (.error (lift e))) :
    ∃ rest' more, Polled c sent id bytes delivered task (task.poll lift s) rest' more := by
  cases ht with
  | listen _ ht => exact ⟨[], poll_listen hu ht h hs hfed hpipe hok⟩
  | flush next ht => exact ⟨[], poll_flush hu ht h hs hfed hpipe hok⟩
  | write _ next ht =>
    rw [Task.poll] at hpipe hok ⊢
    by_cases hne : rest = []
    · rw [if_pos hne] at hpipe hok ⊢
      obtain ⟨more, hmore⟩ := poll_flush hu ht (hne ▸ h) hs hfed hpipe hok
      exact ⟨[], more, hmore.short, hmore.told, hmore.fed, hmore.ready, hmore.pending⟩
    · rw [if_neg hne] at hpipe hok ⊢
      have htold := h.drain (rest.length + 1) hs hne hlen
      have hkept := drain_fed (rest.length + 1) h hs hne hlen hfed
      have hall := drain_ok (rest.length + 1) s rest
      split at hpipe <;> rename_i heq <;> rw [heq] at htold hkept hall hok
      · rw [List.drop_eq_nil_of_le (hall rfl)] at htold
        obtain ⟨more, hmore⟩ := poll_flush hu ht htold hs hkept hpipe hok
        exact ⟨[], more, hmore.short, hmore.told, hmore.fed, hmore.ready, hmore.pending⟩
      · exact absurd rfl (hok _)
      · refine ⟨_, [], .waits rfl ?_ htold hkept (.write _ next ht) rfl⟩
        rw [List.length_drop]
        omega

end StreamEnd
end Snolc.Mux
