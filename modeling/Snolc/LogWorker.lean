import Mathlib.Algebra.Order.BigOperators.Group.List
import Mathlib.Algebra.Order.Ring.Nat
import Snolc.LogRecord
import Snolc.LossyQueue
import Snolc.PartialPosts

set_option autoImplicit false

/-!
# The threads of the logger

Threads put their records into a bounded queue and throw its oldest record away while it
is full; one worker takes the records out and appends them to the file. The atomic actions
of the threads and of the worker are taken in any order. Dropping the logger needs it
alone: no thread is in the middle of a write then, and none begins another.
-/
namespace Snolc.Logging
open WireFormat CheckedSlice GuardedRuns LossyQueue PartialPosts

/-! ## The state -/

/-- What a record is taken out of the queue for: `append_record`, which may fail, or to make room. -/
inductive Fate where
  | handed
  | lost
  deriving DecidableEq, Repr

abbrev RecordQueue := Queue ℕ Fate (List UInt8)

/-- Where a thread is in `write`: before a push, after a push that was refused, or after it has thrown a record away
and before it has counted that. -/
inductive Writer where
  | idle
  | pushing (record : List UInt8)
  | refused (record : List UInt8)
  | counting (record : List UInt8)
  deriving DecidableEq, Repr

def Writer.pending : Writer → List (List UInt8)
  | .idle => []
  | .pushing record | .refused record | .counting record => [record]

def Writer.busy : Writer → Bool
  | .idle => false
  | _ => true

def Writer.isCounting : Writer → Bool
  | .counting _ => true
  | _ => false

/-- Where the worker is in its loop, and whether it has written something in this turn of it. -/
inductive Worker where
  | popping (wrote : Bool)
  | appending (record : List UInt8)
  | loading (wrote : Bool)
  | checking (wrote : Bool)
  | parked
  | exited
  deriving DecidableEq, Repr

def Worker.hand : Worker → List (List UInt8)
  | .appending record => [record]
  | _ => []

structure Limits where
  limitBytes : UInt64
  queueBytes : UInt64
  maxRecordBytes : UInt64
  flushInterval : ℕ

def Limits.invalid (limits : Limits) : Bool :=
  limits.limitBytes == 0 || limits.queueBytes == 0 || limits.maxRecordBytes == 0 ||
    limits.queueBytes < limits.maxRecordBytes || limits.limitBytes < limits.maxRecordBytes || limits.flushInterval == 0

def Limits.capacity (limits : Limits) : ℕ := limits.queueBytes.toNat / limits.maxRecordBytes.toNat

/-- The logger and its threads, with the records that `write` was called for, the calls of `append_record` and what
was told to the error sink. -/
structure FileLogger where
  queue : RecordQueue
  lost : UInt64
  stopping : Bool
  writers : List Writer
  worker : Worker
  disk : Disk
  called : List (ℕ × List UInt8)
  appends : List (Faults × List UInt8)
  reported : List LogError

def preparePath (directory : Option Bool) (faults : Faults) (d : Disk) : Except LogError Disk :=
  match directory with
  | none => .error .invalid
  | some false => .error .io
  | some true =>
    if d.log.isSome && !faults.fails .metadata then
      if faults.fails .permissions then .error .io else .ok d
    else if faults.fails .openAppend then .error .io
    else if faults.fails .permissions then .error .io
    else .ok { d with log := some (d.log.getD .empty) }

def start (limits : Limits) (directory : Option Bool) (faults : Faults) (spawned : Bool) (threads : ℕ) (d : Disk) :
    Except LogError FileLogger :=
  if limits.invalid then .error .invalid
  else
    match preparePath directory faults d with
    | .error e => .error e
    | .ok d =>
      if spawned then
        .ok ⟨.empty, 0, false, List.replicate threads .idle, .popping false, d, [], [], []⟩
      else .error .io

/-! ## The actions -/

/-- The next action of a thread in `enqueue`. A thread that finds nothing to throw away yields and tries again. -/
def enqueue (capacity thread : ℕ) (queue : RecordQueue) (lost : UInt64) : Writer → Writer × RecordQueue × UInt64
  | .idle => (.idle, queue, lost)
  | .pushing record =>
    match queue.push capacity thread record with
    | some queue => (.idle, queue, lost)
    | none => (.refused record, queue, lost)
  | .refused record =>
    match queue.pop .lost with
    | some (_, queue) => (.counting record, queue, lost)
    | none => (.pushing record, queue, lost)
  | .counting record => (.pushing record, queue, lost + 1)

def report : Except LogError Unit → List LogError
  | .ok () => []
  | .error e => [e]

def rest (wrote : Bool) : Worker := if wrote then .popping false else .parked

/-- The next action of the worker. Being parked may end at any time. -/
def runWorker (limits : Limits) (faults : Faults) (s : FileLogger) : Option FileLogger :=
  match s.worker with
  | .popping wrote =>
    match s.queue.pop .handed with
    | some (record, queue) => some { s with queue := queue, worker := .appending record }
    | none => some { s with worker := .loading wrote }
  | .appending record =>
    let (result, disk) := Disk.appendRecord faults limits.limitBytes record s.disk
    some { s with disk := disk, appends := s.appends ++ [(faults, record)], reported := s.reported ++ report result
                  worker := .popping true }
  | .loading wrote => some { s with worker := if s.stopping then .checking wrote else rest wrote }
  | .checking wrote => some { s with worker := if s.queue.items.isEmpty then .exited else rest wrote }
  | .parked => some { s with worker := .popping false }
  | .exited => none

inductive Move where
  | write (thread : ℕ) (record : Record)
  | enqueue (thread : ℕ)
  | work (faults : Faults)
  | drop

def step (limits : Limits) (s : FileLogger) : Move → Option FileLogger
  | .write thread record =>
    if s.stopping then none
    else
      match s.writers[thread]? with
      | some .idle =>
        let bytes := truncateRecord record.text limits.maxRecordBytes.toNat
        some { s with writers := s.writers.set thread (.pushing bytes), called := s.called ++ [(thread, bytes)] }
      | _ => none
  | .enqueue thread =>
    match s.writers[thread]? with
    | some writer =>
      let (writer, queue, lost) := enqueue limits.capacity thread s.queue s.lost writer
      some { s with writers := s.writers.set thread writer, queue := queue, lost := lost }
    | none => none
  | .work faults => runWorker limits faults s
  | .drop => if s.stopping || s.writers.any Writer.busy then none else some { s with stopping := true }

/-! ## Records are short -/

theorem truncateRecord_length (r : Record) (limit : ℕ) : (truncateRecord r.text limit).length ≤ limit := by
  rcases Nat.lt_or_ge limit (octets (line r.text)).length with hlong | hfits
  · rcases Nat.lt_or_ge 14 limit with hcut | hshort
    · obtain ⟨start, rest, -, hlen, hout⟩ := truncateRecord_cut r hlong hcut
      rw [hout, List.length_append, truncated_length]
      omega
    · rw [truncateRecord_notice r hlong hshort, List.length_take]
      omega
  · rw [truncateRecord_whole r hfits]
    exact hfits

/-! ## The books -/

def reports (limit : UInt64) : Disk → List (Faults × List UInt8) → List LogError
  | _, [] => []
  | d, c :: calls =>
    report (Disk.appendRecord c.1 limit c.2 d).1 ++ reports limit (Disk.call limit d c) calls

theorem reports_append (limit : UInt64) (d : Disk) (calls : List (Faults × List UInt8)) (c : Faults × List UInt8) :
    reports limit d (calls ++ [c]) =
      reports limit d calls ++ report (Disk.appendRecord c.1 limit c.2 (run (Disk.call limit) d calls)).1 := by
  induction calls generalizing d with
  | nil => simp [reports]
  | cons first calls ih => rw [List.cons_append, reports, ih, reports, run_cons, List.append_assoc]

structure Kept (limits : Limits) (d : Disk) (s : FileLogger) : Prop where
  books : s.queue.Books limits.capacity
  short : ∀ e ∈ s.called, e.2.length ≤ limits.maxRecordBytes.toNat
  queued : ∀ thread writer, s.writers[thread]? = some writer →
    of thread s.queue.pushed ++ writer.pending = of thread s.called
  total : s.called.length = s.queue.pushed.length + s.writers.countP Writer.busy
  known : ∀ record ∈ s.queue.pushed.map Prod.snd, record.length ≤ limits.maxRecordBytes.toNat
  counted : (s.lost.toNat + s.writers.countP Writer.isCounting) % 2 ^ 64 = (of .lost s.queue.taken).length % 2 ^ 64
  appended : s.appends.map Prod.snd ++ s.worker.hand = of .handed s.queue.taken
  disk : s.disk = run (Disk.call limits.limitBytes) d s.appends
  reported : s.reported = reports limits.limitBytes d s.appends
  stopped : s.stopping = true → ∀ writer ∈ s.writers, writer = .idle
  checked : ∀ wrote, s.worker = .checking wrote → s.stopping = true
  exited : s.worker = .exited → s.stopping = true ∧ s.queue.items = []

section Threads
variable {writers : List Writer} {thread : ℕ} {writer : Writer}

theorem countP_set (p : Writer → Bool) (h : writers[thread]? = some writer) (next : Writer) :
    (writers.set thread next).countP p + (p writer).toNat = writers.countP p + (p next).toNat := by
  induction writers generalizing thread with
  | nil => cases h
  | cons first rest ih =>
    cases thread with
    | zero =>
      obtain rfl : first = writer := by simpa using h
      rw [List.set_cons_zero, List.countP_cons, List.countP_cons]
      cases p first <;> cases p next <;> simp
    | succ thread =>
      have hrest := ih (show rest[thread]? = some writer by simpa using h)
      rw [List.set_cons_succ, List.countP_cons, List.countP_cons]
      omega

theorem lookup_set (next : Writer) (other : ℕ) {w : Writer} (h : (writers.set thread next)[other]? = some w) :
    other = thread ∧ w = next ∨ other ≠ thread ∧ writers[other]? = some w := by
  rw [List.getElem?_set] at h
  split at h
  · rename_i heq
    split at h
    · exact .inl ⟨heq.symm, (Option.some.inj h).symm⟩
    · cases h
  · rename_i hne
    exact .inr ⟨fun h => hne h.symm, h⟩

end Threads

/-! ## A thread moves on -/

structure Enqueued (limits : Limits) (thread : ℕ) (s : FileLogger) (writer next : Writer) (queue : RecordQueue)
    (lost : UInt64) : Prop where
  books : queue.Books limits.capacity
  own : of thread queue.pushed ++ next.pending = of thread s.queue.pushed ++ writer.pending
  others : ∀ other, other ≠ thread → of other queue.pushed = of other s.queue.pushed
  total : queue.pushed.length + next.busy.toNat = s.queue.pushed.length + writer.busy.toNat
  known : ∀ record ∈ queue.pushed.map Prod.snd, record ∈ s.queue.pushed.map Prod.snd ∨ record ∈ writer.pending
  counted : (lost.toNat + next.isCounting.toNat + (of .lost s.queue.taken).length) % 2 ^ 64 =
    (s.lost.toNat + writer.isCounting.toNat + (of .lost queue.taken).length) % 2 ^ 64
  handed : of .handed queue.taken = of .handed s.queue.taken
  still : writer = .idle → next = .idle ∧ queue = s.queue

theorem enqueue_spec {limits : Limits} (thread : ℕ) {s : FileLogger} (hbooks : s.queue.Books limits.capacity)
    {writer next : Writer} {queue : RecordQueue} {lost : UInt64}
    (h : enqueue limits.capacity thread s.queue s.lost writer = (next, queue, lost)) :
    Enqueued limits thread s writer next queue lost := by
  cases writer with
  | idle =>
    cases h
    exact ⟨hbooks, rfl, fun _ _ => rfl, rfl, fun _ h => .inl h, rfl, rfl, fun _ => ⟨rfl, rfl⟩⟩
  | pushing record =>
    rw [enqueue] at h
    split at h
    · rename_i pushed hpush
      cases h
      have hnext := hbooks.push hpush
      obtain ⟨-, rfl⟩ := Queue.push_some hpush
      refine ⟨hnext, ?_, fun other hne => ?_, ?_, fun r hr => ?_, rfl, rfl, fun h => by cases h⟩
      · simp [Writer.pending]
      · simp [of_single_ne (Ne.symm hne)]
      · simp [Writer.busy]
      · rw [List.map_append, List.mem_append] at hr
        rcases hr with hr | hr
        · exact .inl hr
        · exact .inr hr
    · cases h
      exact ⟨hbooks, rfl, fun _ _ => rfl, rfl, fun _ h => .inl h, rfl, rfl, fun h => by cases h⟩
  | refused record =>
    rw [enqueue] at h
    split at h
    · rename_i oldest popped hpop
      cases h
      have hnext := hbooks.pop hpop
      obtain ⟨items, -, rfl⟩ := Queue.pop_some hpop
      refine ⟨hnext, rfl, fun _ _ => rfl, rfl, fun _ h => .inl h, ?_, ?_, fun h => by cases h⟩
      · simp [Writer.isCounting]
        omega
      · simp [of_single_ne (show Fate.lost ≠ Fate.handed by decide)]
    · cases h
      exact ⟨hbooks, rfl, fun _ _ => rfl, rfl, fun _ h => .inl h, rfl, rfl, fun h => by cases h⟩
  | counting record =>
    cases h
    refine ⟨hbooks, rfl, fun _ _ => rfl, rfl, fun _ h => .inl h, ?_, rfl, fun h => by cases h⟩
    simp [Writer.isCounting, UInt64.toNat_add]

theorem Kept.enqueue {limits : Limits} {d : Disk} {s : FileLogger} (hkept : Kept limits d s) {thread : ℕ}
    {writer next : Writer} (hwriter : s.writers[thread]? = some writer) {queue : RecordQueue} {lost : UInt64}
    (h : Enqueued limits thread s writer next queue lost) :
    Kept limits d { s with writers := s.writers.set thread next, queue := queue, lost := lost } where
  books := h.books
  short := hkept.short
  queued := by
    intro other w hw
    rcases lookup_set next other hw with ⟨rfl, rfl⟩ | ⟨hne, hold⟩
    · exact h.own.trans (hkept.queued other writer hwriter)
    · dsimp only
      rw [h.others other hne]
      exact hkept.queued other w hold
  total := by
    have hcount := countP_set Writer.busy hwriter next
    have htotal := h.total
    have hold := hkept.total
    dsimp only
    omega
  known := by
    intro record hrecord
    rcases h.known record hrecord with hold | hpending
    · exact hkept.known record hold
    · have hcalled : record ∈ of thread s.called := by
        rw [← hkept.queued thread writer hwriter]
        exact List.mem_append_right _ hpending
      obtain ⟨e, he, rfl⟩ := List.mem_map.mp ((of_sublist thread s.called).mem hcalled)
      exact hkept.short e he
  counted := by
    have hcount := countP_set Writer.isCounting hwriter next
    have hcounted := h.counted
    have hold := hkept.counted
    dsimp only
    omega
  appended := hkept.appended.trans h.handed.symm
  disk := hkept.disk
  reported := hkept.reported
  stopped := by
    intro hstop w hw
    have hidle := hkept.stopped hstop writer (List.mem_of_getElem? hwriter)
    rcases List.mem_or_eq_of_mem_set hw with hold | rfl
    · exact hkept.stopped hstop w hold
    · exact (h.still hidle).1
  checked := hkept.checked
  exited := by
    intro hexit
    obtain ⟨hstop, hitems⟩ := hkept.exited hexit
    have hidle := hkept.stopped hstop writer (List.mem_of_getElem? hwriter)
    exact ⟨hstop, (congrArg Queue.items (h.still hidle).2).trans hitems⟩

/-! ## The worker moves on -/

section Work
variable {limits : Limits} {d : Disk} {s next : FileLogger}

theorem Kept.turn (h : Kept limits d s) {worker : Worker} (hold : s.worker.hand = []) (hnew : worker.hand = [])
    (hchecked : ∀ wrote, worker = .checking wrote → s.stopping = true)
    (hexited : worker = .exited → s.stopping = true ∧ s.queue.items = []) :
    Kept limits d { s with worker := worker } :=
  { h with
    appended := by
      have happended := h.appended
      rw [hold] at happended
      dsimp only
      rw [hnew]
      exact happended
    checked := hchecked
    exited := hexited }

theorem rest_hand (wrote : Bool) : (rest wrote).hand = [] := by
  cases wrote <;> rfl

theorem rest_goes_on (wrote : Bool) : (∀ w, rest wrote ≠ .checking w) ∧ rest wrote ≠ .exited := by
  cases wrote <;> exact ⟨nofun, nofun⟩

theorem Kept.rest (h : Kept limits d s) (hhand : s.worker.hand = []) (wrote : Bool) :
    Kept limits d { s with worker := Logging.rest wrote } :=
  h.turn hhand (rest_hand wrote) (fun w hw => absurd hw ((rest_goes_on wrote).1 w))
    fun hw => absurd hw (rest_goes_on wrote).2

theorem Kept.pop (h : Kept limits d s) (hhand : s.worker.hand = []) {record : List UInt8} {queue : RecordQueue}
    (hpop : s.queue.pop .handed = some (record, queue)) :
    Kept limits d { s with queue := queue, worker := .appending record } := by
  have hbooks := h.books.pop hpop
  obtain ⟨items, -, rfl⟩ := Queue.pop_some hpop
  have happended := h.appended
  rw [hhand, List.append_nil] at happended
  refine { h with books := hbooks, counted := ?_, appended := ?_, checked := nofun,
                  exited := nofun }
  · simpa [of_single_ne (show Fate.handed ≠ Fate.lost by decide)] using h.counted
  · simp [happended, Worker.hand]

theorem Kept.append (h : Kept limits d s) {record : List UInt8} (hworker : s.worker = .appending record)
    (faults : Faults) :
    Kept limits d
      { s with disk := (Disk.appendRecord faults limits.limitBytes record s.disk).2
               appends := s.appends ++ [(faults, record)]
               reported := s.reported ++ report (Disk.appendRecord faults limits.limitBytes record s.disk).1
               worker := .popping true } := by
  have happended := h.appended
  rw [hworker] at happended
  refine { h with appended := ?_, disk := ?_, reported := ?_, checked := nofun,
                  exited := nofun }
  · simpa [Worker.hand] using happended
  · rw [run_snoc, ← h.disk]
    rfl
  · rw [reports_append, ← h.disk, ← h.reported]

theorem Kept.work (h : Kept limits d s) {faults : Faults} (hwork : runWorker limits faults s = some next) :
    Kept limits d next := by
  unfold runWorker at hwork
  split at hwork
  · rename_i wrote hworker
    have hhand : s.worker.hand = [] := by rw [hworker]; rfl
    split at hwork
    · rename_i record queue hpop
      cases hwork
      exact h.pop hhand hpop
    · cases hwork
      exact h.turn hhand rfl nofun nofun
  · rename_i record hworker
    cases hwork
    exact h.append hworker faults
  · rename_i wrote hworker
    have hhand : s.worker.hand = [] := by rw [hworker]; rfl
    cases hwork
    split
    · rename_i hstop
      exact h.turn hhand rfl (fun _ _ => hstop) nofun
    · exact h.rest hhand wrote
  · rename_i wrote hworker
    have hhand : s.worker.hand = [] := by rw [hworker]; rfl
    cases hwork
    split
    · rename_i hempty
      exact h.turn hhand rfl nofun fun _ =>
        ⟨h.checked wrote hworker, List.isEmpty_iff.mp hempty⟩
    · exact h.rest hhand wrote
  · rename_i hworker
    cases hwork
    exact h.turn (by rw [hworker]; rfl) rfl nofun nofun
  · cases hwork

end Work

/-! ## Every step -/

section Step
variable {limits : Limits} {d : Disk} {s : FileLogger}

theorem Kept.write (h : Kept limits d s) (hstop : s.stopping = false) {thread : ℕ}
    (hwriter : s.writers[thread]? = some .idle) (record : Record) :
    Kept limits d
      { s with writers := s.writers.set thread (.pushing (truncateRecord record.text limits.maxRecordBytes.toNat))
               called := s.called ++ [(thread, truncateRecord record.text limits.maxRecordBytes.toNat)] } := by
  have hnot : ¬ s.stopping = true := by rw [hstop]; exact Bool.false_ne_true
  refine { h with short := ?_, queued := ?_, total := ?_, counted := ?_, stopped := fun hs => absurd hs hnot }
  · intro e he
    rcases List.mem_append.mp he with he | he
    · exact h.short e he
    · rw [List.mem_singleton.mp he]
      exact truncateRecord_length record _
  · intro other w hw
    rcases lookup_set _ other hw with ⟨rfl, rfl⟩ | ⟨hne, hold⟩
    · rw [of_append, of_single_self, ← h.queued other _ hwriter]
      simp [Writer.pending]
    · rw [of_append, of_single_ne (Ne.symm hne), List.append_nil]
      exact h.queued other w hold
  · have hcount := countP_set Writer.busy hwriter
      (.pushing (truncateRecord record.text limits.maxRecordBytes.toNat))
    have hold := h.total
    dsimp only
    rw [List.length_append, List.length_singleton]
    simp only [Writer.busy, Bool.toNat_true, Bool.toNat_false] at hcount
    omega
  · have hcount := countP_set Writer.isCounting hwriter
      (.pushing (truncateRecord record.text limits.maxRecordBytes.toNat))
    have hold := h.counted
    simp only [Writer.isCounting, Bool.toNat_false] at hcount
    dsimp only
    omega

theorem Kept.drop (h : Kept limits d s) (hidle : s.writers.any Writer.busy = false) :
    Kept limits d { s with stopping := true } := by
  refine { h with stopped := fun _ writer hwriter => ?_, checked := fun _ _ => rfl,
                  exited := fun hexit => ⟨rfl, (h.exited hexit).2⟩ }
  have hwriterIdle : writer.busy = false := by
    by_contra hbusy
    have hany : s.writers.any Writer.busy = true := List.any_eq_true.mpr ⟨writer, hwriter, by simpa using hbusy⟩
    rw [hidle] at hany
    cases hany
  cases writer with
  | idle => rfl
  | pushing | refused | counting => cases hwriterIdle

/-- The step lemma: whatever moves, the books stay right. -/
theorem Kept.step (h : Kept limits d s) (move : Move) : Yields (step limits s move) (Kept limits d) := by
  intro next hnext
  cases move with
  | write thread record =>
    rw [Logging.step] at hnext
    split at hnext
    · cases hnext
    · rename_i hstop
      split at hnext
      · rename_i hwriter
        cases hnext
        exact h.write (by simpa using hstop) hwriter record
      · cases hnext
  | enqueue thread =>
    rw [Logging.step] at hnext
    split at hnext
    · rename_i writer hwriter
      cases hnext
      exact h.enqueue hwriter (enqueue_spec thread h.books rfl)
    · cases hnext
  | work faults => exact h.work hnext
  | drop =>
    rw [Logging.step] at hnext
    split at hnext
    · cases hnext
    · rename_i hguard
      cases hnext
      exact h.drop (by simp only [Bool.or_eq_true, not_or, Bool.not_eq_true] at hguard; exact hguard.2)

end Step

/-! ## The file never outgrows its limit -/

theorem appendBehind_contents (faults : Faults) (record : List UInt8) (d : Disk) :
    ∃ count, (d.appendBehind faults record).2.contents = d.contents ++ record.take count := by
  unfold Disk.appendBehind
  split
  · exact ⟨0, by simp⟩
  · dsimp only
    split
    · exact ⟨_, rfl⟩
    · split
      · exact ⟨_, rfl⟩
      · rename_i file hfile
        have hbytes : file.bytes = d.contents ++ record := by
          unfold FileBytes.append at hfile
          split at hfile
          · cases hfile
            rfl
          · cases hfile
        refine ⟨record.length, ?_⟩
        rw [List.take_length, ← hbytes]
        split <;> rfl

theorem compact_contents (faults : Faults) (limit : UInt64) (record : List UInt8) (d : Disk) :
    (d.compact faults limit record).2.contents = d.contents ∨
      (d.compact faults limit record).2.contents = Disk.retained limit record.length d.contents ++ record := by
  unfold Disk.compact
  split
  · exact .inl rfl
  · split
    · exact .inl rfl
    · rename_i source hsource
      have hcontents : d.contents = source.bytes := by rw [Disk.contents, hsource, Option.getD_some]
      rw [hcontents]
      split_ifs
      · exact .inl hcontents
      · exact .inl hcontents
      · exact .inl hcontents
      · exact .inl hcontents
      · unfold Disk.replaceLog
        dsimp only
        split_ifs
        · exact .inl hcontents
        · exact .inl hcontents
        · exact .inr rfl
        · exact .inr rfl
        · exact .inl hcontents

theorem contents_fit (d : Disk) : d.contents.length ≤ wordMax := (d.log.getD .empty).fits

theorem appendRecord_within {faults : Faults} {limit : UInt64} {record : List UInt8} {d : Disk}
    (hmetadata : faults.fails .metadata = false) (hrecord : record.length ≤ limit.toNat)
    (h : d.contents.length ≤ limit.toNat) :
    (d.appendRecord faults limit record).2.contents.length ≤ limit.toNat := by
  have hlimit := limit.toNat_lt
  have hlength : d.metadataLength faults = d.contents.length := by
    rw [Disk.metadataLength, hmetadata]
    rfl
  unfold Disk.appendRecord
  rw [hlength]
  split_ifs with hlong hroom
  · exact h
  · obtain ⟨count, hnext⟩ := appendBehind_contents faults record d
    have hlen := congrArg List.length hnext
    have hfit := contents_fit (d.appendBehind faults record).2
    rw [List.length_append, List.length_take] at hlen
    unfold saturatingSum at hroom
    omega
  · have hretained := Disk.retained_length limit record.length d.contents
    rcases compact_contents faults limit record d with hsame | hnew
    · rw [hsame]
      exact h
    · rw [hnew, List.length_append]
      omega

theorem run_within {limit : UInt64} {d : Disk} {calls : List (Faults × List UInt8)}
    (hcalls : ∀ c ∈ calls, c.1.fails .metadata = false ∧ c.2.length ≤ limit.toNat)
    (h : d.contents.length ≤ limit.toNat) : (run (Disk.call limit) d calls).contents.length ≤ limit.toNat := by
  induction calls generalizing d with
  | nil => exact h
  | cons c calls ih =>
    obtain ⟨hmetadata, hrecord⟩ := hcalls c List.mem_cons_self
    exact ih (fun c' hc' => hcalls c' (List.mem_cons_of_mem _ hc')) (appendRecord_within hmetadata hrecord h)

/-! ## From the start -/

theorem Limits.capacity_pos {limits : Limits} (h : limits.invalid = false) :
    0 < limits.capacity ∧ limits.maxRecordBytes ≤ limits.limitBytes := by
  simp only [Limits.invalid, Bool.or_eq_false_iff, beq_eq_false_iff_ne, decide_eq_false_iff_not] at h
  obtain ⟨⟨⟨⟨⟨-, -⟩, hmax⟩, hqueue⟩, hlimit⟩, -⟩ := h
  have hpos : 0 < limits.maxRecordBytes.toNat := by
    rw [Nat.pos_iff_ne_zero]
    exact fun hzero => hmax (UInt64.toNat_inj.mp hzero)
  refine ⟨Nat.div_pos ?_ hpos, UInt64.not_lt.mp hlimit⟩
  exact UInt64.le_iff_toNat_le.mp (UInt64.not_lt.mp hqueue)

theorem start_kept {limits : Limits} {directory : Option Bool} {faults : Faults} {spawned : Bool} {threads : ℕ}
    {d : Disk} {s : FileLogger} (h : start limits directory faults spawned threads d = .ok s) :
    limits.invalid = false ∧ Kept limits s.disk s := by
  unfold start at h
  split at h
  · cases h
  · rename_i hvalid
    split at h
    · cases h
    · split at h
      · cases h
        refine ⟨by simpa using hvalid, ⟨.empty _, nofun, ?_, ?_, nofun, ?_, rfl, rfl, rfl, nofun, nofun, nofun⟩⟩
        · intro thread writer hwriter
          rw [List.eq_of_mem_replicate (List.mem_of_getElem? hwriter)]
          rfl
        · simp [Queue.empty, List.countP_replicate, Writer.busy]
        · simp [Queue.empty, List.countP_replicate, Writer.isCounting]
      · cases h

theorem run_kept {limits : Limits} {d : Disk} {s next : FileLogger} (h : Kept limits d s) {moves : List Move}
    (hrun : moves.foldlM (step limits) s = some next) : Kept limits d next :=
  yields_foldlM (Kept limits d) (fun _ move hs => hs.step move) moves h next hrun

/-- What the logger answers for at any moment: a queue within its capacity and its memory, every record handed to
`append_record`, lost or waiting, and a file that is these calls of `append_record` in the order of the records. -/
structure Accounts (limits : Limits) (d : Disk) (s : FileLogger) : Prop where
  room : 0 < limits.capacity
  capacity : s.queue.items.length ≤ limits.capacity
  order : s.queue.taken.map Prod.snd ++ s.queue.items = s.queue.pushed.map Prod.snd
  threads : ∀ thread writer, s.writers[thread]? = some writer →
    of thread s.queue.pushed ++ writer.pending = of thread s.called
  memory : (s.queue.items.map List.length).sum ≤ limits.queueBytes.toNat
  fates : s.queue.pushed.length =
    (of .handed s.queue.taken).length + (of .lost s.queue.taken).length + s.queue.items.length
  lost : (s.lost.toNat + s.writers.countP Writer.isCounting) % 2 ^ 64 = (of .lost s.queue.taken).length % 2 ^ 64
  handed : s.appends.map Prod.snd ++ s.worker.hand = of .handed s.queue.taken
  file : s.disk = run (Disk.call limits.limitBytes) d s.appends
  reported : s.reported = reports limits.limitBytes d s.appends
  bounded : d.contents.length ≤ limits.limitBytes.toNat → (∀ c ∈ s.appends, c.1.fails .metadata = false) →
    s.disk.contents.length ≤ limits.limitBytes.toNat
  ended : s.worker = .exited → s.queue.items = [] ∧ s.appends.map Prod.snd = of .handed s.queue.taken ∧
    s.called.length = s.appends.length + (of .lost s.queue.taken).length ∧
    s.lost.toNat = (of .lost s.queue.taken).length % 2 ^ 64

section Accounts
variable {limits : Limits} {d : Disk} {s : FileLogger}

theorem Kept.memory (h : Kept limits d s) : (s.queue.items.map List.length).sum ≤ limits.queueBytes.toNat := by
  have hshort : ∀ length ∈ s.queue.items.map List.length, length ≤ limits.maxRecordBytes.toNat := by
    intro length hlength
    obtain ⟨record, hrecord, rfl⟩ := List.mem_map.mp hlength
    apply h.known record
    rw [← h.books.order]
    exact List.mem_append_right _ hrecord
  calc (s.queue.items.map List.length).sum
      ≤ (s.queue.items.map List.length).length • limits.maxRecordBytes.toNat := List.sum_le_card_nsmul _ _ hshort
    _ = s.queue.items.length * limits.maxRecordBytes.toNat := by rw [List.length_map]; rfl
    _ ≤ limits.capacity * limits.maxRecordBytes.toNat := Nat.mul_le_mul_right _ h.books.room
    _ ≤ limits.queueBytes.toNat := Nat.div_mul_le_self _ _

theorem Kept.fates (h : Kept limits d s) : s.queue.pushed.length =
    (of .handed s.queue.taken).length + (of .lost s.queue.taken).length + s.queue.items.length := by
  refine h.books.count (fun e _ => ?_) (by decide)
  cases e.1 with
  | handed => exact .inl rfl
  | lost => exact .inr rfl

theorem countP_idle {p : Writer → Bool} (hp : p .idle = false) {writers : List Writer}
    (h : ∀ writer ∈ writers, writer = .idle) : writers.countP p = 0 := by
  rw [List.countP_eq_zero]
  intro writer hwriter
  rw [h writer hwriter, hp]
  exact Bool.false_ne_true

theorem Kept.accounts (h : Kept limits d s) (hvalid : limits.invalid = false) : Accounts limits d s where
  room := (Limits.capacity_pos hvalid).1
  capacity := h.books.room
  order := h.books.order
  threads := h.queued
  memory := h.memory
  fates := h.fates
  lost := h.counted
  handed := h.appended
  file := h.disk
  reported := h.reported
  bounded := by
    intro hd hfaults
    rw [h.disk]
    refine run_within (fun c hc => ⟨hfaults c hc, ?_⟩) hd
    have hrecord : c.2 ∈ s.queue.pushed.map Prod.snd := by
      rw [← h.books.order]
      refine List.mem_append_left _ ((of_sublist Fate.handed s.queue.taken).mem ?_)
      rw [← h.appended]
      exact List.mem_append_left _ (List.mem_map_of_mem hc)
    exact (h.known c.2 hrecord).trans (UInt64.le_iff_toNat_le.mp (Limits.capacity_pos hvalid).2)
  ended := by
    intro hexit
    obtain ⟨hstop, hitems⟩ := h.exited hexit
    have hidle := h.stopped hstop
    have hcounting := countP_idle (p := Writer.isCounting) rfl hidle
    have hbusy := countP_idle (p := Writer.busy) rfl hidle
    have happended := h.appended
    rw [hexit] at happended
    replace happended : s.appends.map Prod.snd = of .handed s.queue.taken := by simpa [Worker.hand] using happended
    refine ⟨hitems, happended, ?_, ?_⟩
    · have hfates := h.fates
      rw [h.total, hbusy, hfates, hitems, ← happended, List.length_map]
      rfl
    · have hcounted := h.counted
      rw [hcounting, Nat.add_zero] at hcounted
      rw [← hcounted, Nat.mod_eq_of_lt s.lost.toNat_lt]

end Accounts

/-- Whatever threads write, however they and the worker take turns and whatever fails, the logger accounts for every
record; when the worker has left, each was handed to `append_record` or counted as lost. -/
theorem logger_accounts {limits : Limits} {directory : Option Bool} {faults : Faults} {spawned : Bool} {threads : ℕ}
    {d : Disk} {s₀ s : FileLogger} (hstart : start limits directory faults spawned threads d = .ok s₀)
    {moves : List Move} (hrun : moves.foldlM (step limits) s₀ = some s) : Accounts limits s₀.disk s := by
  obtain ⟨hvalid, hkept⟩ := start_kept hstart
  exact (run_kept hkept hrun).accounts hvalid

def sampleLimits : Limits := ⟨40, 8, 8, 1⟩

def sampleRecord : Record := ⟨"a", by decide⟩

/-- Both threads write before the worker moves: the second record takes the place of the first. -/
def sampleMoves : List Move :=
  [.write 0 sampleRecord, .write 1 ⟨"b\n", by decide⟩, .enqueue 0, .enqueue 1, .enqueue 1, .enqueue 1, .enqueue 1,
    .work noFaults, .drop, .work noFaults]

def sampleLogger : FileLogger :=
  ⟨.empty, 0, false, [.idle, .idle], .popping false, sampleDisk, [], [], []⟩

theorem sample_logger_accounts :
    ∃ s, start sampleLimits (some true) noFaults true 2 sampleDisk = .ok sampleLogger ∧
      sampleMoves.foldlM (step sampleLimits) sampleLogger = some s ∧ s.lost = 1 ∧
      s.disk.contents = [1, newline, 2, newline, 98, newline] ∧ Accounts sampleLimits sampleDisk s := by
  have hstart : start sampleLimits (some true) noFaults true 2 sampleDisk = .ok sampleLogger := rfl
  obtain ⟨s, hrun, hlost, hcontents⟩ : ∃ s, sampleMoves.foldlM (step sampleLimits) sampleLogger = some s ∧
      s.lost = 1 ∧ s.disk.contents = [1, newline, 2, newline, 98, newline] := ⟨_, rfl, rfl, rfl⟩
  exact ⟨s, hstart, hrun, hlost, hcontents, logger_accounts hstart hrun⟩

end Snolc.Logging
