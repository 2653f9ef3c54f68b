import Snolc.CoreIo
import Snolc.GuardedRuns
import Snolc.MuxEndpointBooks
import Snolc.ScriptedIo

set_option autoImplicit false

namespace Snolc.Mux
open PollIo SlotTable MuxFrame GuardedRuns ScriptedIo

/-- A connection and, for every stream, the number of bytes its writer was told are accepted. -/
structure Writers (T : Type) where
  connection : Connection T
  position : StreamId → ℕ

inductive Call where
  | queueStream
  | queueOpen
  | pollOpen (id : StreamId)
  | pollClose (id : StreamId)
  | drop (id : StreamId)
  | acceptStream
  | read (id : StreamId) (room : ℕ)
  | flush
  | drive
  | write (id : StreamId) (length : ℕ)

namespace Writers
variable {T : Type}

def slice (source : StreamId → List UInt8) (w : Writers T) (id : StreamId) (length : ℕ) : List UInt8 :=
  ((source id).drop (w.position id)).take length

def withConnection (w : Writers T) (c : Connection T) : Writers T := { w with connection := c }

def new (io : T) (role : Mode) (config : YamuxConfig) : Writers T :=
  ⟨(MuxSession.new io role config).connection, fun _ => 0⟩

variable [AsyncIo T]

def offer (source : StreamId → List UInt8) (w : Writers T) (id : StreamId) (length : ℕ) : Writers T :=
  if (w.connection.stream id).isSome then
    let r := w.connection.pollData id (w.slice source id length)
    ⟨r.2, Function.update w.position id (w.position id + writeCount r.1)⟩
  else w

def step (source : StreamId → List UInt8) (w : Writers T) : Call → Writers T
  | .queueStream => w.withConnection w.connection.queueStream.2
  | .queueOpen => w.withConnection w.connection.queueOpen.2
  | .pollOpen id => w.withConnection (w.connection.pollControl .frameOpen id).2
  | .pollClose id => w.withConnection (w.connection.pollControl .frameFin id).2
  | .drop id => w.withConnection (({ id } : MuxStream).drop w.connection)
  | .acceptStream => w.withConnection w.connection.pollAcceptStream.2
  | .read id room => w.withConnection (w.connection.pollRead id room).2
  | .flush => w.withConnection w.connection.pollFlushWrite.2
  | .drive => w.withConnection w.connection.pollDrive.2
  | .write id length => w.offer source id length

end Writers

namespace Connection
variable {T : Type} [TracedIo T]

theorem Outbox.dataOf_settled {c : Connection T} {sent : List Frame} (h : c.Outbox sent)
    (hf : ∀ f ∈ sent, f.Regular) {id : StreamId} (hz : c.outstanding id = 0) :
    dataOf id c.sentBytes = dataIn id sent := by
  cases hw : c.write with
  | none =>
    have := dataOf_flat id hf []
    rw [List.append_nil] at this
    rw [h.sentBytes_idle hw, this]
    exact List.append_nil _
  | some w =>
    obtain ⟨hs, done, rfl⟩ := h.pending w hw
    have hfd : ∀ f ∈ done, f.Regular := fun f hm => hf f (List.mem_append_left _ hm)
    rw [h.sentBytes_pending hw hs, dataOf_flat id hfd, dataIn_snoc]
    congr 1
    unfold dataOf
    rw [frames_cut_short (hf w.frame (by simp)).fits]
    by_cases hd : w.frame.kind = .frameData ∧ w.frame.stream = id
    · have hempty : w.frame.payload = [] := by
        have hd' : w.kind = .frameData ∧ w.stream = id := hd
        rw [outstanding_pending hw, if_pos hd', hs.accepted] at hz
        exact List.length_eq_zero_iff.mp hz
      rw [if_pos hd, hempty]
      split <;> simp
    · have hcode : ¬ (w.frame.kind.code = FrameKind.frameData.code ∧ w.frame.stream = id) :=
        fun hx => hd ⟨FrameKind.code_injective hx.1, hx.2⟩
      rw [if_neg hd]
      split
      · rfl
      · simp [Frame.header, hcode]

theorem drop_balanced (c : Connection T) (stream : MuxStream) : Balanced c (stream.drop c) := by
  unfold MuxStream.drop
  split
  · exact Balanced.refl c
  · refine ⟨fun hl => ⟨fun q hq => ?_, hl.single⟩, fun _ _ _ => rfl, fun _ h => h, rfl, List.prefix_refl _⟩
    rcases List.mem_append.mp hq with hq | hq
    · exact hl.kinds q hq
    · rw [List.mem_singleton.mp hq]; exact FrameKind.noConfusion

theorem Outbox.drop {c : Connection T} {sent : List Frame} (h : c.Outbox sent) (stream : MuxStream) :
    (stream.drop c).Outbox sent := by
  unfold MuxStream.drop
  split
  · exact h
  · exact ⟨h.io, h.wire, h.pending⟩

theorem queued_books {c m : Connection T} {sent : List Frame} (h : c.Outbox sent) {id : StreamId}
    (hm : c.insertStream id = .ok m) (next : StreamId) (controls : List (FrameKind × StreamId))
    (hk : ∀ q ∈ controls, q.1 ≠ .frameData) :
    Outbox { m with nextStream := next, controls := m.controls ++ controls } sent ∧
      Balanced c { m with nextStream := next, controls := m.controls ++ controls } := by
  have hsame := insertStream_outbound hm
  have hout := h.same hsame
  have hb := hsame.balanced
  refine ⟨⟨hout.io, hout.wire, hout.pending⟩, fun hl => ⟨fun q hq => ?_, (hb.ledger hl).single⟩,
    hb.outstanding, hb.kept, hb.split, hb.grows⟩
  exact (List.mem_append.mp hq).elim ((hb.ledger hl).kinds q) (hk q)

end Connection

namespace Writers
variable {T : Type} {source : StreamId → List UInt8}

theorem take_slice (w : Writers T) (id : StreamId) (length : ℕ) {n : ℕ}
    (hn : n ≤ (w.slice source id length).length) :
    (source id).take (w.position id) ++ (w.slice source id length).take n =
      (source id).take (w.position id + n) := by
  have hle : n ≤ length := Nat.le_trans hn (List.length_take_le _ _)
  rw [slice, List.take_take, Nat.min_eq_left hle, List.take_add]

variable [TracedIo T]

/-- What went into frames of a stream: what its writer was told, and what it is owed. -/
structure Accounted (source : StreamId → List UInt8) (w : Writers T) (sent : List Frame) : Prop where
  outbox : w.connection.Outbox sent
  ledger : w.connection.Ledger
  regular : ∀ f ∈ sent, f.Regular
  data : ∀ id, dataIn id sent = (source id).take (w.position id + w.connection.outstanding id)
  unused : ∀ id, w.connection.stream id = none → w.position id = 0 ∧ w.connection.outstanding id = 0

theorem Accounted.balanced {w : Writers T} {sent sent' : List Frame} (h : Accounted source w sent)
    {d : Connection T} (hout : d.Outbox sent') (hb : Connection.Balanced w.connection d)
    (hreg : ∀ f ∈ sent', f.Regular) (hdata : ∀ id, dataIn id sent' = dataIn id sent) :
    Accounted source (w.withConnection d) sent' := by
  have hbooks (id : StreamId) : d.outstanding id = w.connection.outstanding id := by
    refine hb.outstanding h.ledger id ?_
    cases hs : w.connection.stream id with
    | none => exact .inr (h.unused id hs).2
    | some state => exact .inl rfl
  refine ⟨hout, hb.ledger h.ledger, hreg, fun id => ?_, fun id hs => ?_⟩
  · change dataIn id sent' = (source id).take (w.position id + d.outstanding id)
    rw [hdata, hbooks]
    exact h.data id
  · have hnone : w.connection.stream id = none := by
      cases hc : w.connection.stream id with
      | none => rfl
      | some state =>
        have := hb.kept id (by simp [hc])
        simp [show d.stream id = none from hs] at this
    exact ⟨(h.unused id hnone).1, (hbooks id).trans (h.unused id hnone).2⟩

theorem Accounted.driven {w : Writers T} {sent : List Frame} (h : Accounted source w sent)
    {d : Connection T} (hd : Connection.DriveStep w.connection d) :
    ∃ sent', Accounted source (w.withConnection d) sent' := by
  obtain ⟨sent', hout, hshift, hb⟩ := hd sent h.outbox
  exact ⟨sent', h.balanced hout hb (hshift.regular h.regular) hshift.dataIn⟩

theorem Accounted.control {w : Writers T} {sent : List Frame} (h : Accounted source w sent)
    {kind : FrameKind} (hk : kind ≠ .frameData) (id : StreamId) :
    ∃ sent', Accounted source (w.withConnection (w.connection.pollControl kind id).2) sent' := by
  obtain ⟨hstep, hframe⟩ := Connection.pollControl_spec h.outbox hk id
  rcases hstep with ⟨hout, -⟩ | ⟨-, hout, -⟩
  · exact ⟨sent, h.balanced hout hframe.balanced h.regular fun _ => rfl⟩
  · exact ⟨_, h.balanced hout hframe.balanced
      (Frame.regular_snoc h.regular (Frame.control_regular kind id)) fun other => dataIn_control _ _ _ _⟩

theorem Accounted.answered {w : Writers T} {sent sent' : List Frame} (h : Accounted source w sent)
    {id : StreamId} (hs : (w.connection.stream id).isSome) {d : Connection T} (hout : d.Outbox sent')
    (hkept : Connection.DataKept w.connection d id) (hreg : ∀ f ∈ sent', f.Regular) (n : ℕ)
    (hown : dataIn id sent' = (source id).take (w.position id + n + d.outstanding id))
    (hothers : ∀ other, other ≠ id → dataIn other sent' = dataIn other sent) :
    Accounted source ⟨d, Function.update w.position id (w.position id + n)⟩ sent' := by
  have hbooks (other : StreamId) (hne : other ≠ id) : d.outstanding other = w.connection.outstanding other := by
    refine hkept.others other hne ?_
    cases hso : w.connection.stream other with
    | none => exact .inr (h.unused other hso).2
    | some state => exact .inl rfl
  refine ⟨hout, hkept.ledger, hreg, fun other => ?_, fun other hso => ?_⟩
  · by_cases he : other = id
    · subst he
      simpa using hown
    · simp only [Function.update_of_ne he]
      rw [hothers other he, hbooks other he]
      exact h.data other
  · have hnone : w.connection.stream other = none := by
      have := hkept.inbound.isSome other
      rw [show d.stream other = none from hso] at this
      simpa using this.symm
    have hne : other ≠ id := by
      rintro rfl
      simp [hnone] at hs
    simp only [Function.update_of_ne hne]
    exact ⟨(h.unused other hnone).1, (hbooks other hne).trans (h.unused other hnone).2⟩

theorem Accounted.offer {w : Writers T} {sent : List Frame} (h : Accounted source w sent) {id : StreamId}
    (hs : (w.connection.stream id).isSome) {length : ℕ} (hne : w.slice source id length ≠ [])
    (hcover : w.connection.outstanding id ≤ (w.slice source id length).length)
    (hfit : min (w.slice source id length).length w.connection.splitSendSize < 2 ^ 32) :
    (∃ sent', Accounted source (w.offer source id length) sent') ∧
      ∀ n, (w.connection.pollData id (w.slice source id length)).1 = .ready (.ok n) →
        n ≤ (w.slice source id length).length ∧ (w.offer source id length).connection.outstanding id = 0 := by
  unfold Writers.offer
  rw [if_pos hs]
  dsimp only
  by_cases hclosed : w.connection.closed
  · rw [Connection.pollData, if_pos hclosed]
    refine ⟨⟨sent, ?_⟩, by simp⟩
    simpa using h
  · obtain ⟨sent₁, hshift, hstep, hkept⟩ :=
      Connection.pollData_spec h.outbox h.ledger (by simpa using hclosed) id hs hne
    have hreg := hshift.regular h.regular
    have hdata := h.data id
    rcases hstep with ⟨hres, hzero, hout⟩ | ⟨hres, hsame, hout⟩ | ⟨hfree, hout, hres⟩
    · -- an earlier frame is reported
      rw [hres]
      refine ⟨⟨sent₁, h.answered hs hout hkept hreg _ ?_ fun other _ => hshift.dataIn other⟩, ?_⟩
      · rw [writeCount_ok, hzero, Nat.add_zero, hshift.dataIn, hdata]
      · rintro n hn
        cases hn
        exact ⟨hcover, hzero⟩
    · -- nothing to report yet
      refine ⟨⟨sent₁, h.answered hs hout hkept hreg _ ?_ fun other _ => hshift.dataIn other⟩,
        fun n hn => absurd hn (hres n)⟩
      rw [writeCount_unanswered hres, Nat.add_zero, hsame, hshift.dataIn, hdata]
    · -- the front of the slice becomes a frame
      have hshort : ((w.slice source id length).take w.connection.splitSendSize).length < 2 ^ 32 := by
        rw [List.length_take, Nat.min_comm]; exact hfit
      have hreg' := Frame.regular_snoc hreg (Frame.data_regular id hshort)
      have htake : (w.slice source id length).take w.connection.splitSendSize =
          (w.slice source id length).take (min (w.slice source id length).length w.connection.splitSendSize) := by
        rw [List.take_eq_take_iff]; omega
      have hown : dataIn id (sent₁ ++ [⟨.frameData, id, (w.slice source id length).take w.connection.splitSendSize⟩]) =
          (source id).take (w.position id + min (w.slice source id length).length w.connection.splitSendSize) := by
        rw [dataIn_snoc, if_pos ⟨rfl, rfl⟩, hshift.dataIn, hdata, hfree, Nat.add_zero]
        change (source id).take (w.position id) ++ (w.slice source id length).take w.connection.splitSendSize = _
        rw [htake, take_slice w id length (Nat.min_le_left _ _)]
      have hothers (other : StreamId) (he : other ≠ id) :
          dataIn other (sent₁ ++ [⟨.frameData, id, (w.slice source id length).take w.connection.splitSendSize⟩]) =
            dataIn other sent := by
        rw [dataIn_snoc, if_neg (fun hx => he hx.2.symm), List.append_nil, hshift.dataIn]
      rcases hres with ⟨hok, hzero⟩ | ⟨hno, hout'⟩
      · rw [hok]
        refine ⟨⟨_, h.answered hs hout hkept hreg' _ ?_ hothers⟩, ?_⟩
        · rw [writeCount_ok, hzero, Nat.add_zero, hown]
        · rintro n hn
          cases hn
          exact ⟨Nat.min_le_left _ _, hzero⟩
      · refine ⟨⟨_, h.answered hs hout hkept hreg' _ ?_ hothers⟩, fun n hn => absurd hn (hno n)⟩
        rw [writeCount_unanswered hno, Nat.add_zero, hout', hown]

/-- The calls whose slices cover what the frame in flight took, and fit a frame. -/
def Covered (source : StreamId → List UInt8) (w : Writers T) : Call → Prop
  | .write id length => w.slice source id length ≠ [] ∧
      w.connection.outstanding id ≤ (w.slice source id length).length ∧
      min (w.slice source id length).length w.connection.splitSendSize < 2 ^ 32
  | _ => True

instance (source : StreamId → List UInt8) (w : Writers T) : (call : Call) → Decidable (w.Covered source call)
  | .write _ _ => inferInstanceAs (Decidable (_ ∧ _))
  | .queueStream | .queueOpen | .pollOpen _ | .pollClose _ | .drop _ | .acceptStream | .read _ _
  | .flush | .drive => isTrue trivial

def Settled (source : StreamId → List UInt8) (w : Writers T) : Prop := ∃ sent, Accounted source w sent

theorem Settled.step (w : Writers T) (call : Call) (h : Settled source w) (hg : Covered source w call) :
    Settled source (w.step source call) := by
  obtain ⟨sent, h⟩ := h
  cases call with
  | queueStream =>
    rcases w.connection.queueStream_cases with ⟨err, next, hq⟩ | ⟨m, hm, hq⟩ <;>
      simp only [Writers.step, hq]
    · exact ⟨sent, ⟨h.outbox.io, h.outbox.wire, h.outbox.pending⟩, ⟨h.ledger.kinds, h.ledger.single⟩,
        h.regular, h.data, h.unused⟩
    · obtain ⟨hout, hb⟩ := Connection.queued_books h.outbox hm (w.connection.nextStream + 2) [] (by simp)
      rw [List.append_nil] at hout hb
      exact ⟨sent, h.balanced hout hb h.regular fun _ => rfl⟩
  | queueOpen =>
    simp only [Writers.step, Connection.queueOpen]
    rcases w.connection.queueStream_cases with ⟨err, next, hq⟩ | ⟨m, hm, hq⟩ <;> simp only [hq]
    · exact ⟨sent, ⟨h.outbox.io, h.outbox.wire, h.outbox.pending⟩, ⟨h.ledger.kinds, h.ledger.single⟩,
        h.regular, h.data, h.unused⟩
    · obtain ⟨hout, hb⟩ := Connection.queued_books h.outbox hm (w.connection.nextStream + 2)
        [(.frameOpen, w.connection.nextStream)] (by simp)
      exact ⟨sent, h.balanced hout hb h.regular fun _ => rfl⟩
  | pollOpen id => exact h.control (by simp) id
  | pollClose id => exact h.control (by simp) id
  | drop id =>
    exact ⟨sent, h.balanced (h.outbox.drop _) (Connection.drop_balanced _ _) h.regular fun _ => rfl⟩
  | acceptStream =>
    rcases w.connection.pollAcceptStream_cases with ⟨id, rest, -, hres⟩ | ⟨-, hconn, -⟩
    · simp only [Writers.step, hres]
      exact ⟨sent, ⟨h.outbox.io, h.outbox.wire, h.outbox.pending⟩, ⟨h.ledger.kinds, h.ledger.single⟩,
        h.regular, h.data, h.unused⟩
    · simp only [Writers.step, hconn]
      exact h.driven (Connection.pollDrive_step _)
  | read id room => exact h.driven (Connection.pollRead_step _ _ _)
  | flush => exact h.driven (Connection.pollFlushWrite_step _)
  | drive => exact h.driven (Connection.pollDrive_step _)
  | write id length =>
    by_cases hs : (w.connection.stream id).isSome
    · exact (h.offer hs hg.1 hg.2.1 hg.2.2).1
    · simp only [Writers.step, Writers.offer, if_neg hs]
      exact ⟨sent, h⟩

theorem Settled.new {io : T} (hio : TracedIo.written io = []) (role : Mode) (config : YamuxConfig) :
    Settled source (Writers.new io role config) := by
  have hs := Endpoint.Sound.new hio role config
  refine ⟨[], hs.outbox, hs.ledger, hs.regular, fun id => ?_, fun id _ => ⟨rfl, ?_⟩⟩
  · simp [dataIn, Writers.new, MuxSession.new, Connection.outstanding, Connection.completed, Connection.stream]
  · simp [Writers.new, MuxSession.new, Connection.outstanding, Connection.completed, Connection.stream]

end Writers

/-- What a writer may rely on when it polls with a slice of its bytes: a count lies
    within the slice, the bytes of the stream on the wire are then those accepted
    before and this front of the slice, and the callback reports no internal error. -/
def WriteHonest {T : Type} [TracedIo T] (source : StreamId → List UInt8) (w : Writers T) (id : StreamId)
    (length : ℕ) : Prop :=
  (∀ n, (w.connection.pollData id (w.slice source id length)).1 = .ready (.ok n) →
    n ≤ (w.slice source id length).length ∧
    dataOf id (w.connection.pollData id (w.slice source id length)).2.sentBytes =
      (source id).take (w.position id) ++ (w.slice source id length).take n) ∧
  ∀ streams handle, streams handle = some id →
    (CoreIo.write streams w.connection handle (w.slice source id length)).1 ≠ .error .internal

/-- In a run whose slices cover the frame in flight, every further such poll of a
    stream in the table is answered honestly. -/
theorem accepted_within_slice {T : Type} [TracedIo T] (source : StreamId → List UInt8) {io : T}
    (hio : TracedIo.written io = []) (role : Mode) (config : YamuxConfig) (calls : List Call)
    (id : StreamId) (length : ℕ)
    (hcover : Guarded (Writers.step source) (Writers.Covered source) (Writers.new io role config)
      (calls ++ [.write id length]))
    (hs : ((run (Writers.step source) (Writers.new io role config) calls).connection.stream id).isSome) :
    WriteHonest source (run (Writers.step source) (Writers.new io role config) calls) id length := by
  obtain ⟨hcalls, ⟨hne, hle, hfit⟩, -⟩ := guarded_append.mp hcover
  obtain ⟨sent, h⟩ := run_invariant (Writers.Settled source) (fun w call => Writers.Settled.step w call)
    (Writers.Settled.new hio role config) hcalls
  generalize run (Writers.step source) (Writers.new io role config) calls = w at h hs hne hle hfit
  obtain ⟨⟨sent', h'⟩, hcount⟩ := h.offer hs hne hle hfit
  refine ⟨fun n hn => ?_, fun streams handle hh hbad => ?_⟩
  · obtain ⟨hle', hzero⟩ := hcount n hn
    refine ⟨hle', ?_⟩
    have hdata := h'.outbox.dataOf_settled h'.regular hzero
    rw [h'.data id, hzero] at hdata
    simp only [Writers.offer, if_pos hs, hn, writeCount_ok, Function.update_self, Nat.add_zero] at hdata
    rw [Writers.take_slice w id length hle']
    exact hdata
  · rw [CoreIo.write, hh] at hbad
    have hlt := (CoreIo.writeResult_internal _ _).mp hbad
    rcases hr : (w.connection.pollData id (w.slice source id length)).1 with (e | n) | _
    · rw [hr] at hlt; simp at hlt
    · rw [hr, writeCount_ok] at hlt
      have := (hcount n hr).1
      omega
    · rw [hr] at hlt; simp at hlt

def slowWriters : Writers Script :=
  Writers.new { writes := [9, 0] } .client ⟨16, 4194304, 16384⟩

def eightBytes : StreamId → List UInt8 := fun _ => [1, 2, 3, 4, 5, 6, 7, 8]

theorem retry_same_length :
    WriteHonest eightBytes (run (Writers.step eightBytes) slowWriters
      [.queueStream, .pollOpen 1, .write 1 8, .drive]) 1 8 :=
  accepted_within_slice eightBytes rfl _ _ _ 1 8 (by decide) (by decide)

/-- The retry offers three bytes: the count is eight, and the callback reports an internal error. -/
theorem retry_shorter :
    ¬ WriteHonest eightBytes (run (Writers.step eightBytes) slowWriters
      [.queueStream, .pollOpen 1, .write 1 8, .drive]) 1 3 := by
  intro h
  exact absurd (h.1 8 (by decide)).1 (by decide)

end Snolc.Mux
