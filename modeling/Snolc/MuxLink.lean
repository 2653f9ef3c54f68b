import Snolc.GuardedRuns
import Snolc.MuxAccepted
import Snolc.MuxDelivery
import Snolc.MuxIoInvariants
import Snolc.MuxOpenPipe

set_option autoImplicit false

/-!
# Two connections joined by a pipe

Side `a` writes, side `b` reads, and the pipe between them hands the bytes over in
order. Every call comes with the answers of the pipe: how many bytes each transfer
may move, zero for a pending answer. The streams are open on both sides, and a
write that was not answered is offered again.
-/
namespace Snolc.Mux
open PollIo SlotTable MuxFrame GuardedRuns ScriptedIo

structure Link where
  a : Connection Script
  b : Connection Script
  /-- Inputs of the writes that were not answered yet. -/
  waiting : StreamId → Option (List UInt8)
  accepted : StreamId → List UInt8
  delivered : StreamId → List UInt8

inductive Transfer where
  | write (id : StreamId) (input : List UInt8) (writes : List ℕ) (flushes : List Bool)
  | read (id : StreamId) (room : ℕ) (reads : List ℕ)
  | drive (reads : List ℕ)

def Connection.withStreams {T : Type} (c : Connection T) (ids : List StreamId) : Connection T :=
  { c with streams := ids.foldl (fun t id => put t id.toNat {}) c.streams }

theorem slot_withStreams {ids : List StreamId} {t : Table StreamState} {i : ℕ} :
    slot (ids.foldl (fun t id => put t id.toNat {}) t) i =
      if ∃ id ∈ ids, id.toNat = i then some {} else slot t i := by
  induction ids generalizing t with
  | nil => simp
  | cons id ids ih =>
    rw [List.foldl_cons, ih, slot_put]
    by_cases hrest : ∃ other ∈ ids, other.toNat = i
    · rw [if_pos hrest, if_pos (by simpa using Or.inr (by simpa using hrest))]
    · rw [if_neg hrest]
      by_cases hid : id.toNat = i
      · rw [if_pos hid, if_pos ⟨id, by simp, hid⟩]
      · rw [if_neg hid, if_neg]
        rintro ⟨other, ho, he⟩
        rcases List.mem_cons.mp ho with rfl | ho
        · exact hid he
        · exact hrest ⟨other, ho, he⟩

theorem Connection.stream_withStreams {T : Type} (c : Connection T) (ids : List StreamId) (id : StreamId) :
    (c.withStreams ids).stream id = if id ∈ ids then some {} else c.stream id := by
  unfold Connection.stream Connection.withStreams
  rw [slot_withStreams]
  simp only [UInt32.toNat_inj, exists_eq_right]

structure Sendable (split : ℕ) (ids : List StreamId) (f : Frame) : Prop where
  regular : f.Regular
  data : f.kind = .frameData
  known : f.stream ∈ ids
  empty : f.payload = [] ↔ split = 0
  short : f.payload.length ≤ split

namespace Link

def sender (l : Link) (writes : List ℕ) (flushes : List Bool) : Connection Script :=
  { l.a with io := l.a.io.map (fun io => { io with writes := writes, flushes := flushes }) }

def receiver (l : Link) (reads : List ℕ) : Connection Script :=
  { l.b with io := l.b.io.map (fun io =>
      { io with incoming := l.a.sentBytes.drop io.received.length, reads := reads }) }

/-- What a writer offers: the input it has to retry, or a new one. -/
def offered (l : Link) (id : StreamId) (input : List UInt8) : List UInt8 := (l.waiting id).getD input

def answer (l : Link) (id : StreamId) (input : List UInt8) : IoPoll ℕ × Connection Script → Link
  | (.ready (.ok n), c) =>
    { l with
      a := c
      waiting := Function.update l.waiting id none
      accepted := Function.update l.accepted id (l.accepted id ++ input.take n) }
  | (_, c) => { l with a := c, waiting := Function.update l.waiting id (some input) }

def write (l : Link) (id : StreamId) (input : List UInt8) (writes : List ℕ) (flushes : List Bool) : Link :=
  if (l.a.stream id).isSome then
    l.answer id (l.offered id input) ((l.sender writes flushes).pollData id (l.offered id input))
  else l

def read (l : Link) (id : StreamId) (room : ℕ) (reads : List ℕ) : Link :=
  let r := (l.receiver reads).pollRead id room
  { l with b := r.2, delivered := Function.update l.delivered id (l.delivered id ++ readBytes r.1) }

def step (l : Link) : Transfer → Link
  | .write id input writes flushes => l.write id input writes flushes
  | .read id room reads => l.read id room reads
  | .drive reads => { l with b := (l.receiver reads).pollDrive.2 }

def start (config : YamuxConfig) (ids : List StreamId) : Link where
  a := (MuxSession.new ({} : Script) .client config).connection.withStreams ids
  b := (MuxSession.new ({} : Script) .server config).connection.withStreams ids
  waiting _ := none
  accepted _ := []
  delivered _ := []

def WithinLimit (l : Link) : Transfer → Prop
  | .write _ _ _ _ => True
  | .read id room reads => ((l.receiver reads).pollRead id room).1 ≠ .ready (.error Connection.limitError)
  | .drive reads => (l.receiver reads).pollDrive.1 ≠ .ready (.error Connection.limitError)

def Announced (l : Link) : Transfer → Prop
  | .write id input _ _ => min (l.offered id input).length l.a.splitSendSize < 2 ^ 32
  | _ => True

instance (l : Link) : (t : Transfer) → Decidable (l.WithinLimit t)
  | .write _ _ _ _ => isTrue trivial
  | .read _ _ _ | .drive _ => inferInstanceAs (Decidable (_ ≠ _))

instance (l : Link) : (t : Transfer) → Decidable (l.Announced t)
  | .write _ _ _ _ => inferInstanceAs (Decidable (_ < _))
  | .read _ _ _ | .drive _ => isTrue trivial

/-- What the reader of a stream got is the front of what its writer was told is
    accepted, and of the one frame that is not acknowledged yet. -/
def InOrder (l : Link) (id : StreamId) : Prop :=
  l.delivered id <+: l.accepted id ++ ((l.waiting id).getD []).take l.a.splitSendSize

/-- The frames of the writing side and the accounts of its writers. -/
structure Sends (l : Link) (split : ℕ) (ids : List StreamId) (sent : List Frame) : Prop where
  outbox : l.a.Outbox sent
  ledger : l.a.Ledger
  quiet : l.a.controls = []
  size : l.a.splitSendSize = split
  opened : l.a.closed = false
  known : ∀ id, (l.a.stream id).isSome → id ∈ ids
  unused : ∀ id, l.a.stream id = none → l.a.outstanding id = 0
  frames : ∀ f ∈ sent, Sendable split ids f
  waits : ∀ id input, l.waiting id = some input → input ≠ []
  data : ∀ id, (l.a.outstanding id = 0 ∧ dataIn id sent = l.accepted id) ∨
    ∃ input, l.waiting id = some input ∧ l.a.outstanding id = min input.length split ∧
      dataIn id sent = l.accepted id ++ input.take split

/-- The reading side: what it took is the front of what was written. -/
structure Takes (l : Link) (split : ℕ) (ids : List StreamId) (got : List Frame) (part : List UInt8) : Prop where
  inbox : l.b.Inbox got part
  delivery : Connection.Delivery l.b got part l.delivered
  outbox : l.b.Outbox []
  quiet : l.b.controls = []
  size : l.b.splitSendSize = split
  known : ∀ id ∈ ids, (l.b.stream id).isSome
  pipe : l.b.takenBytes <+: l.a.sentBytes

variable {l : Link} {split : ℕ} {ids : List StreamId} {sent : List Frame}

theorem Sends.sender (h : Sends l split ids sent) (writes : List ℕ) (flushes : List Bool) :
    (l.sender writes flushes).Outbox sent ∧ (l.sender writes flushes).Ledger ∧
      (l.sender writes flushes).sentBytes = l.a.sentBytes := by
  have hsent : (l.sender writes flushes).sentBytes = l.a.sentBytes := by
    unfold Link.sender Connection.sentBytes
    cases l.a.io <;> rfl
  refine ⟨⟨?_, ?_, h.outbox.pending⟩, ⟨h.ledger.kinds, h.ledger.single⟩, hsent⟩
  · simpa [Link.sender] using h.outbox.io
  · rw [hsent]; exact h.outbox.wire

theorem Sends.answered (h : Sends l split ids sent) {writes : List ℕ} {flushes : List Bool}
    {id : StreamId} (hs' : (l.a.stream id).isSome) {d : Connection Script} {sent' : List Frame}
    (hkept : Connection.DataKept (l.sender writes flushes) d id) (hout : d.Outbox sent')
    (hquiet : d.controls = [])
    (hframes : ∀ f ∈ sent', Sendable split ids f)
    (hothers : ∀ other, other ≠ id → dataIn other sent' = dataIn other sent)
    {wait : Option (List UInt8)} (hwait : ∀ input, wait = some input → input ≠ []) {told : List UInt8}
    (hown : (d.outstanding id = 0 ∧ dataIn id sent' = told) ∨
      ∃ input, wait = some input ∧ d.outstanding id = min input.length split ∧
        dataIn id sent' = told ++ input.take split) :
    Sends { l with
      a := d, waiting := Function.update l.waiting id wait,
      accepted := Function.update l.accepted id told } split ids sent' where
  outbox := hout
  ledger := hkept.ledger
  quiet := hquiet
  size := hkept.inbound.split.trans h.size
  opened := hkept.inbound.closed.trans h.opened
  known other hs := h.known other ((hkept.inbound.isSome other).symm.trans hs)
  unused other hs := by
    have hnone : l.a.stream other = none := by
      have := hkept.inbound.isSome other
      rw [show d.stream other = none from hs] at this
      exact Option.not_isSome_iff_eq_none.mp fun hx => by
        simp [show ((l.sender writes flushes).stream other).isSome from hx] at this
    have hne : other ≠ id := by
      rintro rfl
      simp [hnone] at hs'
    exact (hkept.others other hne (.inr (h.unused other hnone))).trans (h.unused other hnone)
  frames := hframes
  waits other input hw := by
    by_cases he : other = id
    · subst he
      exact hwait input (by simpa using hw)
    · exact h.waits other input (by simpa [Function.update_of_ne he] using hw)
  data other := by
    by_cases he : other = id
    · subst he
      simpa using hown
    · have hbooks : d.outstanding other = l.a.outstanding other := by
        refine hkept.others other he ?_
        cases hs : l.a.stream other with
        | none => exact .inr (h.unused other hs)
        | some state => exact .inl (by simp [show (l.sender writes flushes).stream other = _ from hs])
      simp only [Function.update_of_ne he, hbooks, hothers other he]
      exact h.data other

theorem Sends.settled (h : Sends l split ids sent) {id : StreamId} (hz : l.a.outstanding id = 0) :
    dataIn id sent = l.accepted id := by
  rcases h.data id with ⟨-, hd⟩ | ⟨input, hw, ho, hd⟩
  · exact hd
  · have hne := List.length_pos_iff.mpr (h.waits id input hw)
    have hsplit : split = 0 := by omega
    rw [hd, hsplit, List.take_zero, List.append_nil]

/-- An acknowledgement reports exactly the bytes that went into the frame. -/
theorem Sends.reported (h : Sends l split ids sent) {id : StreamId} (input : List UInt8) :
    dataIn id sent = l.accepted id ++ (l.offered id input).take (l.a.outstanding id) := by
  rcases h.data id with ⟨hz, hd⟩ | ⟨x, hw, ho, hd⟩
  · rw [hz, List.take_zero, List.append_nil, hd]
  · have hx : l.offered id input = x := by simp [Link.offered, hw]
    rw [hx, ho, hd, List.append_cancel_left_eq, List.take_eq_take_iff]
    omega

theorem answer_unanswered (l : Link) (id : StreamId) (input : List UInt8) {r : IoPoll ℕ × Connection Script}
    (h : ∀ n, r.1 ≠ .ready (.ok n)) :
    l.answer id input r =
      { l with a := r.2, waiting := Function.update l.waiting id (some input),
               accepted := Function.update l.accepted id (l.accepted id) } := by
  rw [Function.update_eq_self]
  unfold answer
  split
  · exact absurd rfl (h _)
  · rfl

theorem answer_ok (l : Link) (id : StreamId) (input : List UInt8) {r : IoPoll ℕ × Connection Script} {n : ℕ}
    (h : r.1 = .ready (.ok n)) :
    l.answer id input r =
      { l with a := r.2, waiting := Function.update l.waiting id none,
               accepted := Function.update l.accepted id (l.accepted id ++ input.take n) } := by
  obtain ⟨result, c⟩ := r
  cases h
  rfl

theorem Sends.write (h : Sends l split ids sent) (id : StreamId) (input : List UInt8) (writes : List ℕ)
    (flushes : List Bool) (hfit : min (l.offered id input).length l.a.splitSendSize < 2 ^ 32) :
    ∃ sent', Sends (l.write id input writes flushes) split ids sent' ∧
      l.a.sentBytes <+: (l.write id input writes flushes).a.sentBytes := by
  obtain ⟨hout₀, hledger₀, hsent₀⟩ := h.sender writes flushes
  unfold Link.write
  split
  · rename_i hs
    by_cases hne : l.offered id input = []
    · -- nothing to write, so nothing was waiting
      have hnone : l.waiting id = none := by
        cases hw : l.waiting id with
        | none => rfl
        | some old => exact absurd (by simpa [Link.offered, hw] using hne) (h.waits id old hw)
      have hpoll : (l.sender writes flushes).pollData id (l.offered id input) =
          (.ready (.ok 0), l.sender writes flushes) := by
        unfold Connection.pollData
        rw [if_neg (by simp [Link.sender, h.opened]), if_pos hne]
      rw [hpoll, answer_ok l id _ rfl]
      refine ⟨sent, ?_, hsent₀ ▸ List.prefix_refl _⟩
      rw [List.take_zero, List.append_nil, Function.update_eq_self, ← hnone, Function.update_eq_self]
      exact ⟨hout₀, hledger₀, h.quiet, h.size, h.opened, h.known, h.unused, h.frames, h.waits, h.data⟩
    · have hsize : (l.sender writes flushes).splitSendSize = split := h.size
      rw [h.size] at hfit
      obtain ⟨sent', hshift, hstep, hkept⟩ :=
        Connection.pollData_spec hout₀ hledger₀ h.opened id hs hne
      have hquiet : (l.sender writes flushes).controls = [] := h.quiet
      rw [hquiet] at hshift
      generalize hr : (l.sender writes flushes).pollData id (l.offered id input) = r at hshift hstep hkept
      obtain ⟨rfl, hquiet'⟩ : sent' = sent ∧ r.2.controls = [] := by
        generalize r.2.controls = controls at hshift
        cases hshift with
        | same => exact ⟨rfl, rfl⟩
        | pop kind stream rest hx => cases hx
      have hgrows : l.a.sentBytes <+: r.2.sentBytes := by rw [← hsent₀]; exact hkept.grows
      have hwait : ∀ x, some (l.offered id input) = some x → x ≠ [] := by rintro x ⟨⟩; exact hne
      rcases hstep with ⟨hres, hzero, hout⟩ | ⟨hres, hsame, hout⟩ | ⟨hfree, hout, hres⟩
      · -- an earlier frame is reported
        rw [answer_ok l id _ hres]
        exact ⟨sent', h.answered hs hkept hout hquiet' h.frames (fun _ _ => rfl) (by simp)
          (.inl ⟨hzero, h.reported input⟩), hgrows⟩
      · -- nothing to report yet
        rw [answer_unanswered l id _ hres]
        refine ⟨sent', h.answered hs hkept hout hquiet' h.frames (fun _ _ => rfl) hwait ?_, hgrows⟩
        rcases h.data id with ⟨hz, hd⟩ | ⟨x, hw, ho, hd⟩
        · exact .inl ⟨hsame.trans hz, hd⟩
        · exact .inr ⟨x, by simp [Link.offered, hw], hsame.trans ho, hd⟩
      · -- the front of the input becomes a frame
        rw [hsize] at hout hres
        have hfree' : l.a.outstanding id = 0 := hfree
        have hlen : ((l.offered id input).take split).length = min (l.offered id input).length split := by
          rw [List.length_take, Nat.min_comm]
        have htake : (l.offered id input).take (min (l.offered id input).length split) =
            (l.offered id input).take split := by
          rw [List.take_eq_take_iff]; omega
        have hframes : ∀ f ∈ sent' ++ [⟨.frameData, id, (l.offered id input).take split⟩],
            Sendable split ids f := by
          intro f hf
          rcases List.mem_append.mp hf with hf | hf
          · exact h.frames f hf
          · rw [List.mem_singleton.mp hf]
            refine ⟨Frame.data_regular id (by rw [hlen]; exact hfit), rfl, h.known id hs, ?_,
              List.length_take_le _ _⟩
            simp [List.take_eq_nil_iff, hne]
        have hothers (other : StreamId) (he : other ≠ id) :
            dataIn other (sent' ++ [⟨.frameData, id, (l.offered id input).take split⟩]) = dataIn other sent' := by
          rw [dataIn_snoc, if_neg (fun hx => he hx.2.symm), List.append_nil]
        have hdata : dataIn id (sent' ++ [⟨.frameData, id, (l.offered id input).take split⟩]) =
            l.accepted id ++ (l.offered id input).take split := by
          rw [dataIn_snoc, if_pos ⟨rfl, rfl⟩, h.settled hfree']
        rcases hres with ⟨hok, hzero⟩ | ⟨hno, howed⟩
        · rw [answer_ok l id _ hok]
          refine ⟨_, h.answered hs hkept hout hquiet' hframes hothers (by simp) (.inl ⟨hzero, ?_⟩), hgrows⟩
          rw [htake, hdata]
        · rw [answer_unanswered l id _ hno]
          exact ⟨_, h.answered hs hkept hout hquiet' hframes hothers hwait (.inr ⟨_, rfl, howed, hdata⟩), hgrows⟩
  · exact ⟨sent, h, List.prefix_refl _⟩

variable {got : List Frame} {part : List UInt8}

def Holds (written : List UInt8) (io : Script) : Prop := io.received ++ io.incoming = written

theorem holds_invariant (written : List UInt8) : Connection.IoInvariant (Holds written) where
  read io n h := by
    change Holds written (Script.pollRead io n).2
    unfold Script.pollRead
    dsimp only
    split
    · exact h
    · split
      · exact h
      · unfold Holds at h ⊢
        have hlen : (io.incoming.take (Script.allowance io.reads n)).length ≤ io.incoming.length := by
          rw [List.length_take]; exact Nat.min_le_right _ _
        rw [List.append_assoc, ← h]
        congr 1
        rw [List.length_take, List.take_eq_take_min, List.take_append_drop]
  write io bytes h := by
    change Holds written (Script.pollWrite io bytes).2
    unfold Script.pollWrite
    dsimp only
    split <;> exact h
  flush io h := h

theorem holds_taken {written : List UInt8} {d : Connection Script}
    (h : Connection.IoHas (Holds written) d) : d.takenBytes <+: written := by
  unfold Connection.takenBytes
  cases hio : d.io with
  | none => exact List.nil_prefix
  | some io => exact ⟨io.incoming, h io hio⟩

theorem Sends.fits (h : Sends l split ids sent) : ∀ f ∈ sent, f.Fits := fun f hf => (h.frames f hf).regular.fits

theorem Sends.wire (h : Sends l split ids sent) : l.a.sentBytes <+: flat sent :=
  ⟨l.a.unsent, h.outbox.wire⟩

/-- The writing side gives the reading side no reason to turn anything down but the limits. -/
theorem Sends.refused (h : Sends l split ids sent) {d : Connection Script} (hgot : ∀ f ∈ got, f.Regular)
    (hpipe : d.takenBytes <+: l.a.sentBytes) (hknown : ∀ id ∈ ids, (d.stream id).isSome) {e : IoError}
    (hr : Connection.Refused d got e) : e = Connection.limitError := by
  have hflat := hpipe.trans h.wire
  have hfits : ∀ f ∈ got, f.Fits := fun f hf => (hgot f hf).fits
  rcases hr with ⟨header, h9, htaken, he⟩ | ⟨header, h9, htaken, hbad⟩ | ⟨f, hf, htaken, hbad⟩
  · exact he
  · rw [htaken] at hflat
    obtain ⟨f, hf, rfl⟩ := header_initial hfits h.fits h9 hflat
    rw [Header.parse_headerBytes] at hbad
    have hkind := (h.frames f hf).data
    exact absurd hkind (hbad f.kind (FrameKind.ofCode_code f.kind)).1
  · rw [htaken] at hflat
    have hfits' : ∀ g ∈ got ++ [f], g.Fits := fun g hg => (Frame.regular_snoc hgot hf g hg).fits
    have hmem : f ∈ sent := (flat_initial hfits' h.fits hflat).subset (by simp)
    have hkind := (h.frames f hmem).data
    have hsome := hknown f.stream (h.frames f hmem).known
    rcases hbad with ⟨ho, -⟩ | ⟨-, hn⟩
    · rw [hkind] at ho; cases ho
    · simp [hn] at hsome

theorem Takes.receiver (h : Takes l split ids got part) (reads : List ℕ) :
    (l.receiver reads).Inbox got part ∧ (l.receiver reads).Outbox [] ∧
      Connection.IoHas (Holds l.a.sentBytes) (l.receiver reads) := by
  have htaken : (l.receiver reads).takenBytes = l.b.takenBytes := by
    unfold Link.receiver Connection.takenBytes
    cases l.b.io <;> rfl
  have hsent : (l.receiver reads).sentBytes = l.b.sentBytes := by
    unfold Link.receiver Connection.sentBytes
    cases l.b.io <;> rfl
  refine ⟨⟨h.inbox.regular, htaken.trans h.inbox.taken, h.inbox.header, h.inbox.idle, h.inbox.reading,
    h.inbox.placed, h.inbox.chunks, h.inbox.budget⟩, ⟨?_, ?_, h.outbox.pending⟩, fun io hio => ?_⟩
  · simpa [Link.receiver] using h.outbox.io
  · rw [hsent]; exact h.outbox.wire
  · have hpipe := h.pipe
    unfold Link.receiver at hio
    cases hb : l.b.io with
    | none => simp [hb] at hio
    | some io' =>
      simp only [hb, Option.map_some, Option.some.injEq] at hio
      subst hio
      simp only [Connection.takenBytes, hb, Option.elim_some] at hpipe
      obtain ⟨more, hmore⟩ := hpipe
      have hmore : io'.received ++ more = l.a.sentBytes := hmore
      unfold Holds
      rw [← hmore, List.drop_left]

theorem Takes.moved (h : Takes l split ids got part) {reads : List ℕ} {d : Connection Script}
    (hstep : Connection.DriveStep (l.receiver reads) d)
    (harr : Connection.Arrivals (l.receiver reads) d)
    (hio : Connection.IoHas (Holds l.a.sentBytes) d) {got' : List Frame} {part' : List UInt8}
    {delivered : StreamId → List UInt8} (hin : d.Inbox got' part')
    (hdel : Connection.Delivery d got' part' delivered) :
    Takes { l with b := d, delivered := delivered } split ids got' part' := by
  obtain ⟨sent', hout, hshift, hb⟩ := hstep [] (h.receiver reads).2.1
  have hquiet : (l.receiver reads).controls = [] := h.quiet
  rw [hquiet] at hshift
  obtain ⟨rfl, hcontrols⟩ : sent' = [] ∧ d.controls = [] := by
    generalize d.controls = controls at hshift
    cases hshift with
    | same => exact ⟨rfl, rfl⟩
    | pop kind stream rest hx => cases hx
  exact ⟨hin, hdel, hout, hcontrols, hb.split.trans h.size, fun id hid => harr.kept (h.known id hid),
    holds_taken hio⟩

theorem Takes.no_gap (h : Takes l split ids got part) (hs : Sends l split ids sent) {id : StreamId}
    {state : StreamState} {rest : List (List UInt8)} (hst : l.b.stream id = some state)
    (hi : state.input = [] :: rest) : state.queued = [] := by
  have hsub : got ⊆ sent := by
    have htaken : flat got <+: l.b.takenBytes := ⟨part, h.inbox.taken.symm⟩
    exact (flat_initial (fun f hf => (h.inbox.regular f hf).fits) hs.fits
      ((htaken.trans h.pipe).trans hs.wire)).subset
  apply StreamState.queued_of_used _ hi
  · exact split
  · intro chunk hm
    obtain ⟨f, hf, -, hx⟩ := h.inbox.chunks id state hst chunk hm
    exact hx.trans (hs.frames f (hsub hf)).empty

def Joined (split : ℕ) (ids : List StreamId) (l : Link) : Prop :=
  ∃ sent got part, Sends l split ids sent ∧ Takes l split ids got part

theorem write_receiving (l : Link) (id : StreamId) (input : List UInt8) (writes : List ℕ)
    (flushes : List Bool) : (l.write id input writes flushes).b = l.b ∧
      (l.write id input writes flushes).delivered = l.delivered := by
  unfold Link.write
  split
  · unfold answer
    split <;> exact ⟨rfl, rfl⟩
  · exact ⟨rfl, rfl⟩

theorem Joined.write (h : Joined split ids l) (id : StreamId) (input : List UInt8) (writes : List ℕ)
    (flushes : List Bool) (hfit : l.Announced (.write id input writes flushes)) :
    Joined split ids (l.write id input writes flushes) := by
  obtain ⟨sent, got, part, hs, ht⟩ := h
  obtain ⟨sent', hs', hgrows⟩ := hs.write id input writes flushes hfit
  obtain ⟨hb, hd⟩ := l.write_receiving id input writes flushes
  refine ⟨sent', got, part, hs', ?_⟩
  have hpipe := ht.pipe.trans hgrows
  obtain ⟨hin, hdel, hout, hquiet, hsize, hknown, -⟩ := ht
  rw [← hb] at hin hdel hout hquiet hsize hknown hpipe
  rw [← hd] at hdel
  exact ⟨hin, hdel, hout, hquiet, hsize, hknown, hpipe⟩

theorem Joined.moved (hs : Sends l split ids sent) (ht : Takes l split ids got part) {reads : List ℕ}
    {d : Connection Script} (hstep : Connection.DriveStep (l.receiver reads) d)
    (harr : Connection.Arrivals (l.receiver reads) d) (hio : Connection.IoHas (Holds l.a.sentBytes) d)
    {delivered : StreamId → List UInt8}
    (hmain : (∃ got' part', d.Inbox got' part' ∧ Connection.Delivery d got' part' delivered) ∨
      ∃ e, e ≠ Connection.limitError ∧ Connection.Refused d got e) :
    Joined split ids { l with b := d, delivered := delivered } := by
  rcases hmain with ⟨got', part', hin, hdel⟩ | ⟨e, hne, hbad⟩
  · exact ⟨sent, got', part', ⟨hs.outbox, hs.ledger, hs.quiet, hs.size, hs.opened, hs.known, hs.unused,
      hs.frames, hs.waits, hs.data⟩, ht.moved hstep harr hio hin hdel⟩
  · exact absurd (hs.refused ht.inbox.regular (holds_taken hio)
      (fun id hid => harr.kept (ht.known id hid)) hbad) hne

theorem Joined.step (l : Link) (t : Transfer) (h : Joined split ids l) (hg : l.WithinLimit t ∧ l.Announced t) :
    Joined split ids (l.step t) := by
  cases t with
  | write id input writes flushes => exact h.write id input writes flushes hg.2
  | read id room reads =>
    obtain ⟨sent, got, part, hs, ht⟩ := h
    obtain ⟨hin, hout, hio⟩ := ht.receiver reads
    have hread := hin.read hout.sound ht.delivery id room (fun state rest hst hi => .inr (ht.no_gap hs hst hi))
    rw [Connection.update_handed] at hread
    refine Joined.moved hs ht (Connection.pollRead_step _ id room) (Connection.pollRead_arrivals _ id room)
      ((Connection.reading_ioHas (holds_invariant _)).pollRead _ hio id room) (hread.imp_right ?_)
    rintro ⟨e, he, hbad⟩
    exact ⟨e, fun hx => hg.1 (by rw [he, hx]), hbad⟩
  | drive reads =>
    obtain ⟨sent, got, part, hs, ht⟩ := h
    obtain ⟨hin, hout, hio⟩ := ht.receiver reads
    refine Joined.moved hs ht (Connection.pollDrive_step _) (Connection.pollDrive_arrivals _)
      ((Connection.reading_ioHas (holds_invariant _)).pollDrive _ hio) ?_
    rcases hin.drive hout.sound with ⟨got', part', pushed, htook⟩ | ⟨e, he, hbad⟩
    · exact .inl ⟨got', part', htook.inbox, htook.delivery_quiet ht.delivery⟩
    · exact .inr ⟨e, fun hx => hg.1 (by rw [he, hx]), hbad⟩

theorem Joined.inOrder (h : Joined split ids l) (id : StreamId) : l.InOrder id := by
  obtain ⟨sent, got, part, hs, ht⟩ := h
  have hreg : ∀ f ∈ sent, f.Regular := fun f hf => (hs.frames f hf).regular
  have hsent : dataOf id (flat sent) = dataIn id sent := by
    have := dataOf_flat id hreg []
    rw [List.append_nil] at this
    rw [this]
    exact List.append_nil _
  have hall : l.delivered id <+: dataIn id sent := by
    rw [← hsent]
    exact (ht.inbox.delivered ht.delivery id).trans (dataOf_initial id (ht.pipe.trans hs.wire))
  unfold InOrder
  rcases hs.data id with ⟨-, hd⟩ | ⟨input, hw, -, hd⟩
  · rw [hd] at hall
    exact hall.trans (List.prefix_append _ _)
  · rw [hw, hs.size, Option.getD_some, ← hd]
    exact hall

theorem Joined.start (config : YamuxConfig) (ids : List StreamId) :
    Joined config.splitSendSize ids (Link.start config ids) := by
  have hstate (role : Mode) {id : StreamId} {state : StreamState}
      (h : ((MuxSession.new ({} : Script) role config).connection.withStreams ids).stream id = some state) :
      id ∈ ids ∧ state = {} := by
    rw [Connection.stream_withStreams] at h
    split at h
    · cases h; exact ⟨‹_›, rfl⟩
    · simp [MuxSession.new, Connection.stream] at h
  have hquiet (role : Mode) (id : StreamId) :
      ((MuxSession.new ({} : Script) role config).connection.withStreams ids).queued id = [] := by
    unfold Connection.queued
    cases hs : ((MuxSession.new ({} : Script) role config).connection.withStreams ids).stream id with
    | none => rfl
    | some state => rw [(hstate role hs).2]; rfl
  have hfree (id : StreamId) : (Link.start config ids).a.outstanding id = 0 := by
    change (Link.start config ids).a.completed id = 0
    unfold Connection.completed
    cases hs : (Link.start config ids).a.stream id with
    | none => rfl
    | some state => rw [(hstate .client hs).2]; rfl
  have hout (role : Mode) :
      ((MuxSession.new ({} : Script) role config).connection.withStreams ids).Outbox [] :=
    ⟨rfl, rfl, by simp [Connection.withStreams, MuxSession.new]⟩
  refine ⟨[], [], [], ⟨hout .client, ⟨by simp [Link.start, Connection.withStreams, MuxSession.new],
    by simp [Link.start, Connection.withStreams, MuxSession.new]⟩, rfl, rfl, rfl, ?_, fun id _ => hfree id,
    by simp, by simp [Link.start], fun id => .inl ⟨hfree id, rfl⟩⟩, ⟨?_, ?_, hout .server, rfl, rfl, ?_,
    List.nil_prefix⟩⟩
  · intro id hs
    obtain ⟨state, hs⟩ := Option.isSome_iff_exists.mp hs
    exact (hstate .client hs).1
  · refine ⟨by simp, rfl, rfl, fun _ => ⟨(by decide : 0 < muxHeaderBytes), rfl⟩, fun frame hf => ?_,
      fun id state hs => ?_, fun id state hs chunk hm => ?_, ?_⟩
    · cases hf
    · rw [(hstate .server hs).2]; exact .inl rfl
    · rw [(hstate .server hs).2] at hm; cases hm
    · refine (total_eq_zero _ fun i state hs => ?_).symm
      change slot (ids.foldl (fun t id => put t id.toNat {}) []) i = some state at hs
      rw [slot_withStreams] at hs
      split at hs
      · cases hs; rfl
      · cases hs
  · intro id
    exact (hquiet .server id).symm
  · intro id hid
    change (((MuxSession.new ({} : Script) .server config).connection.withStreams ids).stream id).isSome
    rw [Connection.stream_withStreams, if_pos hid]
    rfl

end Link

/-- End to end: in a run without receive limit errors in which the length fields
    do not wrap, every reader gets the front of what its writer wrote. -/
theorem delivered_in_order (config : YamuxConfig) (ids : List StreamId) (transfers : List Transfer)
    (h : Guarded Link.step (fun l t => l.WithinLimit t ∧ l.Announced t) (Link.start config ids) transfers)
    (id : StreamId) : (run Link.step (Link.start config ids) transfers).InOrder id :=
  (run_invariant (Link.Joined config.splitSendSize ids) Link.Joined.step
    (Link.Joined.start config ids) h).inOrder id

/-- Two writers and two readers: the frame of stream 1 stops half way, is finished by
    the writer of stream 3 and read partly through the queue, partly directly. -/
def mixedTransfers : List Transfer :=
  [.write 1 [1, 2, 3] [5, 5, 0] [], .read 1 1 [], .write 3 [9] [] [], .drive [], .write 1 [] [] [],
    .read 1 5 [], .read 3 5 []]

theorem mixed_in_order :
    (run Link.step (Link.start ⟨2, 524288, 16384⟩ [1, 3]) mixedTransfers).InOrder 1 ∧
      (run Link.step (Link.start ⟨2, 524288, 16384⟩ [1, 3]) mixedTransfers).delivered 1 = [1, 2, 3] :=
  ⟨delivered_in_order ⟨2, 524288, 16384⟩ [1, 3] mixedTransfers (by decide) 1, by decide⟩

namespace Link

theorem write_open {l : Link} {pipe : Script} (h : l.a.Idle pipe) {id : StreamId}
    (hs : (l.a.stream id).isSome) (hw : l.waiting id = none) {input : List UInt8} (hne : input ≠ []) :
    (l.write id input [] []).a.Idle
        { pipe with written := pipe.written ++ (⟨.frameData, id, input.take l.a.splitSendSize⟩ : Frame).bytes } ∧
      (l.write id input [] []).a.splitSendSize = l.a.splitSendSize ∧
      (∀ other, ((l.write id input [] []).a.stream other).isSome = (l.a.stream other).isSome) ∧
      (∀ other, other ≠ id → (l.write id input [] []).accepted other = l.accepted other) ∧
      (l.write id input [] []).waiting = Function.update l.waiting id none := by
  have hoff : l.offered id input = input := by simp [offered, hw]
  have hsender : l.sender [] [] = l.a := by
    obtain ⟨incoming, ended, reads, writes, flushes, received, written⟩ := pipe
    obtain ⟨hio, rfl, rfl, -⟩ := h
    simp only [sender, hio, Option.map_some]
    rw [← hio]
  obtain ⟨hres, hidle, hsplit, hsome⟩ := h.pollData id hne
  unfold write
  rw [if_pos hs, hoff, hsender, answer_ok l id input hres]
  exact ⟨hidle, hsplit, hsome, fun other he => Function.update_of_ne he _ _, rfl⟩

theorem receiver_open {l : Link} {pipe : Script} (h : l.b.Between pipe) {rest : List UInt8}
    (hsent : l.a.sentBytes = pipe.received ++ rest) :
    (l.receiver []).Between { pipe with incoming := rest } := by
  have hio : (l.receiver []).io = some { pipe with incoming := rest } := by
    obtain ⟨incoming, ended, reads, writes, flushes, received, written⟩ := pipe
    obtain ⟨hio, rfl, -⟩ := h
    simp [receiver, hio, hsent]
  exact ⟨hio, h.reads, h.frame, h.offset, h.header, h.write, h.controls, h.opened⟩

theorem start_idle (config : YamuxConfig) (ids : List StreamId) : (start config ids).a.Idle {} where
  io := rfl
  writes := rfl
  flushes := rfl
  write := rfl
  controls := rfl
  opened := rfl
  settled id := by
    unfold Connection.completed
    rw [start, Connection.stream_withStreams]
    split <;> rfl

theorem start_between (config : YamuxConfig) (ids : List StreamId) : (start config ids).b.Between {} :=
  ⟨rfl, rfl, rfl, rfl, rfl, rfl, rfl, rfl⟩

end Link

/-- A first payload of `2 ^ 32` bytes that starts with a frame of stream 3. -/
def forgedInput (tail : List UInt8) : List UInt8 := headerOf .frameData 3 1 ++ (7 :: tail)

def forgedTransfers (tail : List UInt8) : List Transfer :=
  [.write 1 (forgedInput tail) [] [], .drive [], .read 3 1 []]

/-- The frame is announced as empty, so its payload is read as frames. -/
theorem forged_delivery {tail : List UInt8} (ht : tail.length = 2 ^ 32 - 10) :
    Guarded Link.step Link.WithinLimit (Link.start ⟨2, 524288, 2 ^ 32⟩ [1, 3]) (forgedTransfers tail) ∧
      ¬ (run Link.step (Link.start ⟨2, 524288, 2 ^ 32⟩ [1, 3]) (forgedTransfers tail)).InOrder 3 := by
  have hlen : (forgedInput tail).length = 2 ^ 32 := by
    have hcount : (forgedInput tail).length = 9 + (tail.length + 1) := by
      simp only [forgedInput, List.length_append, headerOf_length, List.length_cons, muxHeaderBytes]
    omega
  have hne : forgedInput tail ≠ [] := by
    intro hx
    rw [hx] at hlen
    simp at hlen
  obtain ⟨hidle, -, -, hacc, hwait⟩ := Link.write_open (Link.start_idle ⟨2, 524288, 2 ^ 32⟩ [1, 3])
    (show ((Link.start ⟨2, 524288, 2 ^ 32⟩ [1, 3]).a.stream 1).isSome by decide) rfl hne
  obtain ⟨hb, hdel⟩ := (Link.start ⟨2, 524288, 2 ^ 32⟩ [1, 3]).write_receiving 1 (forgedInput tail) [] []
  have hsplit : (Link.start ⟨2, 524288, 2 ^ 32⟩ [1, 3]).a.splitSendSize = 2 ^ 32 := rfl
  have hacc : (Link.write (Link.start ⟨2, 524288, 2 ^ 32⟩ [1, 3]) 1 (forgedInput tail) [] []).accepted 3 = [] :=
    hacc 3 (by decide)
  have hwait : (Link.write (Link.start ⟨2, 524288, 2 ^ 32⟩ [1, 3]) 1 (forgedInput tail) [] []).waiting 3 = none := by
    rw [hwait]; rfl
  have hbetween := Link.start_between ⟨2, 524288, 2 ^ 32⟩ [1, 3]
  have hstream : (Link.start ⟨2, 524288, 2 ^ 32⟩ [1, 3]).b.stream 1 = some {} ∧
      (Link.start ⟨2, 524288, 2 ^ 32⟩ [1, 3]).b.stream 3 = some {} := by decide
  have hlimits : (Link.start ⟨2, 524288, 2 ^ 32⟩ [1, 3]).b.splitSendSize = 2 ^ 32 ∧
      (Link.start ⟨2, 524288, 2 ^ 32⟩ [1, 3]).b.receiveLimit = 524288 ∧
      (Link.start ⟨2, 524288, 2 ^ 32⟩ [1, 3]).b.receivedBytes = 0 := ⟨rfl, rfl, rfl⟩
  rw [← hb] at hbetween hstream hlimits
  rw [hsplit, List.take_of_length_le (Nat.le_of_eq hlen)] at hidle
  -- the length field of a payload of 2 ^ 32 bytes says zero
  have hwire : (Link.write (Link.start ⟨2, 524288, 2 ^ 32⟩ [1, 3]) 1 (forgedInput tail) [] []).a.sentBytes =
      headerOf .frameData 1 0 ++ ([] ++ forgedInput tail) := by
    simp only [Connection.sentBytes, hidle.io, Option.elim_some]
    change [] ++ (headerOf .frameData 1 (forgedInput tail).length ++ forgedInput tail) = _
    rw [hlen, show headerOf .frameData 1 (2 ^ 32) = headerOf .frameData 1 0 by decide]
    rfl
  rw [forgedTransfers]
  simp only [Guarded, Link.WithinLimit, run_cons, run_nil, Link.step]
  generalize Link.write (Link.start ⟨2, 524288, 2 ^ 32⟩ [1, 3]) 1 (forgedInput tail) [] [] = l₁
    at hidle hacc hwait hbetween hstream hlimits hwire hdel
  -- stream 1 gets an empty frame
  have hready := Link.receiver_open hbetween hwire
  have hincoming : ({ incoming := headerOf .frameData 1 0 ++ ([] ++ forgedInput tail) } : Script).incoming =
      headerOf .frameData 1 ([] : List UInt8).length ++ ([] ++ forgedInput tail) := rfl
  have hroom : (l₁.receiver []).receivedBytes + ([] : List UInt8).length ≤ (l₁.receiver []).receiveLimit := by
    rw [show (l₁.receiver []).receivedBytes = 0 from hlimits.2.2]
    exact Nat.zero_le _
  have hknown : ((l₁.receiver []).stream 1).isSome := by
    rw [show (l₁.receiver []).stream 1 = some {} from hstream.1]
    rfl
  obtain ⟨hok, -⟩ := hready.drive hincoming (Nat.two_pow_pos 32) (Nat.zero_le _) hroom hknown
  obtain ⟨hnext, hbytes, hlimit, hsize, hothers⟩ :=
    hready.drive_between hincoming (Nat.two_pow_pos 32) (Nat.zero_le _) hroom hknown
  rw [hok]
  generalize (l₁.receiver []).pollDrive.2 = d at hnext hbytes hlimit hsize hothers
  -- and the reader of stream 3 the byte of the forged frame
  have hwire₂ : (⟨l₁.a, d, l₁.waiting, l₁.accepted, l₁.delivered⟩ : Link).a.sentBytes =
      ([] ++ (headerOf .frameData 1 0 ++ [])) ++ forgedInput tail := hwire
  have hready₂ := Link.receiver_open (l := ⟨l₁.a, d, l₁.waiting, l₁.accepted, l₁.delivered⟩) hnext hwire₂
  have hincoming₂ : forgedInput tail = headerOf .frameData 3 ([7] : List UInt8).length ++ ([7] ++ tail) := rfl
  have hstream₂ : d.stream 3 = some {} := (hothers 3 (by decide)).trans hstream.2
  have hread := hready₂.read hincoming₂ (by simp) (by decide)
    (by rw [show (Link.receiver ⟨l₁.a, d, l₁.waiting, l₁.accepted, l₁.delivered⟩ []).splitSendSize = d.splitSendSize
          from rfl, hsize, show (l₁.receiver []).splitSendSize = 2 ^ 32 from hlimits.1]; decide)
    (by
      have h1 : d.receivedBytes = 0 :=
        hbytes.trans (by rw [show (l₁.receiver []).receivedBytes = 0 from hlimits.2.2]; rfl)
      have h2 : d.receiveLimit = 524288 := hlimit.trans hlimits.2.1
      change d.receivedBytes + 1 ≤ d.receiveLimit
      omega) hstream₂
  simp only [List.length_singleton] at hread
  refine ⟨⟨trivial, by simp, by rw [hread]; simp, trivial⟩, fun hx => ?_⟩
  have hlen := hx.length_le
  simp only [Link.read, hread, readBytes_ok, Function.update_self, hacc, hwait, Option.getD_none,
    List.take_nil, List.length_append, List.length_nil, List.length_singleton] at hlen
  omega

/-- A write of `2 ^ 32` bytes on stream 1 delivers a byte on stream 3. -/
theorem length_field_wraps :
    Guarded Link.step Link.WithinLimit (Link.start ⟨2, 524288, 2 ^ 32⟩ [1, 3])
        (forgedTransfers (List.replicate (2 ^ 32 - 10) 0)) ∧
      ¬ (run Link.step (Link.start ⟨2, 524288, 2 ^ 32⟩ [1, 3])
        (forgedTransfers (List.replicate (2 ^ 32 - 10) 0))).InOrder 3 :=
  forged_delivery List.length_replicate

end Snolc.Mux
