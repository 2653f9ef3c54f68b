import Snolc.MuxDatagramPolls
import Snolc.MuxLink
import Snolc.MuxTaskReads

set_option autoImplicit false

namespace Snolc.Mux
open PollIo SlotTable MuxFrame GuardedRuns ScriptedIo CoreIo WireFormat ByteOrder

/-- A stream of a link and the answers of the pipe that are left: side `a` writes it, side `b` reads it. -/
structure PipeEnd where
  link : Link
  id : StreamId
  writes : List ℕ := []
  flushes : List Bool := []
  reads : List ℕ := []

namespace PipeEnd

/-- The answers that a connection leaves. -/
def left {α : Type} (c : Connection Script) (answers : Script → List α) : List α := c.io.elim [] answers

def pollWrite (e : PipeEnd) (input : List UInt8) : IoPoll ℕ × PipeEnd :=
  let r := (e.link.sender e.writes e.flushes).pollData e.id input
  (r.1,
    { e with
      link := e.link.answer e.id input r
      writes := left r.2 Script.writes
      flushes := left r.2 Script.flushes })

def pollFlush (e : PipeEnd) : IoPoll Unit × PipeEnd :=
  let r := (e.link.sender e.writes e.flushes).pollFlushWrite
  (r.1, { e with link := { e.link with a := r.2 } })

def pollRead (e : PipeEnd) (room : ℕ) : IoPoll (List UInt8) × PipeEnd :=
  let r := (e.link.receiver e.reads).pollRead e.id room
  (r.1, { e with link := e.link.read e.id room e.reads, reads := left r.2 Script.reads })

instance : AsyncIo PipeEnd := ⟨pollRead, pollWrite, pollFlush⟩

end PipeEnd

/-- A link with the codecs of its UDP flows, the datagrams whose sending was reported and those that were received. -/
structure DatagramLink where
  link : Link
  udp : StreamId → Bool
  sender : StreamId → MuxDatagramIo Unit
  receiver : StreamId → MuxDatagramIo Unit
  sent : StreamId → List (List UInt8)
  received : StreamId → List (List UInt8)

inductive Exchange where
  | send (id : StreamId) (datagram : List UInt8) (writes : List ℕ) (flushes : List Bool)
  | recv (id : StreamId) (room : ℕ) (reads : List ℕ)
  | transfer (t : Transfer)

/-- The stream whose bytes a transfer moves. -/
def Transfer.stream? : Transfer → Option StreamId
  | .write id _ _ _ | .read id _ _ => some id
  | .drive _ => none

namespace DatagramLink

def start (config : YamuxConfig) (ids : List StreamId) (udp : StreamId → Bool) : DatagramLink where
  link := .start config ids
  udp := udp
  sender _ := .new ()
  receiver _ := .new ()
  sent _ := []
  received _ := []

def sending (l : DatagramLink) (id : StreamId) (writes : List ℕ) (flushes : List Bool) : MuxDatagramIo PipeEnd :=
  (l.sender id).onto { link := l.link, id, writes, flushes }

def receiving (l : DatagramLink) (id : StreamId) (reads : List ℕ) : MuxDatagramIo PipeEnd :=
  (l.receiver id).onto { link := l.link, id, reads }

def reported (datagram : List UInt8) : IoPoll Unit → List (List UInt8)
  | .ready (.ok ()) => [datagram]
  | _ => []

def send (l : DatagramLink) (id : StreamId) (datagram : List UInt8) (writes : List ℕ) (flushes : List Bool) :
    DatagramLink :=
  let r := (l.sending id writes flushes).pollSendDatagram datagram
  { l with
    link := r.2.stream.link
    sender := Function.update l.sender id (r.2.onto ())
    sent := Function.update l.sent id (l.sent id ++ reported datagram r.1) }

def recv (l : DatagramLink) (id : StreamId) (room : ℕ) (reads : List ℕ) : DatagramLink :=
  let r := (l.receiving id reads).pollRecvDatagram room
  { l with
    link := r.2.stream.link
    receiver := Function.update l.receiver id (r.2.onto ())
    received := Function.update l.received id (l.received id ++ handedOut r.1) }

/-- Datagrams move on the streams of UDP flows that are open, other bytes on the other streams. -/
def step (l : DatagramLink) : Exchange → DatagramLink
  | .send id datagram writes flushes =>
    if l.udp id ∧ (l.link.a.stream id).isSome then l.send id datagram writes flushes else l
  | .recv id room reads => if l.udp id then l.recv id room reads else l
  | .transfer t => if t.stream?.any l.udp then l else { l with link := l.link.step t }

def WithinLimit (l : DatagramLink) : Exchange → Prop
  | .send _ _ _ _ => True
  | .recv id room reads => ((l.receiving id reads).pollRecvDatagram room).1 ≠ .ready (.error Connection.limitError)
  | .transfer t => l.link.WithinLimit t ∧ l.link.Announced t

instance (l : DatagramLink) : (x : Exchange) → Decidable (l.WithinLimit x)
  | .send _ _ _ _ => isTrue trivial
  | .recv _ _ _ => inferInstanceAs (Decidable (_ ≠ _))
  | .transfer _ => inferInstanceAs (Decidable (_ ∧ _))

def inFlight (l : DatagramLink) (id : StreamId) : List (List UInt8) :=
  if (l.sender id).sendFrame = [] then [] else [(l.sender id).sendFrame.drop 2]

end DatagramLink

namespace Link
variable {l : Link} {split : ℕ} {ids : List StreamId} {id : StreamId}

/-- Nothing is written or read on the stream between the two. -/
structure Apart (id : StreamId) (l l' : Link) : Prop where
  waiting : l'.waiting id = l.waiting id
  accepted : l'.accepted id = l.accepted id
  delivered : l'.delivered id = l.delivered id

theorem Apart.trans {l' l'' : Link} (h : Apart id l l') (h' : Apart id l' l'') : Apart id l l'' :=
  ⟨h'.waiting.trans h.waiting, h'.accepted.trans h.accepted, h'.delivered.trans h.delivered⟩

theorem write_apart {other : StreamId} (hne : other ≠ id) (input : List UInt8) (writes : List ℕ)
    (flushes : List Bool) : Apart other l (l.write id input writes flushes) := by
  unfold write
  split
  · unfold answer
    split
    · exact ⟨Function.update_of_ne hne _ _, Function.update_of_ne hne _ _, rfl⟩
    · exact ⟨Function.update_of_ne hne _ _, rfl, rfl⟩
  · exact ⟨rfl, rfl, rfl⟩

theorem step_apart {t : Transfer} (h : t.stream? ≠ some id) : Apart id l (l.step t) := by
  cases t with
  | write other input writes flushes => exact write_apart (fun hx => h (congrArg some hx.symm)) input writes flushes
  | read other room reads => exact ⟨rfl, rfl, Function.update_of_ne (fun hx => h (congrArg some hx.symm)) _ _⟩
  | drive reads => exact ⟨rfl, rfl, rfl⟩

/-- A write that retries what is waiting, if anything: how much it can take, and what it leaves. -/
theorem Joined.offer (h : Joined split ids l) (hs : (l.a.stream id).isSome) {rest : List UInt8} (hne : rest ≠ [])
    (hwait : l.waiting id = none ∨ l.waiting id = some rest) (writes : List ℕ) (flushes : List Bool) :
    (∀ n, ((l.sender writes flushes).pollData id rest).1 = .ready (.ok n) → n ≤ rest.length) ∧
      ((((l.sender writes flushes).pollData id rest).2).stream id).isSome := by
  obtain ⟨sent, got, part, hsends, -⟩ := h
  obtain ⟨hout, hledger, -⟩ := hsends.sender writes flushes
  obtain ⟨sent', -, hstep, hkept⟩ := Connection.pollData_spec hout hledger hsends.opened id hs hne
  refine ⟨fun n hn => ?_, (hkept.inbound.isSome id).trans hs⟩
  have howed : (l.sender writes flushes).outstanding id ≤ rest.length := by
    change l.a.outstanding id ≤ rest.length
    rcases hsends.data id with ⟨hz, -⟩ | ⟨input, hw, ho, -⟩
    · omega
    · rcases hwait with hx | hx
      · cases hw.symm.trans hx
      · cases hw.symm.trans hx
        omega
  rcases hstep with ⟨hres, -, -⟩ | ⟨hres, -, -⟩ | ⟨-, -, ⟨hres, -⟩ | ⟨hres, -⟩⟩
  · cases hn.symm.trans hres
    exact howed
  · exact absurd hn (hres n)
  · cases hn.symm.trans hres
    exact Nat.min_le_left _ _
  · exact absurd hn (hres n)

end Link

/-- What the writer of a stream was told is accepted, and the one frame that may be under way besides. -/
def Link.underway (l : Link) (id : StreamId) : List UInt8 :=
  l.accepted id ++ ((l.waiting id).getD []).take l.a.splitSendSize

namespace PipeEnd
variable {split : ℕ} {ids : List StreamId} {l : Link} {id : StreamId}

/-- An end of a link that was `l`, whose writer has `rest` of `total` left to write. -/
structure Writing (split : ℕ) (ids : List StreamId) (l : Link) (id : StreamId) (total : List UInt8) (e : PipeEnd)
    (rest : List UInt8) : Prop where
  own : e.id = id
  joined : e.link.Joined split ids
  opened : (e.link.a.stream id).isSome
  waiting : e.link.waiting id = none ∨ e.link.waiting id = some rest
  accepted : e.link.accepted id ++ rest = total
  short : rest.length < 2 ^ 32
  apart : ∀ other, other ≠ id → Link.Apart other l e.link
  delivered : e.link.delivered = l.delivered

theorem writing_accepts (total : List UInt8) : CoreIo.Accepts (Writing split ids l id total) := by
  intro e rest hne h
  obtain ⟨hbound, hopened⟩ := h.joined.offer h.opened hne h.waiting e.writes e.flushes
  have hoffered : e.link.offered id rest = rest := by
    rcases h.waiting with hw | hw <;> rw [Link.offered, hw] <;> rfl
  have hwrite : e.link.write id rest e.writes e.flushes =
      e.link.answer id rest ((e.link.sender e.writes e.flushes).pollData id rest) := by
    rw [Link.write, if_pos h.opened, hoffered]
  have hjoined := h.joined.write id rest e.writes e.flushes (by
    change min (e.link.offered id rest).length _ < _
    rw [hoffered]
    have hshort := h.short
    omega)
  have hapart := fun other (hother : other ≠ id) =>
    (h.apart other hother).trans (Link.write_apart hother rest e.writes e.flushes)
  have hdelivered := (e.link.write_receiving id rest e.writes e.flushes).2.trans h.delivered
  rw [hwrite] at hjoined hapart hdelivered
  obtain rfl := h.own
  change (∀ n, ((e.link.sender e.writes e.flushes).pollData e.id rest).1 = .ready (.ok n) → _) ∧
    ((∀ n, ((e.link.sender e.writes e.flushes).pollData e.id rest).1 ≠ .ready (.ok n)) → _)
  constructor
  · intro n hn
    refine ⟨hbound n hn, rfl, hjoined, ?_, ?_, ?_, ?_, hapart, hdelivered⟩
    · change (Link.a (e.link.answer e.id rest _)).stream e.id |>.isSome
      rw [Link.answer_ok e.link e.id rest hn]
      exact hopened
    · left
      change Link.waiting (e.link.answer e.id rest _) e.id = none
      rw [Link.answer_ok e.link e.id rest hn]
      exact Function.update_self _ _ _
    · change Link.accepted (e.link.answer e.id rest _) e.id ++ rest.drop n = total
      rw [Link.answer_ok e.link e.id rest hn]
      dsimp only
      rw [Function.update_self, List.append_assoc, List.take_append_drop]
      exact h.accepted
    · rw [List.length_drop]
      exact Nat.lt_of_le_of_lt (Nat.sub_le _ _) h.short
  · intro hn
    refine ⟨rfl, hjoined, ?_, ?_, ?_, h.short, hapart, hdelivered⟩
    · change (Link.a (e.link.answer e.id rest _)).stream e.id |>.isSome
      rw [Link.answer_unanswered e.link e.id rest hn]
      exact hopened
    · right
      change Link.waiting (e.link.answer e.id rest _) e.id = some rest
      rw [Link.answer_unanswered e.link e.id rest hn]
      exact Function.update_self _ _ _
    · change Link.accepted (e.link.answer e.id rest _) e.id ++ rest = total
      rw [Link.answer_unanswered e.link e.id rest hn]
      dsimp only
      rw [Function.update_self]
      exact h.accepted

/-- An end of a link that was `l`, from which only the reader of the stream has taken more. -/
structure Reading (split : ℕ) (ids : List StreamId) (l : Link) (id : StreamId) (e : PipeEnd) : Prop where
  own : e.id = id
  joined : e.link.Joined split ids
  sender : e.link.a = l.a
  waiting : e.link.waiting = l.waiting
  accepted : e.link.accepted = l.accepted
  others : ∀ other, other ≠ id → e.link.delivered other = l.delivered other

theorem reading_serves : CoreIo.Serves (fun e => (l.underway id).drop (e.link.delivered id).length)
    (Reading split ids l id) (· = Connection.limitError) := by
  intro e room h
  by_cases hlimit : ((e.link.receiver e.reads).pollRead e.id room).1 = .ready (.error Connection.limitError)
  · exact .inl ⟨_, rfl, hlimit⟩
  right
  have hjoined : (e.link.read e.id room e.reads).Joined split ids :=
    Link.Joined.step e.link (.read e.id room e.reads) h.joined ⟨hlimit, trivial⟩
  obtain rfl := h.own
  refine ⟨⟨rfl, hjoined, h.sender, h.waiting, h.accepted, fun other hne =>
    (Function.update_of_ne hne _ _).trans (h.others other hne)⟩, Connection.pollRead_bound _ e.id room, ?_⟩
  have hunderway : (e.link.read e.id room e.reads).underway e.id = l.underway e.id := by
    unfold Link.underway
    change e.link.accepted e.id ++ ((e.link.waiting e.id).getD []).take e.link.a.splitSendSize = _
    rw [h.sender, h.waiting, h.accepted]
  obtain ⟨more, hmore⟩ := hjoined.inOrder e.id
  change _ = (e.link.read e.id room e.reads).underway e.id at hmore
  have hdelivered : (e.link.read e.id room e.reads).delivered e.id =
      e.link.delivered e.id ++ readBytes ((e.link.receiver e.reads).pollRead e.id room).1 :=
    Function.update_self _ _ _
  change (l.underway e.id).drop (e.link.delivered e.id).length =
    readBytes ((e.link.receiver e.reads).pollRead e.id room).1 ++
      (l.underway e.id).drop ((e.link.read e.id room e.reads).delivered e.id).length
  rw [← hunderway, ← hmore, List.drop_left, hdelivered, List.append_assoc, List.drop_left]

end PipeEnd

section Flows
variable {split : ℕ} {ids : List StreamId} {l : Link} {id : StreamId}

/-- The writing side of a flow: the records of `sent` are accepted, and a part of the frame in the making. -/
structure Outgoing (l : Link) (d : MuxDatagramIo Unit) (sent : List (List UInt8)) (id : StreamId) : Prop where
  frame : d.sendFrame = [] ∨ ∃ datagram, datagram.length ≤ maxUdpPayload ∧ d.sendFrame = record datagram
  offset : d.sendOffset ≤ d.sendFrame.length
  waiting : l.waiting id = none ∨ l.waiting id = some (d.sendFrame.drop d.sendOffset)
  accepted : l.accepted id = records sent ++ d.sendFrame.take d.sendOffset
  short : ∀ datagram ∈ sent, datagram.length ≤ maxUdpPayload

/-- The reading side of a flow: the records of `received` are taken, and a part of the next one. -/
structure Incoming (l : Link) (d : MuxDatagramIo Unit) (received : List (List UInt8)) (id : StreamId) : Prop where
  held : ∃ held, d.Reads (fun _ => []) held ∧ l.delivered id = records received ++ held
  short : ∀ datagram ∈ received, datagram.length ≤ maxUdpPayload

/-- What a poll of a send leaves of a link. -/
structure SendKept (split : ℕ) (ids : List StreamId) (l l' : Link) (id : StreamId) : Prop where
  joined : l'.Joined split ids
  apart : ∀ other, other ≠ id → Link.Apart other l l'
  delivered : l'.delivered = l.delivered

theorem Outgoing.rest {d : MuxDatagramIo Unit} {sent : List (List UInt8)} {datagram : List UInt8}
    (hframe : d.sendFrame = record datagram) (hlength : datagram.length ≤ maxUdpPayload)
    (h : Outgoing l d sent id) (hj : l.Joined split ids) (hs : (l.a.stream id).isSome) (writes : List ℕ)
    (flushes : List Bool) :
    let r := (d.onto ({ link := l, id, writes, flushes } : PipeEnd)).sendRest
    SendKept split ids l r.2.stream.link id ∧
      Outgoing r.2.stream.link (r.2.onto ()) (sent ++ DatagramLink.reported datagram r.1) id := by
  have hshort : (record datagram).length < 2 ^ 32 := by
    rw [record_length]
    have hmax : maxUdpPayload < 2 ^ 31 := by decide
    omega
  have haccepts : CoreIo.Accepts (PipeEnd.Writing split ids l id (records sent ++ record datagram)) :=
    PipeEnd.writing_accepts _
  have hwritten := MuxDatagramIo.sendLoop_written haccepts
    (d.sendFrame.length - d.sendOffset) (d.onto ({ link := l, id, writes, flushes } : PipeEnd)) h.offset
    (Nat.le_refl _) ⟨rfl, hj, hs, h.waiting, by
      change l.accepted id ++ d.sendFrame.drop d.sendOffset = _
      rw [h.accepted, List.append_assoc, List.take_append_drop, hframe], by
      change (d.sendFrame.drop d.sendOffset).length < _
      rw [hframe, List.length_drop]
      omega, fun other _ => ⟨rfl, rfl, rfl⟩, rfl⟩
  change MuxDatagramIo.Written _ _ (MuxDatagramIo.sendRest (d.onto _)) at hwritten
  intro r
  change MuxDatagramIo.Written _ _ r at hwritten
  clear_value r
  obtain ⟨result, d'⟩ := r
  obtain ⟨rfl, hP, hd'⟩ | ⟨hno, k, hk, hP, hd'⟩ := hwritten
  · refine ⟨⟨hP.joined, hP.apart, hP.delivered⟩, ?_⟩
    dsimp only at hP hd' ⊢
    rw [hd']
    refine ⟨.inl rfl, Nat.le_refl _, hP.waiting, ?_, ?_⟩
    · have haccepted := hP.accepted
      rw [List.append_nil] at haccepted
      change d'.stream.link.accepted id = records (sent ++ [datagram]) ++ []
      rw [haccepted, records_append, records_cons, records_nil, List.append_nil, List.append_nil]
    · intro other hin
      rcases List.mem_append.mp hin with hin | hin
      · exact h.short other hin
      · obtain rfl := List.mem_singleton.mp hin
        exact hlength
  · have hreported : DatagramLink.reported datagram result = [] := by
      unfold DatagramLink.reported
      split
      · exact absurd rfl hno
      · rfl
    refine ⟨⟨hP.joined, hP.apart, hP.delivered⟩, ?_⟩
    dsimp only at hP hd' hk ⊢
    rw [hd', hreported, List.append_nil]
    refine ⟨.inr ⟨datagram, hlength, hframe⟩, hk, hP.waiting, ?_, h.short⟩
    have haccepted := hP.accepted
    change d'.stream.link.accepted id ++ d.sendFrame.drop k = _ at haccepted
    have hsplit : records sent ++ record datagram = (records sent ++ d.sendFrame.take k) ++ d.sendFrame.drop k := by
      rw [List.append_assoc, List.take_append_drop, hframe]
    exact List.append_cancel_right (haccepted.trans hsplit)

theorem Outgoing.poll {d : MuxDatagramIo Unit} {sent : List (List UInt8)} (h : Outgoing l d sent id)
    (hj : l.Joined split ids) (hs : (l.a.stream id).isSome) (datagram : List UInt8) (writes : List ℕ)
    (flushes : List Bool) :
    let r := (d.onto ({ link := l, id, writes, flushes } : PipeEnd)).pollSendDatagram datagram
    SendKept split ids l r.2.stream.link id ∧
      Outgoing r.2.stream.link (r.2.onto ()) (sent ++ DatagramLink.reported datagram r.1) id := by
  have hrefused (e : IoError) : let r : IoPoll Unit × MuxDatagramIo PipeEnd :=
      (.ready (.error e), d.onto ({ link := l, id, writes, flushes } : PipeEnd))
      SendKept split ids l r.2.stream.link id ∧
        Outgoing r.2.stream.link (r.2.onto ()) (sent ++ DatagramLink.reported datagram r.1) id := by
    refine ⟨⟨hj, fun _ _ => ⟨rfl, rfl, rfl⟩, rfl⟩, ?_⟩
    change Outgoing l d (sent ++ []) id
    rw [List.append_nil]
    exact h
  intro r
  unfold r MuxDatagramIo.pollSendDatagram
  split
  · exact hrefused _
  · next hlength =>
    split
    · next hnil =>
      -- a new frame
      have hnil : d.sendFrame = [] := hnil
      have hwaiting : l.waiting id = none := by
        obtain ⟨sent', got, part, hsends, -⟩ := hj
        rcases h.waiting with hw | hw
        · exact hw
        · rw [hnil, List.drop_nil] at hw
          exact absurd rfl (hsends.waits id [] hw)
      have hzero : d.sendOffset = 0 := by
        have hoffset := h.offset
        rw [hnil, List.length_nil] at hoffset
        omega
      refine Outgoing.rest (d := { d with sendFrame := record datagram }) rfl (Nat.le_of_not_lt hlength)
        ⟨.inr ⟨datagram, Nat.le_of_not_lt hlength, rfl⟩, ?_, .inl hwaiting, ?_, h.short⟩ hj hs writes flushes
      · dsimp only
        rw [hzero]
        exact Nat.zero_le _
      · have haccepted := h.accepted
        rw [hnil, List.take_nil] at haccepted
        dsimp only
        rw [hzero, List.take_zero]
        exact haccepted
    · next hbusy =>
      split
      · exact hrefused _
      · next hsame =>
        -- the frame in the making is that of the datagram
        obtain hnil | ⟨other, hother, hframe⟩ := h.frame
        · exact absurd hnil hbusy
        · obtain ⟨-, hsame⟩ := not_or.mp hsame
          have hdatagram : other = datagram := by
            rw [not_not] at hsame
            change d.sendFrame.drop 2 = datagram at hsame
            rw [hframe, record, List.drop_left' (toBytes_length 2 _)] at hsame
            exact hsame
          exact Outgoing.rest (hdatagram ▸ hframe) (hdatagram ▸ hother) h hj hs writes flushes

/-- What a poll of a receive leaves of a link. -/
structure RecvKept (split : ℕ) (ids : List StreamId) (l l' : Link) (id : StreamId) : Prop where
  joined : l'.Joined split ids
  apart : ∀ other, other ≠ id → Link.Apart other l l'
  waiting : l'.waiting = l.waiting
  accepted : l'.accepted = l.accepted

theorem Incoming.poll {d : MuxDatagramIo Unit} {received : List (List UInt8)} (h : Incoming l d received id)
    (hj : l.Joined split ids) (room : ℕ) (reads : List ℕ)
    (hlimit : ((d.onto ({ link := l, id, reads } : PipeEnd)).pollRecvDatagram room).1 ≠
      .ready (.error Connection.limitError)) :
    let r := (d.onto ({ link := l, id, reads } : PipeEnd)).pollRecvDatagram room
    RecvKept split ids l r.2.stream.link id ∧
      Incoming r.2.stream.link (r.2.onto ()) (received ++ handedOut r.1) id := by
  obtain ⟨held, hreads, hdelivered⟩ := h.held
  have hserves : CoreIo.Serves (fun e => (l.underway id).drop (e.link.delivered id).length)
      (PipeEnd.Reading split ids l id) (· = Connection.limitError) := PipeEnd.reading_serves
  have hholds : (d.onto ({ link := l, id, reads } : PipeEnd)).Reads
      (fun e => (l.underway id).drop (e.link.delivered id).length)
      (held ++ (l.underway id).drop (l.delivered id).length) := by
    refine ⟨⟨hreads.size, hreads.prefixLen, hreads.payloadLen, hreads.payload, ?_⟩, hreads.short⟩
    have hleft := hreads.left
    rw [List.append_nil] at hleft
    rw [hleft]
    rfl
  have hreturned := MuxDatagramIo.recv_returned hserves
    (⟨rfl, hj, rfl, rfl, rfl, fun _ _ => rfl⟩ : PipeEnd.Reading split ids l id
      (d.onto ({ link := l, id, reads } : PipeEnd)).stream) hholds room
  intro r
  change MuxDatagramIo.Returned _ _ _ _ r at hreturned
  change r.1 ≠ _ at hlimit
  clear_value r
  obtain ⟨e, rfl, he⟩ | ⟨hP, left, hleft, hsplit, hshort⟩ := hreturned
  · exact absurd he hlimit
  have hunderway : r.2.stream.link.underway id = l.underway id := by
    unfold Link.underway
    rw [hP.sender, hP.waiting, hP.accepted]
  have hbefore : l.underway id = l.delivered id ++ (l.underway id).drop (l.delivered id).length :=
    (List.prefix_iff_eq_append.mp (hj.inOrder id)).symm
  have hafter : l.underway id = r.2.stream.link.delivered id ++
      (l.underway id).drop (r.2.stream.link.delivered id).length :=
    hunderway ▸ (List.prefix_iff_eq_append.mp (hP.joined.inOrder id)).symm
  refine ⟨⟨hP.joined, fun other hne => ⟨congrFun hP.waiting other, congrFun hP.accepted other, hP.others other hne⟩,
    hP.waiting, hP.accepted⟩, ⟨r.2.readPrefix.take r.2.readPrefixLen ++ r.2.readPayload.take r.2.readPayloadLen,
      ⟨⟨hleft.size, hleft.prefixLen, hleft.payloadLen, hleft.payload, (List.append_nil _).symm⟩, hleft.short⟩, ?_⟩, ?_⟩
  · have hend : l.underway id = (records (received ++ handedOut r.1) ++ (r.2.readPrefix.take r.2.readPrefixLen ++
        r.2.readPayload.take r.2.readPayloadLen)) ++ (l.underway id).drop (r.2.stream.link.delivered id).length := by
      have hrest := hleft.left
      rw [hrest, ← List.append_assoc] at hsplit
      calc l.underway id = records received ++ (held ++ (l.underway id).drop (l.delivered id).length) := by
            rw [← List.append_assoc, ← hdelivered]
            exact hbefore
        _ = _ := by rw [hsplit, records_append]; simp only [List.append_assoc]
    exact List.append_cancel_right (hafter.symm.trans hend)
  · intro other hin
    rcases List.mem_append.mp hin with hin | hin
    · exact h.short other hin
    · exact hshort other hin

theorem Outgoing.moved {l' : Link} {d : MuxDatagramIo Unit} {sent : List (List UInt8)} (h : Outgoing l d sent id)
    (ha : Link.Apart id l l') : Outgoing l' d sent id :=
  ⟨h.frame, h.offset, ha.waiting ▸ h.waiting, ha.accepted.trans h.accepted, h.short⟩

theorem Outgoing.unread {l' : Link} {d : MuxDatagramIo Unit} {sent : List (List UInt8)} (h : Outgoing l d sent id)
    (hw : l'.waiting = l.waiting) (ha : l'.accepted = l.accepted) : Outgoing l' d sent id :=
  ⟨h.frame, h.offset, hw ▸ h.waiting, ha ▸ h.accepted, h.short⟩

theorem Incoming.moved {l' : Link} {d : MuxDatagramIo Unit} {received : List (List UInt8)}
    (h : Incoming l d received id) (hd : l'.delivered id = l.delivered id) : Incoming l' d received id :=
  ⟨h.held.imp fun _ hheld => ⟨hheld.1, hd.trans hheld.2⟩, h.short⟩

end Flows

namespace DatagramLink
variable {split : ℕ} {ids : List StreamId} {udp : StreamId → Bool} {l : DatagramLink}

structure Sound (split : ℕ) (ids : List StreamId) (udp : StreamId → Bool) (l : DatagramLink) : Prop where
  flows : l.udp = udp
  joined : l.link.Joined split ids
  outgoing : ∀ id, udp id = true → Outgoing l.link (l.sender id) (l.sent id) id
  incoming : ∀ id, udp id = true → Incoming l.link (l.receiver id) (l.received id) id

theorem Sound.send (h : Sound split ids udp l) {id : StreamId} (hs : (l.link.a.stream id).isSome)
    (hudp : udp id = true) (datagram : List UInt8) (writes : List ℕ) (flushes : List Bool) :
    Sound split ids udp (l.send id datagram writes flushes) := by
  obtain ⟨hkept, hout⟩ := (h.outgoing id hudp).poll h.joined hs datagram writes flushes
  refine ⟨h.flows, hkept.joined, fun other hother => ?_, fun other hother =>
    (h.incoming other hother).moved (congrFun hkept.delivered other)⟩
  by_cases he : other = id
  · subst he
    unfold DatagramLink.send
    dsimp only
    rw [Function.update_self, Function.update_self]
    exact hout
  · have hmoved := (h.outgoing other hother).moved (hkept.apart other he)
    unfold DatagramLink.send
    dsimp only
    rw [Function.update_of_ne he, Function.update_of_ne he]
    exact hmoved

theorem Sound.recv (h : Sound split ids udp l) {id : StreamId} (hudp : udp id = true) (room : ℕ) (reads : List ℕ)
    (hlimit : l.WithinLimit (.recv id room reads)) : Sound split ids udp (l.recv id room reads) := by
  obtain ⟨hkept, hin⟩ := (h.incoming id hudp).poll h.joined room reads hlimit
  refine ⟨h.flows, hkept.joined, fun other hother =>
    (h.outgoing other hother).unread hkept.waiting hkept.accepted, fun other hother => ?_⟩
  by_cases he : other = id
  · subst he
    unfold DatagramLink.recv
    dsimp only
    rw [Function.update_self, Function.update_self]
    exact hin
  · have hmoved := (h.incoming other hother).moved (hkept.apart other he).delivered
    unfold DatagramLink.recv
    dsimp only
    rw [Function.update_of_ne he, Function.update_of_ne he]
    exact hmoved

theorem Sound.step (l : DatagramLink) (x : Exchange) (h : Sound split ids udp l) (hg : l.WithinLimit x) :
    Sound split ids udp (l.step x) := by
  cases x with
  | send id datagram writes flushes =>
    rw [DatagramLink.step]
    split
    · next hsend => exact h.send hsend.2 (h.flows ▸ hsend.1) datagram writes flushes
    · exact h
  | recv id room reads =>
    rw [DatagramLink.step]
    split
    · next hudp => exact h.recv (h.flows ▸ hudp) room reads hg
    · exact h
  | transfer t =>
    rw [DatagramLink.step]
    split
    · exact h
    · next hplain =>
      have hapart (id : StreamId) (hudp : udp id = true) : Link.Apart id l.link (l.link.step t) := by
        refine Link.step_apart fun hx => hplain ?_
        rw [hx, h.flows]
        exact hudp
      exact ⟨h.flows, Link.Joined.step l.link t h.joined hg, fun id hudp => (h.outgoing id hudp).moved (hapart id hudp),
        fun id hudp => (h.incoming id hudp).moved (hapart id hudp).delivered⟩

theorem Sound.start (config : YamuxConfig) (ids : List StreamId) (udp : StreamId → Bool) :
    Sound config.splitSendSize ids udp (start config ids udp) where
  flows := rfl
  joined := Link.Joined.start config ids
  outgoing _ _ := ⟨.inl rfl, Nat.le_refl _, .inl rfl, rfl, fun _ hin => by cases hin⟩
  incoming _ _ := ⟨⟨[], ⟨⟨rfl, Nat.zero_le _, Nat.le_refl _, fun hx => absurd rfl hx, rfl⟩, Nat.zero_le _⟩, rfl⟩,
    fun _ hin => by cases hin⟩

/-- What the reader of a flow can rely on: the datagrams it received are a beginning of those sent and the one being
    sent, and all of them once its stream has nothing more for it. -/
structure Delivered (l : DatagramLink) (id : StreamId) : Prop where
  inOrder : l.received id <+: l.sent id ++ l.inFlight id
  whole : l.inFlight id = [] → l.link.delivered id = l.link.accepted id → (l.receiver id).readPrefixLen = 0 →
    l.received id = l.sent id

/-- The frame in the making is the record of the datagram in flight. -/
theorem Sound.inFlight (h : Sound split ids udp l) {id : StreamId} (hudp : udp id = true) :
    records (l.inFlight id) = (l.sender id).sendFrame ∧
      ∀ datagram ∈ l.inFlight id, datagram.length ≤ maxUdpPayload := by
  unfold DatagramLink.inFlight
  obtain hnil | ⟨datagram, hlength, hframe⟩ := (h.outgoing id hudp).frame
  · rw [if_pos hnil, hnil]
    exact ⟨rfl, fun _ hin => by cases hin⟩
  · have hne : (l.sender id).sendFrame ≠ [] := by
      rw [hframe, ← List.length_pos_iff, record_length]
      omega
    rw [if_neg hne, hframe, record, List.drop_left' (toBytes_length 2 _), ← record]
    refine ⟨by rw [records_cons, records_nil, List.append_nil], fun other hin => ?_⟩
    obtain rfl := List.mem_singleton.mp hin
    exact hlength

theorem Sound.delivered (h : Sound split ids udp l) {id : StreamId} (hudp : udp id = true) : l.Delivered id := by
  obtain ⟨hrecords, hflying⟩ := h.inFlight hudp
  have hout := h.outgoing id hudp
  obtain ⟨⟨held, hreads, hdelivered⟩, hreceived⟩ := h.incoming id hudp
  constructor
  · have hunderway : l.link.underway id <+: records (l.sent id ++ l.inFlight id) := by
      rw [records_append, hrecords, ← List.take_append_drop (l.sender id).sendOffset (l.sender id).sendFrame,
        ← List.append_assoc, ← hout.accepted, Link.underway]
      refine List.prefix_append_right_inj _ |>.mpr ?_
      rcases hout.waiting with hw | hw <;> rw [hw]
      · rw [Option.getD_none, List.take_nil]
        exact List.nil_prefix
      · exact List.take_prefix _ _
    refine records_prefix_cancel hreceived (fun datagram hin => ?_) ?_
    · exact (List.mem_append.mp hin).elim (hout.short datagram) (hflying datagram)
    · exact (hdelivered ▸ List.prefix_append _ _ : records (l.received id) <+: l.link.delivered id).trans
        ((h.joined.inOrder id).trans hunderway)
  · intro hnone hall hzero
    have hframe : (l.sender id).sendFrame = [] := by
      rw [← hrecords, hnone]
      rfl
    have hheld : held = [] := by
      have hpayload : (l.receiver id).readPayload = [] := by
        by_contra hne
        have htwo := (hreads.payload hne).1
        omega
      rw [hreads.left, hzero, hpayload, List.take_zero, List.take_nil]
      rfl
    have hsame : records (l.received id) = records (l.sent id) := by
      have haccepted := hout.accepted
      rw [hframe, List.take_nil, List.append_nil] at haccepted
      rw [hheld, List.append_nil] at hdelivered
      rw [← hdelivered, hall, haccepted]
    exact (records_prefix_cancel hreceived hout.short (hsame ▸ List.prefix_refl _)).eq_of_length_le
      (records_prefix_cancel hout.short hreceived (hsame ▸ List.prefix_refl _)).length_le

end DatagramLink

end Snolc.Mux
