import Snolc.ByteFeed
import Snolc.MuxPendingRead
import Snolc.WireFormat

set_option autoImplicit false

namespace Snolc.CoreIo
open PollIo ByteFeed Mux WireFormat ByteOrder

/-- The bytes of a datagram stand at the front of the caller's buffer. -/
inductive DatagramRecv where
  | datagram (bytes : List UInt8)
  | bufferTooSmall (length : ℕ)
  | closed
  deriving DecidableEq, Repr

structure MuxDatagramIo (S : Type) where
  stream : S
  readPrefix : List UInt8
  readPrefixLen : ℕ
  readPayload : List UInt8
  readPayloadLen : ℕ
  sendFrame : List UInt8
  sendOffset : ℕ
  closed : Bool

namespace MuxDatagramIo
variable {S : Type}

def new (stream : S) : MuxDatagramIo S := ⟨stream, [0, 0], 0, [], 0, [], 0, false⟩

def tookPrefix (d : MuxDatagramIo S) (stream : S) (bytes : List UInt8) : MuxDatagramIo S :=
  { d with
    stream
    readPrefix := overwrite d.readPrefix d.readPrefixLen bytes
    readPrefixLen := d.readPrefixLen + bytes.length }

def tookPayload (d : MuxDatagramIo S) (stream : S) (bytes : List UInt8) : MuxDatagramIo S :=
  { d with
    stream
    readPayload := overwrite d.readPayload d.readPayloadLen bytes
    readPayloadLen := d.readPayloadLen + bytes.length }

variable [AsyncIo S]

def recvPayload (d : MuxDatagramIo S) (room : ℕ) : IoPoll DatagramRecv × MuxDatagramIo S :=
  let want := d.readPayload.length - d.readPayloadLen
  match fill (want + 1) d.stream want with
  | (.full, stream, bytes) =>
    let d := d.tookPayload stream bytes
    if room < d.readPayload.length then (.ready (.ok (.bufferTooSmall d.readPayload.length)), d)
    else
      (.ready (.ok (.datagram d.readPayload)),
        { d with readPayload := [], readPayloadLen := 0, readPrefixLen := 0 })
  | (.ended, stream, bytes) =>
    (.ready (.error ⟨.unexpectedEof, "UDP frame ended in payload"⟩), d.tookPayload stream bytes)
  | (.failed e, stream, bytes) => (.ready (.error e), d.tookPayload stream bytes)
  | (.pending, stream, bytes) => (.pending, d.tookPayload stream bytes)

def recvRecord (d : MuxDatagramIo S) (room : ℕ) : IoPoll DatagramRecv × MuxDatagramIo S :=
  if d.readPayload = [] ∧ d.readPayloadLen = 0 then
    let length := ofBytes d.readPrefix
    if maxUdpPayload < length then (.ready (.error ⟨.invalidData, "UDP frame exceeds wire limit"⟩), d)
    else if length = 0 then (.ready (.ok (.datagram [])), { d with readPrefixLen := 0 })
    else { d with readPayload := resize d.readPayload length }.recvPayload room
  else d.recvPayload room

/-- `room` is the length of the caller's buffer. -/
def pollRecvDatagram (d : MuxDatagramIo S) (room : ℕ) : IoPoll DatagramRecv × MuxDatagramIo S :=
  let want := 2 - d.readPrefixLen
  match fill (want + 1) d.stream want with
  | (.full, stream, bytes) => (d.tookPrefix stream bytes).recvRecord room
  | (.ended, stream, bytes) =>
    let d := d.tookPrefix stream bytes
    if d.readPrefixLen = 0 then (.ready (.ok .closed), { d with closed := true })
    else (.ready (.error ⟨.unexpectedEof, "UDP frame ended in length prefix"⟩), d)
  | (.failed e, stream, bytes) => (.ready (.error e), d.tookPrefix stream bytes)
  | (.pending, stream, bytes) => (.pending, d.tookPrefix stream bytes)

def sendLoop : ℕ → MuxDatagramIo S → IoPoll Unit × MuxDatagramIo S
  | fuel, d =>
    if d.sendOffset < d.sendFrame.length then
      match fuel with
      | 0 => (.pending, d)
      | fuel + 1 =>
        match AsyncIo.pollWrite d.stream (d.sendFrame.drop d.sendOffset) with
        | (.ready (.ok 0), stream) =>
          (.ready (.error ⟨.writeZero, "UDP frame write made no progress"⟩), { d with stream })
        | (.ready (.ok count), stream) => sendLoop fuel { d with stream, sendOffset := d.sendOffset + count }
        | (.ready (.error e), stream) => (.ready (.error e), { d with stream })
        | (.pending, stream) => (.pending, { d with stream })
    else (.ready (.ok ()), { d with sendFrame := [], sendOffset := 0 })

def sendRest (d : MuxDatagramIo S) : IoPoll Unit × MuxDatagramIo S :=
  d.sendLoop (d.sendFrame.length - d.sendOffset)

def pollSendDatagram (d : MuxDatagramIo S) (datagram : List UInt8) : IoPoll Unit × MuxDatagramIo S :=
  if maxUdpPayload < datagram.length then
    (.ready (.error ⟨.invalidInput, "UDP payload exceeds wire limit"⟩), d)
  else if d.sendFrame = [] then
    { d with sendFrame := toBytes 2 datagram.length ++ datagram }.sendRest
  else if d.sendFrame.length < 2 ∨ d.sendFrame.drop 2 ≠ datagram then
    (.ready (.error ⟨.invalidInput, "changed UDP payload while send is pending"⟩), d)
  else d.sendRest

end MuxDatagramIo

def record (datagram : List UInt8) : List UInt8 := toBytes 2 datagram.length ++ datagram

def records (datagrams : List (List UInt8)) : List UInt8 := datagrams.flatMap record

@[simp] theorem record_length (datagram : List UInt8) : (record datagram).length = 2 + datagram.length := by
  rw [record, List.length_append, toBytes_length]

@[simp] theorem records_nil : records [] = [] := rfl

@[simp] theorem records_cons (datagram : List UInt8) (rest : List (List UInt8)) :
    records (datagram :: rest) = record datagram ++ records rest := rfl

@[simp] theorem records_append (a b : List (List UInt8)) : records (a ++ b) = records a ++ records b :=
  List.flatMap_append

theorem encodeUdp_eq_ok {datagram frame : List UInt8} :
    encodeUdp datagram = .ok frame ↔ datagram.length ≤ maxUdpPayload ∧ frame = record datagram := by
  rw [encodeUdp]
  split
  · next h => simp [Nat.not_le.mpr h]
  · next h => simp [Nat.le_of_not_lt h, record, eq_comm]

theorem mapM_encodeUdp {datagrams frames : List (List UInt8)} (h : datagrams.mapM encodeUdp = .ok frames) :
    frames = datagrams.map record ∧ ∀ datagram ∈ datagrams, datagram.length ≤ maxUdpPayload := by
  induction datagrams generalizing frames with
  | nil =>
    cases h
    exact ⟨rfl, fun _ hm => nomatch hm⟩
  | cons datagram rest ih =>
    rw [List.mapM_cons] at h
    cases he : encodeUdp datagram with
    | error e =>
      rw [he] at h
      cases h
    | ok frame =>
      cases hr : rest.mapM encodeUdp with
      | error e =>
        rw [he, hr] at h
        cases h
      | ok others =>
        rw [he, hr] at h
        cases h
        obtain ⟨hlength, rfl⟩ := encodeUdp_eq_ok.mp he
        obtain ⟨hothers, hall⟩ := ih hr
        refine ⟨by rw [hothers, List.map_cons], fun other hm => ?_⟩
        rcases List.mem_cons.mp hm with rfl | hm
        · exact hlength
        · exact hall other hm

theorem ofBytes_record {datagram : List UInt8} (h : datagram.length ≤ maxUdpPayload) (rest : List UInt8) :
    ofBytes ((record datagram ++ rest).take 2) = datagram.length := by
  have hlt : datagram.length < 256 ^ 2 := Nat.lt_of_le_of_lt h (by decide)
  rw [record, List.append_assoc, List.take_left' (toBytes_length 2 _), ofBytes_toBytes_of_lt hlt]

theorem record_append_inj {a b rest rest' : List UInt8} (ha : a.length ≤ maxUdpPayload)
    (hb : b.length ≤ maxUdpPayload) (h : record a ++ rest = record b ++ rest') : a = b ∧ rest = rest' := by
  have hlength : a.length = b.length := by
    rw [← ofBytes_record ha rest, h, ofBytes_record hb]
  obtain ⟨hrecord, hrest⟩ := List.append_inj h (by rw [record_length, record_length, hlength])
  rw [record, record] at hrecord
  exact ⟨(List.append_inj hrecord (by rw [toBytes_length, toBytes_length])).2, hrest⟩

section Send
variable {S : Type} [TracedIo S]

def Accepting (S : Type) [AsyncIo S] : Prop :=
  ∀ (io : S) (bytes : List UInt8), bytes ≠ [] →
    (AsyncIo.pollWrite io bytes).1 = .pending ∨ ∃ n, (AsyncIo.pollWrite io bytes).1 = .ready (.ok (n + 1))

def Unstalled (stalls : S → ℕ) : Prop :=
  ∀ (io : S) (bytes : List UInt8), stalls (AsyncIo.pollWrite io bytes).2 ≤ stalls io ∧
    ((AsyncIo.pollWrite io bytes).1 = .pending → stalls (AsyncIo.pollWrite io bytes).2 < stalls io)

namespace MuxDatagramIo

/-- What became of the frame in the making: all of it is on the stream, or `k` more bytes of it. -/
inductive Sent (d : MuxDatagramIo S) : IoPoll Unit → MuxDatagramIo S → Prop where
  | whole (stream : S) :
    TracedIo.written stream = TracedIo.written d.stream ++ d.sendFrame.drop d.sendOffset →
      Sent d (.ready (.ok ())) { d with stream, sendFrame := [], sendOffset := 0 }
  | some (stream : S) (k : ℕ) : d.sendOffset + k ≤ d.sendFrame.length →
    TracedIo.written stream = TracedIo.written d.stream ++ (d.sendFrame.drop d.sendOffset).take k →
      Sent d .pending { d with stream, sendOffset := d.sendOffset + k }

theorem Sent.after {d d' : MuxDatagramIo S} {stream : S} {m : ℕ} {result : IoPoll Unit}
    (h : Sent { d with stream, sendOffset := d.sendOffset + m } result d')
    (hw : TracedIo.written stream = TracedIo.written d.stream ++ (d.sendFrame.drop d.sendOffset).take m) :
    Sent d result d' := by
  cases h with
  | whole stream' hw' =>
    refine .whole stream' ?_
    rw [hw', hw, List.append_assoc, ← List.drop_drop, List.take_append_drop]
  | some stream' k hk hw' =>
    dsimp only at hk hw' ⊢
    rw [Nat.add_assoc] at hk ⊢
    refine .some stream' (m + k) hk ?_
    rw [hw', hw, List.append_assoc, ← List.drop_drop, List.take_add]

theorem sendLoop_sent (hs : Accepting S) (fuel : ℕ) (d : MuxDatagramIo S) (hoffset : d.sendOffset ≤ d.sendFrame.length)
    (hfuel : d.sendFrame.length - d.sendOffset ≤ fuel) : Sent d (d.sendLoop fuel).1 (d.sendLoop fuel).2 := by
  induction fuel generalizing d with
  | zero =>
    rw [sendLoop, if_neg (by omega)]
    refine .whole d.stream ?_
    rw [List.drop_of_length_le (by omega), List.append_nil]
  | succ fuel ih =>
    rw [sendLoop]
    split
    · next hlt =>
      have hne : d.sendFrame.drop d.sendOffset ≠ [] := by
        rw [Ne, List.drop_eq_nil_iff]
        omega
      have hanswer := hs d.stream _ hne
      have hbound := TracedIo.write_bound d.stream (d.sendFrame.drop d.sendOffset)
      have hwritten := TracedIo.write_written d.stream (d.sendFrame.drop d.sendOffset)
      rcases hw : AsyncIo.pollWrite d.stream (d.sendFrame.drop d.sendOffset) with ⟨(e | n) | _, stream⟩ <;>
        rw [hw] at hanswer hbound hwritten <;> dsimp only at hanswer hbound hwritten ⊢
      · rcases hanswer with hx | ⟨n, hx⟩ <;> cases hx
      · cases n with
        | zero => rcases hanswer with hx | ⟨n, hx⟩ <;> cases hx
        | succ n =>
          rw [writeCount_ok, List.length_drop] at hbound
          rw [writeCount_ok] at hwritten
          have hrest := ih { d with stream, sendOffset := d.sendOffset + (n + 1) } (by dsimp only; omega)
            (by dsimp only; omega)
          exact hrest.after hwritten
      · refine .some stream 0 hoffset ?_
        simpa using hwritten
    · refine .whole d.stream ?_
      rw [List.drop_of_length_le (by omega), List.append_nil]

theorem sendLoop_stalls {stalls : S → ℕ} (h : Unstalled stalls) (fuel : ℕ) (d : MuxDatagramIo S)
    (hfuel : d.sendFrame.length - d.sendOffset ≤ fuel) :
    stalls (d.sendLoop fuel).2.stream ≤ stalls d.stream ∧
      ((d.sendLoop fuel).1 = .pending → stalls (d.sendLoop fuel).2.stream < stalls d.stream) := by
  induction fuel generalizing d with
  | zero =>
    rw [sendLoop, if_neg (by omega)]
    exact ⟨Nat.le_refl _, fun hx => nomatch hx⟩
  | succ fuel ih =>
    rw [sendLoop]
    split
    · obtain ⟨hle, hlt⟩ := h d.stream (d.sendFrame.drop d.sendOffset)
      rcases hw : AsyncIo.pollWrite d.stream (d.sendFrame.drop d.sendOffset) with ⟨(e | n) | _, stream⟩ <;>
        rw [hw] at hle hlt <;> dsimp only at hle hlt ⊢
      · exact ⟨hle, fun hx => nomatch hx⟩
      · cases n with
        | zero => exact ⟨hle, fun hx => nomatch hx⟩
        | succ n =>
          obtain ⟨hle', hlt'⟩ := ih { d with stream, sendOffset := d.sendOffset + (n + 1) } (by dsimp only; omega)
          exact ⟨Nat.le_trans hle' hle, fun hx => Nat.lt_of_lt_of_le (hlt' hx) hle⟩
      · exact ⟨hle, fun _ => hlt rfl⟩
    · exact ⟨Nat.le_refl _, fun hx => nomatch hx⟩

/-- Between two polls nothing is in the making, or a part of the record of `datagram` is sent. -/
structure Halfway (w : List UInt8) (d : MuxDatagramIo S) (datagram : List UInt8) : Prop where
  frame : d.sendFrame = [] ∧ d.sendOffset = 0 ∨ d.sendFrame = record datagram
  offset : d.sendOffset ≤ d.sendFrame.length
  written : TracedIo.written d.stream = w ++ (record datagram).take d.sendOffset

theorem Halfway.poll {w : List UInt8} {d : MuxDatagramIo S} {datagram : List UInt8} (h : d.Halfway w datagram)
    (hlength : datagram.length ≤ maxUdpPayload) :
    d.pollSendDatagram datagram = ({ d with sendFrame := record datagram } : MuxDatagramIo S).sendRest := by
  rw [pollSendDatagram, if_neg (Nat.not_lt.mpr hlength)]
  rcases h.frame with ⟨hnil, -⟩ | hframe
  · rw [if_pos hnil]
    rfl
  · have hne : d.sendFrame ≠ [] := by
      rw [hframe, ← List.length_pos_iff, record_length]
      omega
    have hdrop : d.sendFrame.drop 2 = datagram := by
      rw [hframe, record, List.drop_left' (toBytes_length 2 _)]
    have hlong : ¬ d.sendFrame.length < 2 := by
      rw [hframe, record_length]
      omega
    rw [if_neg hne, if_neg (not_or.mpr ⟨hlong, not_not.mpr hdrop⟩), ← hframe]

end MuxDatagramIo

structure Sender (S : Type) where
  io : MuxDatagramIo S
  todo : List (List UInt8)
  failed : Option IoError := none

namespace Sender

def step (s : Sender S) : Sender S :=
  match s.todo with
  | [] => s
  | datagram :: rest =>
    match s.io.pollSendDatagram datagram with
    | (.ready (.ok ()), io) => { s with io, todo := rest }
    | (.ready (.error e), io) => { s with io, failed := some e }
    | (.pending, io) => { s with io }

def polls : ℕ → Sender S → Sender S
  | 0, s => s
  | n + 1, s => polls n s.step

structure Sound (w : List UInt8) (datagrams done : List (List UInt8)) (s : Sender S) : Prop where
  unfailed : s.failed = none
  split : datagrams = done ++ s.todo
  halfway : ∀ datagram rest, s.todo = datagram :: rest → s.io.Halfway (w ++ records done) datagram
  ended : s.todo = [] → TracedIo.written s.io.stream = w ++ records done

variable {w : List UInt8} {datagrams done : List (List UInt8)} {s : Sender S}

theorem Sound.step (hs : Accepting S) (h : s.Sound w datagrams done)
    (hall : ∀ datagram ∈ datagrams, datagram.length ≤ maxUdpPayload) : ∃ done, s.step.Sound w datagrams done := by
  unfold Sender.step
  split
  · exact ⟨done, h⟩
  · next datagram rest htodo =>
    have hhalf := h.halfway datagram rest htodo
    have hlength := hall datagram (by rw [h.split, htodo]; simp)
    have hoffset : s.io.sendOffset ≤ (record datagram).length := by
      rcases hhalf.frame with ⟨-, hzero⟩ | hframe
      · rw [hzero]
        exact Nat.zero_le _
      · rw [← hframe]
        exact hhalf.offset
    have hsent := MuxDatagramIo.sendLoop_sent hs _ { s.io with sendFrame := record datagram } hoffset (Nat.le_refl _)
    rw [hhalf.poll hlength]
    rw [← MuxDatagramIo.sendRest] at hsent
    generalize ({ s.io with sendFrame := record datagram } : MuxDatagramIo S).sendRest = r at hsent ⊢
    obtain ⟨result, io⟩ := r
    cases hsent with
    | whole stream hw =>
      dsimp only at hw
      have hdone : TracedIo.written stream = w ++ records (done ++ [datagram]) := by
        rw [hw, hhalf.written, List.append_assoc, List.append_assoc, List.take_append_drop]
        simp
      refine ⟨done ++ [datagram], h.unfailed, by rw [h.split, htodo]; simp, fun next rest' _ => ?_, fun _ => hdone⟩
      exact ⟨.inl ⟨rfl, rfl⟩, Nat.le_refl _, hdone.trans (List.append_nil _).symm⟩
    | some stream k hk hw =>
      dsimp only at hk hw
      refine ⟨done, h.unfailed, h.split, fun next rest' htodo' => ?_, fun hnil => ?_⟩
      · cases htodo.symm.trans htodo'
        refine ⟨.inr rfl, hk, ?_⟩
        dsimp only
        rw [hw, hhalf.written, List.append_assoc, List.take_add]
      · rw [htodo] at hnil
        cases hnil

theorem Sound.after_polls (hs : Accepting S) (h : s.Sound w datagrams done)
    (hall : ∀ datagram ∈ datagrams, datagram.length ≤ maxUdpPayload) (n : ℕ) :
    ∃ done, (polls n s).Sound w datagrams done := by
  induction n generalizing s done with
  | zero => exact ⟨done, h⟩
  | succ n ih =>
    obtain ⟨done', h'⟩ := h.step hs hall
    exact ih h'

theorem Sound.bounds (h : s.Sound w datagrams done) :
    w ++ records done <+: TracedIo.written s.io.stream ∧
      TracedIo.written s.io.stream <+: w ++ records datagrams ∧
      (s.todo = [] → TracedIo.written s.io.stream = w ++ records datagrams) := by
  rw [h.split]
  cases htodo : s.todo with
  | nil =>
    rw [h.ended htodo, List.append_nil]
    exact ⟨List.prefix_rfl, List.prefix_rfl, fun _ => rfl⟩
  | cons datagram rest =>
    rw [(h.halfway datagram rest htodo).written]
    refine ⟨List.prefix_append _ _, ?_, fun hx => nomatch hx⟩
    rw [records_append, ← List.append_assoc, List.prefix_append_right_inj]
    exact (List.take_prefix _ _).trans (List.prefix_append _ _)

theorem Sound.closer {stalls : S → ℕ} (hs : Accepting S) (hu : Unstalled stalls) (h : s.Sound w datagrams done)
    (hall : ∀ datagram ∈ datagrams, datagram.length ≤ maxUdpPayload) (hne : s.todo ≠ []) :
    s.step.todo.length + stalls s.step.io.stream < s.todo.length + stalls s.io.stream := by
  obtain ⟨datagram, rest, htodo⟩ := List.exists_cons_of_ne_nil hne
  have hlength := hall datagram (by rw [h.split, htodo]; simp)
  have hhalf := h.halfway datagram rest htodo
  obtain ⟨done', hnext⟩ := h.step hs hall
  have hunfailed := hnext.unfailed
  obtain ⟨hle, hlt⟩ := MuxDatagramIo.sendLoop_stalls hu _ { s.io with sendFrame := record datagram } (Nat.le_refl _)
  rw [← MuxDatagramIo.sendRest, ← hhalf.poll hlength] at hle hlt
  unfold Sender.step at hunfailed ⊢
  rw [htodo] at hunfailed ⊢
  dsimp only at hunfailed hle ⊢
  rcases hpoll : s.io.pollSendDatagram datagram with ⟨(e | ⟨⟩) | _, io⟩ <;>
    rw [hpoll] at hunfailed hle hlt <;> dsimp only at hunfailed hle hlt ⊢
  · cases hunfailed
  · rw [List.length_cons]
    omega
  · have hless := hlt rfl
    omega

theorem Sound.complete {stalls : S → ℕ} (hs : Accepting S) (hu : Unstalled stalls) (h : s.Sound w datagrams done)
    (hall : ∀ datagram ∈ datagrams, datagram.length ≤ maxUdpPayload) : ∃ n, (polls n s).todo = [] := by
  induction hk : s.todo.length + stalls s.io.stream using Nat.strongRecOn generalizing s done with
  | ind k ih =>
    by_cases hne : s.todo = []
    · exact ⟨0, hne⟩
    · obtain ⟨done', hnext⟩ := h.step hs hall
      subst hk
      obtain ⟨n, hn⟩ := ih _ (h.closer hs hu hall hne) hnext rfl
      exact ⟨n + 1, hn⟩

end Sender
end Send

section Recv
variable {S : Type} [AsyncIo S]

/-- A stream that hands out `stock` in pieces, pending at most `stalls` times, and then ends. -/
structure Delivers (stock : S → List UInt8) (stalls : S → ℕ) : Prop where
  feeds : Feeds stock stalls
  patient : ∀ io room, room ≠ 0 → stalls (AsyncIo.pollRead io room).2 ≤ stalls io ∧
    ((AsyncIo.pollRead io room).1 = .pending → stalls (AsyncIo.pollRead io room).2 < stalls io)

variable {stock : S → List UInt8} {stalls : S → ℕ}

theorem Delivers.fill_stalls (h : Delivers stock stalls) (fuel : ℕ) (io : S) (want : ℕ) (hf : want < fuel) :
    stalls (fill fuel io want).2.1 ≤ stalls io ∧
      ((fill fuel io want).1 = .pending → stalls (fill fuel io want).2.1 < stalls io) := by
  induction fuel generalizing io want with
  | zero => omega
  | succ fuel ih =>
    cases want with
    | zero => exact ⟨Nat.le_refl _, fun hx => by cases hx⟩
    | succ want =>
      obtain ⟨hle, hlt⟩ := h.patient io (want + 1) (Nat.succ_ne_zero want)
      rw [fill]
      split <;> rename_i heq <;> rw [heq] at hle hlt
      · exact ⟨hle, fun hx => by cases hx⟩
      · rename_i bytes next hne
        have hpos : 0 < bytes.length := List.length_pos_iff.mpr hne
        obtain ⟨hle', hlt'⟩ := ih next (want + 1 - bytes.length) (by omega)
        exact ⟨Nat.le_trans hle' hle, fun hx => Nat.lt_of_lt_of_le (hlt' hx) hle⟩
      · exact ⟨hle, fun hx => by cases hx⟩
      · exact ⟨hle, fun _ => hlt rfl⟩

def Cut (left : List UInt8) : Prop := left ≠ [] ∧ left.length < 2 + ofBytes (left.take 2)

def cutError (left : List UInt8) : IoError :=
  if left.length < 2 then ⟨.unexpectedEof, "UDP frame ended in length prefix"⟩
  else ⟨.unexpectedEof, "UDP frame ended in payload"⟩

namespace MuxDatagramIo

/-- `left` is what the counters hold of a record, and the stock of the stream. -/
structure Holds (stock : S → List UInt8) (d : MuxDatagramIo S) (left : List UInt8) : Prop where
  size : d.readPrefix.length = 2
  prefixLen : d.readPrefixLen ≤ 2
  payloadLen : d.readPayloadLen ≤ d.readPayload.length
  payload : d.readPayload ≠ [] → d.readPrefixLen = 2 ∧ d.readPayload.length = ofBytes d.readPrefix
  left : left = d.readPrefix.take d.readPrefixLen ++ d.readPayload.take d.readPayloadLen ++ stock d.stream

structure Between (stock : S → List UInt8) (d : MuxDatagramIo S) (left : List UInt8) : Prop extends
    Holds stock d left where
  allocated : d.readPayload = [] → d.readPrefixLen < 2

/-- What a poll with a buffer of `room` bytes may answer, and what it leaves. -/
inductive Answers (stock : S → List UInt8) (left : List UInt8) (room : ℕ) :
    IoPoll DatagramRecv → MuxDatagramIo S → Prop where
  | pending {d : MuxDatagramIo S} : d.Between stock left → Answers stock left room .pending d
  | datagram {d : MuxDatagramIo S} (bytes rest : List UInt8) : left = record bytes ++ rest → bytes.length ≤ room →
      bytes.length ≤ maxUdpPayload → d.Between stock rest → Answers stock left room (.ready (.ok (.datagram bytes))) d
  | small {d : MuxDatagramIo S} (bytes rest : List UInt8) : left = record bytes ++ rest → room < bytes.length →
      bytes.length ≤ maxUdpPayload → d.Between stock left →
        Answers stock left room (.ready (.ok (.bufferTooSmall bytes.length))) d
  | closed {d : MuxDatagramIo S} : left = [] → d.Between stock left → Answers stock left room (.ready (.ok .closed)) d
  | cut {d : MuxDatagramIo S} : Cut left → d.Between stock left →
      Answers stock left room (.ready (.error (cutError left))) d

omit [AsyncIo S] in
theorem Holds.tookPrefix {d : MuxDatagramIo S} {left bytes : List UInt8} {stream : S} (h : d.Holds stock left)
    (hsplit : stock d.stream = bytes ++ stock stream) (hshort : bytes.length ≤ 2 - d.readPrefixLen)
    (hempty : d.readPayload = [] ∨ bytes = []) : (d.tookPrefix stream bytes).Holds stock left := by
  have hsize := h.size
  have hprefix := h.prefixLen
  refine ⟨?_, ?_, h.payloadLen, fun hne => ?_, ?_⟩
  · rw [MuxDatagramIo.tookPrefix]
    exact (PendingRead.overwrite_length (by omega)).trans h.size
  · change d.readPrefixLen + bytes.length ≤ 2
    omega
  · rcases hempty with hnil | rfl
    · exact absurd hnil hne
    · obtain ⟨h2, hlength⟩ := h.payload hne
      refine ⟨h2, ?_⟩
      simpa [MuxDatagramIo.tookPrefix, overwrite] using hlength
  · change left = (overwrite d.readPrefix d.readPrefixLen bytes).take (d.readPrefixLen + bytes.length) ++
      d.readPayload.take d.readPayloadLen ++ stock stream
    rw [PendingRead.take_overwrite (by omega), h.left, hsplit]
    rcases hempty with hnil | rfl
    · simp [hnil]
    · simp

omit [AsyncIo S] in
theorem Holds.tookPayload {d : MuxDatagramIo S} {left bytes : List UInt8} {stream : S} (h : d.Holds stock left)
    (hsplit : stock d.stream = bytes ++ stock stream)
    (hshort : bytes.length ≤ d.readPayload.length - d.readPayloadLen) :
    (d.tookPayload stream bytes).Holds stock left ∧
      (d.tookPayload stream bytes).readPayload.length = d.readPayload.length := by
  have hpayload := h.payloadLen
  have hlength : (overwrite d.readPayload d.readPayloadLen bytes).length = d.readPayload.length :=
    PendingRead.overwrite_length (by omega)
  refine ⟨⟨h.size, h.prefixLen, ?_, fun hne => ?_, ?_⟩, hlength⟩
  · change d.readPayloadLen + bytes.length ≤ (overwrite d.readPayload d.readPayloadLen bytes).length
    omega
  · have hne' : d.readPayload ≠ [] := by
      rw [← List.length_pos_iff] at hne ⊢
      exact hlength ▸ hne
    obtain ⟨h2, hof⟩ := h.payload hne'
    exact ⟨h2, hlength.trans hof⟩
  · change left = d.readPrefix.take d.readPrefixLen ++
      (overwrite d.readPayload d.readPayloadLen bytes).take (d.readPayloadLen + bytes.length) ++ stock stream
    rw [PendingRead.take_overwrite hpayload, h.left, hsplit]
    simp

omit [AsyncIo S] in
theorem Holds.whole {d : MuxDatagramIo S} {left : List UInt8} (h : d.Holds stock left) (hne : d.readPayload ≠ [])
    (hfull : d.readPayloadLen = d.readPayload.length) : left = record d.readPayload ++ stock d.stream := by
  obtain ⟨h2, hof⟩ := h.payload hne
  have hbytes : toBytes 2 d.readPayload.length = d.readPrefix := by
    rw [hof, ← h.size, toBytes_ofBytes]
  rw [h.left, h2, hfull, List.take_of_length_le (Nat.le_of_eq h.size), List.take_length, record, hbytes]

theorem recvPayload_answers (hd : Delivers stock stalls) {d : MuxDatagramIo S} {left : List UInt8} {room : ℕ}
    (h : d.Holds stock left) (hne : d.readPayload ≠ []) (hmax : d.readPayload.length ≤ maxUdpPayload) :
    Answers stock left room (d.recvPayload room).1 (d.recvPayload room).2 := by
  have hfill := hd.feeds.fill (d.readPayload.length - d.readPayloadLen + 1) d.stream
    (d.readPayload.length - d.readPayloadLen) (Nat.lt_succ_self _)
  have hpayload := h.payloadLen
  obtain ⟨h2, hof⟩ := h.payload hne
  unfold recvPayload
  dsimp only
  rcases hr : fill (d.readPayload.length - d.readPayloadLen + 1) d.stream
    (d.readPayload.length - d.readPayloadLen) with ⟨result, stream, bytes⟩
  rw [hr] at hfill
  obtain ⟨hholds, hlength⟩ := h.tookPayload hfill.split hfill.short
  have hne' : (d.tookPayload stream bytes).readPayload ≠ [] := by
    rw [← List.length_pos_iff] at hne ⊢
    exact hlength ▸ hne
  have hbetween : (d.tookPayload stream bytes).Between stock left := ⟨hholds, fun hx => absurd hx hne'⟩
  cases result with
  | full =>
    have hcount := (hfill.full rfl).1
    dsimp only at hcount ⊢
    have hleft := hholds.whole hne' (by
      change d.readPayloadLen + bytes.length = _
      omega)
    rw [← hlength] at hmax
    split
    · next hroom => exact .small _ _ hleft hroom hmax hbetween
    · next hroom =>
      refine .datagram _ _ hleft (Nat.le_of_not_lt hroom) hmax ⟨⟨hholds.size, Nat.zero_le _, Nat.le_refl _, ?_, ?_⟩, ?_⟩
      · exact fun hx => absurd rfl hx
      · rfl
      · exact fun _ => Nat.zero_lt_two
  | ended =>
    have hless := hfill.ended rfl
    have hprefix : d.readPrefix.take 2 = d.readPrefix := List.take_of_length_le (Nat.le_of_eq h.size)
    have hsize := h.size
    have hleft := h.left
    rw [h2, hprefix] at hleft
    have hlong : left.length = 2 + d.readPayloadLen + (stock d.stream).length := by
      rw [hleft, List.length_append, List.length_append, List.length_take, hsize]
      omega
    have hlen : ofBytes (left.take 2) = d.readPayload.length := by
      rw [hleft, List.append_assoc, List.take_left' hsize, hof]
    have herror : cutError left = ⟨.unexpectedEof, "UDP frame ended in payload"⟩ := if_neg (by omega)
    rw [← herror]
    refine .cut ⟨?_, ?_⟩ hbetween
    · rw [← List.length_pos_iff]
      omega
    · rw [hlen]
      omega
  | failed e => exact absurd rfl (hfill.sound e)
  | pending => exact .pending hbetween

omit [AsyncIo S] in
theorem Holds.length {d : MuxDatagramIo S} {left : List UInt8} (h : d.Holds stock left) (h2 : d.readPrefixLen = 2) :
    2 ≤ left.length ∧ ofBytes (left.take 2) = ofBytes d.readPrefix := by
  have hsize := h.size
  have hleft := h.left
  rw [h2, List.take_of_length_le (Nat.le_of_eq hsize), List.append_assoc] at hleft
  rw [hleft, List.take_left' hsize, List.length_append]
  exact ⟨by omega, rfl⟩

theorem recvRecord_answers (hd : Delivers stock stalls) {d : MuxDatagramIo S} {left : List UInt8} {room : ℕ}
    (h : d.Holds stock left) (h2 : d.readPrefixLen = 2)
    (hlimit : 2 ≤ left.length → ofBytes (left.take 2) ≤ maxUdpPayload) :
    Answers stock left room (d.recvRecord room).1 (d.recvRecord room).2 := by
  obtain ⟨hlong, hof⟩ := h.length h2
  have hmax := hlimit hlong
  rw [hof] at hmax
  unfold recvRecord
  split
  · next hempty =>
    obtain ⟨hnil, hzero⟩ := hempty
    dsimp only
    rw [if_neg (Nat.not_lt.mpr hmax)]
    have hleft := h.left
    rw [h2, List.take_of_length_le (Nat.le_of_eq h.size), hnil, List.take_nil, List.append_nil] at hleft
    split
    · next hnone =>
      have hrecord : d.readPrefix = record [] := by
        have hbytes := toBytes_ofBytes d.readPrefix
        rw [h.size, hnone] at hbytes
        rw [record, List.append_nil]
        exact hbytes.symm
      rw [hrecord] at hleft
      refine .datagram [] _ hleft (Nat.zero_le _) (Nat.zero_le _)
        ⟨⟨h.size, Nat.zero_le _, h.payloadLen, fun hx => absurd hnil hx, ?_⟩, fun _ => Nat.zero_lt_two⟩
      simp [hnil]
    · next hsome =>
      have hlength : (resize d.readPayload (ofBytes d.readPrefix)).length = ofBytes d.readPrefix := by
        simp [resize, hnil]
      refine recvPayload_answers hd ⟨h.size, h.prefixLen, ?_, fun _ => ⟨h2, hlength⟩, ?_⟩ ?_ ?_
      · dsimp only
        rw [hzero]
        exact Nat.zero_le _
      · dsimp only
        rw [hleft, h2, hzero, List.take_of_length_le (Nat.le_of_eq h.size), List.take_zero, List.append_nil]
      · rw [← List.length_pos_iff]
        dsimp only
        omega
      · dsimp only
        omega
  · next hsome =>
    have hne : d.readPayload ≠ [] := by
      intro hnil
      have hzero := h.payloadLen
      rw [hnil, List.length_nil] at hzero
      exact hsome ⟨hnil, Nat.le_zero.mp hzero⟩
    refine recvPayload_answers hd h hne ?_
    rw [(h.payload hne).2]
    exact hmax

theorem pollRecvDatagram_answers (hd : Delivers stock stalls) {d : MuxDatagramIo S} {left : List UInt8} (room : ℕ)
    (h : d.Between stock left) (hlimit : 2 ≤ left.length → ofBytes (left.take 2) ≤ maxUdpPayload) :
    Answers stock left room (d.pollRecvDatagram room).1 (d.pollRecvDatagram room).2 := by
  have hfill := hd.feeds.fill (2 - d.readPrefixLen + 1) d.stream (2 - d.readPrefixLen) (Nat.lt_succ_self _)
  have hunfilled := hd.feeds.fill_unfilled (2 - d.readPrefixLen + 1) d.stream (2 - d.readPrefixLen)
    (Nat.lt_succ_self _)
  have hprefix := h.prefixLen
  unfold pollRecvDatagram
  dsimp only
  rcases hr : fill (2 - d.readPrefixLen + 1) d.stream (2 - d.readPrefixLen) with ⟨result, stream, bytes⟩
  rw [hr] at hfill hunfilled
  have hempty : d.readPayload = [] ∨ bytes = [] := by
    by_cases hnil : d.readPayload = []
    · exact .inl hnil
    · have hshort := hfill.short
      rw [(h.payload hnil).1] at hshort
      exact .inr (List.length_eq_zero_iff.mp (Nat.le_zero.mp hshort))
  have hholds := h.toHolds.tookPrefix hfill.split hfill.short hempty
  -- a length that did not arrive as a whole belongs to no payload yet
  have hpart (hne : d.readPrefixLen + bytes.length ≠ 2) : d.readPayload = [] ∧
      (d.tookPrefix stream bytes).Between stock left := by
    have hnil : d.readPayload = [] := by
      by_contra hx
      have h2 := (h.payload hx).1
      have hshort := hfill.short
      dsimp only at hshort
      omega
    refine ⟨hnil, hholds, fun _ => ?_⟩
    have hle := hholds.prefixLen
    change d.readPrefixLen + bytes.length ≤ 2 at hle
    change d.readPrefixLen + bytes.length < 2
    omega
  cases result with
  | full =>
    have hcount := (hfill.full rfl).1
    dsimp only at hcount
    refine recvRecord_answers hd hholds ?_ hlimit
    change d.readPrefixLen + bytes.length = 2
    omega
  | ended =>
    have hless := hfill.ended rfl
    have hsplit := congrArg List.length hfill.split
    rw [List.length_append] at hsplit
    dsimp only at hsplit
    obtain ⟨hnil, hbetween⟩ := hpart (by omega)
    have hleft : left.length = d.readPrefixLen + (stock d.stream).length := by
      have hsize := h.size
      rw [h.left, hnil, List.take_nil, List.append_nil, List.length_append, List.length_take]
      omega
    have hnone : (stock stream).length = 0 := by
      rw [(hunfilled (by simp)).2 rfl]
      rfl
    dsimp only
    split
    · next hzero =>
      change d.readPrefixLen + bytes.length = 0 at hzero
      refine .closed ?_ ⟨⟨hbetween.size, hbetween.prefixLen, hbetween.payloadLen, hbetween.payload, hbetween.left⟩,
        hbetween.allocated⟩
      rw [← List.length_eq_zero_iff]
      omega
    · next hsome =>
      have herror : cutError left = ⟨.unexpectedEof, "UDP frame ended in length prefix"⟩ := if_pos (by omega)
      rw [← herror]
      refine .cut ⟨?_, by omega⟩ hbetween
      rw [← List.length_pos_iff]
      change d.readPrefixLen + bytes.length ≠ 0 at hsome
      omega
  | failed e => exact absurd rfl (hfill.sound e)
  | pending =>
    have hshort := (hunfilled (by simp)).1
    dsimp only at hshort
    exact .pending (hpart (by omega)).2

theorem recvPayload_stalls (hd : Delivers stock stalls) (d : MuxDatagramIo S) (room : ℕ) :
    stalls (d.recvPayload room).2.stream ≤ stalls d.stream ∧
      ((d.recvPayload room).1 = .pending → stalls (d.recvPayload room).2.stream < stalls d.stream) := by
  have hfill := hd.fill_stalls (d.readPayload.length - d.readPayloadLen + 1) d.stream
    (d.readPayload.length - d.readPayloadLen) (Nat.lt_succ_self _)
  unfold recvPayload
  dsimp only
  split <;> rename_i heq <;> rw [heq] at hfill
  · split <;> exact ⟨hfill.1, fun hx => nomatch hx⟩
  · exact ⟨hfill.1, fun hx => nomatch hx⟩
  · exact ⟨hfill.1, fun hx => nomatch hx⟩
  · exact ⟨hfill.1, fun _ => hfill.2 rfl⟩

theorem recvRecord_stalls (hd : Delivers stock stalls) (d : MuxDatagramIo S) (room : ℕ) :
    stalls (d.recvRecord room).2.stream ≤ stalls d.stream ∧
      ((d.recvRecord room).1 = .pending → stalls (d.recvRecord room).2.stream < stalls d.stream) := by
  unfold recvRecord
  split
  · dsimp only
    split
    · exact ⟨Nat.le_refl _, fun hx => nomatch hx⟩
    · split
      · exact ⟨Nat.le_refl _, fun hx => nomatch hx⟩
      · exact recvPayload_stalls hd { d with readPayload := resize d.readPayload (ofBytes d.readPrefix) } room
  · exact recvPayload_stalls hd d room

theorem pollRecvDatagram_stalls (hd : Delivers stock stalls) (d : MuxDatagramIo S) (room : ℕ) :
    stalls (d.pollRecvDatagram room).2.stream ≤ stalls d.stream ∧
      ((d.pollRecvDatagram room).1 = .pending → stalls (d.pollRecvDatagram room).2.stream < stalls d.stream) := by
  have hfill := hd.fill_stalls (2 - d.readPrefixLen + 1) d.stream (2 - d.readPrefixLen) (Nat.lt_succ_self _)
  unfold pollRecvDatagram
  dsimp only
  split <;> rename_i heq <;> rw [heq] at hfill
  · rename_i stream bytes
    obtain ⟨hle, hlt⟩ := recvRecord_stalls hd (d.tookPrefix stream bytes) room
    exact ⟨Nat.le_trans hle hfill.1, fun hx => Nat.lt_of_lt_of_le (hlt hx) hfill.1⟩
  · split <;> exact ⟨hfill.1, fun hx => nomatch hx⟩
  · exact ⟨hfill.1, fun hx => nomatch hx⟩
  · exact ⟨hfill.1, fun _ => hfill.2 rfl⟩

def recvAll : MuxDatagramIo S → List ℕ → List (IoPoll DatagramRecv)
  | _, [] => []
  | d, room :: rooms => (d.pollRecvDatagram room).1 :: recvAll (d.pollRecvDatagram room).2 rooms

end MuxDatagramIo

/-- The answers for a stream of the records of some datagrams that ends after `cut`: pending any
    time, else the next datagram if the buffer holds it and its length if not, and in the end
    closed, or the error of a record cut short. -/
def Expected (cut : List UInt8) : List (List UInt8) → List ℕ → List (IoPoll DatagramRecv) → Prop
  | _, [], [] => True
  | datagrams, _ :: rooms, .pending :: answers => Expected cut datagrams rooms answers
  | [], _ :: rooms, .ready answer :: answers =>
    answer = (if cut = [] then .ok .closed else .error (cutError cut)) ∧ Expected cut [] rooms answers
  | datagram :: rest, room :: rooms, .ready answer :: answers =>
    if room < datagram.length then
      answer = .ok (.bufferTooSmall datagram.length) ∧ Expected cut (datagram :: rest) rooms answers
    else answer = .ok (.datagram datagram) ∧ Expected cut rest rooms answers
  | _, _, _ => False

def PartOfRecord (cut : List UInt8) : Prop :=
  ∃ datagram more, datagram.length ≤ maxUdpPayload ∧ record datagram = cut ++ more ∧ more ≠ []

theorem PartOfRecord.cases {cut : List UInt8} (h : PartOfRecord cut) :
    (2 ≤ cut.length → ofBytes (cut.take 2) ≤ maxUdpPayload) ∧
      ∀ datagram rest, datagram.length ≤ maxUdpPayload → cut ≠ record datagram ++ rest := by
  obtain ⟨datagram, more, hlength, hrecord, hne⟩ := h
  have hshort : cut.length < 2 + datagram.length := by
    have hlen := congrArg List.length hrecord
    have hpos : 0 < more.length := List.length_pos_iff.mpr hne
    rw [record_length, List.length_append] at hlen
    omega
  have hof (h2 : 2 ≤ cut.length) : ofBytes (cut.take 2) = datagram.length := by
    have hwhole := ofBytes_record hlength []
    rw [List.append_nil, hrecord, List.take_append_of_le_length h2] at hwhole
    exact hwhole
  refine ⟨fun h2 => (hof h2).symm ▸ hlength, fun other rest hother hx => ?_⟩
  have h2 : 2 ≤ cut.length := by
    rw [hx, List.length_append, record_length]
    omega
  have hsame := hof h2
  rw [hx, ofBytes_record hother] at hsame
  rw [hx, List.length_append, record_length] at hshort
  omega

theorem MuxDatagramIo.Between.expected (hd : Delivers stock stalls) {cut : List UInt8} (hcut : PartOfRecord cut)
    (rooms : List ℕ) {datagrams : List (List UInt8)} (hall : ∀ datagram ∈ datagrams, datagram.length ≤ maxUdpPayload)
    {d : MuxDatagramIo S} (h : d.Between stock (records datagrams ++ cut)) :
    Expected cut datagrams rooms (d.recvAll rooms) ∧
      (d.recvAll rooms).countP (· matches .pending) ≤ stalls d.stream := by
  induction rooms generalizing datagrams d with
  | nil => exact ⟨by rw [recvAll, Expected]; trivial, Nat.zero_le _⟩
  | cons room rooms ih =>
    obtain ⟨hlimit, hwhole⟩ := hcut.cases
    have hfits : 2 ≤ (records datagrams ++ cut).length →
        ofBytes ((records datagrams ++ cut).take 2) ≤ maxUdpPayload := by
      cases datagrams with
      | nil => exact hlimit
      | cons first rest =>
        intro _
        have hfirst := hall first List.mem_cons_self
        rw [records_cons, List.append_assoc, ofBytes_record hfirst]
        exact hfirst
    have hanswers := pollRecvDatagram_answers hd room h hfits
    obtain ⟨hle, hlt⟩ := pollRecvDatagram_stalls hd d room
    rw [recvAll, List.countP_cons]
    generalize d.pollRecvDatagram room = r at hanswers hle hlt
    obtain ⟨answer, d'⟩ := r
    dsimp only at hanswers hle hlt ⊢
    cases hanswers with
    | pending hbetween =>
      obtain ⟨hexpected, hcount⟩ := ih hall hbetween
      have hless := hlt rfl
      exact ⟨by rw [Expected]; exact hexpected, by simp; omega⟩
    | datagram bytes rest hleft hroom hmax hbetween =>
      cases datagrams with
      | nil => exact absurd hleft (hwhole bytes rest hmax)
      | cons first others =>
        rw [records_cons, List.append_assoc] at hleft
        obtain ⟨rfl, rfl⟩ := record_append_inj (hall first List.mem_cons_self) hmax hleft
        obtain ⟨hexpected, hcount⟩ := ih (fun x hm => hall x (List.mem_cons_of_mem _ hm)) hbetween
        refine ⟨?_, by simp; omega⟩
        rw [Expected, if_neg (Nat.not_lt.mpr hroom)]
        exact ⟨rfl, hexpected⟩
    | small bytes rest hleft hroom hmax hbetween =>
      cases datagrams with
      | nil => exact absurd hleft (hwhole bytes rest hmax)
      | cons first others =>
        obtain ⟨hexpected, hcount⟩ := ih hall hbetween
        rw [records_cons, List.append_assoc] at hleft
        obtain ⟨rfl, -⟩ := record_append_inj (hall first List.mem_cons_self) hmax hleft
        refine ⟨?_, by simp; omega⟩
        rw [Expected, if_pos hroom]
        exact ⟨rfl, hexpected⟩
    | closed hnil hbetween =>
      cases datagrams with
      | nil =>
        obtain ⟨hexpected, hcount⟩ := ih hall hbetween
        have hnone : cut = [] := hnil
        refine ⟨?_, by simp; omega⟩
        rw [Expected, if_pos hnone]
        exact ⟨rfl, hexpected⟩
      | cons first others =>
        have hlength := congrArg List.length hnil
        simp at hlength
    | cut hcutting hbetween =>
      cases datagrams with
      | nil =>
        obtain ⟨hexpected, hcount⟩ := ih hall hbetween
        have hsome : cut ≠ [] := hcutting.1
        refine ⟨?_, by simp; omega⟩
        rw [Expected, if_neg hsome]
        exact ⟨rfl, hexpected⟩
      | cons first others =>
        have hshort := hcutting.2
        rw [records_cons, List.append_assoc, ofBytes_record (hall first List.mem_cons_self), List.length_append,
          record_length] at hshort
        omega

end Recv

/-- Over streams that split and delay at will, the sender writes the encodings of the datagrams one
after the other, and the receiver hands out the datagrams whose encodings it is fed. -/
theorem datagrams_framed {S R : Type} [TracedIo S] [AsyncIo R] (datagrams frames : List (List UInt8))
    (hframes : datagrams.mapM encodeUdp = .ok frames) :
    (Accepting S → ∀ stream : S,
      (∀ n, let s := Sender.polls n ⟨.new stream, datagrams, none⟩
        s.failed = none ∧ ∃ done, datagrams = done ++ s.todo ∧
          TracedIo.written stream ++ (frames.take done.length).flatten <+: TracedIo.written s.io.stream ∧
          TracedIo.written s.io.stream <+: TracedIo.written stream ++ frames.flatten ∧
          (s.todo = [] → TracedIo.written s.io.stream = TracedIo.written stream ++ frames.flatten)) ∧
      ∀ stalls : S → ℕ, Unstalled stalls → ∃ n, (Sender.polls n ⟨.new stream, datagrams, none⟩).todo = []) ∧
    ∀ (stock : R → List UInt8) (stalls : R → ℕ), Delivers stock stalls → ∀ (stream : R) (cut : List UInt8),
      PartOfRecord cut → stock stream = frames.flatten ++ cut → ∀ rooms,
        Expected cut datagrams rooms ((MuxDatagramIo.new stream).recvAll rooms) ∧
        ((MuxDatagramIo.new stream).recvAll rooms).countP (· matches .pending) ≤ stalls stream := by
  obtain ⟨rfl, hall⟩ := mapM_encodeUdp hframes
  have hflat : (datagrams.map record).flatten = records datagrams := List.flatMap_def.symm
  refine ⟨fun hs stream => ?_, fun stock stalls hd stream cut hcut hstock rooms => ?_⟩
  · have hstart : Sender.Sound (TracedIo.written stream) datagrams [] ⟨.new stream, datagrams, none⟩ := by
      refine ⟨rfl, rfl, fun datagram rest _ => ⟨.inl ⟨rfl, rfl⟩, Nat.le_refl _, ?_⟩, fun _ => ?_⟩
      · simp [MuxDatagramIo.new]
      · simp [MuxDatagramIo.new]
    refine ⟨fun n => ?_, fun stalls hu => hstart.complete hs hu hall⟩
    obtain ⟨done, hsound⟩ := hstart.after_polls hs hall n
    obtain ⟨hlow, hhigh, hend⟩ := hsound.bounds
    refine ⟨hsound.unfailed, done, hsound.split, ?_, ?_, ?_⟩
    · have htake : datagrams.take done.length = done := by
        rw [hsound.split, List.take_left]
      rw [← List.map_take, ← List.flatMap_def, htake]
      exact hlow
    · rw [hflat]
      exact hhigh
    · rw [hflat]
      exact hend
  · refine MuxDatagramIo.Between.expected hd hcut rooms hall ⟨⟨rfl, Nat.zero_le _, Nat.le_refl _, ?_, ?_⟩, ?_⟩
    · exact fun hx => absurd rfl hx
    · rw [← hflat, ← hstock]
      rfl
    · exact fun _ => Nat.zero_lt_two

structure EndedScript where
  io : ScriptedIo.Script
  ended : io.ended = true

theorem script_read_ended (io : ScriptedIo.Script) (room : ℕ) :
    (ScriptedIo.Script.pollRead io room).2.ended = io.ended := by
  unfold ScriptedIo.Script.pollRead
  dsimp only
  repeat' split
  all_goals rfl

instance : AsyncIo EndedScript where
  pollRead io room :=
    ((ScriptedIo.Script.pollRead io.1 room).1,
      ⟨(ScriptedIo.Script.pollRead io.1 room).2, (script_read_ended io.1 room).trans io.2⟩)
  pollWrite io _ := (.pending, io)
  pollFlush io := (.pending, io)

theorem endedScript_delivers :
    Delivers (fun io : EndedScript => io.1.incoming) (fun io : EndedScript => io.1.reads.count 0) where
  feeds := ⟨fun io room hroom => script_feeds.read io.1 room hroom⟩
  patient io room hroom := by
    change (ScriptedIo.Script.pollRead io.1 room).2.reads.count 0 ≤ _ ∧
      ((ScriptedIo.Script.pollRead io.1 room).1 = _ → (ScriptedIo.Script.pollRead io.1 room).2.reads.count 0 < _)
    have hends := io.2
    have htail : io.1.reads.tail.count 0 ≤ io.1.reads.count 0 := List.Sublist.count_le 0 (List.tail_sublist _)
    unfold ScriptedIo.Script.pollRead
    dsimp only
    split
    · next hzero =>
      cases hreads : io.1.reads with
      | nil => simp [hreads] at hzero
      | cons n reads =>
        obtain rfl : n = 0 := by simpa [hreads] using hzero
        simp
    · split
      · rw [hends]
        exact ⟨htail, fun hx => nomatch hx⟩
      · exact ⟨htail, fun hx => nomatch hx⟩

/-- A datagram of two bytes and an empty one, read in pieces by a caller with a buffer of one byte at first. -/
theorem two_datagrams_framed :
    (∀ n, (Sender.polls n ⟨.new ({ writes := [1, 0, 2] } : ScriptedIo.Script), [[7, 8], []], none⟩).failed = none) ∧
    Expected [0] [[7, 8], []] [1, 1, 2, 2, 2]
      ((MuxDatagramIo.new (⟨{ incoming := [0, 2, 7, 8, 0, 0, 0], ended := true, reads := [1, 0] }, rfl⟩ :
        EndedScript)).recvAll [1, 1, 2, 2, 2]) := by
  obtain ⟨hsend, hrecv⟩ := datagrams_framed (S := ScriptedIo.Script) (R := EndedScript) [[7, 8], []]
    [[0, 2, 7, 8], [0, 0]] (by decide)
  refine ⟨fun n => ((hsend ScriptedIo.steady.write _).1 n).1, ?_⟩
  exact (hrecv _ _ endedScript_delivers ⟨_, rfl⟩ [0] ⟨[], [0], by decide, by decide, by decide⟩ rfl _).1

end Snolc.CoreIo
