import Snolc.PollIo

set_option autoImplicit false

namespace Snolc.ScriptedIo
open PollIo

structure Script where
  incoming : List UInt8 := []
  ended : Bool := false
  reads : List ℕ := []
  writes : List ℕ := []
  flushes : List Bool := []
  received : List UInt8 := []
  written : List UInt8 := []
  deriving DecidableEq, Repr

namespace Script

/-- Bytes the next call may move out of `wanted`. -/
def allowance (plan : List ℕ) (wanted : ℕ) : ℕ :=
  match plan with
  | [] => wanted
  | n :: _ => min n wanted

theorem allowance_le (plan : List ℕ) (wanted : ℕ) : allowance plan wanted ≤ wanted := by
  unfold allowance
  split <;> omega

def pollRead (t : Script) (n : ℕ) : IoPoll (List UInt8) × Script :=
  let next := { t with reads := t.reads.tail }
  if t.reads.head? = some 0 then (.pending, next)
  else if t.incoming = [] then (if t.ended then .ready (.ok []) else .pending, next)
  else
    let bytes := t.incoming.take (allowance t.reads n)
    (.ready (.ok bytes),
      { next with incoming := t.incoming.drop bytes.length, received := t.received ++ bytes })

def pollWrite (t : Script) (bytes : List UInt8) : IoPoll ℕ × Script :=
  let next := { t with writes := t.writes.tail }
  if t.writes.head? = some 0 then (.pending, next)
  else
    let count := allowance t.writes bytes.length
    (.ready (.ok count), { next with written := t.written ++ bytes.take count })

def pollFlush (t : Script) : IoPoll Unit × Script :=
  (if t.flushes.head? = some false then .pending else .ready (.ok ()), { t with flushes := t.flushes.tail })

end Script

instance : TracedIo Script where
  pollRead := Script.pollRead
  pollWrite := Script.pollWrite
  pollFlush := Script.pollFlush
  received := Script.received
  written := Script.written
  read_bound t n := by
    have ha := Script.allowance_le t.reads n
    unfold Script.pollRead
    dsimp only
    repeat' split
    all_goals simp only [readBytes_ok, readBytes_pending, List.length_nil, List.length_take]
    all_goals omega
  read_received t n := by
    unfold Script.pollRead
    dsimp only
    repeat' split
    all_goals simp
  read_written t n := by
    unfold Script.pollRead
    dsimp only
    repeat' split
    all_goals rfl
  write_bound t bytes := by
    have ha := Script.allowance_le t.writes bytes.length
    unfold Script.pollWrite
    dsimp only
    split
    · simp
    · exact ha
  write_written t bytes := by
    unfold Script.pollWrite
    dsimp only
    split <;> simp
  write_received t bytes := by
    unfold Script.pollWrite
    dsimp only
    split <;> rfl
  flush_written _ := rfl
  flush_received _ := rfl

theorem steady : Steady Script where
  write io bytes hne := by
    have hpos : 0 < bytes.length := List.length_pos_iff.mpr hne
    have hdef : AsyncIo.pollWrite io bytes = Script.pollWrite io bytes := rfl
    rw [hdef]
    unfold Script.pollWrite
    dsimp only
    split
    · exact .inl rfl
    · rename_i hz
      refine .inr ⟨Script.allowance io.writes bytes.length - 1, ?_⟩
      have : Script.allowance io.writes bytes.length ≠ 0 := by
        unfold Script.allowance
        split
        · omega
        · rename_i n rest hplan
          have : n ≠ 0 := by rintro rfl; exact hz (by simp [hplan])
          omega
      rw [Nat.sub_add_cancel (by omega)]
  flush io e := by
    change (Script.pollFlush io).1 ≠ _
    unfold Script.pollFlush
    dsimp only
    split <;> simp

theorem drain_open (fuel : ℕ) {io : Script} (hw : io.writes = []) {bytes : List UInt8} (hne : bytes ≠ []) :
    drain (fuel + 1) io bytes = (.ready (.ok ()), { io with written := io.written ++ bytes }, bytes.length) := by
  obtain ⟨first, rest, rfl⟩ := List.exists_cons_of_ne_nil hne
  have hpoll : AsyncIo.pollWrite io (first :: rest) =
      (.ready (.ok (rest.length + 1)), { io with written := io.written ++ first :: rest }) := by
    change Script.pollWrite io (first :: rest) = _
    simp [Script.pollWrite, Script.allowance, hw]
  rw [drain, hpoll]
  simp

theorem fill_open (fuel : ℕ) {io : Script} (hr : io.reads = []) {bytes rest : List UInt8}
    (hi : io.incoming = bytes ++ rest) :
    fill (fuel + 1) io bytes.length =
      (.full, { io with incoming := rest, received := io.received ++ bytes }, bytes) := by
  cases bytes with
  | nil =>
    obtain ⟨incoming, ended, reads, writes, flushes, received, written⟩ := io
    simp_all [fill]
  | cons first bytes =>
    have hpoll : AsyncIo.pollRead io (bytes.length + 1) =
        (.ready (.ok (first :: bytes)),
          { io with incoming := rest, received := io.received ++ first :: bytes }) := by
      change Script.pollRead io (bytes.length + 1) = _
      simp [Script.pollRead, Script.allowance, hr, hi]
    rw [List.length_cons, fill, hpoll]
    cases fuel <;> simp [fill]

end Snolc.ScriptedIo
