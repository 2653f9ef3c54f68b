import Snolc.MuxRules

set_option autoImplicit false

namespace Snolc.Mux
open PollIo MuxFrame

namespace Connection
variable {T : Type} [AsyncIo T]

/-- A property of the io that each of its polls keeps. -/
structure IoInvariant (P : T → Prop) : Prop where
  read : ∀ io n, P io → P (AsyncIo.pollRead io n).2
  write : ∀ io bytes, P io → P (AsyncIo.pollWrite io bytes).2
  flush : ∀ io, P io → P (AsyncIo.pollFlush io).2

omit [AsyncIo T] in
def IoHas (P : T → Prop) (c : Connection T) : Prop := ∀ io, c.io = some io → P io

variable {P : T → Prop} {c : Connection T}

omit [AsyncIo T] in
theorem IoHas.some {io : T} (h : P io) (hio : c.io = some io) : IoHas P c := by
  intro io' hio'
  rw [hio] at hio'
  cases hio'
  exact h

omit [AsyncIo T] in
theorem finishFrame_io {d : Connection T} {frame : PendingRead} (h : c.finishFrame frame = .ok d) :
    d.io = c.io := by
  unfold finishFrame at h
  split at h
  · split at h
    · rename_i m hm
      unfold insertStream at hm
      split at hm
      · cases hm
      · cases hm; cases h; rfl
    · cases h
  · split at h
    · cases h
    · cases h; rfl
  · split at h
    · cases h
    · cases h; rfl

omit [AsyncIo T] in
theorem acceptHeader_io (c : Connection T) : c.acceptHeader.2.io = c.io := by
  unfold acceptHeader
  dsimp only
  repeat' split
  all_goals rfl

omit [AsyncIo T] in
theorem startQueuedControl_io (c : Connection T) : c.startQueuedControl.io = c.io := by
  unfold startQueuedControl
  split <;> rfl

theorem IoHas.flushWrite (h : IoHas P c) (hp : IoInvariant P) : IoHas P c.pollFlushWrite.2 := by
  unfold pollFlushWrite
  split
  · exact h
  · rename_i io hio
    split
    · exact .some (hp.flush io (h io hio)) rfl
    · rename_i w hw
      dsimp only
      have hd : P (drain ((w.bytes.drop w.offset).length + 1) io (w.bytes.drop w.offset)).2.1 :=
        drain_invariant_first P _ (fun io bytes _ _ hio => hp.write io bytes hio) _ io _ (Nat.le_refl _)
          (hp.write io _ (h io hio))
      split <;> rename_i heq <;> rw [heq] at hd
      · exact .some (hp.flush _ hd) rfl
      · exact .some hd rfl

theorem IoHas.prepare (h : IoHas P c) (hp : IoInvariant P) : IoHas P c.pollPrepareFrame.2 := by
  unfold pollPrepareFrame
  split
  · exact h
  · split
    · exact h
    · rename_i io hio
      have hfill := fill_invariant P hp.read (muxHeaderBytes - c.readHeaderOffset + 1) io
        (muxHeaderBytes - c.readHeaderOffset) (h io hio)
      dsimp only
      split <;> rename_i heq <;> rw [heq] at hfill
      · exact .some hfill (acceptHeader_io _)
      · exact .some hfill rfl
      · exact .some hfill rfl
      · exact .some hfill rfl

theorem IoHas.body (h : IoHas P c) (hp : IoInvariant P) (frame : PendingRead) :
    IoHas P (c.pollFrameBody frame).2 := by
  unfold pollFrameBody
  dsimp only
  split
  · exact h
  · rename_i io hio
    have hfill := fill_invariant P hp.read (frame.prepare.bytes.length - frame.prepare.bufferOffset + 1) io
      (frame.prepare.bytes.length - frame.prepare.bufferOffset) (h io hio)
    split <;> rename_i heq <;> rw [heq] at hfill
    · split
      · rename_i hd
        exact .some hfill (finishFrame_io hd)
      · exact .some hfill rfl
    · exact .some hfill rfl
    · exact .some hfill rfl
    · exact .some hfill rfl

theorem IoHas.readDirect (h : IoHas P c) (hp : IoInvariant P) (frame : PendingRead) (room : ℕ) :
    IoHas P (c.readDirect frame room).2 := by
  unfold Connection.readDirect
  split
  · exact h
  · rename_i io hio
    have hr := hp.read io (min room (frame.length - frame.wireConsumed)) (h io hio)
    split <;> rename_i heq <;> rw [heq] at hr <;> exact .some hr rfl

theorem reading_ioHas (hp : IoInvariant P) : Reading (IoHas (T := T) P) where
  write c h := by
    have hstart : IoHas P c.startQueuedControl := by
      unfold IoHas
      rw [startQueuedControl_io]
      exact h
    unfold driveWrite
    dsimp only
    split
    · exact hstart.flushWrite hp
    · exact hstart
  prepare _ h := h.prepare hp
  body _ frame h _ := h.body hp frame
  direct _ frame room h _ _ := h.readDirect hp frame room
  advance _ _ _ h := h
  taken _ _ h := h

end Connection
end Snolc.Mux
