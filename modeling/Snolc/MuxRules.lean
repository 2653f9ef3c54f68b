import Snolc.MuxConnection

set_option autoImplicit false

namespace Snolc.Mux
open PollIo MuxFrame

namespace Connection
variable {T : Type} [AsyncIo T]

/-- A property that the updates of the sending half keep. -/
structure Sending (I : Connection T → Prop) : Prop where
  start : ∀ c (f : Frame), I c → I { c with write := some (.ofFrame f f.payload.length) }
  queued : ∀ c, I c → I c.startQueuedControl
  cleared : ∀ c id, I c → I (c.clearCompleted id)
  flush : ∀ c, I c → I c.pollFlushWrite.2

theorem Sending.of_updates {I : Connection T → Prop}
    (hsent : ∀ c io write controls, I c → I { c with io, write, controls })
    (hcompleted : ∀ c id n, I c → I (c.modifyStream id fun state => { state with completedWrite := n })) :
    Sending I where
  start c f h := hsent c c.io _ c.controls h
  queued c h := by
    unfold startQueuedControl
    split
    · exact hsent c c.io _ _ h
    · exact h
  cleared c id h := hcompleted c id 0 h
  flush c h := by
    unfold pollFlushWrite
    split
    · exact h
    · split
      · exact hsent c _ c.write c.controls h
      · dsimp only
        split
        · have hdone (w : PendingWrite) : I (c.completeWrite w) := by
            have hidle := hsent c c.io none c.controls h
            unfold completeWrite
            dsimp only
            split
            · exact hcompleted _ _ _ hidle
            · exact hidle
          exact hsent _ _ _ _ (hdone _)
        · exact hsent c _ _ c.controls h

namespace Sending
variable {I : Connection T → Prop}

theorem sendControl (hI : Sending I) (c : Connection T) (h : I c) (kind : FrameKind) (id : StreamId) :
    I (c.sendControl kind id).2 := by
  unfold Connection.sendControl
  dsimp only
  split
  · exact hI.flush _ (hI.start c (Frame.control kind id) h)
  · exact hI.flush c h

theorem pollControl (hI : Sending I) (c : Connection T) (h : I c) (kind : FrameKind) (id : StreamId) :
    I (c.pollControl kind id).2 := by
  have hflush := hI.flush c h
  unfold Connection.pollControl
  split
  · exact hI.sendControl c h kind id
  · split
    · exact hflush
    · split <;> rename_i heq <;> rw [heq] at hflush
      · exact hI.sendControl _ hflush kind id
      · exact hflush

theorem flushAccepted (hI : Sending I) (c : Connection T) (h : I c) (id : StreamId) (accepted : ℕ) :
    I (c.flushAccepted id accepted).2 := by
  have hflush := hI.flush c h
  unfold Connection.flushAccepted
  split <;> rename_i heq <;> rw [heq] at hflush
  · exact hI.cleared _ id hflush
  · exact hflush
  · exact hflush

theorem startData (hI : Sending I) (c : Connection T) (h : I c) (id : StreamId) (input : List UInt8) :
    I (c.startData id input).2 := by
  have hlen : (input.take (min input.length c.splitSendSize)).length = min input.length c.splitSendSize := by
    rw [List.length_take]
    omega
  have hstart := hI.start c ⟨.frameData, id, input.take (min input.length c.splitSendSize)⟩ h
  rw [hlen] at hstart
  exact hI.flushAccepted _ hstart id _

theorem writeData (hI : Sending I) (c : Connection T) (h : I c) (id : StreamId) (input : List UInt8) :
    I (c.writeData id input).2 := by
  have hflush := hI.flush c h
  unfold Connection.writeData
  split
  · exact hI.startData c h id input
  · split
    · exact hI.flushAccepted c h id _
    · split <;> rename_i heq <;> rw [heq] at hflush
      · exact hI.startData _ hflush id input
      · exact hflush
      · exact hflush

theorem pollData (hI : Sending I) (c : Connection T) (h : I c) (id : StreamId) (input : List UInt8) :
    I (c.pollData id input).2 := by
  unfold Connection.pollData
  split
  · exact h
  · split
    · exact h
    · have hclear := hI.cleared c id h
      dsimp only
      split
      · exact hclear
      · exact hI.writeData _ (hI.queued _ hclear) id input

theorem driveWrite (hI : Sending I) (c : Connection T) (h : I c) : I c.driveWrite.2 := by
  have hqueued := hI.queued c h
  unfold Connection.driveWrite
  dsimp only
  split
  · exact hI.flush _ hqueued
  · exact hqueued

end Sending

/-- A property that the steps of the receiving half keep, and the write half of `poll_drive`. -/
structure Reading (I : Connection T → Prop) : Prop where
  write : ∀ c, I c → I c.driveWrite.2
  prepare : ∀ c, I c → I c.pollPrepareFrame.2
  body : ∀ c frame, I c → c.readFrame = some frame → I (c.pollFrameBody frame).2
  direct : ∀ c frame room, I c → c.readFrame = some frame → frame.bytes = [] → I (c.readDirect frame room).2
  advance : ∀ c id count, I c → I (c.modifyStream id fun state => state.advance count)
  taken : ∀ c count, I c → I { c with receivedBytes := c.receivedBytes - count }

namespace Reading
variable {I : Connection T → Prop}

theorem driveRead (hI : Reading I) (c : Connection T) (h : I c) : I c.driveRead.2 := by
  have hprep := hI.prepare c h
  unfold Connection.driveRead
  split <;> rename_i heq <;> rw [heq] at hprep
  · split
    · next hframe => exact hI.body _ _ hprep hframe
    · exact hprep
  · exact hprep

theorem pollDrive (hI : Reading I) (c : Connection T) (h : I c) : I c.pollDrive.2 := by
  have hwrite := hI.write c h
  unfold Connection.pollDrive
  split
  · exact h
  · split <;> rename_i heq <;> rw [heq] at hwrite
    · exact hwrite
    · exact hI.driveRead _ hwrite

theorem pollReadStream (hI : Reading I) (c : Connection T) (h : I c) (id : StreamId) (room : ℕ) :
    I (c.pollReadStream id room).2 := by
  have hprep := hI.prepare c h
  unfold Connection.pollReadStream
  split <;> rename_i heq <;> rw [heq] at hprep
  · exact hprep
  · exact hprep
  · split
    · exact hprep
    · next hframe =>
      split
      · have hdrive := hI.pollDrive _ hprep
        split <;> rename_i heq' <;> rw [heq'] at hdrive <;> exact hdrive
      · next hdirect =>
        simp only [not_or, not_not] at hdirect
        exact hI.direct _ _ room hprep hframe hdirect.2.2.1

theorem pollRead (hI : Reading I) (c : Connection T) (h : I c) (id : StreamId) (room : ℕ) :
    I (c.pollRead id room).2 := by
  unfold Connection.pollRead
  split
  · exact h
  · split
    · exact h
    · split
      · split
        · exact h
        · exact hI.pollReadStream c h id room
      · have hnext (count : ℕ) := hI.advance c id count h
        dsimp only
        split
        · exact hI.taken _ _ (hnext _)
        · exact hI.pollReadStream _ (hnext _) id room

end Reading

end Connection
end Snolc.Mux
