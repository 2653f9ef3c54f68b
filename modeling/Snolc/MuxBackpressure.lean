import Snolc.MuxLink

set_option autoImplicit false

namespace Snolc.Mux
open PollIo SlotTable MuxFrame GuardedRuns ScriptedIo

namespace Connection
variable {c : Connection Script}

def nextHeader (c : Connection Script) : Option Header :=
  match c.readFrame, c.io with
  | none, some io =>
    match fill (muxHeaderBytes - c.readHeaderOffset + 1) io (muxHeaderBytes - c.readHeaderOffset) with
    | (.full, _, chunk) => some (Header.parse (overwrite c.readHeader c.readHeaderOffset chunk))
    | _ => none
  | _, _ => none

def ReadsWire (c : Connection Script) (id : StreamId) (room : ℕ) : Prop :=
  room ≠ 0 ∧ ∃ state, c.stream id = some state ∧
    match state.input with
    | [] => state.eof = false
    | front :: _ => front.length ≤ state.offset

theorem pollRead_not_failed (io : Script) (n : ℕ) (e : IoError) :
    (AsyncIo.pollRead io n).1 ≠ .ready (.error e) := by
  change (Script.pollRead io n).1 ≠ _
  unfold Script.pollRead
  dsimp only
  repeat' split
  all_goals simp

theorem fill_not_failed (fuel : ℕ) (io : Script) (want : ℕ) (e : IoError) :
    (fill fuel io want).1 ≠ .failed e := by
  induction fuel generalizing io want with
  | zero => cases want <;> simp [fill]
  | succ fuel ih =>
    cases want with
    | zero => simp [fill]
    | succ want =>
      have hread := pollRead_not_failed io (want + 1)
      rw [fill]
      split <;> rename_i heq <;> rw [heq] at hread
      · simp
      · exact ih _ _
      · exact absurd rfl (hread _)
      · simp

def Exceeds (c : Connection Script) (header : Header) : Prop :=
  c.splitSendSize < header.length ∨ c.receiveLimit < saturatingAdd c.receivedBytes header.length

theorem acceptHeader_limit_iff (c : Connection Script) :
    c.acceptHeader.1 = .ready (.error limitError) ↔ c.Exceeds (Header.parse c.readHeader) := by
  unfold acceptHeader
  dsimp only
  split
  · rename_i h
    exact ⟨fun _ => h, fun _ => rfl⟩
  · rename_i h
    refine ⟨fun hx => ?_, fun hx => absurd hx h⟩
    repeat' split at hx
    all_goals simp [limitError] at hx

theorem prepare_limit_iff (c : Connection Script) :
    c.pollPrepareFrame.1 = .ready (.error limitError) ↔ ∃ header, c.nextHeader = some header ∧ c.Exceeds header := by
  unfold pollPrepareFrame nextHeader
  split
  · rename_i frame hf
    simp [hf]
  · rename_i hf
    split
    · rename_i hio
      simp [hf, hio]
    · rename_i io hio
      have hfail := fill_not_failed (muxHeaderBytes - c.readHeaderOffset + 1) io (muxHeaderBytes - c.readHeaderOffset)
      simp only [hf, hio]
      split <;> rename_i heq <;> simp only [heq] at hfail ⊢
      · rw [acceptHeader_limit_iff]
        simp [Exceeds, receiveHeader]
      · simp
      · exact absurd rfl (hfail _)
      · simp

theorem body_within (c : Connection Script) (frame : PendingRead) :
    (c.pollFrameBody frame).1 ≠ .ready (.error limitError) := by
  unfold pollFrameBody
  dsimp only
  split
  · simp
  · rename_i io hio
    have hfail := fill_not_failed (frame.prepare.bytes.length - frame.prepare.bufferOffset + 1) io
      (frame.prepare.bytes.length - frame.prepare.bufferOffset)
    split <;> rename_i heq <;> rw [heq] at hfail
    · split
      · simp
      · rename_i e he
        intro hx
        cases hx
        unfold finishFrame at he
        repeat' split at he
        all_goals simp [limitError] at he
    · simp [limitError]
    · exact absurd rfl (hfail _)
    · simp

theorem drive_limit_iff (hw : c.write = none) (hc : c.controls = []) :
    c.pollDrive.1 = .ready (.error limitError) ↔
      c.closed = false ∧ c.pollPrepareFrame.1 = .ready (.error limitError) := by
  have hstart : c.startQueuedControl = c := by
    unfold startQueuedControl
    rw [hw, hc]
  have hwrite : c.driveWrite = (.ready (.ok ()), c) := by
    unfold driveWrite
    simp [hstart, hw]
  have hread : c.driveRead.1 = .ready (.error limitError) ↔ c.pollPrepareFrame.1 = .ready (.error limitError) := by
    unfold driveRead
    split <;> rename_i heq <;> rw [heq]
    · refine ⟨fun hx => ?_, fun hx => by simp at hx⟩
      split at hx
      · exact absurd hx (body_within _ _)
      · simp at hx
  unfold pollDrive
  rw [hwrite]
  by_cases hclosed : c.closed
  · simp [hclosed]
  · simpa [hclosed] using hread

theorem readStream_limit_iff (hw : c.write = none) (hc : c.controls = []) (id : StreamId) (room : ℕ) :
    (c.pollReadStream id room).1 = .ready (.error limitError) ↔
      c.pollPrepareFrame.1 = .ready (.error limitError) := by
  have hout := pollPrepareFrame_outbound c
  unfold pollReadStream
  split <;> rename_i heq <;> rw [heq] at hout ⊢
  · simp
  · simp
  · refine ⟨fun hx => ?_, fun hx => by simp at hx⟩
    rename_i m
    split at hx
    · simp at hx
    · rename_i frame hf
      split at hx
      · have hprep : m.pollPrepareFrame = (.ready (.ok ()), m) := by
          unfold pollPrepareFrame
          rw [hf]
        have hdrive := drive_limit_iff (hout.write.trans hw) (hout.controls.trans hc)
        rw [hprep] at hdrive
        split at hx <;> rename_i heq'
        · rw [heq'] at hdrive
          cases hx
          exact absurd (hdrive.mp rfl).2 (by simp)
        · simp at hx
      · unfold readDirect at hx
        split at hx
        · simp [limitError] at hx
        · rename_i io hio
          have hfail : ∀ e, (AsyncIo.pollRead io (min room (frame.length - frame.wireConsumed))).1 ≠
              .ready (.error e) := fun e => pollRead_not_failed _ _ _
          split at hx <;> rename_i heq' <;> rw [heq'] at hfail
          · simp [limitError] at hx
          · simp at hx
          · exact absurd rfl (hfail _)
          · simp at hx

theorem read_limit_iff (hw : c.write = none) (hc : c.controls = []) (id : StreamId) (room : ℕ) :
    (c.pollRead id room).1 = .ready (.error limitError) ↔
      c.ReadsWire id room ∧ c.pollPrepareFrame.1 = .ready (.error limitError) := by
  unfold pollRead ReadsWire
  split
  · rename_i hr
    simp [hr]
  · rename_i hr
    split
    · rename_i hs
      simp [hs, limitError]
    · rename_i state hs
      simp only [hs, Option.some.injEq, exists_eq_left', hr, not_false_eq_true, ne_eq, true_and]
      cases hi : state.input with
      | nil =>
        dsimp only
        split
        · rename_i he
          simp [he]
        · rename_i he
          simp only [Bool.not_eq_true] at he
          simpa [he] using readStream_limit_iff hw hc id room
      | cons front rest =>
        dsimp only
        by_cases hz : front.length ≤ state.offset
        · rw [if_neg (by omega)]
          have hnext (count : ℕ) := readStream_limit_iff (c := c.modifyStream id (fun s => s.advance count))
            hw hc id room
          have hsame (count : ℕ) :
              (c.modifyStream id (fun s => s.advance count)).pollPrepareFrame.1 = .ready (.error limitError) ↔
                c.pollPrepareFrame.1 = .ready (.error limitError) := by
            rw [prepare_limit_iff, prepare_limit_iff]
            rfl
          rw [hnext, hsame]
          simp [hz]
        · rw [if_pos (by omega)]
          simp [hz]

end Connection

namespace Link
variable {l : Link} {split : ℕ} {ids : List StreamId}

/-- When a call of the reading side completes a header, the frame fits beside what
    the readers left in the queues. -/
def Roomy (l : Link) : Transfer → Prop
  | .write _ _ _ _ => True
  | .read id room reads => l.b.ReadsWire id room → ∀ header, (l.receiver reads).nextHeader = some header →
      saturatingAdd l.b.unread header.length ≤ l.b.receiveLimit
  | .drive reads => l.b.closed = false → ∀ header, (l.receiver reads).nextHeader = some header →
      saturatingAdd l.b.unread header.length ≤ l.b.receiveLimit

theorem Joined.short (h : Joined split ids l) {reads : List ℕ} {header : Header}
    (hn : (l.receiver reads).nextHeader = some header) : header.length ≤ split := by
  obtain ⟨sent, got, part, hs, ht⟩ := h
  obtain ⟨hin, -, hio⟩ := ht.receiver reads
  unfold Connection.nextHeader at hn
  split at hn
  · rename_i io hf hsome
    obtain ⟨hle, hr, -, hfull⟩ := fill_spec _ io (muxHeaderBytes - (l.receiver reads).readHeaderOffset)
      (Nat.lt_succ_self _)
    have hholds := fill_invariant (Holds l.a.sentBytes) (holds_invariant _).read
      (muxHeaderBytes - (l.receiver reads).readHeaderOffset + 1) io
      (muxHeaderBytes - (l.receiver reads).readHeaderOffset) (hio io hsome)
    split at hn
    · rename_i io' chunk heq
      rw [heq] at hle hr hfull hholds
      dsimp only at hle hr hfull hholds
      have hoff := (hin.idle hf).1
      have hlen : (l.receiver reads).readHeaderOffset + chunk.length = muxHeaderBytes := by
        rw [hfull.mp rfl]; omega
      obtain ⟨htaken, hl, hp⟩ := hin.header_part hf hsome hr (Nat.le_of_eq hlen)
      rw [hlen, ← hl, List.take_length] at hp
      have hpipe : flat got ++ (part ++ chunk) <+: flat sent := by
        rw [← htaken]
        exact (List.IsPrefix.trans ⟨io'.incoming, hholds⟩ hs.wire)
      rw [hp] at hpipe
      obtain ⟨f, hf', hheader⟩ := header_initial (fun f hf => (ht.inbox.regular f hf).fits) hs.fits hl hpipe
      cases hn
      change (Header.parse ((l.receiver reads).receiveHeader io' chunk).readHeader).length ≤ split
      rw [hheader, Header.parse_headerBytes, (hs.fits f hf').header_length]
      exact (hs.frames f hf').short
    · cases hn
  · cases hn

/-- On joined sides only the budget can be exceeded, and it counts what is unread. -/
theorem Joined.exceeds_iff (h : Joined split ids l) (reads : List ℕ) :
    (l.receiver reads).pollPrepareFrame.1 = .ready (.error Connection.limitError) ↔
      ∃ header, (l.receiver reads).nextHeader = some header ∧
        l.b.receiveLimit < saturatingAdd l.b.unread header.length := by
  rw [Connection.prepare_limit_iff]
  refine exists_congr fun header => and_congr_right fun hn => ?_
  have hshort := h.short hn
  obtain ⟨sent, got, part, hs, ht⟩ := h
  have hbudget : (l.receiver reads).receivedBytes = l.b.unread := ht.inbox.budget
  have hsize : (l.receiver reads).splitSendSize = split := ht.size
  unfold Connection.Exceeds
  rw [hbudget, hsize]
  exact ⟨fun hx => hx.resolve_left (by omega), .inr⟩

theorem Joined.within_iff (h : Joined split ids l) (t : Transfer) : l.WithinLimit t ↔ l.Roomy t := by
  have hquiet (reads : List ℕ) : (l.receiver reads).write = none ∧ (l.receiver reads).controls = [] := by
    obtain ⟨sent, got, part, -, ht⟩ := h
    refine ⟨?_, ht.quiet⟩
    cases hw : l.b.write with
    | none => exact hw
    | some w =>
      obtain ⟨-, done, hd⟩ := ht.outbox.pending w hw
      simp at hd
  cases t with
  | write id input writes flushes => exact Iff.rfl
  | read id room reads =>
    simp only [WithinLimit, Roomy]
    rw [ne_eq, Connection.read_limit_iff (hquiet reads).1 (hquiet reads).2, h.exceeds_iff]
    simp only [not_and, not_exists, Nat.not_lt]
    rfl
  | drive reads =>
    simp only [WithinLimit, Roomy]
    rw [ne_eq, Connection.drive_limit_iff (hquiet reads).1 (hquiet reads).2, h.exceeds_iff]
    simp only [not_and, not_exists, Nat.not_lt]
    rfl

end Link

/-- Without flow control the session survives exactly the schedules in which every
    frame that arrives fits beside what is still unread. -/
theorem limit_kept_iff (config : YamuxConfig) (ids : List StreamId) (transfers : List Transfer)
    (h : Guarded Link.step Link.Announced (Link.start config ids) transfers) :
    Guarded Link.step Link.WithinLimit (Link.start config ids) transfers ↔
      Guarded Link.step Link.Roomy (Link.start config ids) transfers := by
  have hall (transfers : List Transfer) (l : Link) (hl : l.Joined config.splitSendSize ids)
      (h : Guarded Link.step Link.Announced l transfers) :
      Guarded Link.step Link.WithinLimit l transfers ↔ Guarded Link.step Link.Roomy l transfers := by
    induction transfers generalizing l with
    | nil => exact Iff.rfl
    | cons t transfers ih =>
      have hstep (hw : l.WithinLimit t) := ih (l.step t) (hl.step l t ⟨hw, h.1⟩) h.2
      refine ⟨fun ⟨hw, hrest⟩ => ⟨(hl.within_iff t).mp hw, (hstep hw).mp hrest⟩, fun ⟨hr, hrest⟩ => ?_⟩
      have hw := (hl.within_iff t).mpr hr
      exact ⟨hw, (hstep hw).mpr hrest⟩
  exact hall transfers _ (Link.Joined.start config ids) h

theorem mixed_within_limit :
    Guarded Link.step Link.WithinLimit (Link.start ⟨2, 524288, 16384⟩ [1, 3]) mixedTransfers ∧
      Guarded Link.step Link.Roomy (Link.start ⟨2, 524288, 16384⟩ [1, 3]) mixedTransfers :=
  ⟨by decide, (limit_kept_iff ⟨2, 524288, 16384⟩ [1, 3] mixedTransfers (by decide)).mp (by decide)⟩

/-- The checks of `Config::validate` on the mux limits. -/
def YamuxConfig.Validated (config : YamuxConfig) : Prop :=
  2 ≤ config.maxStreamsPerSession ∧ config.maxStreamsPerSession * (256 * 1024) ≤ config.receiveWindowBytes ∧
    0 < config.splitSendSize

/-- Nobody reads stream 1, on which a whole window arrives before a byte of stream 3. -/
def unreadTransfers (input : List UInt8) : List Transfer :=
  [.write 1 input [] [], .drive [], .write 3 [7] [] [], .drive []]

namespace Link

structure Drained (l : Link) (pipe taken : Script) : Prop where
  idle : l.a.Idle pipe
  between : l.b.Between taken
  empty : taken.received = pipe.written
  settled : ∀ id, l.waiting id = none

theorem Drained.write {l : Link} {pipe taken : Script} (h : l.Drained pipe taken) {id : StreamId}
    (hs : (l.a.stream id).isSome) {input : List UInt8} (hne : input ≠ []) (hle : input.length ≤ l.a.splitSendSize) :
    (l.write id input [] []).a.Idle { pipe with written := pipe.written ++ (⟨.frameData, id, input⟩ : Frame).bytes } ∧
      (∀ other, ((l.write id input [] []).a.stream other).isSome = (l.a.stream other).isSome) ∧
      (l.write id input [] []).a.splitSendSize = l.a.splitSendSize ∧
      (∀ other, (l.write id input [] []).waiting other = none) ∧
      ((l.write id input [] []).receiver []).Between
        { taken with incoming := headerOf .frameData id input.length ++ (input ++ []) } := by
  obtain ⟨hidle, hsize, hsome, -, hwait⟩ := write_open h.idle hs (h.settled id) hne
  rw [List.take_of_length_le hle] at hidle
  refine ⟨hidle, hsome, hsize, fun other => ?_, ?_⟩
  · rw [hwait, Function.update_apply]
    split
    · rfl
    · exact h.settled other
  · have hbetween := h.between
    rw [← (l.write_receiving id input [] []).1] at hbetween
    refine receiver_open hbetween ?_
    simp only [Connection.sentBytes, hidle.io, Option.elim_some, List.append_nil]
    rw [h.empty]
    rfl

end Link

theorem unread_window_exceeded {input : List UInt8} (hi : input.length = 524288) :
    Guarded Link.step Link.Announced (Link.start ⟨2, 524288, 524288⟩ [1, 3]) (unreadTransfers input) ∧
      ¬ Guarded Link.step Link.WithinLimit (Link.start ⟨2, 524288, 524288⟩ [1, 3]) (unreadTransfers input) := by
  have hne : input ≠ [] := by
    rintro rfl
    simp at hi
  have hstart : (Link.start ⟨2, 524288, 524288⟩ [1, 3]).Drained {} {} :=
    ⟨Link.start_idle _ _, Link.start_between _ _, rfl, fun _ => rfl⟩
  have hfacts : ((Link.start ⟨2, 524288, 524288⟩ [1, 3]).a.stream 1).isSome ∧
      ((Link.start ⟨2, 524288, 524288⟩ [1, 3]).a.stream 3).isSome ∧
      ((Link.start ⟨2, 524288, 524288⟩ [1, 3]).b.stream 1).isSome := by decide
  have hlimits : (Link.start ⟨2, 524288, 524288⟩ [1, 3]).a.splitSendSize = 524288 ∧
      (Link.start ⟨2, 524288, 524288⟩ [1, 3]).b.splitSendSize = 524288 ∧
      (Link.start ⟨2, 524288, 524288⟩ [1, 3]).b.receiveLimit = 524288 ∧
      (Link.start ⟨2, 524288, 524288⟩ [1, 3]).b.receivedBytes = 0 := ⟨rfl, rfl, rfl, rfl⟩
  simp only [unreadTransfers, Guarded, Link.Announced, Link.WithinLimit, Link.step]
  generalize Link.start ⟨2, 524288, 524288⟩ [1, 3] = l₀ at hstart hfacts hlimits
  -- the first frame fills the window
  obtain ⟨hidle, hsome, hsize, hwait, hready⟩ := hstart.write hfacts.1 hne (by omega)
  obtain ⟨hb, -⟩ := l₀.write_receiving 1 input [] []
  have hoff : (l₀.offered 1 input).length = 524288 := by simp [Link.offered, hstart.settled, hi]
  rw [← hb] at hfacts hlimits
  generalize l₀.write 1 input [] [] = l₁ at hidle hsome hsize hwait hready hb hfacts hlimits
  have hroom : (l₁.receiver []).receivedBytes + input.length ≤ (l₁.receiver []).receiveLimit := by
    change l₁.b.receivedBytes + input.length ≤ l₁.b.receiveLimit
    omega
  obtain ⟨hnext, hbytes, hlimit, -, -⟩ :=
    hready.drive_between rfl (by omega) (by change _ ≤ l₁.b.splitSendSize; omega) hroom hfacts.2.2
  have hbytes : (l₁.receiver []).pollDrive.2.receivedBytes = 524288 := by
    rw [hbytes]; change l₁.b.receivedBytes + input.length = 524288; omega
  have hlimit : (l₁.receiver []).pollDrive.2.receiveLimit = 524288 := hlimit.trans hlimits.2.2.1
  generalize (l₁.receiver []).pollDrive.2 = d at hnext hbytes hlimit
  -- and the header of the second one does not fit beside it
  have hdrained : (⟨l₁.a, d, l₁.waiting, l₁.accepted, l₁.delivered⟩ : Link).Drained _ _ :=
    ⟨hidle, hnext, rfl, hwait⟩
  have hoff₃ : (Link.offered ⟨l₁.a, d, l₁.waiting, l₁.accepted, l₁.delivered⟩ 3 [7]).length = 1 := by
    simp [Link.offered, hwait]
  have hshort : ([7] : List UInt8).length ≤ l₁.a.splitSendSize := by
    rw [List.length_singleton]; omega
  obtain ⟨-, -, -, -, hready₃⟩ :=
    hdrained.write ((hsome 3).trans hfacts.2.1) (List.cons_ne_nil 7 []) hshort
  obtain ⟨hb₃, -⟩ := Link.write_receiving ⟨l₁.a, d, l₁.waiting, l₁.accepted, l₁.delivered⟩ 3 [7] [] []
  generalize Link.write ⟨l₁.a, d, l₁.waiting, l₁.accepted, l₁.delivered⟩ 3 [7] [] [] = l₃ at hready₃ hb₃
  have hprep := hready₃.prepare (headerOf_length .frameData 3 1) rfl
  have hover : (l₃.receiver []).receiveLimit < saturatingAdd (l₃.receiver []).receivedBytes 1 := by
    change l₃.b.receiveLimit < saturatingAdd l₃.b.receivedBytes 1
    rw [hb₃, hbytes, hlimit]
    decide
  have hfails := (Connection.drive_limit_iff hready₃.write hready₃.controls).mpr ⟨hready₃.opened, by
    rw [hprep]; exact Connection.acceptHeader_limit _ _ _ (by decide) hover⟩
  refine ⟨⟨by omega, trivial, by omega, trivial, trivial⟩, ?_⟩
  rintro ⟨-, -, -, hbad, -⟩
  exact hbad hfails

/-- With a validated configuration a reader that stops ends the session. -/
theorem slow_reader_ends_session :
    (⟨2, 524288, 524288⟩ : YamuxConfig).Validated ∧
      Guarded Link.step Link.Announced (Link.start ⟨2, 524288, 524288⟩ [1, 3])
        (unreadTransfers (List.replicate 524288 0)) ∧
      ¬ Guarded Link.step Link.WithinLimit (Link.start ⟨2, 524288, 524288⟩ [1, 3])
        (unreadTransfers (List.replicate 524288 0)) :=
  ⟨⟨by decide, by decide, by decide⟩, unread_window_exceeded List.length_replicate⟩

end Snolc.Mux
