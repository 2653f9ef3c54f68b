import Snolc.MuxPolicy

set_option autoImplicit false

namespace Snolc.Mux
open PollIo SlotTable MuxFrame AsyncTask WireFormat ByteFeed GuardedRuns ScriptedIo

def policyMessage (family : String) : List UInt8 := (encodePolicy family).toOption.getD []

theorem policyMessage_of_ok {family : String} {bytes : List UInt8} (h : encodePolicy family = .ok bytes) :
    policyMessage family = bytes := by
  rw [policyMessage, h]
  rfl

theorem family_of_front {family other : String} {frame : List UInt8} (hp : parsePolicy frame = .ok other)
    (h : frame <+: policyMessage family) : other = family := by
  obtain ⟨rest, hrest⟩ := h
  cases he : encodePolicy family with
  | error e =>
    have hnil : frame = [] := by
      have hempty : policyMessage family = [] := by rw [policyMessage, he]; rfl
      rw [hempty] at hrest
      exact (List.append_eq_nil_iff.mp hrest).1
    rw [hnil] at hp
    cases hp
  | ok bytes =>
    rw [policyMessage_of_ok he] at hrest
    have hwhole : consume readPolicy bytes = some (.ok family, []) :=
      readPolicy_consume.mpr ⟨bytes, parsePolicy_eq_ok.mpr he, (List.append_nil _).symm⟩
    have hfront : consume readPolicy bytes = some (.ok other, rest) :=
      readPolicy_consume.mpr ⟨frame, hp, hrest.symm⟩
    rw [hwhole] at hfront
    cases hfront
    rfl

namespace Connection
variable {T : Type} [TracedIo T] {c d : Connection T}

/-- A connection whose frames carry no data. -/
structure Silent (c : Connection T) (sent : List Frame) : Prop where
  outbox : c.Outbox sent
  ledger : c.Ledger
  plain : ∀ f ∈ sent, f.Regular ∧ f.kind ≠ .frameData

variable {sent : List Frame}

theorem Silent.uniform (h : c.Silent sent) : Uniform 0 sent :=
  fun f hf => ⟨(h.plain f hf).1, fun hk => absurd hk (h.plain f hf).2⟩

theorem Silent.data (h : c.Silent sent) (id : StreamId) : dataIn id sent = [] := by
  rw [dataIn, List.flatMap_eq_nil_iff]
  exact fun f hf => if_neg fun hx => (h.plain f hf).2 hx.1

theorem Silent.step (h : c.Silent sent) (hs : DriveStep c d) : ∃ sent', d.Silent sent' := by
  obtain ⟨sent', hout, hshift, hb⟩ := hs sent h.outbox
  refine ⟨sent', hout, hb.ledger h.ledger, ?_⟩
  generalize d.controls = controls at hshift
  cases hshift with
  | same => exact h.plain
  | pop kind stream rest hc =>
    intro f hf
    rcases List.mem_append.mp hf with hf | hf
    · exact h.plain f hf
    · rw [List.mem_singleton.mp hf]
      exact ⟨Frame.control_regular kind stream, h.ledger.kinds (kind, stream) (by simp [hc])⟩

theorem Silent.drop (h : c.Silent sent) (stream : MuxStream) : (stream.drop c).Silent sent := by
  unfold MuxStream.drop
  split
  · exact h
  · refine ⟨⟨h.outbox.io, h.outbox.wire, h.outbox.pending⟩, ⟨fun q hq => ?_, h.ledger.single⟩, h.plain⟩
    rcases List.mem_append.mp hq with hq | hq
    · exact h.ledger.kinds q hq
    · rw [List.mem_singleton.mp hq]
      simp

theorem driveOperation_keeps {α : Type} {P : Connection T → Prop} (hstep : ∀ c d, P c → DriveStep c d → P d) (h : P c)
    (id : StreamId) {task : Task MuxError α} (ht : ReadsOnly task) : P (c.driveOperation id task).2.2 := by
  have hpoll : P (task.poll MuxError.io (StreamEnd.mk id c)).2.2.connection := by
    refine (Task.poll_invariant MuxError.io (fun s : StreamEnd T => P s.connection) 0 ?_ ?_ ?_ task
      (StreamEnd.mk id c) (writes_of_readsOnly ht) h).1
    · intro s bytes hne hlen
      exact absurd (List.length_eq_zero_iff.mp (Nat.le_zero.mp hlen)) hne
    · exact fun s hs => hstep _ _ hs (pollFlushWrite_step s.connection)
    · exact fun s room hs => hstep _ _ hs (pollRead_step s.connection s.id room)
  unfold driveOperation
  generalize task.poll MuxError.io (StreamEnd.mk id c) = r at hpoll ⊢
  obtain ⟨(e | a) | _, task', s⟩ := r
  · exact hpoll
  all_goals
    have hdrive := hstep _ _ hpoll (pollDrive_step s.connection)
    dsimp only at hdrive ⊢
    generalize s.connection.pollDrive = d at hdrive ⊢
    rcases d with ⟨(e | _) | _, d⟩ <;> exact hdrive

theorem Silent.headers (h : c.Silent sent) : ∀ key ∈ headers c.sentBytes, key.1 ≠ FrameKind.frameData.code := by
  intro key hkey
  have hmem := (h.outbox.headers_initial fun f hf => (h.plain f hf).1).subset hkey
  obtain ⟨q, hq, rfl⟩ := List.mem_map.mp hmem
  obtain ⟨f, hf, rfl⟩ := List.mem_map.mp hq
  exact fun hx => (h.plain f hf).2 (FrameKind.code_injective hx)

/-- A reader of one policy frame that consumed what its stream was handed. -/
structure Receives (c : Connection T) (id : StreamId) (task : Task MuxError String)
    (delivered : StreamId → List UInt8) : Prop where
  fed : c.Fed delivered
  reads : ReadsOnly task
  progress : ∀ rest, consume task rest = consume readPolicy (delivered id ++ rest)

theorem Fed.receives (h : c.Fed fun _ => []) (id : StreamId) : c.Receives id readPolicy fun _ => [] :=
  ⟨h, readPolicy_readsOnly, fun _ => rfl⟩

/-- One poll of the reader. A family it returns is that of a frame at the front of the data
    the peer sent on the stream. -/
theorem Receives.driveOperation {id : StreamId} {task : Task MuxError String} {delivered : StreamId → List UInt8}
    (h : c.Receives id task delivered) {split : ℕ} {peer : List Frame} (hu : Uniform split peer)
    (hpipe : (c.driveOperation id task).2.2.takenBytes <+: flat peer)
    (hok : ∀ e, (c.driveOperation id task).1 ≠ .ready (.error e)) :
    (∀ family, (c.driveOperation id task).1 = .ready (.ok family) →
      ∃ frame, parsePolicy frame = .ok family ∧ frame <+: dataIn id peer) ∧
    ((c.driveOperation id task).1 = .pending →
      ∃ delivered', (c.driveOperation id task).2.2.Receives id (c.driveOperation id task).2.1 delivered') := by
  obtain ⟨more, hfed, hready, hpending⟩ := h.fed.driveOperation hu id h.reads hpipe hok
  refine ⟨fun family hres => ?_, fun hres => ?_⟩
  · have hconsumed := hready family hres []
    rw [h.progress, List.append_nil] at hconsumed
    obtain ⟨frame, hparse, hframe⟩ := readPolicy_consume.mp hconsumed
    rw [List.append_nil] at hframe
    have hwithin := hfed.within hu hpipe id
    rw [Function.update_self, hframe] at hwithin
    exact ⟨frame, hparse, hwithin⟩
  · refine ⟨_, hfed, (hpending hres).1, fun rest => ?_⟩
    rw [(hpending hres).2 rest, h.progress, Function.update_self, List.append_assoc]

end Connection

/-- Where a server with another family than the client can be: it has not answered. -/
def ServerStage {T : Type} [TracedIo T] (c : Connection T) : Progress AcceptPolicy MuxStream → Prop
  | .waiting .start => c.Fed fun _ => []
  | .waiting .accepting => c.Fed fun _ => []
  | .waiting (.reading id task) => ∃ delivered, c.Receives id task delivered
  | .waiting (.writing _ _) => False
  | .finished (.ok _) => False
  | .finished (.error _) => True

structure Mute {T : Type} [TracedIo T] (r : Progress AcceptPolicy MuxStream × MuxSession T) : Prop where
  silent : ∃ sent, r.2.connection.Silent sent
  stage : ServerStage r.2.connection r.1

namespace AcceptPolicy
variable {T : Type} [TracedIo T] {family₁ family₂ : String} {split : ℕ} {peer : List Frame}

theorem write_past {s : MuxSession T} {front : List UInt8} (h : s.connection.Past front) (id : StreamId)
    (frame : Except WireError (List UInt8)) : (write s id (writeFrame frame)).2.connection.Past front := by
  have hwrites : (writeFrame frame).Writes (frame.toOption.getD []).length := by
    cases frame with
    | ok bytes => exact ⟨Nat.le_refl _, trivial⟩
    | error e => trivial
  have hdrive := h.driveOperation id hwrites
  unfold write MuxSession.awaitDrive
  generalize s.connection.driveOperation id (writeFrame frame) = r at hdrive ⊢
  obtain ⟨(e | _) | _, task', d⟩ := r
  · exact hdrive.sends (Connection.drop_sends hdrive.sound _)
  · exact hdrive
  · exact hdrive

theorem read_mute (hne : family₁ ≠ family₂) (hu : Uniform split peer)
    (hfront : ∀ id, dataIn id peer <+: policyMessage family₁) {s : MuxSession T} {sent : List Frame}
    (hs : s.connection.Silent sent) {id : StreamId} {task : Task MuxError String} {delivered : StreamId → List UInt8}
    (h : s.connection.Receives id task delivered)
    (hpipe : (read family₂ s id task).2.connection.takenBytes <+: flat peer) : Mute (read family₂ s id task) := by
  have hsilent : ∃ sent', (s.connection.driveOperation id task).2.2.Silent sent' :=
    Connection.driveOperation_keeps (P := fun c => ∃ sent', c.Silent sent')
      (fun _ _ hc hd => hc.elim fun _ hc => hc.step hd) ⟨sent, hs⟩ id h.reads
  have hread := h.driveOperation hu
  have hpast := (hs.outbox.past).driveOperation id (n := 0) (writes_of_readsOnly h.reads)
  unfold read MuxSession.awaitDrive at hpipe ⊢
  generalize s.connection.driveOperation id task = r at hsilent hread hpast hpipe ⊢
  obtain ⟨sent', hsilent⟩ := hsilent
  obtain ⟨(e | request) | _, task', d⟩ := r
  · exact ⟨⟨sent', hsilent.drop _⟩, trivial⟩
  · dsimp only at hpipe ⊢
    -- what was read is the family of the client
    have hrequest (htaken : d.takenBytes <+: flat peer) : request = family₁ := by
      obtain ⟨frame, hparse, hwithin⟩ := (hread htaken (by simp)).1 request rfl
      exact family_of_front hparse (hwithin.trans (hfront id))
    by_cases heq : request = family₂
    · rw [if_neg (not_not.mpr heq)] at hpipe
      have hlater := write_past (s := s.withConnection d) ⟨hpast.io, hpast.sound, List.prefix_refl _⟩ id
        (encodePolicy family₂)
      exact absurd ((hrequest (hlater.taken.trans hpipe)).symm.trans heq) hne
    · rw [if_pos heq]
      exact ⟨⟨sent', hsilent.drop _⟩, trivial⟩
  · exact ⟨⟨sent', hsilent⟩, (hread hpipe (by simp)).2 rfl⟩

theorem accept_mute (hne : family₁ ≠ family₂) (hu : Uniform split peer)
    (hfront : ∀ id, dataIn id peer <+: policyMessage family₁) {s : MuxSession T} {sent : List Frame}
    (hs : s.connection.Silent sent) (h : s.connection.Fed fun _ => [])
    (hpipe : (accept family₂ s).2.connection.takenBytes <+: flat peer) : Mute (accept family₂ s) := by
  have hdrive := hs.step (Connection.pollDrive_step s.connection)
  have hfed := h.drive
  unfold accept MuxSession.awaitAccept Connection.pollAcceptStream at hpipe ⊢
  cases hi : s.connection.inbound with
  | cons id rest =>
    rw [hi] at hpipe
    have hs' : Connection.Silent { s.connection with inbound := rest } sent :=
      ⟨⟨hs.outbox.io, hs.outbox.wire, hs.outbox.pending⟩, ⟨hs.ledger.kinds, hs.ledger.single⟩, hs.plain⟩
    have h' : Connection.Fed { s.connection with inbound := rest } fun _ => [] := by
      obtain ⟨got, part, hin, hdel⟩ := h.inbox
      exact ⟨⟨sent, hs'.outbox⟩, got, part, ⟨hin.regular, hin.taken, hin.header, hin.idle, hin.reading, hin.placed,
        hin.chunks, hin.budget⟩, hdel⟩
    exact read_mute hne hu hfront (s := s.withConnection { s.connection with inbound := rest }) hs'
      (h'.receives id) hpipe
  | nil =>
    dsimp only
    generalize s.connection.pollDrive = r at hdrive hfed ⊢
    obtain ⟨sent', hsilent⟩ := hdrive
    obtain ⟨(e | _) | _, d⟩ := r
    · exact ⟨⟨sent', hsilent⟩, trivial⟩
    all_goals
      dsimp only
      by_cases hclosed : d.closed
      · rw [if_pos hclosed]
        exact ⟨⟨sent', hsilent⟩, trivial⟩
      · rw [if_neg hclosed]
        exact ⟨⟨sent', hsilent⟩, hfed (by simp)⟩

theorem poll_mute (hne : family₁ ≠ family₂) (hu : Uniform split peer)
    (hfront : ∀ id, dataIn id peer <+: policyMessage family₁) {s : MuxSession T} {stage : AcceptPolicy}
    (h : Mute (.waiting stage, s)) (hpipe : (stage.poll family₂ s).2.connection.takenBytes <+: flat peer) :
    Mute (stage.poll family₂ s) := by
  obtain ⟨⟨sent, hs⟩, hstage⟩ := h
  cases stage with
  | start =>
    rw [poll] at hpipe ⊢
    split at hpipe
    · rename_i hrefused
      rw [if_pos hrefused]
      exact ⟨⟨sent, hs⟩, trivial⟩
    · rename_i hallowed
      rw [if_neg hallowed]
      exact accept_mute hne hu hfront hs hstage hpipe
  | accepting => exact accept_mute hne hu hfront hs hstage hpipe
  | reading id task =>
    obtain ⟨delivered, hreceives⟩ := hstage
    exact read_mute hne hu hfront hs hreceives hpipe
  | writing id task => exact hstage.elim

end AcceptPolicy

theorem policyMessage_length (family : String) : (policyMessage family).length < 2 ^ 32 := by
  cases he : encodePolicy family with
  | error e =>
    rw [policyMessage, he]
    exact Nat.two_pow_pos 32
  | ok bytes =>
    obtain ⟨header, body, rfl, hheader, -, -, -, hbody⟩ := parsePolicy_shape (parsePolicy_eq_ok.mpr he)
    rw [policyMessage_of_ok he, List.length_append, hheader]
    simp only [headerLength, maxPolicyFamily] at hbody ⊢
    omega

/-- Where a client without an answer can be. -/
def ClientStage {T : Type} [TracedIo T] (message : List UInt8) (c : Connection T) :
    Progress OpenPolicy MuxStream → Prop
  | .waiting .start => (c.Outbox [] ∧ c.Ledger ∧ c.write = none) ∧ c.Fed fun _ => []
  | .waiting (.opening id) => (∃ sent, c.Posts id message message sent) ∧ c.Fed fun _ => []
  | .waiting (.writing id task) =>
    (∃ rest sent, rest.length < 2 ^ 32 ∧ Posting task rest ∧ c.Posts id message rest sent) ∧ c.Fed fun _ => []
  | .waiting (.reading id task) =>
    (∃ rest sent, c.Posts id message rest sent) ∧ ∃ delivered, c.Receives id task delivered
  | .finished (.ok _) => False
  | .finished (.error _) => True

structure Asking {T : Type} [TracedIo T] (message : List UInt8)
    (r : Progress OpenPolicy MuxStream × MuxSession T) : Prop where
  carries : ∃ sent, r.2.connection.Carries message sent
  stage : ClientStage message r.2.connection r.1

namespace OpenPolicy
variable {T : Type} [TracedIo T] {message : List UInt8} {peer : List Frame} {s : MuxSession T}

theorem failed_asking {sent : List Frame} (h : s.connection.Carries message sent) (id : StreamId) (e : MuxError) :
    Asking message (s.failStream id e) :=
  ⟨⟨sent, h.drop _⟩, trivial⟩

theorem read_asking (family : String) (hu : Uniform 0 peer) (hsilent : ∀ id, dataIn id peer = []) {id : StreamId}
    {rest : List UInt8} {sent : List Frame} (hp : s.connection.Posts id message rest sent)
    {task : Task MuxError String} {delivered : StreamId → List UInt8} (h : s.connection.Receives id task delivered)
    (hpipe : (read family s id task).2.connection.takenBytes <+: flat peer) :
    Asking message (read family s id task) := by
  have hposts : ∃ rest sent, (s.connection.driveOperation id task).2.2.Posts id message rest sent :=
    Connection.driveOperation_keeps (P := fun c => ∃ rest sent, c.Posts id message rest sent)
      (fun _ _ hc hd => hc.elim fun rest hc => hc.elim fun _ hc => ⟨rest, hc.step hd⟩) ⟨rest, sent, hp⟩ id h.reads
  have hread := h.driveOperation hu
  have hpast := (hp.outbox.past).driveOperation id (n := 0) (writes_of_readsOnly h.reads)
  unfold read MuxSession.awaitDrive at hpipe ⊢
  generalize s.connection.driveOperation id task = r at hposts hread hpast hpipe ⊢
  obtain ⟨rest', sent', hposts⟩ := hposts
  obtain ⟨(e | response) | _, task', d⟩ := r
  · exact failed_asking (s := s.withConnection d) hposts.carries id e
  · dsimp only at hpipe ⊢
    have htaken : d.takenBytes <+: flat peer := by
      by_cases heq : response = family
      · rw [if_neg (not_not.mpr heq)] at hpipe
        exact hpipe
      · rw [if_pos heq] at hpipe
        exact ((Connection.Past.sends ⟨hpast.io, hpast.sound, List.prefix_refl _⟩
          (Connection.drop_sends hpast.sound { id })).taken).trans hpipe
    -- there is nothing to read
    obtain ⟨frame, hparse, hframe⟩ := (hread htaken (by simp)).1 response rfl
    rw [hsilent, List.prefix_nil] at hframe
    rw [hframe] at hparse
    cases hparse
  · exact ⟨⟨sent', hposts.carries⟩, ⟨rest', sent', hposts⟩, (hread hpipe (by simp)).2 rfl⟩

theorem write_asking (family : String) (hu : Uniform 0 peer) (hsilent : ∀ id, dataIn id peer = []) {id : StreamId}
    {rest : List UInt8} {sent : List Frame} (hp : s.connection.Posts id message rest sent)
    (hfed : s.connection.Fed fun _ => []) {task : Task MuxError Unit} (ht : Posting task rest)
    (hlen : rest.length < 2 ^ 32) (hpipe : (write family s id task).2.connection.takenBytes <+: flat peer) :
    Asking message (write family s id task) := by
  obtain ⟨rest', sent', hlen', hposts, hfed', hwaits⟩ := hp.driveOperation hfed ht hlen
  unfold write MuxSession.awaitDrive at hpipe ⊢
  generalize s.connection.driveOperation id task = r at hposts hfed' hwaits hpipe ⊢
  obtain ⟨(e | _) | _, task', d⟩ := r
  · exact failed_asking (s := s.withConnection d) hposts.carries id e
  · exact read_asking (s := s.withConnection d) family hu hsilent hposts ((hfed' (by simp)).receives id) hpipe
  · exact ⟨⟨sent', hposts.carries⟩, ⟨rest', sent', hlen', hwaits rfl, hposts⟩, hfed' (by simp)⟩

theorem opened_asking (family : String) (hu : Uniform 0 peer) (hsilent : ∀ id, dataIn id peer = []) {id : StreamId}
    {sent : List Frame} (hp : s.connection.Posts id (policyMessage family) (policyMessage family) sent)
    (hfed : s.connection.Fed fun _ => []) (hpipe : (opened family s id).2.connection.takenBytes <+: flat peer) :
    Asking (policyMessage family) (opened family s id) := by
  have hkind : FrameKind.frameOpen ≠ .frameData := by simp
  obtain ⟨sent', hposts⟩ := hp.control hkind id
  have hfed' := hfed.same (Connection.pollControl_sends hp.outbox.sound .frameOpen id).inbound hposts.outbox
  unfold opened MuxSession.awaitControl at hpipe ⊢
  generalize s.connection.pollControl .frameOpen id = r at hposts hfed' hpipe ⊢
  obtain ⟨(e | _) | _, d⟩ := r
  · exact failed_asking (s := s.withConnection d) hposts.carries id _
  · dsimp only at hpipe ⊢
    cases he : encodePolicy family with
    | error e =>
      rw [writePolicy, he] at hpipe ⊢
      exact failed_asking (s := s.withConnection d) hposts.carries id _
    | ok bytes =>
      rw [writePolicy, he] at hpipe ⊢
      have hlen := policyMessage_length family
      rw [policyMessage_of_ok he] at hposts hlen ⊢
      exact write_asking (s := s.withConnection d) family hu hsilent hposts hfed' (.write bytes) hlen hpipe
  · exact ⟨⟨sent', hposts.carries⟩, ⟨sent', hposts⟩, hfed'⟩

theorem start_asking (family : String) (hu : Uniform 0 peer) (hsilent : ∀ id, dataIn id peer = [])
    (hout : s.connection.Outbox []) (hl : s.connection.Ledger) (hw : s.connection.write = none)
    (hfed : s.connection.Fed fun _ => [])
    (hpipe : (OpenPolicy.start.poll family s).2.connection.takenBytes <+: flat peer) :
    Asking (policyMessage family) (OpenPolicy.start.poll family s) := by
  have hnothing {c : Connection T} (hout : c.Outbox []) (hl : c.Ledger) : c.Carries (policyMessage family) [] :=
    ⟨hout, hl, by simp [Uniform], fun _ => List.nil_prefix⟩
  obtain ⟨got, part, hin, hdel⟩ := hfed.inbox
  rw [poll] at hpipe ⊢
  split at hpipe
  · rename_i hrefused
    rw [if_pos hrefused]
    exact ⟨⟨[], hnothing hout hl⟩, trivial⟩
  · rename_i hallowed
    rw [if_neg hallowed]
    rcases s.connection.queueStream_cases with ⟨e, next, heq⟩ | ⟨m, hm, heq⟩ <;> rw [heq] at hpipe ⊢
    · exact ⟨⟨[], hnothing ⟨hout.io, hout.wire, hout.pending⟩ ⟨hl.kinds, hl.single⟩⟩, trivial⟩
    · have hsame := Connection.insertStream_outbound hm
      have hstream := Connection.stream_insert hm s.connection.nextStream
      rw [if_pos rfl] at hstream
      have hm' := hout.same hsame
      have hl' := hsame.balanced.ledger hl
      have hout' : Connection.Outbox { m with nextStream := s.connection.nextStream + 2 } [] :=
        ⟨hm'.io, hm'.wire, hm'.pending⟩
      obtain ⟨hin', hdel', -⟩ := hin.opens hdel hout.sound heq m.controls
      have hfree : Connection.outstanding { m with nextStream := s.connection.nextStream + 2 }
          s.connection.nextStream = 0 := by
        rw [Connection.outstanding_idle (c := { m with nextStream := s.connection.nextStream + 2 })
          (hsame.write.trans hw)]
        change m.completed s.connection.nextStream = 0
        rw [Connection.completed, hstream]
        rfl
      have hposts : Connection.Posts { m with nextStream := s.connection.nextStream + 2 } s.connection.nextStream
          (policyMessage family) (policyMessage family) [] := by
        refine ⟨hout', ⟨hl'.kinds, hl'.single⟩, by simp [Uniform], ?_, ?_, fun _ _ => rfl⟩
        · change (m.stream s.connection.nextStream).isSome
          rw [hstream]
          rfl
        · exact congrArg (fun n => [] ++ (policyMessage family).drop n) hfree
      exact opened_asking (s := s.withConnection { m with nextStream := s.connection.nextStream + 2 }) family hu
        hsilent hposts ⟨⟨[], hout'⟩, got, part, hin', hdel'⟩ hpipe

theorem poll_asking (family : String) (hu : Uniform 0 peer) (hsilent : ∀ id, dataIn id peer = []) {stage : OpenPolicy}
    (h : Asking (policyMessage family) (.waiting stage, s))
    (hpipe : (stage.poll family s).2.connection.takenBytes <+: flat peer) :
    Asking (policyMessage family) (stage.poll family s) := by
  have hstage := h.stage
  cases stage with
  | start =>
    obtain ⟨⟨hout, hl, hw⟩, hfed⟩ := hstage
    exact start_asking family hu hsilent hout hl hw hfed hpipe
  | opening id =>
    obtain ⟨⟨sent, hposts⟩, hfed⟩ := hstage
    exact opened_asking family hu hsilent hposts hfed hpipe
  | writing id task =>
    obtain ⟨⟨rest, sent, hlen, ht, hposts⟩, hfed⟩ := hstage
    exact write_asking family hu hsilent hposts hfed ht hlen hpipe
  | reading id task =>
    obtain ⟨⟨rest, sent, hposts⟩, delivered, hreceives⟩ := hstage
    exact read_asking family hu hsilent hposts hreceives hpipe

end OpenPolicy

namespace MuxSession
variable {T : Type} [TracedIo T] {s : MuxSession T} {io : T}

theorem withIo_history (h : Handshake.Continues s io) :
    (s.withIo io).connection.sentBytes = s.connection.sentBytes ∧
      (s.withIo io).connection.takenBytes = s.connection.takenBytes ∧
      (s.withIo io).connection.io.isSome = s.connection.io.isSome := by
  obtain ⟨htaken, hsent⟩ := h
  unfold Connection.sentBytes at hsent ⊢
  unfold Connection.takenBytes at htaken ⊢
  unfold withIo withConnection
  dsimp only
  cases hio : s.connection.io with
  | none => exact ⟨rfl, rfl, rfl⟩
  | some old =>
    rw [hio] at hsent htaken
    exact ⟨hsent, htaken, rfl⟩

theorem withIo_outbound (h : Handshake.Continues s io) :
    Connection.SameOutbound s.connection (s.withIo io).connection :=
  ⟨(withIo_history h).2.2, (withIo_history h).1, rfl, rfl, rfl, rfl, fun _ => rfl, fun _ hs => hs⟩

theorem withIo_inbound (h : Handshake.Continues s io) : Connection.SameInbound s.connection (s.withIo io).connection :=
  ⟨(withIo_history h).2.2, (withIo_history h).2.1, rfl, rfl, rfl, rfl, rfl, rfl, rfl, rfl, rfl, rfl, fun _ => rfl, rfl⟩

end MuxSession

section Transports
variable {T : Type} [TracedIo T] {s : MuxSession T} {io : T}

theorem Fed.withIo {delivered : StreamId → List UInt8} (h : s.connection.Fed delivered)
    (hc : Handshake.Continues s io) :
    (s.withIo io).connection.Fed delivered := by
  obtain ⟨sent, hout⟩ := h.outbox
  exact h.same (MuxSession.withIo_inbound hc) (hout.same (MuxSession.withIo_outbound hc))

theorem Mute.withIo {p : Progress AcceptPolicy MuxStream} (h : Mute (p, s)) (hc : Handshake.Continues s io) :
    Mute (p, s.withIo io) := by
  obtain ⟨⟨sent, hs⟩, hstage⟩ := h
  refine ⟨hs.step (MuxSession.withIo_outbound hc).driveStep, ?_⟩
  rcases p with (e | stream) | stage
  · exact hstage
  · exact hstage
  · cases stage with
    | start => exact Fed.withIo hstage hc
    | accepting => exact Fed.withIo hstage hc
    | reading id task =>
      obtain ⟨delivered, hfed, hreads, hprogress⟩ := hstage
      exact ⟨delivered, Fed.withIo hfed hc, hreads, hprogress⟩
    | writing id task => exact hstage

theorem Asking.withIo {message : List UInt8} {p : Progress OpenPolicy MuxStream} (h : Asking message (p, s))
    (hc : Handshake.Continues s io) : Asking message (p, s.withIo io) := by
  obtain ⟨⟨sent, hs⟩, hstage⟩ := h
  have hsame := MuxSession.withIo_outbound hc
  refine ⟨hs.step hsame.driveStep, ?_⟩
  rcases p with (e | stream) | stage
  · exact hstage
  · exact hstage
  · cases stage with
    | start =>
      obtain ⟨⟨hout, hl, hw⟩, hfed⟩ := hstage
      exact ⟨⟨hout.same hsame, hsame.balanced.ledger hl, hsame.write.trans hw⟩, Fed.withIo hfed hc⟩
    | opening id =>
      obtain ⟨⟨sent, hposts⟩, hfed⟩ := hstage
      exact ⟨hposts.step hsame.driveStep, Fed.withIo hfed hc⟩
    | writing id task =>
      obtain ⟨⟨rest, sent, hlen, ht, hposts⟩, hfed⟩ := hstage
      obtain ⟨sent', hposts'⟩ := hposts.step hsame.driveStep
      exact ⟨⟨rest, sent', hlen, ht, hposts'⟩, Fed.withIo hfed hc⟩
    | reading id task =>
      obtain ⟨⟨rest, sent, hposts⟩, delivered, hfed, hreads, hprogress⟩ := hstage
      exact ⟨⟨rest, hposts.step hsame.driveStep⟩, delivered, Fed.withIo hfed hc, hreads, hprogress⟩

end Transports

structure Flagged {σ T : Type} (p : Progress σ MuxStream) (s : MuxSession T) : Prop where
  policy : s.policyOpen = p.succeeded
  users : p.succeeded = false → s.userStreams = 0

namespace Flagged
variable {σ T : Type} [AsyncIo T] {p : Progress σ MuxStream} {s : MuxSession T}

theorem closed (h : Flagged p s) (hp : p.succeeded = false) : s.Closed :=
  MuxSession.closed_of_policy (h.policy.trans hp) (h.users hp)

omit [AsyncIo T] in
theorem settles {stage : σ} (h : Flagged (.waiting stage) s) {r : Progress σ MuxStream × MuxSession T}
    (hr : Settles s r) : Flagged r.1 r.2 := by
  refine ⟨?_, fun _ => hr.users.trans (h.users rfl)⟩
  rw [hr.policy, h.policy]
  exact Bool.false_or _

theorem call (h : Flagged p s) {call : SessionCall} (hc : call.allowed p) : Flagged p (call.poll s) := by
  refine ⟨(call.poll_policy s).trans h.policy, fun hp => ?_⟩
  rcases SessionCall.allowed_cases hp hc with hfresh | ⟨rfl, -⟩
  · rw [(h.closed hp).poll hfresh]
    exact h.users hp
  · exact s.pollDrive_books.2.trans (h.users hp)

end Flagged

namespace Handshake
variable {T : Type} [TracedIo T] {family₁ family₂ : String} {h : Handshake T}

def Flags (h : Handshake T) : Prop := Flagged h.opening h.client ∧ Flagged h.accepting h.server

theorem Flags.step (hf : h.Flags) {label : HandshakeStep T} (hp : h.Possible label) :
    (h.step family₁ family₂ label).Flags := by
  obtain ⟨hclient, hserver⟩ := hf
  cases label with
  | client io =>
    unfold Handshake.step
    cases ho : h.opening with
    | finished result => exact ⟨hclient, hserver⟩
    | waiting stage =>
      rw [ho] at hclient
      have hnow : Flagged (.waiting stage) (h.client.withIo io) := ⟨hclient.policy, hclient.users⟩
      exact ⟨hnow.settles (OpenPolicy.poll_settles family₁ _ stage), hserver⟩
  | server io =>
    unfold Handshake.step
    cases ha : h.accepting with
    | finished result => exact ⟨hclient, hserver⟩
    | waiting stage =>
      rw [ha] at hserver
      have hnow : Flagged (.waiting stage) (h.server.withIo io) := ⟨hserver.policy, hserver.users⟩
      exact ⟨hclient, hnow.settles (AcceptPolicy.poll_settles family₂ _ stage)⟩
  | clientCall io call =>
    have hnow : Flagged h.opening (h.client.withIo io) := ⟨hclient.policy, hclient.users⟩
    exact ⟨hnow.call hp.2, hserver⟩
  | serverCall io call =>
    have hnow : Flagged h.accepting (h.server.withIo io) := ⟨hserver.policy, hserver.users⟩
    exact ⟨hclient, hnow.call hp.2⟩
  | clientStreams connection => exact ⟨⟨hclient.policy, hclient.users⟩, hserver⟩
  | serverStreams connection => exact ⟨hclient, ⟨hserver.policy, hserver.users⟩⟩

structure Parted (family₁ : String) (h : Handshake T) : Prop where
  asking : Asking (policyMessage family₁) (h.opening, h.client)
  mute : Mute (h.accepting, h.server)

theorem Parted.unanswered (hp : h.Parted family₁) : h.opening.succeeded = false := by
  have hstage := hp.asking.stage
  generalize h.opening = p at hstage
  rcases p with (e | stream) | stage
  · rfl
  · exact hstage.elim
  · rfl

theorem Parted.refused (hp : h.Parted family₁) : h.accepting.succeeded = false := by
  have hstage := hp.mute.stage
  generalize h.accepting = p at hstage
  rcases p with (e | stream) | stage
  · rfl
  · exact hstage.elim
  · rfl

theorem Parted.clientCall {p : Progress OpenPolicy MuxStream} {s : MuxSession T}
    (ha : Asking (policyMessage family₁) (p, s)) (hs : p.succeeded = false) (hclosed : s.Closed) {call : SessionCall}
    (hc : call.allowed p) : Asking (policyMessage family₁) (p, call.poll s) := by
  rcases SessionCall.allowed_cases hs hc with hfresh | ⟨rfl, hover⟩
  · rw [hclosed.poll hfresh]
    exact ha
  · obtain ⟨⟨sent, hcarries⟩, hstage⟩ := ha
    refine ⟨?_, ?_⟩
    · rw [show (SessionCall.drive.poll s).connection = s.connection.pollDrive.2 from s.pollDrive_connection]
      exact hcarries.step (Connection.pollDrive_step s.connection)
    · rcases p with (e | stream) | stage
      · trivial
      · cases hs
      · cases hover

theorem Parted.serverCall {p : Progress AcceptPolicy MuxStream} {s : MuxSession T} (hm : Mute (p, s))
    (hs : p.succeeded = false) (hclosed : s.Closed) {call : SessionCall} (hc : call.allowed p) :
    Mute (p, call.poll s) := by
  rcases SessionCall.allowed_cases hs hc with hfresh | ⟨rfl, hover⟩
  · rw [hclosed.poll hfresh]
    exact hm
  · obtain ⟨⟨sent, hsilent⟩, hstage⟩ := hm
    refine ⟨?_, ?_⟩
    · rw [show (SessionCall.drive.poll s).connection = s.connection.pollDrive.2 from s.pollDrive_connection]
      exact hsilent.step (Connection.pollDrive_step s.connection)
    · rcases p with (e | stream) | stage
      · trivial
      · cases hs
      · cases hover

theorem Parted.step (hne : family₁ ≠ family₂) (hf : h.Flags) (hp : h.Parted family₁) {label : HandshakeStep T}
    (hr : h.Reliable family₁ family₂ label) : (h.step family₁ family₂ label).Parted family₁ := by
  obtain ⟨hpossible, hpipe⟩ := hr
  have hclosed := hf.1.closed hp.unanswered
  have hclosed' := hf.2.closed hp.refused
  obtain ⟨sent, hcarries⟩ := hp.asking.carries
  obtain ⟨sent', hsilent⟩ := hp.mute.silent
  cases label with
  | client io =>
    have hpipe := hpipe.1
    unfold Handshake.step at hpipe ⊢
    cases ho : h.opening with
    | finished result => exact hp
    | waiting stage =>
      rw [ho] at hpipe
      have hasking := hp.asking.withIo hpossible
      rw [ho] at hasking
      have hwire : h.server.connection.sentBytes <+: flat sent' := ⟨_, hsilent.outbox.wire⟩
      exact ⟨OpenPolicy.poll_asking family₁ hsilent.uniform hsilent.data hasking (hpipe.trans hwire), hp.mute⟩
  | server io =>
    have hpipe := hpipe.2
    unfold Handshake.step at hpipe ⊢
    cases ha : h.accepting with
    | finished result => exact hp
    | waiting stage =>
      rw [ha] at hpipe
      have hmute := hp.mute.withIo hpossible
      rw [ha] at hmute
      have hwire : h.client.connection.sentBytes <+: flat sent := ⟨_, hcarries.outbox.wire⟩
      exact ⟨hp.asking, AcceptPolicy.poll_mute hne hcarries.uniform hcarries.front hmute (hpipe.trans hwire)⟩
  | clientCall io call =>
    have hio : (h.client.withIo io).Closed := MuxSession.closed_of_policy (hf.1.policy.trans hp.unanswered) hclosed.none
    exact ⟨Parted.clientCall (hp.asking.withIo hpossible.1) hp.unanswered hio hpossible.2, hp.mute⟩
  | serverCall io call =>
    have hio : (h.server.withIo io).Closed := MuxSession.closed_of_policy (hf.2.policy.trans hp.refused) hclosed'.none
    exact ⟨hp.asking, Parted.serverCall (hp.mute.withIo hpossible.1) hp.refused hio hpossible.2⟩
  | clientStreams connection =>
    have hs : h.opening.succeeded = true := hpossible
    rw [hp.unanswered] at hs
    cases hs
  | serverStreams connection =>
    have hs : h.accepting.succeeded = true := hpossible
    rw [hp.refused] at hs
    cases hs

structure Unused (io : T) : Prop where
  received : TracedIo.received io = []
  written : TracedIo.written io = []

theorem new_fed {io : T} (hio : Unused io) (role : Mode) (config : YamuxConfig) :
    (MuxSession.new io role config).connection.Outbox [] ∧ (MuxSession.new io role config).connection.Ledger ∧
      (MuxSession.new io role config).connection.Fed fun _ => [] := by
  have hsound := Endpoint.Sound.new hio.written role config
  have hfaithful := Handles.Faithful.new hio.received role config
  exact ⟨hsound.outbox, hsound.ledger, ⟨[], hsound.outbox⟩, [], [], hfaithful.inbox, hfaithful.delivery⟩

omit [TracedIo T] in
theorem start_flags (io₁ io₂ : T) (config₁ config₂ : YamuxConfig) : (start io₁ io₂ config₁ config₂).Flags :=
  ⟨⟨rfl, fun _ => rfl⟩, ⟨rfl, fun _ => rfl⟩⟩

theorem start_parted {io₁ io₂ : T} (h₁ : Unused io₁) (h₂ : Unused io₂) (config₁ config₂ : YamuxConfig) :
    (start io₁ io₂ config₁ config₂).Parted family₁ := by
  obtain ⟨hout, hl, hfed⟩ := new_fed h₁ .client config₁
  obtain ⟨hout', hl', hfed'⟩ := new_fed h₂ .server config₂
  exact ⟨⟨⟨[], hout, hl, by simp [Uniform], fun _ => List.nil_prefix⟩, ⟨hout, hl, rfl⟩, hfed⟩,
    ⟨⟨[], hout', hl', by simp⟩, hfed'⟩⟩

/-- What the two sides can rely on in every state of the handshake. -/
structure Agrees (family₁ family₂ : String) (h : Handshake T) : Prop where
  client : h.opening.succeeded = true → family₁ = family₂
  server : h.accepting.succeeded = true → family₁ = family₂
  unanswered : family₁ ≠ family₂ →
    ∀ key ∈ headers h.server.connection.sentBytes, key.1 ≠ FrameKind.frameData.code
  clientClosed : h.opening.succeeded = false → h.client.Closed
  serverClosed : h.accepting.succeeded = false → h.server.Closed
  clientSettled : h.opening.succeeded = true → h.client.Settled
  serverSettled : h.accepting.succeeded = true → h.server.Settled

end Handshake

/-- Over a reliable pipe a side succeeds only when the families agree, a server that disagrees
    writes no answer, and the users of a session get at its flows only behind its handshake. -/
theorem policy_handshake_agrees {T : Type} [TracedIo T] (family₁ family₂ : String) {io₁ io₂ : T}
    (h₁ : Handshake.Unused io₁) (h₂ : Handshake.Unused io₂) (config₁ config₂ : YamuxConfig)
    (labels : List (HandshakeStep T))
    (h : Guarded (Handshake.step family₁ family₂) (Handshake.Reliable family₁ family₂)
      (Handshake.start io₁ io₂ config₁ config₂) labels) :
    (run (Handshake.step family₁ family₂) (Handshake.start io₁ io₂ config₁ config₂) labels).Agrees family₁ family₂ := by
  have hflags := run_invariant Handshake.Flags (fun _ _ hf hr => hf.step hr.1)
    (Handshake.start_flags io₁ io₂ config₁ config₂) h
  have hparted (hne : family₁ ≠ family₂) :=
    (run_invariant (fun s : Handshake T => s.Flags ∧ s.Parted family₁)
      (fun _ _ hs hr => ⟨hs.1.step hr.1, hs.2.step hne hs.1 hr⟩)
      ⟨Handshake.start_flags io₁ io₂ config₁ config₂, Handshake.start_parted h₁ h₂ config₁ config₂⟩ h).2
  generalize run (Handshake.step family₁ family₂) (Handshake.start io₁ io₂ config₁ config₂) labels = s at hflags hparted
  refine ⟨fun hs => ?_, fun hs => ?_, fun hne => ?_, hflags.1.closed, hflags.2.closed,
    fun hs => MuxSession.settled_of_policy (hflags.1.policy.trans hs),
    fun hs => MuxSession.settled_of_policy (hflags.2.policy.trans hs)⟩
  · by_contra hne
    rw [(hparted hne).unanswered] at hs
    cases hs
  · by_contra hne
    rw [(hparted hne).refused] at hs
    cases hs
  · obtain ⟨sent, hsilent⟩ := (hparted hne).mute.silent
    exact hsilent.headers

namespace Handshake

instance (h : Handshake Script) : Decidable h.Joined := inferInstanceAs (Decidable (_ ∧ _))

instance (s : MuxSession Script) (io : Script) : Decidable (Continues s io) := inferInstanceAs (Decidable (_ ∧ _))

instance (h : Handshake Script) : (label : HandshakeStep Script) → Decidable (h.Possible label)
  | .client _ | .server _ => inferInstanceAs (Decidable (Continues _ _))
  | .clientCall _ _ | .serverCall _ _ => inferInstanceAs (Decidable (Continues _ _ ∧ _ = true))
  | .clientStreams _ | .serverStreams _ => inferInstanceAs (Decidable (_ = true))

instance (family₁ family₂ : String) (h : Handshake Script) (label : HandshakeStep Script) :
    Decidable (h.Reliable family₁ family₂ label) :=
  inferInstanceAs (Decidable (_ ∧ _))

def ready (s peer : MuxSession Script) : Script where
  incoming := peer.connection.sentBytes.drop s.connection.takenBytes.length
  received := s.connection.takenBytes
  written := s.connection.sentBytes

def exchange (family₁ family₂ : String) : ℕ → Handshake Script → List (HandshakeStep Script)
  | 0, _ => []
  | rounds + 1, h =>
    let first := HandshakeStep.client (ready h.client h.server)
    let h := h.step family₁ family₂ first
    let second := HandshakeStep.server (ready h.server h.client)
    first :: second :: exchange family₁ family₂ rounds (h.step family₁ family₂ second)

def sampleStart : Handshake Script := start {} {} ⟨16, 4194304, 16384⟩ ⟨16, 4194304, 16384⟩

end Handshake

theorem local_handshake_agrees :
    let labels := Handshake.exchange "local" "local" 3 Handshake.sampleStart
    let h := run (Handshake.step "local" "local") Handshake.sampleStart labels
    h.opening.succeeded = true ∧ h.accepting.succeeded = true ∧ h.Agrees "local" "local" :=
  ⟨by decide +kernel, by decide +kernel,
    policy_handshake_agrees "local" "local" ⟨rfl, rfl⟩ ⟨rfl, rfl⟩ ⟨16, 4194304, 16384⟩ ⟨16, 4194304, 16384⟩
      (Handshake.exchange "local" "local" 3 Handshake.sampleStart) (by decide +kernel)⟩

end Snolc.Mux
