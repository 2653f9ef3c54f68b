import Snolc.MuxReceiveBudget

set_option autoImplicit false

namespace Snolc.Mux
open PollIo SlotTable MuxFrame WireFormat GuardedRuns ScriptedIo

def Mode.parity : Mode → ℕ
  | client => 1
  | server => 0

/-- A run of single calls with the ids this side has opened. -/
structure Opening (T : Type) where
  handles : Handles T
  opened : StreamId → Bool

namespace Opening
variable {T : Type}

abbrev connection (s : Opening T) : Connection T := s.handles.connection

def opens (s : Opening T) : HandleCall → Option StreamId
  | .openStream | .queueOpen => s.connection.queueStream.1.toOption.map MuxStream.id
  | _ => none

variable [AsyncIo T]

def step (s : Opening T) (call : HandleCall) : Opening T where
  handles := s.handles.step call
  opened id := s.opened id || decide (s.opens call = some id)

def new (io : T) (role : Mode) (config : YamuxConfig) : Opening T := ⟨Handles.new io role config, fun _ => false⟩

end Opening

namespace Connection
variable {T : Type}

theorem finishFrame_open {c d : Connection T} {frame : PendingRead} (hk : frame.kind = .frameOpen)
    (h : c.finishFrame frame = .ok d) : c.stream frame.stream = none ∧ d.inbound = c.inbound ++ [frame.stream] := by
  unfold finishFrame at h
  simp only [hk] at h
  split at h
  · next m hm =>
    cases h
    have hinserted := insertStream_inserted hm
    exact ⟨hinserted.fresh, congrArg (· ++ [frame.stream]) hinserted.inbound⟩
  · cases h

theorem finishFrame_duplicate {c : Connection T} {frame : PendingRead} {e : IoError} (hk : frame.kind = .frameOpen)
    (h : c.finishFrame frame = .error e) : (c.stream frame.stream).isSome := by
  unfold finishFrame insertStream at h
  simp only [hk] at h
  by_contra hs
  rw [if_neg hs] at h
  cases h

inductive Learns (c d : Connection T) (arrival : Option PendingRead) : Prop where
  | none (hknown : ∀ id, (d.stream id).isSome = (c.stream id).isSome) (hinbound : d.inbound <:+ c.inbound)
      (harrival : ∀ frame, arrival = some frame → frame.kind = .frameOpen → (c.stream frame.stream).isSome)
  | one (frame : PendingRead) (harrival : arrival = some frame) (hk : frame.kind = .frameOpen)
      (hfresh : c.stream frame.stream = .none)
      (hknown : ∀ id, (d.stream id).isSome ↔ (c.stream id).isSome ∨ id = frame.stream)

theorem Still.learns {c d : Connection T} (h : Still c d) : Learns c d .none :=
  .none h.known (h.inbound ▸ List.suffix_rfl) (fun _ hx => by cases hx)

theorem Arrivals.known {c d : Connection T} (h : Arrivals c d) (hi : d.inbound = c.inbound) (id : StreamId) :
    (d.stream id).isSome = (c.stream id).isSome := by
  obtain ⟨ids, hids⟩ := h
  have hnone : ids = [] := by simpa [hi] using hids.inbound
  rw [Bool.eq_iff_iff, hids.occupied, hnone]
  simp

theorem Completes.learns {c d : Connection T} {arrival : Option PendingRead} (h : Completes c d arrival)
    (hp : c.Placed) : Learns c d arrival := by
  cases h with
  | nothing hs => exact hs.learns
  | refused frame hs m hm e he =>
    refine .none hs.known (hs.inbound ▸ List.suffix_rfl) fun frame' hx hk => ?_
    cases hx
    rw [← hm.known]
    exact finishFrame_duplicate hk he
  | finished frame m hm hd =>
    have harrivals := finishFrame_arrivals hd
    by_cases hk : frame.kind = .frameOpen
    · obtain ⟨hfresh, hinbound⟩ := finishFrame_open hk hd
      obtain ⟨ids, hids⟩ := harrivals
      have hone : ids = [frame.stream] := by simpa [hinbound] using hids.inbound.symm
      have hfresh' : c.stream frame.stream = .none := by
        rw [← Option.not_isSome_iff_eq_none, ← hm.known, hfresh]
        simp
      refine .one frame rfl hk hfresh' fun id => ?_
      rw [hids.occupied, hm.known, hone, List.mem_singleton]
    · have hinbound : d.inbound = m.inbound :=
        (finishFrame_finished (hm.placed hp) hd).inbound.resolve_right fun hx => hk hx.1
      refine .none (fun id => ?_) ((hinbound.trans hm.inbound) ▸ List.suffix_rfl) fun frame' hx hk' => ?_
      · rw [harrivals.known hinbound, hm.known]
      · cases hx
        exact absurd hk' hk

/-- Allocation stops where the ids end, and skips an id that is taken. -/
theorem queueStream_next (c : Connection T) :
    (2 ^ 32 ≤ c.nextStream.toNat + 2 ∧ c.queueStream = (.error .streamLimit, c)) ∨
    (c.nextStream.toNat + 2 < 2 ^ 32 ∧ (c.stream c.nextStream).isSome ∧
      c.queueStream = (.error .protocol, { c with nextStream := c.nextStream + 2 })) ∨
    (c.nextStream.toNat + 2 < 2 ^ 32 ∧ c.stream c.nextStream = none ∧
      ∃ m, c.insertStream c.nextStream = .ok m ∧
        c.queueStream = (.ok { id := c.nextStream }, { m with nextStream := c.nextStream + 2 })) := by
  unfold queueStream
  dsimp only
  split
  · next hfull => exact .inl ⟨hfull, rfl⟩
  · next hroom =>
    unfold insertStream
    by_cases hs : (c.stream c.nextStream).isSome
    · have hs' : ({ c with nextStream := c.nextStream + 2 }.stream c.nextStream).isSome := hs
      rw [if_pos hs']
      exact .inr (.inl ⟨by omega, hs, rfl⟩)
    · have hs' : ¬ ({ c with nextStream := c.nextStream + 2 }.stream c.nextStream).isSome := hs
      rw [if_neg hs', if_neg hs]
      exact .inr (.inr ⟨by omega, Option.not_isSome_iff_eq_none.mp hs, _, rfl, rfl⟩)

theorem queueStream_free {c : Connection T} (h : c.stream c.nextStream = none) {err : MuxError}
    (hq : c.queueStream.1 = .error err) : err = .streamLimit ∧ 2 ^ 32 ≤ c.nextStream.toNat + 2 := by
  rcases c.queueStream_next with ⟨hfull, he⟩ | ⟨-, hs, -⟩ | ⟨-, -, m, -, he⟩
  · rw [he] at hq
    cases hq
    exact ⟨rfl, hfull⟩
  · simp [h] at hs
  · rw [he] at hq
    cases hq

theorem insertStream_known {c d : Connection T} {id : StreamId} (h : c.insertStream id = .ok d) (other : StreamId) :
    (d.stream other).isSome ↔ (c.stream other).isSome ∨ other = id := by
  rw [stream_insert h]
  by_cases he : id = other
  · simp [he]
  · simp [he, Ne.symm he]

end Connection

theorem MuxSession.beginOpenFlowConfirmed_refuses {T : Type} {s : MuxSession T} {request : OpenRequest} {err : MuxError}
    (hr : s.role = .client) (hp : s.policyOpen) (h : (s.beginOpenFlowConfirmed request).1 = .error err) :
    (s.maxUserStreams ≤ s.userStreams ∧ err = .streamLimit) ∨ s.connection.queueStream.1 = .error err := by
  unfold MuxSession.beginOpenFlowConfirmed MuxSession.reserveUserStream at h
  rw [if_neg (by simp [hr, hp])] at h
  split at h
  · next e hres =>
    split at hres
    · next hfull =>
      cases hres
      cases h
      exact .inl ⟨hfull, rfl⟩
    · cases hres
  · next s' hres =>
    split at hres
    · cases hres
    · cases hres
      right
      dsimp only at h
      cases hq : s.connection.queueStream with
      | mk result c =>
        rw [hq] at h
        cases result with
        | error e =>
          cases h
          rfl
        | ok stream => cases h

namespace Opening
variable {T : Type} [AsyncIo T] {s : Opening T} {call : HandleCall}

inductive Moves (s : Opening T) (call : HandleCall) : Prop where
  | answered (h : Connection.Learns s.connection (s.step call).connection (s.handles.arrival call))
      (hnext : (s.step call).connection.nextStream = s.connection.nextStream)
      (hopened : (s.step call).opened = s.opened)
  | opened (hroom : s.connection.nextStream.toNat + 2 < 2 ^ 32)
      (hknown : ∀ id, ((s.step call).connection.stream id).isSome ↔
        (s.connection.stream id).isSome ∨ id = s.connection.nextStream)
      (hinbound : (s.step call).connection.inbound = s.connection.inbound)
      (hnext : (s.step call).connection.nextStream = s.connection.nextStream + 2)
      (hopened : ∀ id, (s.step call).opened id ↔ s.opened id ∨ id = s.connection.nextStream)
      (hnone : s.handles.arrival call = none)

theorem step_opened (h : s.opens call = none) : (s.step call).opened = s.opened := by
  funext id
  simp [step, h]

theorem opened_moves (hfree : s.connection.stream s.connection.nextStream = none)
    (hopens : s.opens call = s.connection.queueStream.1.toOption.map MuxStream.id)
    (hnone : s.handles.arrival call = none)
    (hstep : Connection.Still s.connection.queueStream.2 (s.step call).connection ∧
      (s.step call).connection.nextStream = s.connection.queueStream.2.nextStream) : Moves s call := by
  obtain ⟨hstill, hnext⟩ := hstep
  rcases s.connection.queueStream_next with ⟨-, hq⟩ | ⟨-, hs, -⟩ | ⟨hroom, -, m, hm, hq⟩
  · rw [hq] at hopens hstill hnext
    refine .answered ?_ hnext (step_opened hopens)
    rw [hnone]
    exact hstill.learns
  · simp [hfree] at hs
  · rw [hq] at hopens hstill hnext
    have hinserted := Connection.insertStream_inserted hm
    refine .opened hroom (fun id => ?_) (hstill.inbound.trans hinserted.inbound) hnext (fun id => ?_) hnone
    · rw [hstill.known]
      exact Connection.insertStream_known hm id
    · change (s.opened id || decide (s.opens call = some id)) = true ↔ _
      rw [hopens, Bool.or_eq_true, decide_eq_true_iff]
      change _ ∨ some s.connection.nextStream = some id ↔ _
      rw [Option.some.injEq, eq_comm (b := id)]

theorem answered_moves {d : Connection T} (hd : (s.step call).connection = d) (hopens : s.opens call = none)
    (h : Connection.Learns s.connection d (s.handles.arrival call)) (ha : Connection.Arrivals s.connection d) :
    Moves s call := by
  obtain ⟨ids, hids⟩ := ha
  refine .answered ?_ ?_ (step_opened hopens)
  · rw [hd]
    exact h
  · rw [hd]
    exact hids.next

theorem step_moves (hc : Handles.Counted s.connection) (hfree : s.connection.stream s.connection.nextStream = none)
    (call : HandleCall) : Moves s call := by
  cases call with
  | openStream =>
    refine opened_moves hfree rfl rfl ?_
    change Connection.Still _ s.handles.openStream.connection ∧ s.handles.openStream.connection.nextStream = _
    unfold Handles.openStream
    change Connection.Still s.handles.connection.queueStream.2 _ ∧ _ = s.handles.connection.queueStream.2.nextStream
    rcases s.handles.connection.queueStream with ⟨e | stream, c⟩ <;> exact ⟨.refl c, rfl⟩
  | queueOpen =>
    refine opened_moves hfree rfl rfl ?_
    change Connection.Still _ s.handles.queueOpen.connection ∧ s.handles.queueOpen.connection.nextStream = _
    unfold Handles.queueOpen
    change Connection.Still s.handles.connection.queueStream.2 _ ∧ _ = s.handles.connection.queueStream.2.nextStream
    rcases s.handles.connection.queueStream with ⟨e | stream, c⟩
    · exact ⟨.refl c, rfl⟩
    · exact ⟨.of_fields rfl rfl rfl, rfl⟩
  | control kind id =>
    exact answered_moves rfl rfl (Connection.pollControl_still _ kind id).learns
      (Connection.pollControl_arrivals _ kind id)
  | accept =>
    rcases s.connection.pollAcceptStream_cases with ⟨id, rest, hi, heq⟩ | ⟨hi, heq, hne⟩
    · have hd : (s.step .accept).connection = { s.connection with inbound := rest } := by
        change s.handles.accept.connection = _
        unfold Handles.accept
        rw [heq]
        rfl
      refine .answered (.none (fun id => ?_) ?_ fun frame hx => ?_) ?_ (step_opened rfl)
      · rw [hd]
        rfl
      · rw [hd, hi]
        exact List.suffix_cons _ _
      · rw [Handles.arrival, if_neg (by simp [hi])] at hx
        cases hx
      · rw [hd]
    · have hd : (s.step .accept).connection = s.connection.pollDrive.2 := by
        change s.handles.accept.connection = _
        unfold Handles.accept
        rw [← heq]
        split <;> rename_i hx <;> rw [hx] <;> rfl
      refine answered_moves hd rfl ?_ (Connection.pollDrive_arrivals _)
      rw [Handles.arrival, if_pos hi]
      exact (Connection.pollDrive_completes _).learns hc.placed
  | read id room =>
    by_cases hid : s.handles.held id
    · have hd : (s.step (.read id room)).connection = (s.connection.pollRead id room).2 := by
        change (s.handles.read id room).connection = _
        rw [Handles.read, if_pos hid]
      have harrivals := Connection.pollRead_arrivals s.connection id room
      refine answered_moves hd rfl ?_ harrivals
      rw [Handles.arrival, if_pos hid]
      have hreads := Connection.pollRead_reads hc.placed id room
      generalize s.connection.readerArrival id room = x at hreads
      cases hreads with
      | queue state hs front rest hi count hle hpos hresult hd =>
        have hinbound : (s.connection.pollRead id room).2.inbound = s.connection.inbound := by
          rw [hd]
          rfl
        exact .none (harrivals.known hinbound) (hinbound ▸ List.suffix_rfl) (fun _ hx => by cases hx)
      | wire arrival hw => exact hw.learns hc.placed
    · have hd : (s.step (.read id room)).connection = s.connection := by
        change (s.handles.read id room).connection = _
        rw [Handles.read, if_neg hid]
      refine answered_moves hd rfl ?_ (.refl _)
      rw [Handles.arrival, if_neg hid]
      exact (Connection.Still.refl _).learns
  | write id input =>
    exact answered_moves rfl rfl (Connection.pollData_still _ id input).learns
      (Connection.pollData_arrivals _ id input)
  | flush =>
    exact answered_moves rfl rfl (Connection.pollFlushWrite_still _).learns
      (Connection.pollFlushWrite_arrivals _)
  | drop stream =>
    by_cases hid : s.handles.held stream.id
    · have hd : (s.step (.drop stream)).connection = stream.drop s.connection := by
        change (s.handles.drop stream).connection = _
        rw [Handles.drop, if_pos hid]
      refine answered_moves hd rfl (Connection.drop_still stream _).learns ?_
      unfold MuxStream.drop
      split <;> exact .of_fields rfl rfl rfl
    · have hd : (s.step (.drop stream)).connection = s.connection := by
        change (s.handles.drop stream).connection = _
        rw [Handles.drop, if_neg hid]
      exact answered_moves hd rfl (Connection.Still.refl _).learns (.refl _)
  | drive =>
    exact answered_moves rfl rfl ((Connection.pollDrive_completes _).learns hc.placed)
      (Connection.pollDrive_arrivals _)

/-- An OPEN frame that a call completes for an unknown stream goes to a server, and keeps off the ids that
    this server will allocate. -/
def PeerKeeps (role : Mode) (s : Opening T) (call : HandleCall) : Prop :=
  ∀ frame, s.handles.arrival call = some frame → frame.kind = .frameOpen → s.connection.stream frame.stream = none →
    role = .server ∧ (frame.stream.toNat % 2 = role.parity → frame.stream.toNat < s.connection.nextStream.toNat)

omit [AsyncIo T] in
/-- What the two halves are for, at one state of a run. -/
structure Separate (role : Mode) (s : Opening T) : Prop where
  free : ∀ id : StreamId, id.toNat % 2 = role.parity → s.connection.nextStream.toNat ≤ id.toNat →
    s.connection.stream id = none
  allocates : ∀ err, s.connection.queueStream.1 = .error err →
    err = .streamLimit ∧ 2 ^ 32 ≤ s.connection.nextStream.toNat + 2
  opens : ∀ (session : MuxSession T) (request : OpenRequest) (err : MuxError), session.connection = s.connection →
    session.role = .client → session.policyOpen → (session.beginOpenFlowConfirmed request).1 = .error err →
    err = .streamLimit ∧
      (session.maxUserStreams ≤ session.userStreams ∨ 2 ^ 32 ≤ s.connection.nextStream.toNat + 2)
  initiated : role = .client → s.connection.inbound = [] ∧ ∀ id, (s.connection.stream id).isSome → s.opened id

structure Allocated (role : Mode) (s : Opening T) : Prop where
  counted : Handles.Counted s.connection
  parity : s.connection.nextStream.toNat % 2 = role.parity
  known : ∀ id, s.opened id → (s.connection.stream id).isSome

theorem toNat_add_two {id : StreamId} (h : id.toNat + 2 < 2 ^ 32) : (id + 2).toNat = id.toNat + 2 := by
  rw [UInt32.toNat_add]
  exact Nat.mod_eq_of_lt h

variable {role : Mode}

omit [AsyncIo T] in
theorem Allocated.separate (h : Allocated role s)
    (hfree : ∀ id : StreamId, id.toNat % 2 = role.parity → s.connection.nextStream.toNat ≤ id.toNat →
      s.connection.stream id = none)
    (hinitiated : role = .client → s.connection.inbound = [] ∧ ∀ id, (s.connection.stream id).isSome → s.opened id) :
    Separate role s := by
  have hnext := hfree _ h.parity (Nat.le_refl _)
  refine ⟨hfree, fun err hq => Connection.queueStream_free hnext hq, fun session request err hs hr hp hb => ?_,
    hinitiated⟩
  rcases MuxSession.beginOpenFlowConfirmed_refuses hr hp hb with ⟨hfull, herr⟩ | hq
  · exact ⟨herr, .inl hfull⟩
  · rw [hs] at hq
    obtain ⟨herr, hend⟩ := Connection.queueStream_free hnext hq
    exact ⟨herr, .inr hend⟩

theorem Allocated.moves (h : Allocated role s) (hs : Separate role s) (call : HandleCall) : Moves s call :=
  step_moves h.counted (hs.free _ h.parity (Nat.le_refl _)) call

theorem Allocated.step (h : Allocated role s) (hs : Separate role s) (call : HandleCall) :
    Allocated role (s.step call) := by
  have hcounted := (Handles.step_effect s.handles call h.counted).counted h.counted
  cases h.moves hs call with
  | answered hd hnext hopened =>
    refine ⟨hcounted, by rw [hnext]; exact h.parity, fun id hid => ?_⟩
    rw [hopened] at hid
    cases hd with
    | none hknown hinbound harrival =>
      rw [hknown]
      exact h.known id hid
    | one frame harrival hk hfresh hknown => exact (hknown id).mpr (.inl (h.known id hid))
  | opened hroom hknown hinbound hnext hopened hnone =>
    refine ⟨hcounted, ?_, fun id hid => (hknown id).mpr (((hopened id).mp hid).imp_left (h.known id))⟩
    rw [hnext, toNat_add_two hroom, Nat.add_mod_right]
    exact h.parity

theorem Separate.step_iff (hs : Separate role s) (h : Allocated role s) (call : HandleCall) :
    Separate role (s.step call) ↔ PeerKeeps role s call := by
  have hafter := h.step hs call
  have hmoves := h.moves hs call
  constructor
  · intro ht frame harrival hk hfresh
    cases hmoves with
    | opened hroom hknown hinbound hnext hopened hnone =>
      rw [hnone] at harrival
      cases harrival
    | answered hd hnext hopened =>
      cases hd with
      | none hknown hinbound hstale =>
        have hx := hstale frame harrival hk
        rw [hfresh] at hx
        cases hx
      | one frame' harrival' hk' hfresh' hknown =>
        rw [harrival'] at harrival
        cases harrival
        have hthere := (hknown frame.stream).mpr (.inr rfl)
        cases role with
        | client =>
          have hopen := (ht.initiated rfl).2 _ hthere
          rw [hopened] at hopen
          have hx := h.known _ hopen
          rw [hfresh] at hx
          cases hx
        | server =>
          refine ⟨rfl, fun hparity => ?_⟩
          by_contra hlt
          rw [ht.free _ hparity (by rw [hnext]; exact Nat.le_of_not_lt hlt)] at hthere
          cases hthere
  · intro hkeeps
    cases hmoves with
    | opened hroom hknown hinbound hnext hopened hnone =>
      refine hafter.separate (fun id hid hle => ?_) fun hrole => ⟨?_, fun id hid => ?_⟩
      · rw [hnext, toNat_add_two hroom] at hle
        have hne : id ≠ s.connection.nextStream := by
          rintro rfl
          omega
        rw [← Option.not_isSome_iff_eq_none, hknown, hs.free id hid (by omega)]
        simp [hne]
      · rw [hinbound]
        exact (hs.initiated hrole).1
      · exact (hopened id).mpr (((hknown id).mp hid).imp_left ((hs.initiated hrole).2 id))
    | answered hd hnext hopened =>
      cases hd with
      | none hknown hinbound hstale =>
        refine hafter.separate (fun id hid hle => ?_) fun hrole => ⟨?_, fun id hid => ?_⟩
        · rw [← Option.not_isSome_iff_eq_none, hknown, hs.free id hid (by rw [← hnext]; exact hle)]
          simp
        · rw [(hs.initiated hrole).1] at hinbound
          exact List.suffix_nil.mp hinbound
        · rw [hopened]
          exact (hs.initiated hrole).2 id (by rw [← hknown]; exact hid)
      | one frame harrival hk hfresh hknown =>
        obtain ⟨hserver, hbelow⟩ := hkeeps frame harrival hk hfresh
        refine hafter.separate (fun id hid hle => ?_) fun hrole => ?_
        · rw [hnext] at hle
          have hne : id ≠ frame.stream := by
            rintro rfl
            have hlt := hbelow hid
            omega
          rw [← Option.not_isSome_iff_eq_none, hknown, hs.free id hid hle]
          simp [hne]
        · rw [hserver] at hrole
          cases hrole

omit [AsyncIo T] in
theorem Allocated.new (io : T) (role : Mode) (config : YamuxConfig) : Allocated role (Opening.new io role config) := by
  refine ⟨⟨fun id state hs => ?_, rfl, Nat.zero_le _⟩, ?_, fun id hid => by cases hid⟩
  · simp [connection, Opening.new, Handles.new, MuxSession.new, Connection.stream] at hs
  · cases role <;> simp [connection, Opening.new, Handles.new, MuxSession.new, Mode.parity]

omit [AsyncIo T] in
theorem Separate.new (io : T) (role : Mode) (config : YamuxConfig) : Separate role (Opening.new io role config) := by
  have hnone (id : StreamId) : (Opening.new io role config).connection.stream id = none := by
    simp [connection, Opening.new, Handles.new, MuxSession.new, Connection.stream]
  refine (Allocated.new io role config).separate (fun id _ _ => hnone id) fun _ => ⟨rfl, fun id hid => ?_⟩
  rw [hnone] at hid
  cases hid

/-- The two halves stay apart in every state of a run exactly when the peer of each call keeps to its own: no
    stream has an id this side will allocate, allocation fails only for lack of ids or user streams, and every
    stream of a client was opened by it. -/
theorem id_spaces_separate_iff (io : T) (role : Mode) (config : YamuxConfig) (calls : List HandleCall) :
    (∀ front, front <+: calls → Separate role (run step (new io role config) front)) ↔
      Guarded step (PeerKeeps role) (new io role config) calls :=
  always_iff_guarded (Allocated role) (Separate role) (fun _ call h hs => h.step hs call)
    (fun _ call h hs => hs.step_iff h call) (Allocated.new io role config) (Separate.new io role config) calls

end Opening

/-- A server that announces stream 1 takes the first id of its client. -/
theorem announced_id_taken : ¬ Opening.Separate .client (run Opening.step
    (Opening.new ({ incoming := (Frame.control .frameOpen 1).bytes } : Script) .client ⟨16, 4194304, 16384⟩)
    [.drive]) := by
  intro h
  exact absurd (h.free 1 rfl (by decide)) (by decide)

end Snolc.Mux
