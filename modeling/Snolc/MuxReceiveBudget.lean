import Snolc.GuardedRuns
import Snolc.MuxArrivals
import Snolc.MuxCalls
import Snolc.MuxSession
import Snolc.ScriptedIo

set_option autoImplicit false

namespace Snolc.Mux
open PollIo SlotTable MuxFrame GuardedRuns ScriptedIo

inductive HandleCall where
  | openStream
  | queueOpen
  | control (kind : FrameKind) (id : StreamId)
  | accept
  | read (id : StreamId) (room : ℕ)
  | write (id : StreamId) (input : List UInt8)
  | flush
  | drop (stream : MuxStream)
  | drive

structure Handles (T : Type) where
  connection : Connection T
  held : StreamId → Bool
  returned : StreamId → List UInt8
  ended : StreamId → Bool
  overrun : StreamId → Bool

def reportsEnd : IoPoll (List UInt8) → Bool
  | .ready (.ok []) => true
  | _ => false

namespace Handles
variable {T : Type}

def withConnection (s : Handles T) (c : Connection T) : Handles T := { s with connection := c }

def hold (s : Handles T) (id : StreamId) : Handles T := { s with held := Function.update s.held id true }

/-- A stream some code can still read, or will be able to read. -/
def live (s : Handles T) (id : StreamId) : Bool := s.held id || s.connection.inbound.contains id

def openStream (s : Handles T) : Handles T :=
  match s.connection.queueStream with
  | (.ok stream, c) => (s.withConnection c).hold stream.id
  | (.error _, c) => s.withConnection c

def queueOpen (s : Handles T) : Handles T :=
  match s.connection.queueStream with
  | (.ok stream, c) =>
    (s.withConnection { c with controls := c.controls ++ [(.frameOpen, stream.id)] }).hold stream.id
  | (.error _, c) => s.withConnection c

def drop (s : Handles T) (stream : MuxStream) : Handles T :=
  if s.held stream.id then
    { s with
      connection := stream.drop s.connection
      held := Function.update s.held stream.id false }
  else s

variable [AsyncIo T]

def accept (s : Handles T) : Handles T :=
  match s.connection.pollAcceptStream with
  | (.ready (.ok id), c) => (s.withConnection c).hold id
  | (_, c) => s.withConnection c

def read (s : Handles T) (id : StreamId) (room : ℕ) : Handles T :=
  if s.held id then
    let r := s.connection.pollRead id room
    { s with
      connection := r.2
      returned := Function.update s.returned id (s.returned id ++ readBytes r.1)
      ended := Function.update s.ended id (s.ended id || (room ≠ 0 && reportsEnd r.1))
      overrun := Function.update s.overrun id (s.overrun id || (s.ended id && !(readBytes r.1).isEmpty)) }
  else s

def step (s : Handles T) : HandleCall → Handles T
  | .openStream => s.openStream
  | .queueOpen => s.queueOpen
  | .control kind id => s.withConnection (s.connection.pollControl kind id).2
  | .accept => s.accept
  | .read id room => s.read id room
  | .write id input => s.withConnection (s.connection.pollData id input).2
  | .flush => s.withConnection s.connection.pollFlushWrite.2
  | .drop stream => s.drop stream
  | .drive => s.withConnection s.connection.pollDrive.2

def new (io : T) (role : Mode) (config : YamuxConfig) : Handles T where
  connection := (MuxSession.new io role config).connection
  held _ := false
  returned _ := []
  ended _ := false
  overrun _ := false

end Handles

namespace Connection
variable {T : Type} [AsyncIo T]

def atWire (c : Connection T) (id : StreamId) (room : ℕ) : Option (Connection T) :=
  if room = 0 then none
  else
    match c.stream id with
    | none => none
    | some state =>
      match state.input with
      | [] => if state.eof then none else some c
      | front :: _ =>
        if min room (front.length - state.offset) ≠ 0 then none
        else some (c.modifyStream id (fun state => state.advance 0))

def readerArrival (c : Connection T) (id : StreamId) (room : ℕ) : Option PendingRead :=
  (c.atWire id room).bind (fun c => c.streamArrival id)

/-- `poll_read` takes bytes from the queue of its stream, or it completes a frame. -/
inductive Reads (c d : Connection T) (id : StreamId) (result : IoPoll (List UInt8)) : Option PendingRead → Prop where
  | queue (state : StreamState) (hs : c.stream id = some state) (front : List UInt8) (rest : List (List UInt8))
      (hi : state.input = front :: rest) (count : ℕ) (hc : count ≤ front.length - state.offset) (hpos : count ≠ 0)
      (hresult : result = .ready (.ok ((front.drop state.offset).take count)))
      (hd : d = { c.modifyStream id (fun state => state.advance count) with
        receivedBytes := c.receivedBytes - count }) : Reads c d id result none
  | wire (arrival : Option PendingRead) (h : Completes c d arrival) : Reads c d id result arrival

theorem pollRead_reads {c : Connection T} (hp : c.Placed) (id : StreamId) (room : ℕ) :
    Reads c (c.pollRead id room).2 id (c.pollRead id room).1 (c.readerArrival id room) := by
  unfold pollRead readerArrival atWire
  split
  · exact .wire none (.nothing (Still.refl c))
  · cases hs : c.stream id with
    | none => exact .wire none (.nothing (Still.refl c))
    | some state =>
      dsimp only
      cases hi : state.input with
      | nil =>
        dsimp only
        split
        · exact .wire none (.nothing (Still.refl c))
        · exact .wire _ (pollReadStream_completes c id room)
      | cons front rest =>
        dsimp only
        split
        · rename_i hpos
          exact .queue state hs front rest hi _ (Nat.min_le_right _ _) hpos rfl rfl
        · rename_i hzero
          rw [Decidable.not_not.mp hzero]
          exact .wire _ (Completes.after (pop_still hp hs hi) (pollReadStream_completes _ id room))

end Connection

namespace Handles
variable {T : Type}

/-- The counter is the unread bytes of the streams that have a holder or wait for one. -/
def Accounted (s : Handles T) : Prop :=
  s.connection.receivedBytes =
    total (fun state => state.queued.length) (only (fun i => s.live (UInt32.ofNat i)) s.connection.streams)

structure Counted (c : Connection T) : Prop where
  placed : c.Placed
  counter : c.receivedBytes = c.unread
  slots : c.streams.length ≤ 2 ^ 32

def Clean (s : Handles T) : Prop := ∀ id, s.live id = false → s.connection.queued id = []

theorem Counted.accounted_iff {s : Handles T} (h : Counted s.connection) : s.Accounted ↔ s.Clean := by
  rw [Accounted, h.counter, Connection.unread, eq_comm, total_only_eq_iff]
  constructor
  · intro hw id hlive
    rw [Connection.queued]
    cases hs : s.connection.stream id with
    | none => rfl
    | some state =>
      have hid : UInt32.ofNat id.toNat = id := UInt32.ofNat_toNat
      exact List.eq_nil_of_length_eq_zero (hw id.toNat state hs (by rw [hid]; exact hlive))
  · intro hclean i state hs hlive
    have hlt : i < 2 ^ 32 := by
      have hocc : Occupied s.connection.streams i := by rw [Occupied, hs]; rfl
      have := hocc.lt_length
      have := h.slots
      omega
    have hid : (UInt32.ofNat i).toNat = i := UInt32.toNat_ofNat_of_lt' hlt
    have hq := hclean (UInt32.ofNat i) hlive
    rw [Connection.queued, Connection.stream, hid, hs] at hq
    exact List.length_eq_zero_iff.mpr hq

theorem Counted.still {c d : Connection T} (h : Counted c) (hs : Connection.Still c d) : Counted d :=
  ⟨hs.placed h.placed, by rw [hs.received, hs.unread, h.counter], by rw [hs.slots]; exact h.slots⟩

theorem Counted.completes {c d : Connection T} (h : Counted c) {arrival : Option PendingRead}
    (hd : Connection.Completes c d arrival) : Counted d := by
  cases hd with
  | nothing hs => exact h.still hs
  | refused frame hs m hm e he => exact h.still hs
  | finished frame m hm hfin =>
    have hcm := h.still hm
    have hf := Connection.finishFrame_finished hcm.placed hfin
    have hb := hf.balance
    have hc := hcm.counter
    have hslots := hf.slots
    have hle := hcm.slots
    exact ⟨hf.placed, by omega, by omega⟩

theorem Counted.inserted {c d : Connection T} (h : Counted c) {id : StreamId} (hd : Connection.Inserted c d id) :
    Counted d := by
  have hslots := hd.slots
  have hle := h.slots
  exact ⟨hd.placed h.placed, by rw [hd.received, hd.unread, h.counter], by omega⟩

structure Taken (c d : Connection T) (id : StreamId) (bytes : List UInt8) : Prop where
  inbound : d.inbound = c.inbound
  front : c.queued id = bytes ++ d.queued id
  others : ∀ other, other ≠ id → d.queued other = c.queued other
  finished : ∀ other, d.finished other = c.finished other

theorem Counted.advance {c : Connection T} (h : Counted c) {id : StreamId} {state : StreamState}
    (hs : c.stream id = some state) {front : List UInt8} {rest : List (List UInt8)}
    (hi : state.input = front :: rest) {count : ℕ} (hc : count ≤ front.length - state.offset) :
    Counted { c.modifyStream id (fun state => state.advance count) with receivedBytes := c.receivedBytes - count } ∧
    Taken c { c.modifyStream id (fun state => state.advance count) with receivedBytes := c.receivedBytes - count }
      id ((front.drop state.offset).take count) := by
  have hp := h.placed id state hs
  have hq := hp.queued_advance hi hc
  have hlen : ((front.drop state.offset).take count).length = count := by
    rw [List.length_take, List.length_drop]
    omega
  have hlength := congrArg List.length hq
  rw [List.length_append, hlen] at hlength
  have hunread := Connection.unread_modifyStream hs (fun state => state.advance count)
  have heof : (state.advance count).eof = state.eof := by
    unfold StreamState.advance
    rw [hi]
    dsimp only
    split <;> rfl
  refine ⟨⟨fun other state' hs' => ?_, ?_, ?_⟩, ⟨rfl, ?_, fun other hne => ?_, fun other => ?_⟩⟩
  · have hs' := (Connection.stream_modifyStream c id other _).symm.trans hs'
    split at hs'
    · rename_i he
      subst he
      rw [hs] at hs'
      cases hs'
      exact hp.advance hi hc
    · exact h.placed other state' hs'
  · have hcounter := h.counter
    change c.receivedBytes - count = (c.modifyStream id (fun state => state.advance count)).unread
    omega
  · exact Nat.le_trans (Nat.le_of_eq (update_length _ _ _)) h.slots
  · refine Eq.trans ?_ (congrArg _ (Connection.queued_modifyStream c id id _).symm)
    rw [if_pos rfl, Connection.queued, hs]
    exact hq
  · refine (Connection.queued_modifyStream c id other _).trans ?_
    rw [if_neg (Ne.symm hne)]
  · unfold Connection.finished
    have hx := Connection.stream_modifyStream c id other (fun state => state.advance count)
    change (Connection.stream (c.modifyStream id _) other).elim false _ = _
    rw [hx]
    split
    · rename_i he
      subst he
      rw [hs]
      exact heof
    · rfl

variable [AsyncIo T]

def arrival (s : Handles T) : HandleCall → Option PendingRead
  | .accept => if s.connection.inbound = [] then s.connection.driveArrival else none
  | .read id room => if s.held id then s.connection.readerArrival id room else none
  | .drive => s.connection.driveArrival
  | _ => none

inductive Effect (s t : Handles T) (call : HandleCall) : Prop where
  | completes (h : Connection.Completes s.connection t.connection (s.arrival call)) (hheld : t.held = s.held)
      (hcall : ∀ stream, call = .drop stream → s.held stream.id = false)
  | inserts (id : StreamId) (h : Connection.Inserted s.connection t.connection id)
      (hheld : t.held = Function.update s.held id true) (hnone : s.arrival call = none)
      (hcall : ∀ stream, call ≠ .drop stream)
  | accepts (id : StreamId) (rest : List StreamId) (hi : s.connection.inbound = id :: rest)
      (h : t.connection = { s.connection with inbound := rest }) (hheld : t.held = Function.update s.held id true)
      (hcall : call = .accept)
  | takes (id : StreamId) (room : ℕ) (bytes : List UInt8) (hid : s.held id)
      (h : Taken s.connection t.connection id bytes) (hcounted : Counted t.connection) (hheld : t.held = s.held)
      (hnone : s.arrival call = none) (hcall : call = .read id room)
  | drops (stream : MuxStream) (hcall : call = .drop stream) (hid : s.held stream.id)
      (h : Connection.Still s.connection t.connection) (hheld : t.held = Function.update s.held stream.id false)

theorem openStream_effect {s : Handles T} {c : Connection T} {call : HandleCall} {result : Except MuxError MuxStream}
    {t : Handles T} (hq : s.connection.queueStream = (result, c)) (hnone : s.arrival call = none)
    (hcall : ∀ stream, call ≠ .drop stream) (hc : Connection.Still c t.connection)
    (hok : ∀ stream, result = .ok stream → t.held = Function.update s.held stream.id true)
    (herror : ∀ e, result = .error e → t.held = s.held) : Effect s t call := by
  rcases s.connection.queueStream_cases with ⟨e, next, heq⟩ | ⟨m, hm, heq⟩ <;> rw [heq] at hq <;> cases hq
  · refine .completes ?_ (herror e rfl) (fun stream hx => absurd hx (hcall stream))
    rw [hnone]
    exact .nothing ((Connection.setNext_still _ next).trans hc)
  · exact .inserts _ ((Connection.insertStream_inserted hm).still ((Connection.setNext_still m _).trans hc))
      (hok _ rfl) hnone hcall

theorem step_effect (s : Handles T) (call : HandleCall) (h : Counted s.connection) : Effect s (s.step call) call := by
  have hquiet {call : HandleCall} {d : Connection T} (hd : Connection.Still s.connection d)
      (hnone : s.arrival call = none) (hcall : ∀ stream, call ≠ .drop stream) : Effect s (s.withConnection d) call := by
    refine .completes ?_ rfl (fun stream hx => absurd hx (hcall stream))
    rw [hnone]
    exact .nothing hd
  cases call with
  | openStream =>
    change Effect s s.openStream _
    unfold openStream
    rcases hq : s.connection.queueStream with ⟨e | stream, c⟩ <;> dsimp only
    · exact openStream_effect hq rfl (by simp) (.refl c) (by simp) (fun _ _ => rfl)
    · exact openStream_effect hq rfl (by simp) (.refl c) (fun _ hx => by cases hx; rfl) (by simp)
  | queueOpen =>
    change Effect s s.queueOpen _
    unfold queueOpen
    rcases hq : s.connection.queueStream with ⟨e | stream, c⟩ <;> dsimp only
    · exact openStream_effect hq rfl (by simp) (.refl c) (by simp) (fun _ _ => rfl)
    · exact openStream_effect hq rfl (by simp) (.of_fields rfl rfl rfl) (fun _ hx => by cases hx; rfl) (by simp)
  | control kind id => exact hquiet (Connection.pollControl_still _ kind id) rfl (by simp)
  | accept =>
    change Effect s s.accept _
    unfold accept
    rcases s.connection.pollAcceptStream_cases with ⟨id, rest, hi, heq⟩ | ⟨hi, heq, hne⟩
    · rw [heq]
      exact .accepts id rest hi rfl rfl rfl
    · split
      · rename_i id c hx
        exact absurd (congrArg Prod.fst hx) (hne id)
      · rename_i result c hno hx
        have hd : c = s.connection.pollDrive.2 := by rw [← heq, hx]
        rw [hd]
        refine .completes ?_ rfl (by simp)
        rw [arrival, if_pos hi]
        exact Connection.pollDrive_completes _
  | read id room =>
    change Effect s (s.read id room) _
    unfold read
    by_cases hid : s.held id
    · rw [if_pos hid]
      have hreads := Connection.pollRead_reads h.placed id room
      have harrival : s.arrival (.read id room) = s.connection.readerArrival id room := if_pos hid
      rw [← harrival] at hreads
      dsimp only
      generalize s.connection.pollRead id room = r at hreads ⊢
      generalize hx : s.arrival (.read id room) = x at hreads
      cases hreads with
      | queue state hs front rest hi count hc hpos hresult hd =>
        obtain ⟨hcounted, htaken⟩ := h.advance hs hi hc
        rw [← hd] at hcounted htaken
        exact .takes id room _ hid htaken hcounted rfl hx rfl
      | wire arrival hw =>
        refine .completes ?_ rfl (by simp)
        rw [hx]
        exact hw
    · rw [if_neg hid]
      refine .completes ?_ rfl (by simp)
      rw [arrival, if_neg hid]
      exact .nothing (.refl _)
  | write id input => exact hquiet (Connection.pollData_still _ id input) rfl (by simp)
  | flush => exact hquiet (Connection.pollFlushWrite_still _) rfl (by simp)
  | drop stream =>
    change Effect s (s.drop stream) _
    unfold drop
    by_cases hid : s.held stream.id
    · rw [if_pos hid]
      exact .drops stream rfl hid (Connection.drop_still stream _) rfl
    · rw [if_neg hid]
      refine .completes (.nothing (.refl _)) rfl ?_
      rintro _ ⟨⟩
      simpa using hid
  | drive => exact .completes (Connection.pollDrive_completes _) rfl (by simp)

theorem Effect.counted {s t : Handles T} {call : HandleCall} (h : Effect s t call) (hc : Counted s.connection) :
    Counted t.connection := by
  cases h with
  | completes hd hheld hcall => exact hc.completes hd
  | inserts id hd hheld hnone hcall => exact hc.inserted hd
  | accepts id rest hi hd hheld hcall =>
    rw [hd]
    exact ⟨hc.placed, hc.counter, hc.slots⟩
  | takes id room bytes hid htaken hcounted hheld hnone hcall => exact hcounted
  | drops stream hcall hid hd hheld => exact hc.still hd

/-- The step keeps the budget of the streams that can be read: a handle is dropped over an
    empty queue, and no payload is completed for a known stream without a holder. -/
def Settles (s : Handles T) (call : HandleCall) : Prop :=
  (∀ stream, call = .drop stream → s.held stream.id → stream.id ∉ s.connection.inbound →
    s.connection.queued stream.id = []) ∧
  ∀ frame, s.arrival call = some frame → frame.kind = .frameData → frame.bytes ≠ [] →
    (s.connection.stream frame.stream).isSome → s.live frame.stream

omit [AsyncIo T] in
theorem live_eq_false {s : Handles T} {id : StreamId} :
    s.live id = false ↔ s.held id = false ∧ id ∉ s.connection.inbound := by
  simp [live]

omit [AsyncIo T] in
theorem Clean.grown {s t : Handles T} (h : s.Clean) (hlive : ∀ id, s.live id → t.live id)
    (hq : ∀ id, t.connection.queued id = s.connection.queued id) : t.Clean := by
  intro id hid
  rw [hq]
  apply h
  rw [← Bool.not_eq_true] at hid ⊢
  exact fun hx => hid (hlive id hx)

omit [AsyncIo T] in
theorem Clean.completes_iff {s t : Handles T} (h : s.Clean) (hc : Counted s.connection) {arrival : Option PendingRead}
    (hd : Connection.Completes s.connection t.connection arrival) (hheld : t.held = s.held) :
    t.Clean ↔ ∀ frame, arrival = some frame → frame.kind = .frameData → frame.bytes ≠ [] →
      (s.connection.stream frame.stream).isSome → s.live frame.stream := by
  have hsame (hs : Connection.Still s.connection t.connection) : t.Clean :=
    h.grown (fun id hx => by unfold live at hx ⊢; rw [hheld, hs.inbound]; exact hx) hs.queued
  cases hd with
  | nothing hs => exact ⟨fun _ frame hx => by simp at hx, fun _ => hsame hs⟩
  | refused frame hs m hm e he =>
    refine ⟨fun _ frame' hx hk _ hknown => ?_, fun _ => hsame hs⟩
    cases hx
    have hnone := Connection.finishFrame_refused he hk
    have hm' := hm.known frame.stream
    rw [hnone, hknown] at hm'
    cases hm'
  | finished frame m hm hfin =>
    have hf := Connection.finishFrame_finished (hm.placed hc.placed) hfin
    have hqueue (id : StreamId) : t.connection.queued id = s.connection.queued id ++ Connection.added frame id := by
      rw [hf.queued, hm.queued]
    have hinbound (id : StreamId) (hx : id ∈ s.connection.inbound) : id ∈ t.connection.inbound := by
      rcases hf.inbound with hi | ⟨-, hi⟩ <;> rw [hi, hm.inbound]
      · exact hx
      · exact List.mem_append_left _ hx
    constructor
    · intro hclean frame' hx hk hne hknown
      cases hx
      by_contra hlive
      have hinbound' : t.connection.inbound = s.connection.inbound := by
        rcases hf.inbound with hi | ⟨ho, -⟩
        · rw [hi, hm.inbound]
        · rw [hk] at ho
          cases ho
      have hdead : t.live frame.stream = false := by
        unfold live at hlive ⊢
        rw [hheld, hinbound']
        simpa using hlive
      have hempty := hclean frame.stream hdead
      rw [hqueue, Connection.added, if_pos ⟨hk, rfl⟩, List.append_eq_nil_iff] at hempty
      exact hne hempty.2
    · intro hlive id hid
      rw [live_eq_false] at hid
      obtain ⟨hnot, hout⟩ := hid
      have hold : s.live id = false := by
        rw [live_eq_false, ← hheld]
        exact ⟨hnot, fun hx => hout (hinbound id hx)⟩
      rw [hqueue, h id hold, List.nil_append, Connection.added]
      split
      · rename_i hx
        obtain ⟨hk, rfl⟩ := hx
        by_contra hne
        have hknown : (s.connection.stream frame.stream).isSome := by
          rw [← hm.known]
          exact hf.stored hk
        have hx := hlive frame rfl hk hne hknown
        rw [hold] at hx
        cases hx
      · rfl

theorem Effect.clean_iff {s t : Handles T} {call : HandleCall} (h : Effect s t call) (hc : Counted s.connection)
    (hclean : s.Clean) : t.Clean ↔ s.Settles call := by
  have hvacuous (hnone : s.arrival call = none) (hcall : ∀ stream, call ≠ .drop stream) : s.Settles call :=
    ⟨fun stream hx => absurd hx (hcall stream), fun frame hx => by rw [hnone] at hx; cases hx⟩
  cases h with
  | completes hd hheld hcall =>
    rw [hclean.completes_iff hc hd hheld, Settles]
    refine ⟨fun hx => ⟨fun stream hs hid => ?_, hx⟩, fun hx => hx.2⟩
    rw [hcall stream hs] at hid
    cases hid
  | inserts id hd hheld hnone hcall =>
    refine ⟨fun _ => hvacuous hnone hcall, fun _ => hclean.grown (fun other hx => ?_) hd.queued⟩
    unfold live at hx ⊢
    rw [hheld, hd.inbound, Function.update_apply]
    split
    · rfl
    · exact hx
  | accepts id rest hi hd hheld hcall =>
    subst hcall
    have hnone : s.arrival .accept = none := if_neg (by simp [hi])
    refine ⟨fun _ => hvacuous hnone (by simp), fun _ =>
      hclean.grown (fun other hx => ?_) (fun other => by rw [hd]; rfl)⟩
    unfold live at hx ⊢
    rw [hheld, hd, Function.update_apply]
    rw [hi] at hx
    split
    · rfl
    · rename_i hne
      simpa [hne] using hx
  | takes id room bytes hid htaken hcounted hheld hnone hcall =>
    subst hcall
    refine ⟨fun _ => hvacuous hnone (by simp), fun _ other ho => ?_⟩
    rw [live_eq_false, hheld, htaken.inbound] at ho
    have hne : other ≠ id := by
      rintro rfl
      rw [hid] at ho
      cases ho.1
    rw [htaken.others other hne]
    exact hclean other (live_eq_false.mpr ho)
  | drops stream hcall hid hd hheld =>
    subst hcall
    constructor
    · intro ht
      refine ⟨fun stream' hx _ hout => ?_, fun frame hx => by cases hx⟩
      cases hx
      rw [← hd.queued]
      apply ht
      rw [live_eq_false, hheld, hd.inbound]
      exact ⟨Function.update_self _ _ _, hout⟩
    · intro hx other ho
      rw [live_eq_false, hheld, hd.inbound, Function.update_apply] at ho
      rw [hd.queued]
      split at ho
      · rename_i he
        rw [he] at ho ⊢
        exact hx.1 stream rfl hid ho.2
      · exact hclean other (live_eq_false.mpr ho)

/-- The counter is the unread bytes of the readable streams in every state of a run exactly
    when every step of the run settles what it leaves unread. -/
theorem budget_whole_iff (io : T) (role : Mode) (config : YamuxConfig) (calls : List HandleCall) :
    (∀ front, front <+: calls → (run step (Handles.new io role config) front).Accounted) ↔
      Guarded step Settles (Handles.new io role config) calls := by
  have hstart : Counted (Handles.new io role config).connection :=
    ⟨fun id state hs => by simp [new, MuxSession.new, Connection.stream] at hs, rfl, Nat.zero_le _⟩
  refine always_iff_guarded (fun s => Counted s.connection) Accounted
    (fun s call hc _ => (step_effect s call hc).counted hc) (fun s call hc hp => ?_) hstart ?_ calls
  · have heffect := step_effect s call hc
    rw [(heffect.counted hc).accounted_iff]
    exact heffect.clean_iff hc (hc.accounted_iff.mp hp)
  · rw [hstart.accounted_iff]
    intro id _
    rfl

end Handles

/-- A byte that arrives for stream 1 after its handle was dropped, and one that was queued
    before: both stay in the counter, and no stream is left that could give them back. -/
theorem dropped_stream_keeps_budget :
    ¬ (run Handles.step (Handles.new
        ({ incoming := (Frame.control .frameOpen 1).bytes ++ (⟨.frameData, 1, [7]⟩ : Frame).bytes } : Script)
        .server ⟨16, 4194304, 16384⟩)
      [.accept, .accept, .drop ⟨1, false⟩, .drive]).Accounted ∧
    ¬ (run Handles.step (Handles.new
        ({ incoming := (Frame.control .frameOpen 1).bytes ++ (⟨.frameData, 1, [7]⟩ : Frame).bytes } : Script)
        .server ⟨16, 4194304, 16384⟩)
      [.accept, .accept, .drive, .drop ⟨1, false⟩]).Accounted := by
  constructor
  · unfold Handles.Accounted
    decide
  · unfold Handles.Accounted
    decide

end Snolc.Mux
