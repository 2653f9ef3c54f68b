import Snolc.GuardedRuns
import Snolc.MuxArrivals
import Snolc.MuxControlOnce
import Mathlib.Data.List.Nodup
import Mathlib.Data.List.Perm.Subperm

set_option autoImplicit false

namespace Snolc.Mux
open PollIo SlotTable MuxFrame AsyncTask WireFormat GuardedRuns ScriptedIo

namespace Endpoint
variable {T : Type}

/-- The table holds what was opened here or announced by the peer, and nothing else. -/
structure Tables (e : Endpoint T) : Prop where
  known : ∀ id, (e.connection.stream id).isSome ↔
    e.opened id ∨ e.announced id ∨ id ∈ e.connection.inbound
  owned : ∀ id, e.owner id ≠ .free → (e.connection.stream id).isSome
  dropped : ∀ id, e.dropped id → (e.connection.stream id).isSome
  tasks : ∀ id task, e.owner id = .future task → task.Writes requestBound
  nodup : e.connection.inbound.Nodup
  tight : e.connection.Tight

def Observed (e : Endpoint T) : Prop := ∀ id ∈ e.connection.inbound, e.announced id

theorem Tables.observe {e : Endpoint T} (h : Tables e) : Tables e.observe ∧ Observed e.observe := by
  refine ⟨⟨fun id => ?_, h.owned, h.dropped, h.tasks, h.nodup, h.tight⟩, fun id hid => ?_⟩
  · change (e.connection.stream id).isSome ↔ e.opened id ∨
      (e.announced id || e.connection.inbound.contains id) ∨ id ∈ e.connection.inbound
    rw [h.known id, Bool.or_eq_true, List.contains_iff_mem]
    tauto
  · have : e.connection.inbound.contains id = true := List.contains_iff_mem.mpr hid
    change (e.announced id || e.connection.inbound.contains id) = true
    rw [this, Bool.or_true]

theorem Tables.arrivals {e : Endpoint T} (h : Tables e) {d : Connection T}
    (harr : Connection.Arrivals e.connection d) : Tables (e.withConnection d) := by
  obtain ⟨ids, ha⟩ := harr
  refine ⟨fun id => ?_, fun id ho => ?_, fun id ho => ?_, h.tasks, ?_, ha.tight h.tight⟩
  · change (d.stream id).isSome ↔ e.opened id ∨ e.announced id ∨ id ∈ d.inbound
    rw [ha.occupied, ha.inbound, List.mem_append, h.known id]
    tauto
  · exact (ha.occupied id).mpr (.inl (h.owned id ho))
  · exact (ha.occupied id).mpr (.inl (h.dropped id ho))
  · change d.inbound.Nodup
    rw [ha.inbound]
    refine List.nodup_append.mpr ⟨h.nodup, ha.nodup, fun id hid id' hid' he => ?_⟩
    subst he
    have := (h.known id).mpr (.inr (.inr hid))
    simp [ha.fresh id hid'] at this

theorem Tables.setOwner {e : Endpoint T} (h : Tables e) (id : StreamId)
    (hs : (e.connection.stream id).isSome) (owner : Owner)
    (ht : ∀ task, owner = .future task → task.Writes requestBound) : Tables (e.setOwner id owner) := by
  refine ⟨h.known, fun other ho => ?_, h.dropped, fun other task ho => ?_, h.nodup, h.tight⟩
  · by_cases he : other = id
    · subst he; exact hs
    · exact h.owned other (by simpa [he] using ho)
  · by_cases he : other = id
    · subst he; exact ht task (by simpa using ho)
    · exact h.tasks other task (by simpa [he] using ho)

theorem Tables.giveUp {e : Endpoint T} (h : Tables e) {stream : MuxStream}
    (hs : (e.connection.stream stream.id).isSome) : Tables (e.giveUp stream) := by
  have harr : Connection.Arrivals e.connection (stream.drop e.connection) := by
    unfold MuxStream.drop
    split
    · exact .refl _
    · exact .of_fields rfl rfl rfl
  have ho := (h.arrivals harr).setOwner stream.id (harr.kept hs) .free (by simp)
  refine ⟨ho.known, ho.owned, fun id hd => ?_, ho.tasks, ho.nodup, ho.tight⟩
  by_cases he : id = stream.id
  · subst he; exact harr.kept hs
  · have hd : e.dropped id := by simpa [Endpoint.giveUp, he] using hd
    exact harr.kept (h.dropped id hd)

theorem Tables.adopt {e : Endpoint T} (h : Tables e) {m : Connection T}
    (hm : e.connection.insertStream e.connection.nextStream = .ok m) (next : StreamId)
    (controls : List (FrameKind × StreamId)) (owner : Owner)
    (ht : ∀ task, owner = .future task → task.Writes requestBound) :
    Tables ((e.withConnection { m with nextStream := next, controls := controls }).adopt
      e.connection.nextStream owner) := by
  have hs := Connection.stream_insert hm
  have hinb : m.inbound = e.connection.inbound := by rw [Connection.insertStream_fields hm]
  have hocc (id : StreamId) : (m.stream id).isSome ↔
      id = e.connection.nextStream ∨ (e.connection.stream id).isSome := by
    rw [hs]
    by_cases he : e.connection.nextStream = id
    · simp [he]
    · simp [he, Ne.symm he]
  refine ⟨fun id => ?_, fun id ho => ?_, fun id ho => ?_, fun id task ho => ?_, ?_,
    Connection.insertStream_tight (d := m) hm h.tight⟩
  · change (m.stream id).isSome ↔ Function.update e.opened e.connection.nextStream true id ∨
      e.announced id ∨ id ∈ m.inbound
    rw [hocc, hinb, h.known]
    by_cases he : id = e.connection.nextStream
    · simp [he]
    · simp [he]
  · by_cases he : id = e.connection.nextStream
    · exact (hocc id).mpr (.inl he)
    · exact (hocc id).mpr (.inr (h.owned id (by simpa [Endpoint.adopt, he] using ho)))
  · exact (hocc id).mpr (.inr (h.dropped id ho))
  · by_cases he : id = e.connection.nextStream
    · subst he; exact ht task (by simpa [Endpoint.adopt] using ho)
    · exact h.tasks id task (by simpa [Endpoint.adopt, he] using ho)
  · change m.inbound.Nodup
    rw [hinb]
    exact h.nodup

theorem Tables.skip {e : Endpoint T} (h : Tables e) (next : StreamId) :
    Tables (e.withConnection { e.connection with nextStream := next }) :=
  ⟨h.known, h.owned, h.dropped, h.tasks, h.nodup, h.tight⟩

theorem Tables.accept {e : Endpoint T} (h : Tables e) (hobs : Observed e) {id : StreamId}
    {rest : List StreamId} (hi : e.connection.inbound = id :: rest) :
    Tables ((e.withConnection { e.connection with inbound := rest }).setOwner id (.handle false)) := by
  have hnodup := h.nodup
  rw [hi, List.nodup_cons] at hnodup
  have ht : Tables (e.withConnection { e.connection with inbound := rest }) := by
    refine ⟨fun other => ?_, h.owned, h.dropped, h.tasks, hnodup.2, h.tight⟩
    change (e.connection.stream other).isSome ↔ e.opened other ∨ e.announced other ∨ other ∈ rest
    rw [h.known, hi, List.mem_cons]
    by_cases he : other = id
    · have := hobs id (by simp [hi])
      simp [he, this]
    · simp [he]
  exact ht.setOwner _ ((h.known id).mpr (.inr (.inr (by simp [hi])))) (.handle false) (by simp)

variable [AsyncIo T]

theorem poll_arrivals {α : Type} (task : Task MuxError α) (id : StreamId) (c : Connection T) {n : ℕ}
    (ht : task.Writes n) :
    Connection.Arrivals c (task.poll MuxError.io (StreamEnd.mk id c)).2.2.connection ∧
      (task.poll MuxError.io (StreamEnd.mk id c)).2.1.Writes n := by
  refine Task.poll_invariant MuxError.io
    (fun s : StreamEnd T => Connection.Arrivals c s.connection) n ?_ ?_ ?_ task _ ht (.refl c)
  · rintro s bytes - - h
    exact h.trans (Connection.pollData_arrivals _ _ _)
  · rintro s h
    exact h.trans (Connection.pollFlushWrite_arrivals _)
  · rintro s room h
    exact h.trans (Connection.pollRead_arrivals _ _ _)

theorem Tables.pollOpen {e : Endpoint T} (h : Tables e) (id : StreamId) : Tables (e.pollOpen id) := by
  have harr := Connection.pollControl_arrivals e.connection .frameOpen id
  have ht := h.arrivals harr
  unfold Endpoint.pollOpen
  split
  · rename_i hown
    have hocc := harr.kept (h.owned id (by simp [hown]))
    split <;> rename_i heq <;> rw [heq] at ht hocc
    · have ho := ht.setOwner _ hocc (.handle false) (by simp)
      exact ⟨ho.known, ho.owned, ho.dropped, ho.tasks, ho.nodup, ho.tight⟩
    · exact ht.giveUp hocc
    · exact ht
  · exact h

theorem Tables.pollFuture {e : Endpoint T} (h : Tables e) (id : StreamId) : Tables (e.pollFuture id) := by
  unfold Endpoint.pollFuture
  split
  · rename_i task hown
    obtain ⟨harr, hwrites⟩ := poll_arrivals task id e.connection (h.tasks id task hown)
    have hocc := harr.kept (h.owned id (by simp [hown]))
    have ht := h.arrivals harr
    dsimp only
    unfold Endpoint.settle
    split
    · exact ht.setOwner _ hocc _ (by simp)
    · exact ht.giveUp hocc
    · exact ht.setOwner _ hocc _ (by rintro task ⟨⟩; exact hwrites)
  · exact h

theorem Tables.close {e : Endpoint T} (h : Tables e) (id : StreamId) : Tables (e.close id) := by
  unfold Endpoint.close
  split
  · rename_i writeClosed hown
    have harr : Connection.Arrivals e.connection
        (({ id, writeClosed } : MuxStream).pollClose e.connection).2.2 := by
      have hc := Connection.pollControl_arrivals e.connection .frameFin id
      unfold MuxStream.pollClose
      split
      · exact .refl _
      · split <;> rename_i heq <;> rw [heq] at hc
        · exact hc
        · exact hc
    have ho := (h.arrivals harr).setOwner _ (harr.kept (h.owned id (by simp [hown])))
      (.handle (({ id, writeClosed } : MuxStream).pollClose e.connection).2.1.writeClosed) (by simp)
    exact ⟨ho.known, ho.owned, ho.dropped, ho.tasks, ho.nodup, ho.tight⟩
  · exact h

theorem Tables.act {e : Endpoint T} (h : Tables e) (hobs : Observed e) (action : Action) :
    Tables (e.act action) := by
  cases action with
  | openStream =>
    simp only [Endpoint.act, Endpoint.openStream]
    rcases e.connection.queueStream_cases with ⟨err, next, hq⟩ | ⟨m, hm, hq⟩ <;> rw [hq]
    · exact h.skip next
    · exact h.adopt hm _ _ _ (by simp)
  | pollOpen id => exact h.pollOpen id
  | dropOpen id =>
    simp only [Endpoint.act, Endpoint.dropOpen]
    split
    · rename_i hown
      exact h.giveUp (h.owned id (by simp [hown]))
    · exact h
  | beginOpen request =>
    simp only [Endpoint.act, Endpoint.beginOpen, Connection.queueOpen]
    rcases e.connection.queueStream_cases with ⟨err, next, hq⟩ | ⟨m, hm, hq⟩ <;> rw [hq]
    · exact h.skip next
    · exact h.adopt hm _ _ _ (by rintro task ⟨⟩; exact openFlowTask_writes request)
  | pollFuture id => exact h.pollFuture id
  | dropFuture id =>
    simp only [Endpoint.act, Endpoint.dropFuture]
    split
    · rename_i hown
      exact h.giveUp (h.owned id (by simp [hown]))
    · exact h
  | acceptStream =>
    change Tables e.acceptStream
    rcases e.acceptStream_cases with ⟨id, rest, hi, heq⟩ | heq
    · rw [heq]
      exact h.accept hobs hi
    · rw [heq]
      exact h.arrivals (Connection.pollDrive_arrivals e.connection)
  | read id room =>
    simp only [Endpoint.act, Endpoint.read]
    split
    · exact h.arrivals (Connection.pollRead_arrivals _ _ _)
    · exact h
  | write id input =>
    simp only [Endpoint.act, Endpoint.write]
    split
    · exact h.arrivals (Connection.pollData_arrivals _ _ _)
    · exact h
  | flush id =>
    simp only [Endpoint.act, Endpoint.flush]
    split
    · exact h.arrivals (Connection.pollFlushWrite_arrivals _)
    · exact h
  | close id => exact h.close id
  | drop id =>
    simp only [Endpoint.act, Endpoint.drop]
    split
    · rename_i hown
      exact h.giveUp (h.owned id (by simp [hown]))
    · exact h
  | drive => exact h.arrivals (Connection.pollDrive_arrivals e.connection)

theorem run_tables (io : T) (role : Mode) (config : YamuxConfig) (actions : List Action) :
    Tables (run Endpoint.step (Endpoint.new io role config) actions) ∧
      Observed (run Endpoint.step (Endpoint.new io role config) actions) := by
  refine run_always (fun e => Tables e ∧ Observed e)
    (fun e action h => (h.1.act h.2 action).observe) ⟨⟨?_, ?_, ?_, ?_, ?_, ?_⟩, ?_⟩ actions
  · simp [Endpoint.new, MuxSession.new, Connection.stream]
  · simp [Endpoint.new]
  · simp [Endpoint.new]
  · simp [Endpoint.new]
  · simp [Endpoint.new, MuxSession.new]
  · exact .inl rfl
  · simp [Observed, Endpoint.new, MuxSession.new]

end Endpoint

section Bounds
variable {T : Type} [TracedIo T]

def Finished (e : Endpoint T) (id : StreamId) : Prop :=
  e.dropped id ∧ e.ended id ∧ e.connection.Written .frameFin id

instance (e : Endpoint T) (id : StreamId) : Decidable (Finished e id) :=
  inferInstanceAs (Decidable (_ ∧ _))

structure TablesBounded (e : Endpoint T) (limit : ℕ) : Prop where
  slots : e.connection.streams.length ≤ limit
  queue : e.connection.inbound.length ≤ limit
  released : ∀ id, Finished e id → e.connection.stream id = none

theorem length_le_of_ids {ids : List StreamId} {limit : ℕ} (hn : ids.Nodup)
    (hl : ∀ id ∈ ids, id.toNat < limit) : ids.length ≤ limit := by
  have hsub : ids.map UInt32.toNat ⊆ List.range limit := by
    intro n hm
    obtain ⟨id, hid, rfl⟩ := List.mem_map.mp hm
    exact List.mem_range.mpr (hl id hid)
  have hnodup : (ids.map UInt32.toNat).Nodup := hn.map fun a b h => UInt32.toNat_inj.mp h
  have := (hnodup.subperm hsub).length_le
  simpa using this

/-- In every state of every run the tables keep to the limit exactly when every id
    opened so far, by either side, lies below it and no stream has been finished. -/
theorem tables_bounded_iff (io : T) (role : Mode) (config : YamuxConfig) (actions : List Action) :
    TablesBounded (run Endpoint.step (Endpoint.new io role config) actions) config.maxStreamsPerSession ↔
      (∀ id, (run Endpoint.step (Endpoint.new io role config) actions).opened id ∨
        (run Endpoint.step (Endpoint.new io role config) actions).announced id →
          id.toNat < config.maxStreamsPerSession) ∧
      ∀ id, ¬ Finished (run Endpoint.step (Endpoint.new io role config) actions) id := by
  obtain ⟨ht, hobs⟩ := Endpoint.run_tables io role config actions
  generalize run Endpoint.step (Endpoint.new io role config) actions = e at ht hobs
  constructor
  · intro hb
    refine ⟨fun id hid => ?_, fun id hf => ?_⟩
    · have hocc := (ht.known id).mpr (hid.imp_right .inl)
      have hlt := Occupied.lt_length (t := e.connection.streams) (i := id.toNat) hocc
      have := hb.slots
      omega
    · have hocc := ht.dropped id hf.1
      simp [hb.released id hf] at hocc
  · rintro ⟨hids, hfin⟩
    refine ⟨?_, ?_, fun id hf => absurd hf (hfin id)⟩
    · rcases ht.tight with h0 | ⟨id, hl, hocc⟩
      · omega
      · have := hids id (by
          rcases (ht.known id).mp hocc with h | h | h
          · exact .inl h
          · exact .inr h
          · exact .inr (hobs id h))
        omega
    · exact length_le_of_ids ht.nodup fun id hid => hids id (.inr (hobs id hid))

end Bounds

/-- A peer that announces stream 40 to a server limited to 16 streams makes the table
    41 slots long; and stream 1, finished by both sides and dropped, keeps its slot. -/
theorem tables_unbounded :
    ¬ TablesBounded (run Endpoint.step
      (Endpoint.new ({ incoming := (Frame.control .frameOpen 40).bytes } : Script) .server ⟨16, 4194304, 16384⟩)
      [.drive]) 16 ∧
    ¬ TablesBounded (run Endpoint.step
      (Endpoint.new ({ incoming := (Frame.control .frameOpen 1).bytes ++ (Frame.control .frameFin 1).bytes } : Script)
        .server ⟨16, 4194304, 16384⟩)
      [.acceptStream, .acceptStream, .drive, .drop 1, .drive]) 16 := by
  refine ⟨fun h => ?_, fun h => ?_⟩
  · exact absurd h.slots (by decide)
  · exact absurd (h.released 1 (by decide)) (by decide)

end Snolc.Mux
