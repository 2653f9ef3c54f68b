import Snolc.Configuration
import Snolc.EngineHandles
import Snolc.EngineLoop
import Mathlib.Data.List.Perm.Subperm

set_option autoImplicit false

namespace Snolc.Engine
open CoreIo CheckedSlice GuardedRuns
open Snolc.Configuration (Config ConfigError)

/-- The limit of every tunnel, from `Engine::validate`. -/
def coreIoLimit (config : Config) : Option ℕ := do
  let flows ← checkedMul config.engine.maxFlows 3
  checkedAdd config.engine.maxSessions flows

def PacketPortAnswer.isAttached : PacketPortAnswer → Bool
  | attached => true
  | _ => false

/-- What a handle is held for: the policy stream of a tunnel's session, or an end of one of its flows. -/
inductive IoOwner where
  | policy (tunnel : ℕ)
  | flow (tunnel flow place : ℕ)
  deriving DecidableEq, Repr

def flowOwners (tunnel flow : ℕ) : List IoOwner := (List.range 3).map (.flow tunnel flow)

def sessionOwners (streams tunnel : ℕ) : List IoOwner :=
  .policy tunnel :: (List.range (streams - 1)).flatMap (flowOwners tunnel)

def ioOwners (tunnels streams : ℕ) : List IoOwner := (List.range tunnels).flatMap (sessionOwners streams)

/-- The registry of a worker, and for what its handles are held. -/
structure IoBooks where
  registry : Registry
  ports : List Handle
  held : IoOwner → Option TableHandle
  answers : List (Except CoreIoError Handle) := []

inductive IoStep where
  | register (owner : IoOwner) (table : Table)
  | close (owner : IoOwner)
  | closePort (handle : Handle)
  | elsewhere (count : UInt64)

namespace IoBooks

def start (registry : Registry) : IoBooks := ⟨registry, registry.datagrams, fun _ => none, []⟩

def register (s : IoBooks) (limit : ℕ) (owner : IoOwner) (table : Table) : IoBooks :=
  let r := s.registry.register table limit
  { s with
    registry := r.2
    held := match r.1 with
      | .ok handle => Function.update s.held owner (some (table, handle))
      | .error _ => s.held
    answers := s.answers ++ [r.1] }

def close (s : IoBooks) (owner : IoOwner) : IoBooks :=
  match s.held owner with
  | some (table, handle) =>
    { s with registry := s.registry.remove handle table, held := Function.update s.held owner none }
  | none => s

def closePort (s : IoBooks) (handle : Handle) : IoBooks :=
  if handle ∈ s.ports then { s with registry := s.registry.remove handle .datagrams, ports := s.ports.erase handle }
  else s

/-- A session or flow registers a handle only where it may hold one and does not. -/
def step (owners : List IoOwner) (limit : ℕ) (s : IoBooks) : IoStep → IoBooks
  | .register owner table => if owner ∈ owners ∧ s.held owner = none then s.register limit owner table else s
  | .close owner => s.close owner
  | .closePort handle => s.closePort handle
  | .elsewhere count => { s with registry := { s.registry with next := s.registry.next + count } }

end IoBooks

def entries (r : Registry) : List TableHandle := r.streams.map (.streams, ·) ++ r.datagrams.map (.datagrams, ·)

theorem mem_entries {r : Registry} {x : TableHandle} : x ∈ entries r ↔ x.2 ∈ r.handles x.1 := by
  obtain ⟨table, handle⟩ := x
  cases table <;> simp [entries, Registry.handles]

theorem entries_nodup {r : Registry} (h : ∀ table, (r.handles table).Nodup) : (entries r).Nodup := by
  refine List.nodup_append.mpr ⟨?_, ?_, ?_⟩
  · exact (h .streams).map fun a b hab => (Prod.mk.inj hab).2
  · exact (h .datagrams).map fun a b hab => (Prod.mk.inj hab).2
  · rintro x hx y hy rfl
    obtain ⟨a, -, rfl⟩ := List.mem_map.mp hx
    obtain ⟨b, -, hb⟩ := List.mem_map.mp hy
    cases hb

theorem register_limit {r : Registry} (table : Table) {limit : ℕ} (hroom : (entries r).length < limit) :
    (r.register table limit).1 ≠ .error .limit := by
  have hsize : r.streams.length + r.datagrams.length < limit := by
    simpa [entries] using hroom
  unfold Registry.register
  dsimp only
  rw [if_neg (by omega)]
  split
  · simp
  · have hsum : ¬ limit ≤ Mux.saturatingAdd r.streams.length r.datagrams.length := by
      unfold Mux.saturatingAdd
      omega
    rw [if_neg hsum]
    simp

namespace IoBooks

def listed (owners : List IoOwner) (s : IoBooks) : List TableHandle :=
  s.ports.map (.datagrams, ·) ++ owners.filterMap s.held

structure Covered (owners : List IoOwner) (ports : ℕ) (s : IoBooks) : Prop where
  nodup : ∀ table, (s.registry.handles table).Nodup
  covered : entries s.registry ⊆ s.listed owners
  ports : s.ports.length ≤ ports
  answers : .error .limit ∉ s.answers

theorem filterMap_room {owners : List IoOwner} {held : IoOwner → Option TableHandle} {owner : IoOwner}
    (hmem : owner ∈ owners) (hnone : held owner = none) : (owners.filterMap held).length < owners.length := by
  refine Nat.lt_of_le_of_ne (List.length_filterMap_le _ _) ?_
  intro hall
  have hsome := List.filterMap_length_eq_length.mp hall owner hmem
  rw [hnone] at hsome
  cases hsome

theorem Covered.room {owners : List IoOwner} {ports limit : ℕ} {s : IoBooks} (h : s.Covered owners ports)
    (hlimit : ports + owners.length ≤ limit) {owner : IoOwner} (hmem : owner ∈ owners) (hnone : s.held owner = none) :
    (entries s.registry).length < limit := by
  have hle := (List.subperm_of_subset (entries_nodup h.nodup) h.covered).length_le
  have hroom := filterMap_room hmem hnone
  have hports := h.ports
  rw [listed, List.length_append, List.length_map] at hle
  omega

theorem mem_listed {owners : List IoOwner} {s : IoBooks} {x : TableHandle} :
    x ∈ s.listed owners ↔ (x.1 = .datagrams ∧ x.2 ∈ s.ports) ∨ ∃ owner ∈ owners, s.held owner = some x := by
  obtain ⟨table, handle⟩ := x
  rw [listed, List.mem_append, List.mem_filterMap]
  apply or_congr_left
  cases table <;> simp

theorem nodup_remove {r : Registry} (h : ∀ table, (r.handles table).Nodup) (x : TableHandle) (table : Table) :
    ((r.remove x.2 x.1).handles table).Nodup := by
  rw [Registry.handles_remove]
  split
  · exact (h x.1).erase x.2
  · exact h table

theorem entries_remove {r : Registry} (h : ∀ table, (r.handles table).Nodup) {x y : TableHandle}
    (hy : y ∈ entries (r.remove x.2 x.1)) : y ∈ entries r ∧ y ≠ x := by
  rw [mem_entries, Registry.handles_remove] at hy
  rw [mem_entries]
  split at hy
  · rename_i htable
    rw [(h x.1).mem_erase_iff] at hy
    refine ⟨htable ▸ hy.2, ?_⟩
    rintro rfl
    exact hy.1 rfl
  · rename_i htable
    refine ⟨hy, ?_⟩
    rintro rfl
    exact htable rfl

theorem Covered.register {owners : List IoOwner} {ports limit : ℕ} {s : IoBooks} (h : s.Covered owners ports)
    (hlimit : ports + owners.length ≤ limit) {owner : IoOwner} (hmem : owner ∈ owners) (hnone : s.held owner = none)
    (table : Table) : (s.register limit owner table).Covered owners ports := by
  have hanswer := register_limit table (h.room hlimit hmem hnone)
  unfold IoBooks.register
  rcases s.registry.register_cases table limit with ⟨e, next, hreg, -⟩ | hreg <;> rw [hreg] at hanswer ⊢
  · refine ⟨h.nodup, h.covered, h.ports, ?_⟩
    rw [List.mem_append, List.mem_singleton]
    rintro (hold | hnew)
    · exact h.answers hold
    · exact hanswer hnew.symm
  · refine ⟨?_, ?_, h.ports, ?_⟩
    · intro other
      dsimp only
      rw [Registry.handles_insert]
      split
      · exact (h.nodup table).insert
      · exact h.nodup other
    · intro x hx
      rw [mem_listed]
      by_cases hnew : x = (table, s.registry.next)
      · subst hnew
        exact .inr ⟨owner, hmem, Function.update_self _ _ _⟩
      have hold : x ∈ entries s.registry := by
        rw [mem_entries, Registry.handles_insert] at hx
        rw [mem_entries]
        split at hx
        · rename_i htable
          rcases List.mem_insert_iff.mp hx with heq | hx
          · exact absurd (Prod.ext htable heq) hnew
          · rw [htable]
            exact hx
        · exact hx
      rcases mem_listed.mp (h.covered hold) with hport | ⟨other, hother, hheld⟩
      · exact .inl hport
      · refine .inr ⟨other, hother, ?_⟩
        dsimp only
        rw [Function.update_of_ne, hheld]
        rintro rfl
        rw [hnone] at hheld
        cases hheld
    · rw [List.mem_append, List.mem_singleton]
      rintro (hold | hnew)
      · exact h.answers hold
      · exact hanswer hnew.symm

theorem Covered.close {owners : List IoOwner} {ports : ℕ} {s : IoBooks} (h : s.Covered owners ports)
    (owner : IoOwner) : (s.close owner).Covered owners ports := by
  unfold IoBooks.close
  split
  · rename_i table handle hheld
    refine ⟨nodup_remove h.nodup (table, handle), ?_, h.ports, h.answers⟩
    intro y hleft
    obtain ⟨hbefore, hne⟩ := entries_remove (x := (table, handle)) h.nodup hleft
    rw [mem_listed]
    rcases mem_listed.mp (h.covered hbefore) with hport | ⟨other, hother, hy⟩
    · exact .inl hport
    · refine .inr ⟨other, hother, ?_⟩
      dsimp only
      rw [Function.update_of_ne, hy]
      rintro rfl
      rw [hheld] at hy
      exact hne (Option.some.inj hy).symm
  · exact h

theorem Covered.closePort {owners : List IoOwner} {ports : ℕ} {s : IoBooks} (h : s.Covered owners ports)
    (handle : Handle) : (s.closePort handle).Covered owners ports := by
  unfold IoBooks.closePort
  split
  · refine ⟨nodup_remove h.nodup (.datagrams, handle), ?_, ?_, h.answers⟩
    · intro y hy
      obtain ⟨hy, hne⟩ := entries_remove (x := (.datagrams, handle)) h.nodup hy
      rw [mem_listed]
      rcases mem_listed.mp (h.covered hy) with ⟨htable, hport⟩ | hheld
      · refine .inl ⟨htable, (List.mem_erase_of_ne ?_).mpr hport⟩
        intro heq
        exact hne (Prod.ext htable heq)
      · exact .inr hheld
    · exact (List.length_erase_le).trans h.ports
  · exact h

theorem Covered.step {owners : List IoOwner} {ports limit : ℕ} {s : IoBooks} (h : s.Covered owners ports)
    (hlimit : ports + owners.length ≤ limit) (label : IoStep) : (s.step owners limit label).Covered owners ports := by
  cases label with
  | register owner table =>
    rw [IoBooks.step]
    split
    · rename_i hfree
      exact h.register hlimit hfree.1 hfree.2 table
    · exact h
  | close owner => exact h.close owner
  | closePort handle => exact h.closePort handle
  | elsewhere count => exact ⟨h.nodup, h.covered, h.ports, h.answers⟩

end IoBooks

theorem ioOwners_length (tunnels streams : ℕ) :
    (ioOwners tunnels streams).length = tunnels * (1 + 3 * (streams - 1)) := by
  have hflow (tunnel flow : ℕ) : (flowOwners tunnel flow).length = 3 := rfl
  have hsession (tunnel : ℕ) : (sessionOwners streams tunnel).length = 1 + 3 * (streams - 1) := by
    rw [sessionOwners, List.length_cons, List.length_flatMap]
    simp [hflow]
    omega
  rw [ioOwners, List.length_flatMap]
  simp [hsession]

def spareHandles (config : Config) (limit : ℕ) : ℕ :=
  limit - config.tunnels.length * (1 + 3 * (config.yamux.maxStreamsPerSession - 1))

theorem sessions_within_limit {config : Config} (hvalid : config.validate = .ok ()) {limit : ℕ}
    (hlimit : coreIoLimit config = some limit) (htunnels : config.tunnels.length ≤ config.engine.maxSessions) :
    config.tunnels.length * (1 + 3 * (config.yamux.maxStreamsPerSession - 1)) ≤ limit := by
  have hflows := (Config.validate_ok hvalid).yamux.flows
  simp only [coreIoLimit, Option.bind_eq_bind, Option.bind_eq_some_iff] at hlimit
  obtain ⟨flows, hthree, hsum⟩ := hlimit
  obtain ⟨-, rfl⟩ := Configuration.checkedMul_eq_some.mp hthree
  rw [checkedAdd_eq_some hsum]
  calc config.tunnels.length * (1 + 3 * (config.yamux.maxStreamsPerSession - 1))
      ≤ config.engine.maxSessions * (1 + 3 * (config.yamux.maxStreamsPerSession - 1)) :=
        Nat.mul_le_mul_right _ htunnels
    _ = config.engine.maxSessions + config.engine.maxSessions * (config.yamux.maxStreamsPerSession - 1) * 3 := by
        rw [Nat.mul_add, Nat.mul_one, Nat.mul_left_comm, Nat.mul_comm 3]
    _ ≤ config.engine.maxSessions + config.engine.maxFlows * 3 := by omega

theorem attachPorts_ports {attach : ℕ → PacketPortAnswer} {limit : ℕ} {r registry : Registry} {adapters : List ℕ}
    (hnodup : r.datagrams.Nodup) (h : attachPorts attach limit r adapters = (.ok (), registry)) :
    registry.streams = r.streams ∧ registry.datagrams.Nodup ∧
      registry.datagrams.length ≤ r.datagrams.length + (adapters.filter fun a => (attach a).isAttached).length := by
  induction adapters generalizing r with
  | nil =>
    cases h
    exact ⟨rfl, hnodup, Nat.le_refl _⟩
  | cons adapter adapters ih =>
    rw [attachPorts] at h
    rcases r.register_cases .datagrams limit with ⟨e, next, hreg, -⟩ | hreg <;> rw [hreg] at h
    · cases h
    · have hinserted : (r.datagrams.insert r.next).Nodup := hnodup.insert
      have hlength : (r.datagrams.insert r.next).length ≤ r.datagrams.length + 1 := by
        rw [List.length_insert]
        split <;> omega
      cases hattach : attach adapter with
      | attached =>
        rw [hattach] at h
        obtain ⟨hstreams, hrest, hle⟩ := ih hinserted h
        refine ⟨hstreams, hrest, ?_⟩
        rw [List.filter_cons_of_pos (by rw [hattach]; rfl), List.length_cons]
        change registry.datagrams.length ≤ (r.datagrams.insert r.next).length + _ at hle
        omega
      | unsupported =>
        rw [hattach] at h
        obtain ⟨hstreams, hrest, hle⟩ := ih (hinserted.erase r.next) h
        refine ⟨hstreams, hrest, ?_⟩
        rw [List.filter_cons_of_neg (by rw [hattach]; simp [PacketPortAnswer.isAttached])]
        change registry.datagrams.length ≤ ((r.datagrams.insert r.next).erase r.next).length + _ at hle
        rw [List.length_erase_of_mem List.mem_insert_self] at hle
        omega
      | failed error =>
        rw [hattach] at h
        cases h

/-- If no more packet ports are taken than the limit of the tunnels has to spare, no registration of
a session or flow meets the limit, in any order of registrations and closings. -/
theorem tunnel_limit_suffices (config : Config) (hvalid : config.validate = .ok ()) {limit : ℕ}
    (hlimit : coreIoLimit config = some limit) (htunnels : config.tunnels.length ≤ config.engine.maxSessions)
    {attach : ℕ → PacketPortAnswer} {packetLimit : ℕ} {next : Handle} {adapters : List ℕ} {registry : Registry}
    (hstart : attachPorts attach packetLimit ⟨next, [], []⟩ adapters = (.ok (), registry))
    (hports : (adapters.filter fun a => (attach a).isAttached).length ≤ spareHandles config limit)
    (steps : List IoStep) :
    .error .limit ∉ (run (IoBooks.step (ioOwners config.tunnels.length config.yamux.maxStreamsPerSession) limit)
      (IoBooks.start registry) steps).answers := by
  have hsessions := sessions_within_limit hvalid hlimit htunnels
  obtain ⟨hstreams, hnodup, hlength⟩ := attachPorts_ports List.nodup_nil hstart
  have hroom : registry.datagrams.length +
      (ioOwners config.tunnels.length config.yamux.maxStreamsPerSession).length ≤ limit := by
    rw [ioOwners_length]
    unfold spareHandles at hports
    rw [List.length_nil] at hlength
    omega
  have hfresh : (IoBooks.start registry).Covered
      (ioOwners config.tunnels.length config.yamux.maxStreamsPerSession) registry.datagrams.length := by
    refine ⟨?_, ?_, Nat.le_refl _, List.not_mem_nil⟩
    · intro table
      cases table with
      | streams =>
        change registry.streams.Nodup
        rw [hstreams]
        exact List.nodup_nil
      | datagrams => exact hnodup
    · intro x hx
      rw [IoBooks.mem_listed]
      obtain ⟨table, handle⟩ := x
      rw [mem_entries] at hx
      cases table with
      | streams =>
        change handle ∈ registry.streams at hx
        rw [hstreams] at hx
        exact absurd hx List.not_mem_nil
      | datagrams => exact .inl ⟨rfl, hx⟩
  exact (run_always (IoBooks.Covered _ _) (fun s label h => h.step hroom label) hfresh steps).answers

/-- The one session of the small configuration opens its policy stream and one flow. -/
def fullSession : List IoStep :=
  [.register (.policy 0) .streams, .register (.flow 0 0 0) .streams, .register (.flow 0 0 1) .streams,
    .register (.flow 0 0 2) .streams]

theorem portless_session_registers :
    .error .limit ∉ (run (IoBooks.step (ioOwners 1 2) 4) (IoBooks.start ⟨2, [], []⟩) fullSession).answers :=
  @tunnel_limit_suffices (Configuration.smallConfig 1048576 16384 (by decide) (by decide))
    (Configuration.smallConfig_valid (by decide) (by decide)) 4 (by decide) (by decide)
    (fun _ => .unsupported) 5 1 [0] _ (by rfl) (by decide) fullSession

/-- One adapter takes its packet port, and the last handle of the only flow is refused. -/
theorem packet_port_takes_room :
    (Configuration.smallConfig 1048576 16384 (by decide) (by decide)).validate = .ok () ∧
    coreIoLimit (Configuration.smallConfig 1048576 16384 (by decide) (by decide)) = some 4 ∧
    attachPorts (fun _ => .attached) 5 ⟨1, [], []⟩ [0] = (.ok (), ⟨2, [], [1]⟩) ∧
    (run (IoBooks.step (ioOwners 1 2) 4) (IoBooks.start ⟨2, [], [1]⟩) fullSession).answers =
      [.ok 2, .ok 3, .ok 4, .error .limit] :=
  ⟨Configuration.smallConfig_valid (by decide) (by decide), by decide, rfl, by decide⟩

end Snolc.Engine
