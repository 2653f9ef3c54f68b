import Snolc.StackBridge

set_option autoImplicit false

namespace Snolc.Stack
open CheckedSlice Handles

def dynamicPorts : List ℕ := List.range' firstDynamicPort (65536 - firstDynamicPort)

/-- The ports held and the ports available make up the dynamic range. -/
structure PortsOk (held : List ℕ) (pool : PortPool) : Prop where
  share : (held ++ pool.available).Perm dynamicPorts
  length : pool.allocated.length = 65536
  marked : ∀ port : ℕ, pool.allocated[port]? = some true ↔ port ∈ held

theorem mem_dynamicPorts {port : ℕ} : port ∈ dynamicPorts ↔ 1024 ≤ port ∧ port < 65536 := by
  simp only [dynamicPorts, firstDynamicPort, List.mem_range'_1]

namespace PortsOk

variable {held held' : List ℕ} {pool : PortPool}

theorem new : PortsOk [] PortPool.new where
  share := List.Perm.refl _
  length := List.length_replicate
  marked port := by
    have hget : PortPool.new.allocated[port]? = if port < 65536 then some false else none :=
      List.getElem?_replicate
    rw [hget]
    split <;> simp

theorem perm (h : PortsOk held pool) (hp : held.Perm held') : PortsOk held' pool where
  share := (hp.symm.append_right _).trans h.share
  length := h.length
  marked port := (h.marked port).trans hp.mem_iff

theorem nodup (h : PortsOk held pool) : (held ++ pool.available).Nodup :=
  h.share.nodup_iff.mpr List.nodup_range'

theorem range (h : PortsOk held pool) {port : ℕ} (hp : port ∈ held ++ pool.available) :
    1024 ≤ port ∧ port < 65536 :=
  mem_dynamicPorts.mp (h.share.mem_iff.mp hp)

theorem allocate (h : PortsOk held pool) :
    pool.allocate = some (.error .portLimit) ∨
    ∃ pool' port, pool.allocate = some (.ok (pool', port)) ∧ PortsOk (port :: held) pool' := by
  unfold PortPool.allocate
  cases hav : pool.available with
  | nil => exact .inl rfl
  | cons port rest =>
    right
    have hmem : port ∈ held ++ pool.available := by simp [hav]
    have hlt : port < pool.allocated.length := by
      rw [h.length]
      exact (h.range hmem).2
    refine ⟨⟨rest, pool.allocated.set port true⟩, port, by simp [setAt_of_lt true hlt], ?_, ?_, ?_⟩
    · have hshare := h.share
      rw [hav] at hshare
      exact List.perm_middle.symm.trans hshare
    · exact List.length_set.trans h.length
    · intro p
      rw [List.getElem?_set, List.mem_cons]
      by_cases hp : port = p
      · subst hp
        simp [hlt]
      · rw [if_neg hp, h.marked]
        exact ⟨.inr, fun hor => hor.resolve_left (Ne.symm hp)⟩

theorem release {port : ℕ} (h : PortsOk (port :: held) pool) :
    ∃ pool', pool.release port = some (.ok pool') ∧ PortsOk held pool' := by
  have hmem : port ∈ port :: held ++ pool.available := by simp
  obtain ⟨hlow, hhigh⟩ := h.range hmem
  have hlt : port < pool.allocated.length := by rw [h.length]; exact hhigh
  have hmarked := (h.marked port).mpr List.mem_cons_self
  have hnd := h.nodup
  have hnot : port ∉ held := by
    intro hp
    exact (List.nodup_cons.mp hnd).1 (List.mem_append_left _ hp)
  refine ⟨⟨pool.available ++ [port], pool.allocated.set port false⟩, ?_, ?_, ?_, ?_⟩
  · have hge : ¬ port < firstDynamicPort := by
      have : firstDynamicPort = 1024 := rfl
      omega
    simp [PortPool.release, hge, hmarked, setAt_of_lt false hlt]
  · refine List.Perm.trans ?_ h.share
    rw [← List.append_assoc]
    exact List.perm_append_comm
  · exact List.length_set.trans h.length
  · intro p
    rw [List.getElem?_set]
    by_cases hp : port = p
    · subst hp
      simp [hlt, hnot]
    · rw [if_neg hp, h.marked, List.mem_cons]
      exact ⟨fun hor => hor.resolve_left (Ne.symm hp), .inr⟩

end PortsOk

section Sockets

variable {W T U : Type}

structure SocketsOk (tcp udp : List ℕ) (set : SocketSet T U) : Prop where
  nodup : (tcp ++ udp).Nodup
  tcp : ∀ i ∈ tcp, (set.tcpAt i).isSome
  udp : ∀ i ∈ udp, (set.udpAt i).isSome

theorem slot_set (set : SocketSet T U) (i j : ℕ) (entry : Option (Socket T U))
    (hi : i < set.length) :
    SlotTable.slot (set.set i entry) j = if i = j then entry else SlotTable.slot set j := by
  unfold SlotTable.slot
  rw [List.getElem?_set]
  by_cases hj : i = j
  · rw [if_pos hj, if_pos hj, if_pos hi]
    rfl
  · rw [if_neg hj, if_neg hj]

theorem slot_add (set : SocketSet T U) (socket : Socket T U) :
    SlotTable.slot set (set.add socket).2 = none ∧
    ∀ j, SlotTable.slot (set.add socket).1 j =
      if (set.add socket).2 = j then some socket else SlotTable.slot set j := by
  unfold SocketSet.add
  cases hfind : set.findIdx? Option.isNone with
  | some i =>
    obtain ⟨hlt, hnone, -⟩ := List.findIdx?_eq_some_iff_getElem.mp hfind
    refine ⟨?_, fun j => slot_set set i j (some socket) hlt⟩
    simp only [SlotTable.slot, List.getElem?_eq_getElem hlt]
    simpa using hnone
  | none =>
    refine ⟨by simp [SlotTable.slot], fun j => ?_⟩
    simp only [SlotTable.slot]
    by_cases hj : set.length = j
    · subst hj
      rw [if_pos rfl, List.getElem?_concat_length]
      rfl
    · rw [if_neg hj]
      rcases Nat.lt_or_ge j set.length with hlt | hge
      · rw [List.getElem?_append_left hlt]
      · rw [List.getElem?_eq_none (by simp; omega), List.getElem?_eq_none hge]

theorem tcpAt_isSome {set : SocketSet T U} {i : ℕ} :
    (set.tcpAt i).isSome ↔ ∃ socket, SlotTable.slot set i = some (.tcp socket) := by
  unfold SocketSet.tcpAt
  split
  · next socket h => simp [h]
  · next h =>
    simp only [Option.isSome_none, Bool.false_eq_true, false_iff, not_exists]
    exact h

theorem udpAt_isSome {set : SocketSet T U} {i : ℕ} :
    (set.udpAt i).isSome ↔ ∃ socket, SlotTable.slot set i = some (.udp socket) := by
  unfold SocketSet.udpAt
  split
  · next socket h => simp [h]
  · next h =>
    simp only [Option.isSome_none, Bool.false_eq_true, false_iff, not_exists]
    exact h

theorem lt_of_slot {set : SocketSet T U} {i : ℕ} {socket : Socket T U}
    (h : SlotTable.slot set i = some socket) : i < set.length :=
  SlotTable.Occupied.lt_length (by rw [SlotTable.Occupied, h]; rfl)

theorem slot_remove {set set' : SocketSet T U} {i j : ℕ} (h : set.remove i = some set')
    (hj : j ≠ i) : SlotTable.slot set' j = SlotTable.slot set j := by
  unfold SocketSet.remove at h
  split at h
  · cases h
  · next socket hs =>
    cases h
    rw [slot_set set i j none (lt_of_slot hs), if_neg (Ne.symm hj)]

theorem tcpAt_setTcp {set : SocketSet T U} {i : ℕ} (hi : (set.tcpAt i).isSome)
    (socket : TcpSocket T) : (set.setTcp i socket).tcpAt i = some socket := by
  obtain ⟨old, hold⟩ := tcpAt_isSome.mp hi
  rw [SocketSet.tcpAt, SocketSet.setTcp, slot_set _ _ _ _ (lt_of_slot hold), if_pos rfl]

theorem udpAt_setUdp {set : SocketSet T U} {i : ℕ} (hi : (set.udpAt i).isSome)
    (socket : UdpSocket U) : (set.setUdp i socket).udpAt i = some socket := by
  obtain ⟨old, hold⟩ := udpAt_isSome.mp hi
  rw [SocketSet.udpAt, SocketSet.setUdp, slot_set _ _ _ _ (lt_of_slot hold), if_pos rfl]

def SameKinds (set set' : SocketSet T U) (i : ℕ) : Prop :=
  ((set'.tcpAt i).isSome ↔ (set.tcpAt i).isSome) ∧ ((set'.udpAt i).isSome ↔ (set.udpAt i).isSome)

theorem sameKinds_of_slot {set set' : SocketSet T U} {i : ℕ}
    (h : SlotTable.slot set' i = SlotTable.slot set i) : SameKinds set set' i := by
  simp only [SameKinds, SocketSet.tcpAt, SocketSet.udpAt, h, iff_self, and_self]

theorem sameKinds_setTcp {set : SocketSet T U} {i : ℕ} (hi : (set.tcpAt i).isSome)
    (socket : TcpSocket T) (j : ℕ) : SameKinds set (set.setTcp i socket) j := by
  obtain ⟨old, hold⟩ := tcpAt_isSome.mp hi
  have hslot := slot_set set i j (some (.tcp socket)) (lt_of_slot hold)
  by_cases hj : i = j
  · subst hj
    rw [if_pos rfl] at hslot
    simp only [SameKinds, SocketSet.tcpAt, SocketSet.udpAt, SocketSet.setTcp, hslot, hold,
      Option.isSome_some, Option.isSome_none, iff_self, and_self]
  · rw [if_neg hj] at hslot
    exact sameKinds_of_slot hslot

theorem sameKinds_setUdp {set : SocketSet T U} {i : ℕ} (hi : (set.udpAt i).isSome)
    (socket : UdpSocket U) (j : ℕ) : SameKinds set (set.setUdp i socket) j := by
  obtain ⟨old, hold⟩ := udpAt_isSome.mp hi
  have hslot := slot_set set i j (some (.udp socket)) (lt_of_slot hold)
  by_cases hj : i = j
  · subst hj
    rw [if_pos rfl] at hslot
    simp only [SameKinds, SocketSet.tcpAt, SocketSet.udpAt, SocketSet.setUdp, hslot, hold,
      Option.isSome_some, Option.isSome_none, iff_self, and_self]
  · rw [if_neg hj] at hslot
    exact sameKinds_of_slot hslot

theorem slot_apply (r : Reaction W T U) (set : SocketSet T U) (i : ℕ) :
    SlotTable.slot (r.apply set) i = (SlotTable.slot set i).map fun socket =>
      match socket with
      | .tcp socket => .tcp (r.tcp i socket)
      | .udp socket => .udp (r.udp i socket) := by
  simp only [SlotTable.slot, Reaction.apply, List.getElem?_mapIdx]
  cases set[i]? with
  | none => rfl
  | some entry => cases entry <;> rfl

theorem udpAt_apply (r : Reaction W T U) {set : SocketSet T U} {i : ℕ} {socket : UdpSocket U}
    (h : set.udpAt i = some socket) : (r.apply set).udpAt i = some (r.udp i socket) := by
  unfold SocketSet.udpAt at h ⊢
  split at h
  · next hs =>
    cases h
    simp only [slot_apply, hs, Option.map_some]
  · cases h

theorem tcpAt_apply (r : Reaction W T U) {set : SocketSet T U} {i : ℕ} {socket : TcpSocket T}
    (h : set.tcpAt i = some socket) : (r.apply set).tcpAt i = some (r.tcp i socket) := by
  unfold SocketSet.tcpAt at h ⊢
  split at h
  · next hs =>
    cases h
    simp only [slot_apply, hs, Option.map_some]
  · cases h

theorem sameKinds_apply (r : Reaction W T U) (set : SocketSet T U) (i : ℕ) :
    SameKinds set (r.apply set) i := by
  simp only [SameKinds, SocketSet.tcpAt, SocketSet.udpAt, slot_apply]
  cases SlotTable.slot set i with
  | none => simp
  | some socket => cases socket <;> simp

namespace SocketsOk

variable {tcp udp tcp' udp' : List ℕ} {set set' : SocketSet T U}

theorem nil : SocketsOk [] [] ([] : SocketSet T U) where
  nodup := List.nodup_nil
  tcp _ h := nomatch h
  udp _ h := nomatch h

theorem perm (h : SocketsOk tcp udp set) (ht : tcp.Perm tcp') (hu : udp.Perm udp') :
    SocketsOk tcp' udp' set where
  nodup := (ht.append hu).nodup_iff.mp h.nodup
  tcp i hi := h.tcp i (ht.mem_iff.mpr hi)
  udp i hi := h.udp i (hu.mem_iff.mpr hi)

theorem sameKinds (h : SocketsOk tcp udp set) (hs : ∀ i, SameKinds set set' i) :
    SocketsOk tcp udp set' where
  nodup := h.nodup
  tcp i hi := (hs i).1.mpr (h.tcp i hi)
  udp i hi := (hs i).2.mpr (h.udp i hi)

theorem fresh (h : SocketsOk tcp udp set) {i : ℕ} (hi : SlotTable.slot set i = none) :
    i ∉ tcp ++ udp := by
  intro hm
  rcases List.mem_append.mp hm with ht | hu
  · obtain ⟨socket, hs⟩ := tcpAt_isSome.mp (h.tcp i ht)
    rw [hi] at hs
    cases hs
  · obtain ⟨socket, hs⟩ := udpAt_isSome.mp (h.udp i hu)
    rw [hi] at hs
    cases hs

theorem add_keeps (h : SocketsOk tcp udp set) (socket : Socket T U) :
    (∀ i ∈ tcp, ((set.add socket).1.tcpAt i).isSome) ∧
      ∀ i ∈ udp, ((set.add socket).1.udpAt i).isSome := by
  obtain ⟨hvacant, hslot⟩ := slot_add set socket
  have hnot := h.fresh hvacant
  have hsame : ∀ i ∈ tcp ++ udp, SameKinds set (set.add socket).1 i := by
    intro i hi
    refine sameKinds_of_slot ?_
    rw [hslot, if_neg]
    rintro rfl
    exact hnot hi
  exact ⟨fun i hi => (hsame i (List.mem_append_left _ hi)).1.mpr (h.tcp i hi),
    fun i hi => (hsame i (List.mem_append_right _ hi)).2.mpr (h.udp i hi)⟩

theorem addTcp (h : SocketsOk tcp udp set) (socket : TcpSocket T) :
    SocketsOk ((set.add (.tcp socket)).2 :: tcp) udp (set.add (.tcp socket)).1 ∧
      (set.add (.tcp socket)).1.tcpAt (set.add (.tcp socket)).2 = some socket := by
  obtain ⟨hvacant, hslot⟩ := slot_add set (.tcp socket)
  obtain ⟨htcp, hudp⟩ := h.add_keeps (.tcp socket)
  have hhere : (set.add (.tcp socket)).1.tcpAt (set.add (.tcp socket)).2 = some socket := by
    rw [SocketSet.tcpAt, hslot, if_pos rfl]
  refine ⟨⟨?_, fun i hi => ?_, hudp⟩, hhere⟩
  · exact List.nodup_cons.mpr ⟨h.fresh hvacant, h.nodup⟩
  · rcases List.mem_cons.mp hi with rfl | hi
    · rw [hhere]
      rfl
    · exact htcp i hi

theorem addUdp (h : SocketsOk tcp udp set) (socket : UdpSocket U) :
    SocketsOk tcp ((set.add (.udp socket)).2 :: udp) (set.add (.udp socket)).1 ∧
      (set.add (.udp socket)).1.udpAt (set.add (.udp socket)).2 = some socket := by
  obtain ⟨hvacant, hslot⟩ := slot_add set (.udp socket)
  obtain ⟨htcp, hudp⟩ := h.add_keeps (.udp socket)
  have hhere : (set.add (.udp socket)).1.udpAt (set.add (.udp socket)).2 = some socket := by
    rw [SocketSet.udpAt, hslot, if_pos rfl]
  refine ⟨⟨?_, htcp, fun i hi => ?_⟩, hhere⟩
  · exact List.perm_middle.nodup_iff.mpr (List.nodup_cons.mpr ⟨h.fresh hvacant, h.nodup⟩)
  · rcases List.mem_cons.mp hi with rfl | hi
    · rw [hhere]
      rfl
    · exact hudp i hi

theorem remove_keeps (h : SocketsOk tcp udp set) {i : ℕ} {socket : Socket T U}
    (hi : SlotTable.slot set i = some socket) (ht : i ∉ tcp) (hu : i ∉ udp) :
    set.remove i = some (set.set i none) ∧ SocketsOk tcp udp (set.set i none) := by
  refine ⟨by simp [SocketSet.remove, hi], h.nodup, fun j hj => ?_, fun j hj => ?_⟩
  · refine (sameKinds_of_slot ?_).1.mpr (h.tcp j hj)
    rw [slot_set set i j none (lt_of_slot hi), if_neg]
    rintro rfl
    exact ht hj
  · refine (sameKinds_of_slot ?_).2.mpr (h.udp j hj)
    rw [slot_set set i j none (lt_of_slot hi), if_neg]
    rintro rfl
    exact hu hj

theorem removeTcp {i : ℕ} (h : SocketsOk (i :: tcp) udp set) :
    ∃ set', set.remove i = some set' ∧ SocketsOk tcp udp set' := by
  obtain ⟨hnot, hnd⟩ := List.nodup_cons.mp h.nodup
  obtain ⟨socket, hs⟩ := tcpAt_isSome.mp (h.tcp i List.mem_cons_self)
  have hrest : SocketsOk tcp udp set :=
    ⟨hnd, fun j hj => h.tcp j (List.mem_cons_of_mem i hj), h.udp⟩
  obtain ⟨h1, h2⟩ := hrest.remove_keeps hs (fun hm => hnot (List.mem_append_left _ hm))
    (fun hm => hnot (List.mem_append_right _ hm))
  exact ⟨_, h1, h2⟩

theorem removeUdp {i : ℕ} (h : SocketsOk tcp (i :: udp) set) :
    ∃ set', set.remove i = some set' ∧ SocketsOk tcp udp set' := by
  obtain ⟨hnot, hnd⟩ := List.nodup_cons.mp (List.perm_middle.nodup_iff.mp h.nodup)
  obtain ⟨socket, hs⟩ := udpAt_isSome.mp (h.udp i List.mem_cons_self)
  have hrest : SocketsOk tcp udp set :=
    ⟨hnd, h.tcp, fun j hj => h.udp j (List.mem_cons_of_mem i hj)⟩
  obtain ⟨h1, h2⟩ := hrest.remove_keeps hs (fun hm => hnot (List.mem_append_left _ hm))
    (fun hm => hnot (List.mem_append_right _ hm))
  exact ⟨_, h1, h2⟩

theorem setTcp (h : SocketsOk tcp udp set) {i : ℕ} (hi : (set.tcpAt i).isSome)
    (socket : TcpSocket T) : SocketsOk tcp udp (set.setTcp i socket) :=
  h.sameKinds (sameKinds_setTcp hi socket)

theorem setUdp (h : SocketsOk tcp udp set) {i : ℕ} (hi : (set.udpAt i).isSome)
    (socket : UdpSocket U) : SocketsOk tcp udp (set.setUdp i socket) :=
  h.sameKinds (sameKinds_setUdp hi socket)

theorem apply (h : SocketsOk tcp udp set) (r : Reaction W T U) : SocketsOk tcp udp (r.apply set) :=
  h.sameKinds (sameKinds_apply r set)

end SocketsOk
end Sockets

/-- An index that gives for each tuple the live entry with that tuple, and a queue of
live entries. -/
structure Indexed {α τ : Type} (tuple : α → τ) (flows : HandleTable α) (byTuple : List (τ × Handle))
    (pending : List Handle) : Prop where
  sound : flows.Sound
  index : byTuple.Perm (flows.entries.map fun e => (tuple e.2, e.1))
  distinct : KeyedList.Distinct byTuple
  pending_nodup : pending.Nodup
  pending_live : ∀ h ∈ pending, ∃ a, flows.get h = some a

namespace Indexed

variable {α τ : Type} [DecidableEq τ] {tuple : α → τ} {flows flows' : HandleTable α}
  {byTuple : List (τ × Handle)} {pending : List Handle}

omit [DecidableEq τ] in
theorem nil (limit : ℕ) : Indexed tuple (HandleTable.new limit) [] [] where
  sound := HandleTable.new_sound limit
  index := List.Perm.refl _
  distinct := List.nodup_nil
  pending_nodup := List.nodup_nil
  pending_live _ h := nomatch h

omit [DecidableEq τ] in
theorem mem_index (h : Indexed tuple flows byTuple pending) {t : τ} {handle : Handle} :
    (t, handle) ∈ byTuple ↔ ∃ a, flows.get handle = some a ∧ tuple a = t := by
  rw [h.index.mem_iff, List.mem_map]
  constructor
  · rintro ⟨⟨handle', a⟩, he, heq⟩
    obtain ⟨rfl, rfl⟩ := Prod.mk.inj heq
    exact ⟨a, HandleTable.mem_entries.mp he, rfl⟩
  · rintro ⟨a, ha, rfl⟩
    exact ⟨(handle, a), HandleTable.mem_entries.mpr ha, rfl⟩

theorem get_index (h : Indexed tuple flows byTuple pending) {t : τ} {handle : Handle}
    (hg : KeyedList.get byTuple t = some handle) : ∃ a, flows.get handle = some a ∧ tuple a = t :=
  h.mem_index.mp (KeyedList.mem_of_get hg)

theorem insert (h : Indexed tuple flows byTuple pending) {a : α} {handle : Handle}
    (habsent : KeyedList.get byTuple (tuple a) = none) (hsound : flows'.Sound)
    (hentries : flows'.entries.Perm ((handle, a) :: flows.entries)) :
    Indexed tuple flows' (KeyedList.insert byTuple (tuple a) handle) pending where
  sound := hsound
  index := by
    rw [KeyedList.insert_absent (KeyedList.get_eq_none.mp habsent)]
    have hmap := hentries.map fun e : Handle × α => (tuple e.2, e.1)
    exact (h.index.cons _).trans hmap.symm
  distinct := by
    rw [KeyedList.insert_absent (KeyedList.get_eq_none.mp habsent)]
    exact h.distinct.cons (KeyedList.get_eq_none.mp habsent) handle
  pending_nodup := h.pending_nodup
  pending_live p hp := by
    obtain ⟨b, hb⟩ := h.pending_live p hp
    exact ⟨b, HandleTable.mem_entries.mp (hentries.mem_iff.mpr
      (List.mem_cons_of_mem _ (HandleTable.mem_entries.mpr hb)))⟩

omit [DecidableEq τ] in
theorem push (h : Indexed tuple flows byTuple pending) {handle : Handle} {a : α}
    (hget : flows.get handle = some a) (hnew : handle ∉ pending) :
    Indexed tuple flows byTuple (pending ++ [handle]) where
  sound := h.sound
  index := h.index
  distinct := h.distinct
  pending_nodup := by
    refine List.perm_append_comm.nodup_iff.mp ?_
    exact List.nodup_cons.mpr ⟨hnew, h.pending_nodup⟩
  pending_live p hp := by
    rcases List.mem_append.mp hp with hp | hp
    · exact h.pending_live p hp
    · rw [List.mem_singleton.mp hp]
      exact ⟨a, hget⟩

omit [DecidableEq τ] in
theorem pop {handle : Handle} (h : Indexed tuple flows byTuple (handle :: pending)) :
    Indexed tuple flows byTuple pending where
  sound := h.sound
  index := h.index
  distinct := h.distinct
  pending_nodup := (List.nodup_cons.mp h.pending_nodup).2
  pending_live p hp := h.pending_live p (List.mem_cons_of_mem handle hp)

omit [DecidableEq τ] in
theorem modify (h : Indexed tuple flows byTuple pending) {handle : Handle} {a : α} {f : α → α}
    (hget : flows.get handle = some a) (hf : tuple (f a) = tuple a) :
    Indexed tuple (flows.modify handle f) byTuple pending := by
  obtain ⟨hsound, -, rest, h1, h2⟩ := HandleTable.modify_spec h.sound hget f
  refine ⟨hsound, ?_, h.distinct, h.pending_nodup, fun p hp => ?_⟩
  · refine h.index.trans ((h1.map _).trans ?_)
    refine List.Perm.trans ?_ (h2.map _).symm
    simp [hf]
  · obtain ⟨b, hb⟩ := h.pending_live p hp
    rcases List.mem_cons.mp (h1.mem_iff.mp (HandleTable.mem_entries.mpr hb)) with heq | hrest
    · obtain ⟨rfl, rfl⟩ := Prod.mk.inj heq
      exact ⟨f b, HandleTable.mem_entries.mp (h2.mem_iff.mpr List.mem_cons_self)⟩
    · exact ⟨b, HandleTable.mem_entries.mp (h2.mem_iff.mpr (List.mem_cons_of_mem _ hrest))⟩

theorem remove (h : Indexed tuple flows byTuple pending) {handle : Handle} {a : α}
    (hget : flows.get handle = some a) (hsound : flows'.Sound)
    (hentries : flows.entries.Perm ((handle, a) :: flows'.entries)) :
    Indexed tuple flows' (KeyedList.remove byTuple (tuple a))
      (pending.filter fun p => decide (p ≠ handle)) where
  sound := hsound
  index := by
    have hmem : (tuple a, handle) ∈ byTuple := h.mem_index.mpr ⟨a, hget, rfl⟩
    have h1 := KeyedList.perm_remove h.distinct hmem
    exact List.Perm.cons_inv (h1.symm.trans (h.index.trans (hentries.map _)))
  distinct := h.distinct.remove (tuple a)
  pending_nodup := h.pending_nodup.filter _
  pending_live p hp := by
    obtain ⟨hp, hne⟩ := List.mem_filter.mp hp
    obtain ⟨b, hb⟩ := h.pending_live p hp
    rcases List.mem_cons.mp (hentries.mem_iff.mp (HandleTable.mem_entries.mpr hb)) with heq | hrest
    · exact absurd (Prod.mk.inj heq).1 (of_decide_eq_true hne)
    · exact ⟨b, HandleTable.mem_entries.mp hrest⟩

end Indexed

def destined (destination : IpEndpoint) (e : Handle × PacketUdpFlow) : Bool :=
  decide (e.2.tuple.destination = destination)

/-- Every flow has its group, and a group counts its flows. -/
structure Grouped (flows : HandleTable PacketUdpFlow)
    (groups : List (IpEndpoint × PacketUdpGroup)) : Prop where
  distinct : KeyedList.Distinct groups
  grouped : ∀ e ∈ flows.entries, ∃ group, (e.2.tuple.destination, group) ∈ groups
  counted : ∀ destination group, (destination, group) ∈ groups →
    group.flows = flows.entries.countP (destined destination)

namespace Grouped

variable {flows flows' : HandleTable PacketUdpFlow} {groups : List (IpEndpoint × PacketUdpGroup)}
  {handle : Handle} {flow : PacketUdpFlow} {group : PacketUdpGroup}

theorem nil (limit : ℕ) : Grouped (HandleTable.new limit) [] where
  distinct := List.nodup_nil
  grouped _ h := nomatch h
  counted _ _ h := nomatch h

theorem create (h : Grouped flows groups) {destination : IpEndpoint}
    (habsent : KeyedList.get groups destination = none) (socket managedBytes : ℕ) :
    Grouped flows (KeyedList.insert groups destination ⟨socket, managedBytes, 0⟩) := by
  have hno := KeyedList.get_eq_none.mp habsent
  rw [KeyedList.insert_absent hno]
  refine ⟨h.distinct.cons hno _, fun e he => ?_, fun d g hg => ?_⟩
  · obtain ⟨g, hg⟩ := h.grouped e he
    exact ⟨g, List.mem_cons_of_mem _ hg⟩
  · rcases List.mem_cons.mp hg with heq | hg
    · obtain ⟨rfl, rfl⟩ := Prod.mk.inj heq
      symm
      rw [List.countP_eq_zero]
      intro e he hd
      obtain ⟨g, hg⟩ := h.grouped e he
      rw [of_decide_eq_true hd] at hg
      exact hno g hg
    · exact h.counted d g hg

theorem join (h : Grouped flows groups) (hg : (flow.tuple.destination, group) ∈ groups)
    (hentries : flows'.entries.Perm ((handle, flow) :: flows.entries)) :
    Grouped flows' (KeyedList.modify groups flow.tuple.destination fun group =>
      { group with flows := group.flows + 1 }) := by
  refine ⟨h.distinct.modify _ _, fun e he => ?_, fun d g hm => ?_⟩
  · have hex : ∃ g, (e.2.tuple.destination, g) ∈ groups := by
      rcases List.mem_cons.mp (hentries.mem_iff.mp he) with rfl | he
      · exact ⟨group, hg⟩
      · exact h.grouped e he
    obtain ⟨g, hg'⟩ := hex
    by_cases hd : e.2.tuple.destination = flow.tuple.destination
    · exact ⟨_, (KeyedList.mem_modify h.distinct hg).mpr (.inl ⟨hd, rfl⟩)⟩
    · exact ⟨g, (KeyedList.mem_modify h.distinct hg).mpr (.inr ⟨hd, hg'⟩)⟩
  · rw [hentries.countP_eq, List.countP_cons]
    rcases (KeyedList.mem_modify h.distinct hg).mp hm with ⟨rfl, rfl⟩ | ⟨hd, hm⟩
    · have hd : destined flow.tuple.destination (handle, flow) = true := decide_eq_true rfl
      rw [if_pos hd]
      exact congrArg (· + 1) (h.counted _ _ hg)
    · rw [if_neg fun heq => hd (of_decide_eq_true heq).symm]
      exact h.counted d g hm

theorem change (h : Grouped flows groups) (hs : flows.Sound) (hget : flows.get handle = some flow)
    {f : PacketUdpFlow → PacketUdpFlow} (hf : (f flow).tuple = flow.tuple) :
    Grouped (flows.modify handle f) groups := by
  obtain ⟨-, -, rest, h1, h2⟩ := HandleTable.modify_spec hs hget f
  refine ⟨h.distinct, fun e he => ?_, fun d g hg => ?_⟩
  · rcases List.mem_cons.mp (h2.mem_iff.mp he) with rfl | he
    · rw [hf]
      exact h.grouped (handle, flow) (h1.mem_iff.mpr List.mem_cons_self)
    · exact h.grouped e (h1.mem_iff.mpr (List.mem_cons_of_mem _ he))
  · have hsame : destined d (handle, f flow) = destined d (handle, flow) := by
      simp only [destined, hf]
    rw [h.counted d g hg, h1.countP_eq, h2.countP_eq, List.countP_cons, List.countP_cons, hsame]

theorem count_pos (h : Grouped flows groups) (hg : (flow.tuple.destination, group) ∈ groups)
    (hentries : flows.entries.Perm ((handle, flow) :: flows'.entries)) :
    group.flows = flows'.entries.countP (destined flow.tuple.destination) + 1 := by
  have hd : destined flow.tuple.destination (handle, flow) = true := decide_eq_true rfl
  rw [h.counted _ _ hg, hentries.countP_eq, List.countP_cons, if_pos hd]

theorem leave (h : Grouped flows groups) (hg : (flow.tuple.destination, group) ∈ groups)
    (hentries : flows.entries.Perm ((handle, flow) :: flows'.entries)) :
    Grouped flows' (KeyedList.modify groups flow.tuple.destination fun group =>
      { group with flows := group.flows - 1 }) := by
  refine ⟨h.distinct.modify _ _, fun e he => ?_, fun d g hm => ?_⟩
  · obtain ⟨g, hg'⟩ := h.grouped e (hentries.mem_iff.mpr (List.mem_cons_of_mem _ he))
    by_cases hd : e.2.tuple.destination = flow.tuple.destination
    · exact ⟨_, (KeyedList.mem_modify h.distinct hg).mpr (.inl ⟨hd, rfl⟩)⟩
    · exact ⟨g, (KeyedList.mem_modify h.distinct hg).mpr (.inr ⟨hd, hg'⟩)⟩
  · rcases (KeyedList.mem_modify h.distinct hg).mp hm with ⟨rfl, rfl⟩ | ⟨hd, hm⟩
    · have hcount := h.count_pos hg hentries
      simp only [hcount]
      omega
    · rw [h.counted d g hm, hentries.countP_eq, List.countP_cons,
        if_neg fun heq => hd (of_decide_eq_true heq).symm]
      rfl

theorem leaveLast (h : Grouped flows groups) (hg : (flow.tuple.destination, group) ∈ groups)
    (hentries : flows.entries.Perm ((handle, flow) :: flows'.entries))
    (hlast : group.flows - 1 = 0) :
    Grouped flows' (KeyedList.remove groups flow.tuple.destination) := by
  have hcount := h.count_pos hg hentries
  refine ⟨h.distinct.remove _, fun e he => ?_, fun d g hm => ?_⟩
  · obtain ⟨g, hg'⟩ := h.grouped e (hentries.mem_iff.mpr (List.mem_cons_of_mem _ he))
    refine ⟨g, KeyedList.mem_remove.mpr ⟨fun hd => ?_, hg'⟩⟩
    have hzero : flows'.entries.countP (destined flow.tuple.destination) = 0 := by omega
    exact List.countP_eq_zero.mp hzero e he (decide_eq_true hd)
  · obtain ⟨hd, hm⟩ := KeyedList.mem_remove.mp hm
    rw [h.counted d g hm, hentries.countP_eq, List.countP_cons,
      if_neg fun heq => hd (of_decide_eq_true heq).symm]
    rfl

end Grouped
end Snolc.Stack
