import Snolc.HandleTable
import Mathlib.Data.List.Nodup

set_option autoImplicit false

namespace Snolc.Handles
variable {α : Type}

def pack (index generation : UInt32) : UInt64 := (generation.toUInt64 <<< 32) ||| index.toUInt64

def TypedHandle.index (raw : UInt64) : UInt32 := raw.toUInt32

def TypedHandle.generation (raw : UInt64) : UInt32 := (raw >>> 32).toUInt32

def Handle.ofRaw (raw : UInt64) : Handle :=
  ⟨(TypedHandle.index raw).toNat, (TypedHandle.generation raw).toNat⟩

def Handle.raw (h : Handle) : UInt64 := pack (UInt32.ofNat h.index) (UInt32.ofNat h.generation)

theorem pack_toNat (index generation : UInt32) :
    (pack index generation).toNat = generation.toNat * 2 ^ 32 + index.toNat := by
  have hi := index.toNat_lt
  have hg := generation.toNat_lt
  rw [pack, UInt64.toNat_or, UInt64.toNat_shiftLeft, UInt32.toNat_toUInt64, UInt32.toNat_toUInt64]
  change generation.toNat <<< 32 % 2 ^ 64 ||| index.toNat = _
  have hsmall : generation.toNat <<< 32 < 2 ^ 64 := by
    rw [Nat.shiftLeft_eq]
    omega
  rw [Nat.mod_eq_of_lt hsmall, ← Nat.shiftLeft_add_eq_or_of_lt hi, Nat.shiftLeft_eq]

theorem index_pack (index generation : UInt32) : TypedHandle.index (pack index generation) = index := by
  have hi := index.toNat_lt
  apply UInt32.toNat_inj.mp
  rw [TypedHandle.index, UInt64.toNat_toUInt32, pack_toNat]
  omega

theorem generation_pack (index generation : UInt32) :
    TypedHandle.generation (pack index generation) = generation := by
  have hi := index.toNat_lt
  have hg := generation.toNat_lt
  apply UInt32.toNat_inj.mp
  rw [TypedHandle.generation, UInt64.toNat_toUInt32, UInt64.toNat_shiftRight, pack_toNat]
  change (generation.toNat * 2 ^ 32 + index.toNat) >>> 32 % 2 ^ 32 = _
  rw [Nat.shiftRight_eq_div_pow]
  omega

theorem pack_parts (raw : UInt64) : pack (TypedHandle.index raw) (TypedHandle.generation raw) = raw := by
  have hr := raw.toNat_lt
  apply UInt64.toNat_inj.mp
  rw [pack_toNat, TypedHandle.index, TypedHandle.generation, UInt64.toNat_toUInt32, UInt64.toNat_toUInt32,
    UInt64.toNat_shiftRight]
  change raw.toNat >>> 32 % 2 ^ 32 * 2 ^ 32 + raw.toNat % 2 ^ 32 = _
  rw [Nat.shiftRight_eq_div_pow]
  omega

namespace Handle

structure Fits (h : Handle) : Prop where
  index : h.index < 2 ^ 32
  generation : h.generation < 2 ^ 32

theorem ofRaw_raw {h : Handle} (hf : h.Fits) : ofRaw h.raw = h := by
  obtain ⟨index, generation⟩ := h
  simp only [ofRaw, raw, index_pack, generation_pack, Handle.mk.injEq]
  exact ⟨UInt32.toNat_ofNat_of_lt' hf.index, UInt32.toNat_ofNat_of_lt' hf.generation⟩

theorem raw_ofRaw (raw : UInt64) : (ofRaw raw).raw = raw := by
  rw [Handle.raw, ofRaw, UInt32.ofNat_toNat, UInt32.ofNat_toNat, pack_parts]

theorem ofRaw_injective {a b : UInt64} (h : ofRaw a = ofRaw b) : a = b := by
  rw [← raw_ofRaw a, h, raw_ofRaw]

theorem raw_ne_zero {h : Handle} (hf : h.Fits) (hpos : 0 < h.generation) : h.raw ≠ 0 := by
  intro hz
  have hg : (ofRaw h.raw).generation = h.generation := by rw [ofRaw_raw hf]
  rw [hz] at hg
  change 0 = h.generation at hg
  omega

end Handle

inductive TableCall (α : Type) where
  | insert (value : α)
  | get (raw : UInt64)
  | getMut (raw : UInt64) (change : α → α)
  | remove (raw : UInt64)

inductive TableEvent (α : Type) where
  | insert (value : α) (answer : Except HandleError UInt64)
  | get (raw : UInt64) (answer : Except HandleError α)
  | getMut (raw : UInt64) (change : α → α) (answer : Except HandleError α)
  | remove (raw : UInt64) (answer : Except HandleError α)

def orStale : Option α → Except HandleError α
  | none => .error .stale
  | some a => .ok a

/-- A call of the table; `none` where the source aborts. -/
def HandleTable.call (t : HandleTable α) : TableCall α → Option (HandleTable α × TableEvent α)
  | .insert value =>
    (t.insert value).map fun r =>
      match r with
      | .ok (t', h) => (t', .insert value (.ok h.raw))
      | .error e => (t, .insert value (.error e))
  | .get raw => some (t, .get raw (orStale (t.get (.ofRaw raw))))
  | .getMut raw change =>
    some (t.modify (.ofRaw raw) change, .getMut raw change (orStale (t.get (.ofRaw raw))))
  | .remove raw =>
    match t.remove (.ofRaw raw) with
    | none => some (t, .remove raw (.error .stale))
    | some (t', a) => some (t', .remove raw (.ok a))

structure Logged (α : Type) where
  table : HandleTable α
  log : List (TableEvent α)

def Logged.step (s : Logged α) (call : TableCall α) : Option (Logged α) :=
  (s.table.call call).map fun r => ⟨r.1, s.log ++ [r.2]⟩

def Logged.run (s : Logged α) (calls : List (TableCall α)) : Option (Logged α) := calls.foldlM Logged.step s

namespace TableEvent

def call : TableEvent α → TableCall α
  | .insert value _ => .insert value
  | .get raw _ => .get raw
  | .getMut raw change _ => .getMut raw change
  | .remove raw _ => .remove raw

def issues : TableEvent α → Option UInt64
  | .insert _ (.ok raw) => some raw
  | _ => none

/-- What the event leaves behind every word that stood for `held` before. -/
def effect (held : UInt64 → Option α) : TableEvent α → UInt64 → Option α
  | .insert value (.ok raw) => fun other => if other = raw then some value else held other
  | .getMut raw change _ => fun other => if other = raw then (held raw).map change else held other
  | .remove raw _ => fun other => if other = raw then none else held other
  | _ => held

def empties (index : ℕ) : TableEvent α → Bool
  | .remove raw (.ok _) => decide ((Handle.ofRaw raw).index = index)
  | _ => false

end TableEvent

def issued (log : List (TableEvent α)) : List UInt64 := log.filterMap TableEvent.issues

/-- What every word stands for: the value inserted with it, as last changed, until removed. -/
def current (log : List (TableEvent α)) : UInt64 → Option α := log.foldl TableEvent.effect fun _ => none

def live (log : List (TableEvent α)) : ℕ := (issued log).countP fun raw => (current log raw).isSome

def removals (index : ℕ) (log : List (TableEvent α)) : ℕ := log.countP (TableEvent.empties index)

@[simp] theorem issued_snoc (log : List (TableEvent α)) (e : TableEvent α) :
    issued (log ++ [e]) = issued log ++ e.issues.toList := by
  rw [issued, List.filterMap_append, ← issued]
  cases h : e.issues <;> simp [h]

theorem current_snoc (log : List (TableEvent α)) (e : TableEvent α) :
    current (log ++ [e]) = e.effect (current log) := by
  simp [current, List.foldl_append]

theorem removals_snoc (index : ℕ) (log : List (TableEvent α)) (e : TableEvent α) :
    removals index (log ++ [e]) = removals index log + (e.empties index).toNat := by
  rw [removals, List.countP_append, List.countP_singleton, ← removals]
  cases e.empties index <;> rfl

def Answers (limit : ℕ) (before : List (TableEvent α)) : TableEvent α → Prop
  | .insert _ answer => (answer = .error .full ↔ live before = limit) ∧ answer ≠ .error .stale ∧
      ∀ raw, answer = .ok raw → raw ≠ 0 ∧ raw ∉ issued before
  | .get raw answer => answer = orStale (current before raw)
  | .getMut raw _ answer => answer = orStale (current before raw)
  | .remove raw answer => answer = orStale (current before raw)

/-- The word was given out for the slot in an earlier generation, or in this one and the slot
    is in use. -/
def Passed (slot : Slot α) (h : Handle) : Prop :=
  h.generation < slot.generation ∨ (h.generation = slot.generation ∧ slot.value.isSome)

structure Kept (limit : ℕ) (s : Logged α) : Prop where
  sound : s.table.Sound
  bound : s.table.limit = limit
  size : s.table.slots.length ≤ limit
  room : s.table.entries.length + s.table.free.length = s.table.slots.length
  generation : ∀ (i : ℕ) (slot : Slot α), s.table.slots[i]? = some slot → slot.generation = removals i s.log + 1
  untouched : ∀ i, s.table.slots.length ≤ i → removals i s.log = 0
  get : ∀ raw, s.table.get (.ofRaw raw) = current s.log raw
  passed : ∀ raw ∈ issued s.log, 0 < (Handle.ofRaw raw).generation ∧
    ∃ slot, s.table.slots[(Handle.ofRaw raw).index]? = some slot ∧ Passed slot (.ofRaw raw)
  held : ∀ e ∈ s.table.entries, e.1.raw ∈ issued s.log
  nodup : (issued s.log).Nodup

/-- No slot has been through all its generations. -/
def Unworn (log : List (TableEvent α)) : Prop := ∀ index, removals index log < 2 ^ 32 - 1

theorem Kept.fits {limit : ℕ} {s : Logged α} (h : Kept limit s) (hl : limit ≤ 2 ^ 32) (hu : Unworn s.log)
    {i : ℕ} {slot : Slot α} (hi : s.table.slots[i]? = some slot) : Handle.Fits ⟨i, slot.generation⟩ := by
  have hlt := (List.getElem?_eq_some_iff.mp hi).1
  have hsize := h.size
  have hgen := h.generation i slot hi
  have hfew := hu i
  exact ⟨by simp only; omega, by simp only; omega⟩

theorem Kept.entry_fits {limit : ℕ} {s : Logged α} (h : Kept limit s) (hl : limit ≤ 2 ^ 32) (hu : Unworn s.log)
    {e : Handle × α} (he : e ∈ s.table.entries) : e.1.Fits := by
  obtain ⟨handle, a⟩ := e
  obtain ⟨i, slot, hi, rfl, -⟩ := (HandleTable.mem_entriesFrom s.table.slots 0).mp he
  rw [Nat.zero_add]
  exact h.fits hl hu hi

theorem Kept.live_eq {limit : ℕ} {s : Logged α} (h : Kept limit s) (hl : limit ≤ 2 ^ 32) (hu : Unworn s.log) :
    live s.log = s.table.entries.length := by
  have hinj : (s.table.entries.map fun e => e.1.raw).Nodup := by
    have hnd := HandleTable.entries_nodup s.table
    rw [show (fun e : Handle × α => e.1.raw) = Handle.raw ∘ Prod.fst from rfl, ← List.map_map]
    refine List.Nodup.map_on (fun a ha b hb heq => ?_) hnd
    obtain ⟨x, hx, rfl⟩ := List.mem_map.mp ha
    obtain ⟨y, hy, rfl⟩ := List.mem_map.mp hb
    rw [← Handle.ofRaw_raw (h.entry_fits hl hu hx), heq, Handle.ofRaw_raw (h.entry_fits hl hu hy)]
  have hperm : ((issued s.log).filter fun raw => (current s.log raw).isSome).Perm
      (s.table.entries.map fun e => e.1.raw) := by
    refine (List.perm_ext_iff_of_nodup (h.nodup.filter _) hinj).mpr fun raw => ?_
    rw [List.mem_filter, List.mem_map]
    constructor
    · rintro ⟨-, hsome⟩
      obtain ⟨a, ha⟩ := Option.isSome_iff_exists.mp hsome
      rw [← h.get raw] at ha
      exact ⟨(.ofRaw raw, a), HandleTable.mem_entries.mpr ha, Handle.raw_ofRaw raw⟩
    · rintro ⟨⟨handle, a⟩, he, rfl⟩
      have hget := HandleTable.mem_entries.mp he
      refine ⟨h.held _ he, ?_⟩
      rw [← h.get, Handle.ofRaw_raw (h.entry_fits hl hu he), hget]
      rfl
  rw [live, List.countP_eq_length_filter, hperm.length_eq, List.length_map]

theorem kept_new (limit : ℕ) : Kept limit (⟨.new limit, []⟩ : Logged α) where
  sound := HandleTable.new_sound limit
  bound := rfl
  size := Nat.zero_le _
  room := rfl
  generation i slot h := by simp [HandleTable.new] at h
  untouched i h := rfl
  get raw := rfl
  passed raw h := by simp [issued] at h
  held e h := by simp at h
  nodup := List.nodup_nil

theorem Kept.idle {limit : ℕ} {s : Logged α} (h : Kept limit s) {e : TableEvent α} (hi : e.issues = none)
    (he : e.effect (current s.log) = current s.log) (hr : ∀ index, e.empties index = false) :
    Kept limit ⟨s.table, s.log ++ [e]⟩ := by
  have hissued : issued (s.log ++ [e]) = issued s.log := by rw [issued_snoc, hi]; exact List.append_nil _
  refine ⟨h.sound, h.bound, h.size, h.room, fun i slot hs => ?_, fun i hs => ?_, fun raw => ?_, ?_, ?_, ?_⟩
  · rw [removals_snoc, hr]
    exact h.generation i slot hs
  · rw [removals_snoc, hr]
    exact h.untouched i hs
  · rw [current_snoc, he]
    exact h.get raw
  · rw [hissued]
    exact h.passed
  · rw [hissued]
    exact h.held
  · rw [hissued]
    exact h.nodup

theorem Kept.fresh {limit : ℕ} {s : Logged α} (h : Kept limit s) {i : ℕ} {slot : Slot α}
    (hi : s.table.slots[i]? = some slot) (hv : slot.value = none) (hf : Handle.Fits ⟨i, slot.generation⟩) :
    (Handle.mk i slot.generation).raw ∉ issued s.log := by
  intro hm
  obtain ⟨-, other, hother, hpassed⟩ := h.passed _ hm
  rw [Handle.ofRaw_raw hf] at hother hpassed
  cases hi.symm.trans hother
  rcases hpassed with hlt | ⟨-, hsome⟩
  · exact absurd hlt (Nat.lt_irrefl _)
  · simp [hv] at hsome

theorem Kept.insert {limit : ℕ} {s : Logged α} (h : Kept limit s) {t' : HandleTable α} {handle : Handle} {a : α}
    (hf : handle.Fits) (hpos : 0 < handle.generation) (hnew : handle.raw ∉ issued s.log) (hsound : t'.Sound)
    (hlimit : t'.limit = s.table.limit) (hsize : t'.slots.length ≤ limit)
    (hgrow : s.table.slots.length ≤ t'.slots.length) (hperm : t'.entries.Perm ((handle, a) :: s.table.entries))
    (hroom : t'.slots.length + s.table.free.length = s.table.slots.length + t'.free.length + 1)
    (hslot : t'.slots[handle.index]? = some ⟨handle.generation, some a⟩)
    (hgen : handle.generation = removals handle.index s.log + 1)
    (hother : ∀ j : ℕ, j ≠ handle.index → t'.slots[j]? = s.table.slots[j]?) :
    Kept limit ⟨t', s.log ++ [.insert a (.ok handle.raw)]⟩ := by
  have hissued : issued (s.log ++ [.insert a (.ok handle.raw)]) = issued s.log ++ [handle.raw] := issued_snoc _ _
  refine ⟨hsound, hlimit.trans h.bound, hsize, ?_, fun j slot hs => ?_, fun j hj => ?_, fun raw => ?_,
    fun raw hm => ?_, fun e he => ?_, ?_⟩
  · have hold := h.room
    have hlen := hperm.length_eq
    simp only [List.length_cons] at hlen
    simp only
    omega
  · rw [removals_snoc]
    change _ = removals j s.log + 0 + 1
    by_cases hj : j = handle.index
    · subst hj
      cases hslot.symm.trans hs
      exact hgen
    · exact h.generation j slot (by rw [← hother j hj]; exact hs)
  · rw [removals_snoc]
    exact h.untouched j (Nat.le_trans hgrow hj)
  · rw [current_snoc]
    change t'.get (.ofRaw raw) = if raw = handle.raw then some a else current s.log raw
    by_cases hraw : raw = handle.raw
    · rw [if_pos hraw, hraw, Handle.ofRaw_raw hf]
      exact (HandleTable.get_of_insert hperm).2
    · rw [if_neg hraw, ← h.get raw]
      refine HandleTable.get_of_perm_cons hperm fun heq => hraw ?_
      rw [← heq, Handle.raw_ofRaw]
  · rw [hissued, List.mem_append, List.mem_singleton] at hm
    rcases hm with hm | rfl
    · obtain ⟨hg, slot, hs, hp⟩ := h.passed raw hm
      refine ⟨hg, ?_⟩
      by_cases hj : (Handle.ofRaw raw).index = handle.index
      · rw [hj] at hs ⊢
        refine ⟨_, hslot, ?_⟩
        have hsame : slot.generation = handle.generation := by rw [h.generation _ slot hs, hgen]
        rcases hp with hlt | ⟨heq, -⟩
        · exact .inl (by rw [← hsame]; exact hlt)
        · exact .inr ⟨by rw [← hsame]; exact heq, rfl⟩
      · exact ⟨slot, by rw [hother _ hj]; exact hs, hp⟩
    · rw [Handle.ofRaw_raw hf]
      exact ⟨hpos, _, hslot, .inr ⟨rfl, rfl⟩⟩
  · rw [hissued, List.mem_append, List.mem_singleton]
    rcases List.mem_cons.mp (hperm.mem_iff.mp he) with rfl | hm
    · exact .inr rfl
    · exact .inl (h.held e hm)
  · rw [hissued]
    refine List.nodup_append.mpr ⟨h.nodup, List.nodup_singleton _, fun x hx y hy hxy => ?_⟩
    rw [List.mem_singleton] at hy
    rw [hxy, hy] at hx
    exact hnew hx

structure Inserted (limit : ℕ) (s : Logged α) (t' : HandleTable α) (handle : Handle) (a : α) : Prop where
  fits : handle.Fits
  pos : 0 < handle.generation
  fresh : handle.raw ∉ issued s.log
  room : s.table.entries.length < limit
  kept : Kept limit ⟨t', s.log ++ [.insert a (.ok handle.raw)]⟩

theorem Kept.inserted {limit : ℕ} (hl : limit ≤ 2 ^ 32) {s : Logged α} (h : Kept limit s) (hu : Unworn s.log)
    {t' : HandleTable α} {handle : Handle} {a : α} (hins : s.table.insert a = some (.ok (t', handle)))
    (hsound : t'.Sound) (hperm : t'.entries.Perm ((handle, a) :: s.table.entries)) (hlimit : t'.limit = s.table.limit) :
    Inserted limit s t' handle a := by
  have hroom := h.room
  have hsize := h.size
  have hbound := h.bound
  unfold HandleTable.insert at hins
  split at hins
  · rename_i index free hfree
    rw [hfree, List.length_cons] at hroom
    split at hins
    · cases hins
    · rename_i slot hslot
      cases hins
      obtain ⟨slot', hs', hv⟩ := h.sound.vacant index (by rw [hfree]; exact List.mem_cons_self)
      cases hslot.symm.trans hs'
      have hgen := h.generation index slot hslot
      have hfits := h.fits hl hu hslot
      have hpos : 0 < slot.generation := by omega
      have hlt := (List.getElem?_eq_some_iff.mp hslot).1
      have hnew := h.fresh hslot hv hfits
      refine ⟨hfits, hpos, hnew, by omega, ?_⟩
      refine h.insert hfits hpos hnew hsound hlimit ?_ ?_ hperm ?_ ?_ hgen fun j hj => ?_
      · simpa using hsize
      · simp
      · simp only [List.length_set, hfree, List.length_cons]
        omega
      · exact List.getElem?_set_self hlt
      · exact List.getElem?_set_ne (Ne.symm hj)
  · rename_i hfree
    rw [hfree, List.length_nil] at hroom
    split at hins
    · cases hins
    · rename_i hmore
      cases hins
      have hnone : s.table.slots[s.table.slots.length]? = none := List.getElem?_eq_none (Nat.le_refl _)
      have hfits : Handle.Fits ⟨s.table.slots.length, 1⟩ := ⟨by simp only; omega, by simp⟩
      have hnew : (Handle.mk s.table.slots.length 1).raw ∉ issued s.log := by
        intro hm
        obtain ⟨-, slot, hs, -⟩ := h.passed _ hm
        rw [Handle.ofRaw_raw hfits, hnone] at hs
        cases hs
      refine ⟨hfits, Nat.one_pos, hnew, by omega, ?_⟩
      refine h.insert hfits Nat.one_pos hnew hsound hlimit ?_ ?_ hperm ?_ ?_ ?_ fun j hj => ?_
      · simp only [List.length_append, List.length_singleton]
        omega
      · simp
      · simp only [List.length_append, List.length_singleton, hfree, List.length_nil]
      · simp
      · simp only [h.untouched _ (Nat.le_refl _)]
      · rcases Nat.lt_or_ge j s.table.slots.length with hlt | hge
        · exact List.getElem?_append_left hlt
        · rw [List.getElem?_eq_none hge, List.getElem?_eq_none]
          simp only [List.length_append, List.length_singleton] at hj ⊢
          omega

/-- What every call does: it answers as the log says and keeps the table in step with it. -/
def Advances (limit : ℕ) (s : Logged α) (call : TableCall α) : Prop :=
  ∃ s' e, s.step call = some s' ∧ s'.log = s.log ++ [e] ∧ Answers limit s.log e ∧ (Unworn s'.log → Kept limit s')

theorem Kept.advances_insert {limit : ℕ} (hl : limit ≤ 2 ^ 32) {s : Logged α} (h : Kept limit s) (hu : Unworn s.log)
    (a : α) : Advances limit s (.insert a) := by
  have hlive := h.live_eq hl hu
  rcases HandleTable.insert_total h.sound a with hfull | ⟨t', handle, hins, hsound, hperm, hlimit⟩
  · have hcount : live s.log = limit := by
      obtain ⟨hfree, hmany⟩ := HandleTable.full_of_insert hfull
      have hroom := h.room
      have hsize := h.size
      have hbound := h.bound
      rw [hfree, List.length_nil] at hroom
      omega
    refine ⟨⟨s.table, s.log ++ [.insert a (.error .full)]⟩, .insert a (.error .full), ?_, rfl, ?_, fun _ => ?_⟩
    · simp [Logged.step, HandleTable.call, hfull]
    · exact ⟨⟨fun _ => hcount, fun _ => rfl⟩, by simp, by simp⟩
    · exact h.idle rfl rfl fun _ => rfl
  · have hdone := h.inserted hl hu hins hsound hperm hlimit
    have hroom := hdone.room
    refine ⟨⟨t', s.log ++ [.insert a (.ok handle.raw)]⟩, .insert a (.ok handle.raw), ?_, rfl, ?_, fun _ => hdone.kept⟩
    · simp [Logged.step, HandleTable.call, hins]
    · refine ⟨⟨by simp, fun hx => by omega⟩, by simp, fun raw hraw => ?_⟩
      cases hraw
      exact ⟨Handle.raw_ne_zero hdone.fits hdone.pos, hdone.fresh⟩

theorem Kept.advances_get {limit : ℕ} {s : Logged α} (h : Kept limit s) (raw : UInt64) :
    Advances limit s (.get raw) := by
  refine ⟨_, .get raw (orStale (s.table.get (.ofRaw raw))), rfl, rfl, ?_, fun _ => h.idle rfl rfl fun _ => rfl⟩
  exact congrArg orStale (h.get raw)

theorem HandleTable.slot_of_get {t : HandleTable α} {handle : Handle} {a : α} (h : t.get handle = some a) :
    t.slots[handle.index]? = some ⟨handle.generation, some a⟩ := by
  unfold HandleTable.get at h
  split at h
  · cases h
  · rename_i slot hslot
    split at h
    · cases h
    · rename_i hgen
      rw [hslot, ← h, ← not_not.mp hgen]

theorem HandleTable.modify_of_none {t : HandleTable α} {handle : Handle} (h : t.get handle = none) (f : α → α) :
    t.modify handle f = t := by
  unfold HandleTable.get at h
  unfold HandleTable.modify
  cases hslot : t.slots[handle.index]? with
  | none => rfl
  | some slot =>
    rw [hslot] at h
    dsimp only at h ⊢
    split
    · rfl
    · rename_i hgen
      rw [if_neg hgen] at h
      have hsame : (⟨slot.generation, slot.value.map f⟩ : Slot α) = slot := by
        obtain ⟨generation, value⟩ := slot
        simp only at h
        rw [h]
        rfl
      obtain ⟨hlt, hget⟩ := List.getElem?_eq_some_iff.mp hslot
      rw [hsame, ← hget, List.set_getElem_self]

theorem HandleTable.modify_slots {t : HandleTable α} {handle : Handle} {a : α} (h : t.get handle = some a)
    (f : α → α) : t.modify handle f =
      { t with slots := t.slots.set handle.index ⟨handle.generation, some (f a)⟩ } := by
  unfold HandleTable.modify
  rw [HandleTable.slot_of_get h]
  simp

/-- The slot of an entry written anew: its generation moves on exactly where the entry leaves. -/
theorem Kept.rewritten {limit : ℕ} {s : Logged α} (h : Kept limit s) {raw : UInt64} {a : α}
    (hget : s.table.get (.ofRaw raw) = some a) {t' : HandleTable α} {generation : ℕ} {value : Option α}
    (hslots : t'.slots = s.table.slots.set (Handle.ofRaw raw).index ⟨generation, value⟩)
    (hgeneration : generation = (Handle.ofRaw raw).generation + value.isNone.toNat) {e : TableEvent α}
    (hissues : e.issues = none)
    (hempties : ∀ j, e.empties j = (decide ((Handle.ofRaw raw).index = j) && value.isNone)) (hsound : t'.Sound)
    (hlimit : t'.limit = s.table.limit)
    (hroom : t'.entries.length + t'.free.length = s.table.entries.length + s.table.free.length)
    (hgets : ∀ other, t'.get (.ofRaw other) = e.effect (current s.log) other)
    (hheld : ∀ entry ∈ t'.entries, ∃ b, (entry.1, b) ∈ s.table.entries) : Kept limit ⟨t', s.log ++ [e]⟩ := by
  have hslot := HandleTable.slot_of_get hget
  have hlt := (List.getElem?_eq_some_iff.mp hslot).1
  have hold : (Handle.ofRaw raw).generation = removals (Handle.ofRaw raw).index s.log + 1 := h.generation _ _ hslot
  have hissued : issued (s.log ++ [e]) = issued s.log := by
    rw [issued_snoc, hissues]
    exact List.append_nil _
  refine ⟨hsound, hlimit.trans h.bound, ?_, ?_, fun j slot hs => ?_, fun j hj => ?_, fun other => ?_,
    fun other hm => ?_, fun entry hentry => ?_, ?_⟩
  · simpa [hslots] using h.size
  · simpa [hslots] using hroom.trans h.room
  · rw [removals_snoc, hempties]
    rw [hslots] at hs
    by_cases hj : (Handle.ofRaw raw).index = j
    · subst hj
      rw [List.getElem?_set_self hlt] at hs
      cases hs
      simp only [decide_true, Bool.true_and]
      omega
    · rw [List.getElem?_set_ne hj] at hs
      rw [decide_eq_false hj]
      exact h.generation j slot hs
  · have hle : s.table.slots.length ≤ j := by simpa [hslots] using hj
    rw [removals_snoc, hempties, decide_eq_false (by omega)]
    exact h.untouched j hle
  · rw [current_snoc]
    exact hgets other
  · rw [hissued] at hm
    obtain ⟨hpos, slot, hs, hp⟩ := h.passed other hm
    refine ⟨hpos, ?_⟩
    by_cases hj : (Handle.ofRaw raw).index = (Handle.ofRaw other).index
    · rw [← hj] at hs ⊢
      cases hslot.symm.trans hs
      refine ⟨⟨generation, value⟩, by rw [hslots]; exact List.getElem?_set_self hlt, ?_⟩
      rcases hp with hless | ⟨hsame, -⟩
      · exact .inl (Nat.lt_of_lt_of_le hless (by rw [hgeneration]; exact Nat.le_add_right _ _))
      · -- a word of this generation is passed by an empty slot, and stands for what a full one holds
        cases value with
        | none => exact .inl (by rw [hsame, hgeneration]; exact Nat.lt_succ_self _)
        | some b => exact .inr ⟨by rw [hsame, hgeneration]; rfl, rfl⟩
    · exact ⟨slot, by rw [hslots, List.getElem?_set_ne hj]; exact hs, hp⟩
  · obtain ⟨b, hb⟩ := hheld entry hentry
    rw [hissued]
    exact h.held (entry.1, b) hb
  · rw [hissued]
    exact h.nodup

theorem Kept.advances_getMut {limit : ℕ} {s : Logged α} (h : Kept limit s) (raw : UInt64) (change : α → α) :
    Advances limit s (.getMut raw change) := by
  refine ⟨_, .getMut raw change (orStale (s.table.get (.ofRaw raw))), rfl, rfl, congrArg orStale (h.get raw),
    fun _ => ?_⟩
  cases hget : s.table.get (.ofRaw raw) with
  | none =>
    rw [HandleTable.modify_of_none hget]
    refine h.idle rfl ?_ fun _ => rfl
    funext other
    have hcurrent : current s.log raw = none := (h.get raw).symm.trans hget
    change (if other = raw then (current s.log raw).map change else current s.log other) = _
    split
    · rename_i heq
      rw [heq, hcurrent]
      rfl
    · rfl
  | some a =>
    have hcurrent : current s.log raw = some a := (h.get raw).symm.trans hget
    obtain ⟨hsound, hlimit, rest, hperm, hperm'⟩ := HandleTable.modify_spec h.sound hget change
    have hslots := HandleTable.modify_slots hget change
    refine h.rewritten hget (congrArg HandleTable.slots hslots) rfl rfl
      (fun j => (Bool.and_false _).symm) hsound hlimit ?_ (fun other => ?_) fun entry hentry => ?_
    · rw [hperm.length_eq, hperm'.length_eq, congrArg HandleTable.free hslots]
      rfl
    · change _ = if other = raw then (current s.log raw).map change else current s.log other
      rw [HandleTable.get_modify h.sound hget change]
      by_cases heq : other = raw
      · rw [if_pos (by rw [heq]), if_pos heq, hcurrent]
        rfl
      · rw [if_neg fun hx => heq (Handle.ofRaw_injective hx), if_neg heq, h.get]
    · rcases List.mem_cons.mp (hperm'.mem_iff.mp hentry) with rfl | hm
      · exact ⟨a, hperm.mem_iff.mpr List.mem_cons_self⟩
      · exact ⟨entry.2, hperm.mem_iff.mpr (List.mem_cons_of_mem _ hm)⟩

theorem nextGeneration_of_lt {generation : ℕ} (h : generation + 1 < 2 ^ 32) :
    nextGeneration generation = generation + 1 := by
  rw [nextGeneration, Nat.mod_eq_of_lt h]
  omega

theorem HandleTable.remove_slots {t t' : HandleTable α} {handle : Handle} {a : α}
    (h : t.remove handle = some (t', a)) :
    t'.slots = t.slots.set handle.index ⟨nextGeneration handle.generation, none⟩ ∧
      t'.free = handle.index :: t.free := by
  unfold HandleTable.remove at h
  split at h
  · cases h
  · split at h
    · cases h
    · rename_i slot hslot hgen
      split at h
      · cases h
      · cases h
        exact ⟨by rw [not_not.mp hgen], rfl⟩

theorem Kept.advances_remove {limit : ℕ} {s : Logged α} (h : Kept limit s) (raw : UInt64) :
    Advances limit s (.remove raw) := by
  rcases HandleTable.remove_spec h.sound (.ofRaw raw) with
    ⟨hget, hremove⟩ | ⟨t', a, hget, hremove, hsound, hperm, hlimit⟩
  · have hcurrent : current s.log raw = none := (h.get raw).symm.trans hget
    refine ⟨⟨s.table, s.log ++ [.remove raw (.error .stale)]⟩, .remove raw (.error .stale), ?_, rfl, ?_, fun _ => ?_⟩
    · simp [Logged.step, HandleTable.call, hremove]
    · change _ = orStale (current s.log raw)
      rw [hcurrent]
      rfl
    · refine h.idle rfl ?_ fun _ => rfl
      funext other
      change (if other = raw then none else current s.log other) = _
      split
      · rename_i heq
        rw [heq, hcurrent]
      · rfl
  · have hcurrent : current s.log raw = some a := (h.get raw).symm.trans hget
    refine ⟨⟨t', s.log ++ [.remove raw (.ok a)]⟩, .remove raw (.ok a), ?_, rfl, ?_, fun hu => ?_⟩
    · simp [Logged.step, HandleTable.call, hremove]
    · change _ = orStale (current s.log raw)
      rw [hcurrent]
      rfl
    obtain ⟨hslots, hfree⟩ := HandleTable.remove_slots hremove
    have hold : (Handle.ofRaw raw).generation = removals (Handle.ofRaw raw).index s.log + 1 :=
      h.generation _ _ (HandleTable.slot_of_get hget)
    have hnext : nextGeneration (Handle.ofRaw raw).generation = (Handle.ofRaw raw).generation + 1 := by
      have hfew := hu (Handle.ofRaw raw).index
      rw [removals_snoc, show TableEvent.empties _ (.remove raw (.ok a)) = true from decide_eq_true rfl] at hfew
      exact nextGeneration_of_lt (by rw [hold]; exact Nat.add_lt_of_lt_sub hfew)
    refine h.rewritten hget hslots hnext rfl (fun j => (Bool.and_true _).symm) hsound hlimit ?_ (fun other => ?_)
      fun entry hentry => ⟨entry.2, hperm.mem_iff.mpr (List.mem_cons_of_mem _ hentry)⟩
    · rw [hperm.length_eq, hfree, List.length_cons, List.length_cons]
      omega
    · change t'.get (.ofRaw other) = if other = raw then none else current s.log other
      by_cases heq : other = raw
      · rw [if_pos heq, heq]
        exact (HandleTable.get_of_remove hperm).1
      · rw [if_neg heq, ← h.get other]
        exact (HandleTable.get_of_perm_cons hperm fun hx => heq (Handle.ofRaw_injective hx)).symm

theorem Kept.advances {limit : ℕ} (hl : limit ≤ 2 ^ 32) {s : Logged α} (h : Kept limit s) (hu : Unworn s.log)
    (call : TableCall α) : Advances limit s call := by
  cases call with
  | insert a => exact h.advances_insert hl hu a
  | get raw => exact h.advances_get raw
  | getMut raw change => exact h.advances_getMut raw change
  | remove raw => exact h.advances_remove raw

theorem call_sound {t : HandleTable α} (h : t.Sound) (call : TableCall α) :
    ∃ t' e, t.call call = some (t', e) ∧ e.call = call ∧ t'.Sound := by
  cases call with
  | insert a =>
    rcases HandleTable.insert_total h a with hfull | ⟨t', handle, hins, hsound, -⟩
    · exact ⟨t, .insert a (.error .full), by simp [HandleTable.call, hfull], rfl, h⟩
    · exact ⟨t', .insert a (.ok handle.raw), by simp [HandleTable.call, hins], rfl, hsound⟩
  | get raw => exact ⟨t, _, rfl, rfl, h⟩
  | getMut raw change =>
    refine ⟨_, _, rfl, rfl, ?_⟩
    cases hget : t.get (.ofRaw raw) with
    | none =>
      rw [HandleTable.modify_of_none hget]
      exact h
    | some a => exact (HandleTable.modify_spec h hget change).1
  | remove raw =>
    rcases HandleTable.remove_spec h (.ofRaw raw) with ⟨-, hremove⟩ | ⟨t', a, -, hremove, hsound, -⟩
    · exact ⟨t, .remove raw (.error .stale), by simp [HandleTable.call, hremove], rfl, h⟩
    · exact ⟨t', .remove raw (.ok a), by simp [HandleTable.call, hremove], rfl, hsound⟩

theorem run_total (calls : List (TableCall α)) {s : Logged α} (h : s.table.Sound) :
    ∃ s' rest, s.run calls = some s' ∧ s'.log = s.log ++ rest ∧ rest.map TableEvent.call = calls := by
  induction calls generalizing s with
  | nil => exact ⟨s, [], rfl, (List.append_nil _).symm, rfl⟩
  | cons call calls ih =>
    obtain ⟨t', e, hcall, hsame, hsound⟩ := call_sound h call
    obtain ⟨s', rest, hrun, hlog, hrest⟩ := ih (s := ⟨t', s.log ++ [e]⟩) hsound
    refine ⟨s', e :: rest, ?_, by simpa using hlog, by simp [hsame, hrest]⟩
    simpa [Logged.run, Logged.step, hcall] using hrun

theorem Unworn.front {log rest : List (TableEvent α)} (h : Unworn (log ++ rest)) : Unworn log := by
  intro index
  have hall := h index
  rw [removals, List.countP_append] at hall
  exact Nat.lt_of_le_of_lt (Nat.le_add_right _ _) hall

theorem run_kept {limit : ℕ} (hl : limit ≤ 2 ^ 32) (calls : List (TableCall α)) {s s' : Logged α} (h : Kept limit s)
    (hrun : s.run calls = some s') (hu : Unworn s'.log) :
    Kept limit s' ∧ ∃ rest, s'.log = s.log ++ rest ∧
      ∀ before e after, rest = before ++ e :: after → Answers limit (s.log ++ before) e := by
  induction calls generalizing s with
  | nil =>
    cases hrun
    exact ⟨h, [], (List.append_nil _).symm, by simp⟩
  | cons call calls ih =>
    rw [Logged.run, List.foldlM_cons] at hrun
    obtain ⟨s₁, hstep, hrest⟩ := Option.bind_eq_some_iff.mp hrun
    have hlater : ∃ more, s'.log = s₁.log ++ more := by
      obtain ⟨t', e, hcall, -, hsound⟩ := call_sound h.sound call
      have hs₁ : s₁.table.Sound := by
        rw [Logged.step, hcall] at hstep
        cases hstep
        exact hsound
      obtain ⟨s₂, more, hrun₂, hlog, -⟩ := run_total calls hs₁
      have heq : s₂ = s' := Option.some.inj (hrun₂.symm.trans hrest)
      exact ⟨more, by rw [← heq, hlog]⟩
    obtain ⟨more, hmore⟩ := hlater
    have hu₁ : Unworn s₁.log := by
      rw [hmore] at hu
      exact hu.front
    have hu₀ : Unworn s.log := by
      obtain ⟨t', e, hcall, -⟩ := call_sound h.sound call
      rw [Logged.step, hcall] at hstep
      cases hstep
      exact hu₁.front
    obtain ⟨s₂, e, hstep₂, hlog, hanswer, hkept⟩ := h.advances hl hu₀ call
    cases hstep.symm.trans hstep₂
    obtain ⟨hkept', rest, hlog', hall⟩ := ih (hkept hu₁) hrest
    refine ⟨hkept', e :: rest, by rw [hlog', hlog]; simp, fun before x after hsplit => ?_⟩
    cases before with
    | nil =>
      obtain ⟨rfl, -⟩ := List.cons.inj hsplit
      simpa using hanswer
    | cons first before =>
      obtain ⟨rfl, hback⟩ := List.cons.inj hsplit
      have hlast := hall before x after hback
      rw [hlog] at hlast
      simpa using hlast

/-- No call aborts. As long as no slot has been through all its generations every answer is
    the one the log demands, and no word is zero or given out twice. -/
theorem handles_resolve {limit : ℕ} (hl : limit ≤ 2 ^ 32) (calls : List (TableCall α)) :
    ∃ s : Logged α, Logged.run ⟨.new limit, []⟩ calls = some s ∧ s.log.map TableEvent.call = calls ∧
      (Unworn s.log → (∀ before e after, s.log = before ++ e :: after → Answers limit before e) ∧
        (issued s.log).Nodup ∧ 0 ∉ issued s.log) := by
  obtain ⟨s, rest, hrun, hlog, hcalls⟩ :=
    run_total (s := (⟨.new limit, []⟩ : Logged α)) calls (HandleTable.new_sound limit)
  refine ⟨s, hrun, by rw [hlog]; exact hcalls, fun hu => ?_⟩
  obtain ⟨hkept, rest', hlog', hall⟩ := run_kept hl calls (kept_new limit) hrun hu
  refine ⟨fun before e after hsplit => ?_, hkept.nodup, fun hz => ?_⟩
  · have hall' := hall before e after (hlog'.symm.trans hsplit)
    exact hall'
  · exact absurd (hkept.passed 0 hz).1 (Nat.lt_irrefl 0)

/-- A slot used twice: the first word stays stale. -/
theorem reused_slot_resolves :
    ∃ s : Logged ℕ, Logged.run ⟨.new 1, []⟩ [.insert 5, .remove 4294967296, .insert 6, .get 4294967296] = some s ∧
      (∀ before e after, s.log = before ++ e :: after → Answers 1 before e) ∧
      issued s.log = [4294967296, 8589934592] := by
  have hlimit : 1 ≤ 2 ^ 32 := by decide
  obtain ⟨s, hrun, hcalls, hall⟩ :=
    handles_resolve hlimit ([.insert 5, .remove 4294967296, .insert 6, .get 4294967296] : List (TableCall ℕ))
  have hlength : s.log.length = 4 := by simpa using congrArg List.length hcalls
  have hu : Unworn s.log := fun index => by
    have hle : removals index s.log ≤ s.log.length := List.countP_le_length
    omega
  refine ⟨s, hrun, (hall hu).1, ?_⟩
  have hissued : (Logged.run (⟨.new 1, []⟩ : Logged ℕ)
      [.insert 5, .remove 4294967296, .insert 6, .get 4294967296]).map (fun s => issued s.log) =
      some [4294967296, 8589934592] := by decide +kernel
  rw [hrun] at hissued
  exact Option.some.inj hissued

end Snolc.Handles
