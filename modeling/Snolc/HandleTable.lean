import Mathlib.Algebra.GroupWithZero.Nat
import Mathlib.Data.List.Perm.Basic
import Mathlib.Data.Nat.Notation
import Mathlib.Tactic.Common

set_option autoImplicit false

namespace Snolc.Handles

variable {α β : Type}

/-- The two halves of the packed 64-bit word. -/
structure Handle where
  index : ℕ
  generation : ℕ
  deriving DecidableEq, Repr

structure Slot (α : Type) where
  generation : ℕ
  value : Option α

structure HandleTable (α : Type) where
  limit : ℕ
  slots : List (Slot α)
  free : List ℕ

inductive HandleError where
  | full
  | stale
  deriving DecidableEq, Repr

def nextGeneration (generation : ℕ) : ℕ := max ((generation + 1) % 2 ^ 32) 1

namespace HandleTable

def new (limit : ℕ) : HandleTable α := ⟨limit, [], []⟩

/-- The outer `Option` is `none` where a free index would lie outside the slots. -/
def insert (t : HandleTable α) (a : α) : Option (Except HandleError (HandleTable α × Handle)) :=
  match t.free with
  | index :: free =>
    match t.slots[index]? with
    | none => none
    | some slot =>
      some (.ok ({ t with slots := t.slots.set index ⟨slot.generation, some a⟩, free := free },
        ⟨index, slot.generation⟩))
  | [] =>
    if t.limit ≤ t.slots.length ∨ 2 ^ 32 - 1 < t.slots.length then some (.error .full)
    else some (.ok ({ t with slots := t.slots ++ [⟨1, some a⟩] }, ⟨t.slots.length, 1⟩))

def get (t : HandleTable α) (h : Handle) : Option α :=
  match t.slots[h.index]? with
  | none => none
  | some slot => if slot.generation ≠ h.generation then none else slot.value

def modify (t : HandleTable α) (h : Handle) (f : α → α) : HandleTable α :=
  match t.slots[h.index]? with
  | none => t
  | some slot =>
    if slot.generation ≠ h.generation then t
    else { t with slots := t.slots.set h.index ⟨slot.generation, slot.value.map f⟩ }

def remove (t : HandleTable α) (h : Handle) : Option (HandleTable α × α) :=
  match t.slots[h.index]? with
  | none => none
  | some slot =>
    if slot.generation ≠ h.generation then none
    else
      match slot.value with
      | none => none
      | some a =>
        some ({ t with
          slots := t.slots.set h.index ⟨nextGeneration slot.generation, none⟩
          free := h.index :: t.free }, a)

def own (index : ℕ) (slot : Slot α) : List (Handle × α) :=
  match slot.value with
  | none => []
  | some a => [(⟨index, slot.generation⟩, a)]

def entriesFrom : ℕ → List (Slot α) → List (Handle × α)
  | _, [] => []
  | index, slot :: slots => own index slot ++ entriesFrom (index + 1) slots

def entries (t : HandleTable α) : List (Handle × α) := entriesFrom 0 t.slots

/-- The free list names vacant slots, each once. -/
structure Sound (t : HandleTable α) : Prop where
  nodup : t.free.Nodup
  vacant : ∀ index ∈ t.free, ∃ slot, t.slots[index]? = some slot ∧ slot.value = none

theorem new_sound (limit : ℕ) : (new limit : HandleTable α).Sound where
  nodup := List.nodup_nil
  vacant _ h := nomatch h

@[simp] theorem entries_new (limit : ℕ) : (new limit : HandleTable α).entries = [] := rfl

theorem mem_own {index : ℕ} {slot : Slot α} {h : Handle} {a : α} :
    (h, a) ∈ own index slot ↔ h = ⟨index, slot.generation⟩ ∧ slot.value = some a := by
  unfold own
  split
  · next hn => simp [hn]
  · next b hb => simp [hb, eq_comm]

theorem mem_entriesFrom {h : Handle} {a : α} (slots : List (Slot α)) (k : ℕ) :
    (h, a) ∈ entriesFrom k slots ↔
      ∃ i slot, slots[i]? = some slot ∧ h = ⟨k + i, slot.generation⟩ ∧ slot.value = some a := by
  induction slots generalizing k with
  | nil => simp [entriesFrom]
  | cons slot slots ih =>
    rw [entriesFrom, List.mem_append, mem_own, ih]
    constructor
    · rintro (⟨hh, hv⟩ | ⟨i, s, hi, hh, hv⟩)
      · exact ⟨0, slot, rfl, hh, hv⟩
      · exact ⟨i + 1, s, hi, by rw [hh, Nat.add_right_comm, Nat.add_assoc], hv⟩
    · rintro ⟨i, s, hi, hh, hv⟩
      cases i with
      | zero =>
        cases hi
        exact .inl ⟨hh, hv⟩
      | succ i => exact .inr ⟨i, s, hi, by rw [hh, Nat.add_right_comm, Nat.add_assoc], hv⟩

theorem mem_entries {t : HandleTable α} {h : Handle} {a : α} :
    (h, a) ∈ t.entries ↔ t.get h = some a := by
  rw [entries, mem_entriesFrom]
  unfold get
  constructor
  · rintro ⟨i, slot, hi, rfl, hv⟩
    simp [hi, hv]
  · intro hg
    split at hg
    · cases hg
    · next slot hs =>
      split at hg
      · cases hg
      · next hgen =>
        refine ⟨h.index, slot, hs, ?_, hg⟩
        rw [Nat.zero_add, not_not.mp hgen]

theorem entriesFrom_index_le (slots : List (Slot α)) (k : ℕ) :
    ∀ e ∈ entriesFrom k slots, k ≤ e.1.index := by
  rintro ⟨h, a⟩ he
  obtain ⟨i, slot, -, rfl, -⟩ := (mem_entriesFrom slots k).mp he
  exact Nat.le_add_right k i

theorem entries_nodup (t : HandleTable α) : (t.entries.map Prod.fst).Nodup := by
  have hfrom : ∀ (slots : List (Slot α)) (k : ℕ), ((entriesFrom k slots).map Prod.fst).Nodup := by
    intro slots
    induction slots with
    | nil => exact fun _ => List.nodup_nil
    | cons slot slots ih =>
      intro k
      rw [entriesFrom, List.map_append]
      refine List.nodup_append.mpr ⟨?_, ih (k + 1), ?_⟩
      · unfold own
        split <;> simp
      · rintro x hx y hy rfl
        obtain ⟨⟨x', a⟩, hxa, rfl⟩ := List.mem_map.mp hx
        obtain ⟨e, he, hee⟩ := List.mem_map.mp hy
        have hle := entriesFrom_index_le slots (k + 1) e he
        obtain ⟨hxe, -⟩ := mem_own.mp hxa
        rw [hee] at hle
        simp only [hxe] at hle
        omega
  exact hfrom t.slots 0

theorem entriesFrom_append (slots : List (Slot α)) (k : ℕ) (slot : Slot α) :
    entriesFrom k (slots ++ [slot]) = entriesFrom k slots ++ own (k + slots.length) slot := by
  induction slots generalizing k with
  | nil => simp [entriesFrom]
  | cons s slots ih =>
    simp only [List.cons_append, entriesFrom, ih, List.append_assoc, List.length_cons]
    rw [show k + 1 + slots.length = k + (slots.length + 1) by omega]

theorem entriesFrom_set (slots : List (Slot α)) (k i : ℕ) {slot : Slot α}
    (hi : slots[i]? = some slot) :
    ∃ rest, (entriesFrom k slots).Perm (own (k + i) slot ++ rest) ∧
      ∀ slot', (entriesFrom k (slots.set i slot')).Perm (own (k + i) slot' ++ rest) := by
  induction slots generalizing k i with
  | nil => simp at hi
  | cons s slots ih =>
    cases i with
    | zero =>
      cases hi
      exact ⟨entriesFrom (k + 1) slots, List.Perm.refl _, fun slot' => List.Perm.refl _⟩
    | succ i =>
      obtain ⟨rest, h1, h2⟩ := ih (k + 1) i hi
      rw [show k + 1 + i = k + (i + 1) by omega] at h1 h2
      have shift : ∀ mine : List (Handle × α), (own k s ++ (mine ++ rest)).Perm
          (mine ++ (own k s ++ rest)) := fun mine => by
        rw [← List.append_assoc, ← List.append_assoc]
        exact List.perm_append_comm.append_right rest
      refine ⟨own k s ++ rest, ?_, fun slot' => ?_⟩
      · exact (h1.append_left (own k s)).trans (shift _)
      · exact ((h2 slot').append_left (own k s)).trans (shift _)

theorem insert_total {t : HandleTable α} (hs : t.Sound) (a : α) :
    (t.insert a = some (.error .full)) ∨
    ∃ t' h, t.insert a = some (.ok (t', h)) ∧ t'.Sound ∧ t'.entries.Perm ((h, a) :: t.entries) ∧
      t'.limit = t.limit := by
  unfold insert
  split
  · next index free hfree =>
    right
    obtain ⟨slot, hslot, hv⟩ := hs.vacant index (by rw [hfree]; exact List.mem_cons_self)
    have hnd := hs.nodup
    rw [hfree] at hnd
    obtain ⟨hnot, hnd'⟩ := List.nodup_cons.mp hnd
    rw [hslot]
    refine ⟨_, _, rfl, ⟨hnd', fun i hi => ?_⟩, ?_, rfl⟩
    · obtain ⟨s, h1, h2⟩ := hs.vacant i (by rw [hfree]; exact List.mem_cons_of_mem index hi)
      refine ⟨s, ?_, h2⟩
      rw [List.getElem?_set_ne]
      · exact h1
      · rintro rfl
        exact hnot hi
    · obtain ⟨rest, h1, h2⟩ := entriesFrom_set t.slots 0 index hslot
      have hown : own (0 + index) slot = [] := by simp [own, hv]
      rw [hown, List.nil_append] at h1
      refine (h2 ⟨slot.generation, some a⟩).trans ?_
      simpa [own, entries] using h1.symm
  · next hfree =>
    split
    · exact .inl rfl
    · right
      refine ⟨_, _, rfl, ⟨by rw [hfree]; exact List.nodup_nil, fun i hi => ?_⟩, ?_, rfl⟩
      · rw [hfree] at hi
        cases hi
      · simp only [entries, entriesFrom_append, Nat.zero_add]
        exact List.perm_append_comm

def Full (t : HandleTable α) : Prop :=
  t.free = [] ∧ (t.limit ≤ t.slots.length ∨ 2 ^ 32 - 1 < t.slots.length)

instance (t : HandleTable α) : Decidable t.Full := inferInstanceAs (Decidable (_ ∧ _))

theorem full_of_insert {t : HandleTable α} {a : α} (h : t.insert a = some (.error .full)) :
    t.Full := by
  unfold insert at h
  split at h
  · split at h <;> cases h
  · next hfree =>
    split at h
    · next hlimit => exact ⟨hfree, hlimit⟩
    · cases h

theorem remove_spec {t : HandleTable α} (hs : t.Sound) (h : Handle) :
    (t.get h = none ∧ t.remove h = none) ∨
    ∃ t' a, t.get h = some a ∧ t.remove h = some (t', a) ∧ t'.Sound ∧
      t.entries.Perm ((h, a) :: t'.entries) ∧ t'.limit = t.limit := by
  unfold get remove
  cases hslot : t.slots[h.index]? with
  | none => exact .inl ⟨rfl, rfl⟩
  | some slot =>
    by_cases hgen : slot.generation ≠ h.generation
    · simp [hgen]
    · cases hv : slot.value with
      | none => simp [hgen, hv]
      | some a =>
        right
        simp only [hgen, if_false, hv]
        refine ⟨_, a, rfl, rfl, ⟨?_, fun i hi => ?_⟩, ?_, rfl⟩
        · refine List.nodup_cons.mpr ⟨fun hm => ?_, hs.nodup⟩
          obtain ⟨s, h1, h2⟩ := hs.vacant _ hm
          cases hslot.symm.trans h1
          rw [hv] at h2
          cases h2
        · rcases List.mem_cons.mp hi with rfl | hi
          · refine ⟨⟨nextGeneration slot.generation, none⟩, ?_, rfl⟩
            exact List.getElem?_set_self (List.getElem?_eq_some_iff.mp hslot).1
          · obtain ⟨s, h1, h2⟩ := hs.vacant i hi
            refine ⟨s, ?_, h2⟩
            rw [List.getElem?_set_ne]
            · exact h1
            · rintro rfl
              cases hslot.symm.trans h1
              rw [hv] at h2
              cases h2
        · obtain ⟨rest, h1, h2⟩ := entriesFrom_set t.slots 0 h.index hslot
          have hown : own (0 + h.index) slot = [(h, a)] := by
            simp [own, hv, not_not.mp hgen]
          rw [hown] at h1
          have h3 := h2 ⟨nextGeneration slot.generation, none⟩
          refine h1.trans (List.Perm.cons _ ?_)
          simpa [own, entries] using h3.symm

theorem modify_spec {t : HandleTable α} (hs : t.Sound) {h : Handle} {a : α}
    (hg : t.get h = some a) (f : α → α) :
    (t.modify h f).Sound ∧ (t.modify h f).limit = t.limit ∧
      ∃ rest, t.entries.Perm ((h, a) :: rest) ∧ (t.modify h f).entries.Perm ((h, f a) :: rest) := by
  unfold get at hg
  unfold modify
  cases hslot : t.slots[h.index]? with
  | none =>
    rw [hslot] at hg
    cases hg
  | some slot =>
    simp only [hslot] at hg
    split at hg
    · cases hg
    · next hgen =>
      simp only [hgen, if_false, hg]
      refine ⟨⟨hs.nodup, fun i hi => ?_⟩, trivial, ?_⟩
      · obtain ⟨s, h1, h2⟩ := hs.vacant i hi
        refine ⟨s, ?_, h2⟩
        rw [List.getElem?_set_ne]
        · exact h1
        · rintro rfl
          cases hslot.symm.trans h1
          rw [hg] at h2
          cases h2
      · obtain ⟨rest, h1, h2⟩ := entriesFrom_set t.slots 0 h.index hslot
        refine ⟨rest, ?_, ?_⟩
        · simpa [own, hg, not_not.mp hgen, entries] using h1
        · simpa [own, not_not.mp hgen, entries] using h2 ⟨slot.generation, some (f a)⟩

theorem get_of_insert {t t' : HandleTable α} {h : Handle} {a : α}
    (hp : t'.entries.Perm ((h, a) :: t.entries)) : t.get h = none ∧ t'.get h = some a := by
  refine ⟨?_, mem_entries.mp (hp.mem_iff.mpr List.mem_cons_self)⟩
  cases hg : t.get h with
  | none => rfl
  | some b =>
    have hnd := (hp.map Prod.fst).nodup_iff.mp (entries_nodup t')
    exact absurd (List.mem_map.mpr ⟨(h, b), mem_entries.mpr hg, rfl⟩) (List.nodup_cons.mp hnd).1

theorem get_of_remove {t t' : HandleTable α} {h : Handle} {a : α}
    (hp : t.entries.Perm ((h, a) :: t'.entries)) : t'.get h = none ∧ t.get h = some a :=
  get_of_insert hp

theorem get_of_perm_cons {t t' : HandleTable α} {h h' : Handle} {a : α}
    (hp : t'.entries.Perm ((h, a) :: t.entries)) (hne : h' ≠ h) : t'.get h' = t.get h' := by
  apply Option.ext
  intro b
  rw [← mem_entries, ← mem_entries, hp.mem_iff, List.mem_cons]
  exact ⟨fun hor => hor.resolve_left fun heq => hne (Prod.mk.inj heq).1, .inr⟩

theorem get_modify {t : HandleTable α} (hs : t.Sound) {h : Handle} {a : α}
    (hg : t.get h = some a) (f : α → α) (h' : Handle) :
    (t.modify h f).get h' = if h' = h then some (f a) else t.get h' := by
  obtain ⟨-, -, rest, h1, h2⟩ := modify_spec hs hg f
  split
  · next heq =>
    rw [heq]
    exact mem_entries.mp (h2.mem_iff.mpr List.mem_cons_self)
  · next hne =>
    apply Option.ext
    intro b
    rw [← mem_entries, ← mem_entries, h1.mem_iff, h2.mem_iff, List.mem_cons, List.mem_cons]
    have hno : ∀ c, ¬ (h', b) = (h, c) := fun c heq => hne (Prod.mk.inj heq).1
    simp only [hno, false_or]

end HandleTable
end Snolc.Handles
