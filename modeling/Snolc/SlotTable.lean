import Mathlib.Algebra.GroupWithZero.Nat
import Mathlib.Data.List.Basic
import Mathlib.Data.Nat.Notation
import Mathlib.Tactic.Common

set_option autoImplicit false

/-!
# Tables indexed by number

A growable vector of optional entries. An entry is found at its own index, and
storing beyond the end grows the vector with empty slots up to that index.
-/
namespace Snolc.SlotTable
variable {α : Type}

abbrev Table (α : Type) := List (Option α)

def slot (t : Table α) (i : ℕ) : Option α := t[i]?.join

def grow (t : Table α) (i : ℕ) : Table α :=
  if t.length ≤ i then t ++ List.replicate (i + 1 - t.length) none else t

def put (t : Table α) (i : ℕ) (a : α) : Table α := (grow t i).set i (some a)

def update (t : Table α) (i : ℕ) (f : α → α) : Table α := t.modify i (Option.map f)

def Occupied (t : Table α) (i : ℕ) : Prop := (slot t i).isSome

@[simp] theorem slot_nil (i : ℕ) : slot ([] : Table α) i = none := rfl

theorem slot_eq_none_of_length_le {t : Table α} {i : ℕ} (h : t.length ≤ i) : slot t i = none := by
  simp [slot, List.getElem?_eq_none h]

theorem Occupied.lt_length {t : Table α} {i : ℕ} (h : Occupied t i) : i < t.length := by
  by_contra hge
  rw [Occupied, slot_eq_none_of_length_le (by omega)] at h
  simp at h

theorem grow_length (t : Table α) (i : ℕ) : (grow t i).length = max t.length (i + 1) := by
  unfold grow
  split
  · simp only [List.length_append, List.length_replicate]; omega
  · omega

theorem slot_grow (t : Table α) (i j : ℕ) : slot (grow t i) j = slot t j := by
  unfold grow
  split
  · unfold slot
    rw [List.getElem?_append]
    split
    · rfl
    · rename_i hge
      rw [List.getElem?_replicate, List.getElem?_eq_none (l := t) (by omega)]
      split <;> rfl
  · rfl

theorem put_length (t : Table α) (i : ℕ) (a : α) : (put t i a).length = max t.length (i + 1) := by
  rw [put, List.length_set, grow_length]

theorem slot_put (t : Table α) (i j : ℕ) (a : α) :
    slot (put t i a) j = if i = j then some a else slot t j := by
  have hlen := grow_length t i
  split
  · subst j
    rw [put, slot, List.getElem?_set_self (by omega)]
    rfl
  · rename_i hij
    rw [put, slot, List.getElem?_set_ne hij]
    exact slot_grow t i j

@[simp] theorem slot_put_self (t : Table α) (i : ℕ) (a : α) : slot (put t i a) i = some a := by
  simp [slot_put]

@[simp] theorem update_length (t : Table α) (i : ℕ) (f : α → α) : (update t i f).length = t.length := by
  simp [update]

theorem slot_update (t : Table α) (i j : ℕ) (f : α → α) :
    slot (update t i f) j = if i = j then (slot t j).map f else slot t j := by
  unfold update slot
  rw [List.getElem?_modify]
  split
  · cases t[j]? with
    | none => rfl
    | some entry => cases entry <;> rfl
  · simp

@[simp] theorem slot_update_self (t : Table α) (i : ℕ) (f : α → α) :
    slot (update t i f) i = (slot t i).map f := by
  simp [slot_update]

def total (w : α → ℕ) (t : Table α) : ℕ := (t.map (fun entry => entry.elim 0 w)).sum

@[simp] theorem total_nil (w : α → ℕ) : total w [] = 0 := rfl

theorem total_eq_zero (w : α → ℕ) {t : Table α} (h : ∀ i a, slot t i = some a → w a = 0) : total w t = 0 := by
  induction t with
  | nil => rfl
  | cons entry t ih =>
    have ht := ih fun i a hi => h (i + 1) a (by simpa [slot] using hi)
    have he : entry.elim 0 w = 0 := by
      cases entry with
      | none => rfl
      | some a => exact h 0 a rfl
    simp only [total, List.map_cons, List.sum_cons] at ht ⊢
    omega

theorem total_update (w : α → ℕ) (f : α → α) {t : Table α} {i : ℕ} {a : α} (h : slot t i = some a) :
    total w (update t i f) + w a = total w t + w (f a) := by
  induction t generalizing i with
  | nil => simp at h
  | cons entry t ih =>
    cases i with
    | zero =>
      have he : entry = some a := by simpa [slot] using h
      subst he
      simp only [total, update, List.modify_zero_cons, List.map_cons, List.sum_cons, Option.map_some,
        Option.elim_some]
      omega
    | succ i =>
      have ht := ih (by simpa [slot] using h)
      simp only [total, update, List.modify_succ_cons, List.map_cons, List.sum_cons] at ht ⊢
      omega

theorem total_update_none (w : α → ℕ) (f : α → α) {t : Table α} {i : ℕ} (h : slot t i = none) :
    total w (update t i f) = total w t := by
  induction t generalizing i with
  | nil => simp [update]
  | cons entry t ih =>
    cases i with
    | zero =>
      have he : entry = none := by simpa [slot] using h
      subst he
      rfl
    | succ i =>
      have ht := ih (by simpa [slot] using h)
      simp only [total, update, List.modify_succ_cons, List.map_cons, List.sum_cons] at ht ⊢
      omega

theorem total_grow (w : α → ℕ) (t : Table α) (i : ℕ) : total w (grow t i) = total w t := by
  unfold grow
  split
  · simp [total]
  · rfl

theorem total_set (w : α → ℕ) (a : α) {t : Table α} {i : ℕ} (h : t[i]? = some none) :
    total w (t.set i (some a)) = total w t + w a := by
  induction t generalizing i with
  | nil => simp at h
  | cons entry t ih =>
    cases i with
    | zero =>
      have he : entry = none := by simpa using h
      subst he
      simp only [total, List.set_cons_zero, List.map_cons, List.sum_cons, Option.elim_some, Option.elim_none]
      omega
    | succ i =>
      have ht := ih (by simpa using h)
      simp only [total, List.set_cons_succ, List.map_cons, List.sum_cons] at ht ⊢
      omega

theorem total_put (w : α → ℕ) (a : α) {t : Table α} {i : ℕ} (h : slot t i = none) :
    total w (put t i a) = total w t + w a := by
  have hlen := grow_length t i
  have hlt : i < (grow t i).length := by omega
  have hnone : (grow t i)[i]? = some none := by
    have hs := slot_grow t i i
    rw [h, slot, List.getElem?_eq_getElem hlt] at hs
    rw [List.getElem?_eq_getElem hlt]
    exact congrArg some hs
  rw [put, total_set w a hnone, total_grow]

theorem total_add {w v u : α → ℕ} {t : Table α} (h : ∀ i a, slot t i = some a → w a + v a = u a) :
    total w t + total v t = total u t := by
  induction t with
  | nil => rfl
  | cons entry t ih =>
    have ht := ih fun i a hi => h (i + 1) a (by simpa [slot] using hi)
    have he : entry.elim 0 w + entry.elim 0 v = entry.elim 0 u := by
      cases entry with
      | none => rfl
      | some a => exact h 0 a rfl
    simp only [total, List.map_cons, List.sum_cons] at ht ⊢
    omega

theorem le_total (w : α → ℕ) {t : Table α} {i : ℕ} {a : α} (h : slot t i = some a) : w a ≤ total w t := by
  induction t generalizing i with
  | nil => simp at h
  | cons entry t ih =>
    cases i with
    | zero =>
      have he : entry = some a := by simpa [slot] using h
      subst he
      exact Nat.le_add_right _ _
    | succ i =>
      have ht := ih (by simpa [slot] using h)
      simp only [total, List.map_cons, List.sum_cons] at ht ⊢
      omega

def only (keep : ℕ → Bool) (t : Table α) : Table α := t.mapIdx (fun i entry => if keep i then entry else none)

theorem only_cons (keep : ℕ → Bool) (entry : Option α) (t : Table α) :
    only keep (entry :: t) = (if keep 0 then entry else none) :: only (fun i => keep (i + 1)) t := by
  simp [only, List.mapIdx_cons]

theorem total_only_le (w : α → ℕ) (keep : ℕ → Bool) (t : Table α) : total w (only keep t) ≤ total w t := by
  induction t generalizing keep with
  | nil => exact Nat.le_refl _
  | cons entry t ih =>
    have ht := ih (fun i => keep (i + 1))
    have he : (if keep 0 then entry else none).elim 0 w ≤ entry.elim 0 w := by
      split
      · exact Nat.le_refl _
      · exact Nat.zero_le _
    rw [only_cons]
    simp only [total, List.map_cons, List.sum_cons] at ht ⊢
    omega

/-- Nothing is missing from the total of some entries when the others count nothing. -/
theorem total_only_eq_iff (w : α → ℕ) (keep : ℕ → Bool) (t : Table α) :
    total w (only keep t) = total w t ↔ ∀ i a, slot t i = some a → keep i = false → w a = 0 := by
  induction t generalizing keep with
  | nil => simp [only]
  | cons entry t ih =>
    have hle := total_only_le w (fun i => keep (i + 1)) t
    have htail := ih (fun i => keep (i + 1))
    have hsum : total w (only keep (entry :: t)) = total w (entry :: t) ↔
        (if keep 0 then entry else none).elim 0 w = entry.elim 0 w ∧
          total w (only (fun i => keep (i + 1)) t) = total w t := by
      have he : (if keep 0 then entry else none).elim 0 w ≤ entry.elim 0 w := by
        split
        · exact Nat.le_refl _
        · exact Nat.zero_le _
      rw [only_cons]
      simp only [total, List.map_cons, List.sum_cons] at hle ⊢
      omega
    rw [hsum, htail]
    constructor
    · rintro ⟨hfirst, hrest⟩ i a hs hk
      cases i with
      | zero =>
        have he : entry = some a := by simpa [slot] using hs
        simpa [he, hk] using hfirst.symm
      | succ i => exact hrest i a (by simpa [slot] using hs) hk
    · intro h
      refine ⟨?_, fun i a hs hk => h (i + 1) a (by simpa [slot] using hs) hk⟩
      cases hk : keep 0 with
      | true => rfl
      | false =>
        cases entry with
        | none => rfl
        | some a => simpa using (h 0 a rfl hk).symm

end Snolc.SlotTable
