import Mathlib.Algebra.GroupWithZero.Nat
import Mathlib.Data.List.Induction
import Mathlib.Data.Nat.Notation
import Mathlib.Tactic.Common

set_option autoImplicit false

namespace Snolc.CheckedSlice

variable {α : Type}

def wordMax : ℕ := 2 ^ 64 - 1

def checkedAdd (a b : ℕ) : Option ℕ := if a + b ≤ wordMax then some (a + b) else none

def checkedMul (a b : ℕ) : Option ℕ := if a * b ≤ wordMax then some (a * b) else none

def saturatingSum (a b : ℕ) : ℕ := min (a + b) wordMax

def divCeil (a b : ℕ) : ℕ := (a + (b - 1)) / b

/-- `xs[i..j]`. -/
def slice (xs : List α) (i j : ℕ) : Option (List α) :=
  if i ≤ j ∧ j ≤ xs.length then some ((xs.drop i).take (j - i)) else none

/-- `xs[i..i + ys.len()].copy_from_slice(ys)`. -/
def copyAt (xs : List α) (i : ℕ) (ys : List α) : Option (List α) :=
  if i + ys.length ≤ xs.length then some (xs.take i ++ ys ++ xs.drop (i + ys.length)) else none

def fillAt (xs : List α) (i j : ℕ) (x : α) : Option (List α) :=
  if i ≤ j then copyAt xs i (List.replicate (j - i) x) else none

def setAt (xs : List α) (i : ℕ) (x : α) : Option (List α) :=
  if i < xs.length then some (xs.set i x) else none

theorem checkedAdd_of_le {a b : ℕ} (h : a + b ≤ wordMax) : checkedAdd a b = some (a + b) := by
  simp [checkedAdd, h]

theorem checkedMul_of_le {a b : ℕ} (h : a * b ≤ wordMax) : checkedMul a b = some (a * b) := by
  simp [checkedMul, h]

theorem slice_of_le {xs : List α} {i j : ℕ} (hi : i ≤ j) (hj : j ≤ xs.length) :
    slice xs i j = some ((xs.drop i).take (j - i)) := by
  simp [slice, hi, hj]

theorem slice_start {xs : List α} {j : ℕ} (hj : j ≤ xs.length) :
    slice xs 0 j = some (xs.take j) := by
  simp [slice, hj]

theorem slice_rest {xs : List α} {i : ℕ} (hi : i ≤ xs.length) :
    slice xs i xs.length = some (xs.drop i) := by
  simp [slice, hi, List.take_of_length_le]

theorem slice_eq_some {xs ys : List α} {i j : ℕ} (h : slice xs i j = some ys) :
    i ≤ j ∧ j ≤ xs.length ∧ ys = (xs.drop i).take (j - i) ∧ ys.length = j - i := by
  unfold slice at h
  split at h
  · next hr =>
    cases h
    refine ⟨hr.1, hr.2, rfl, ?_⟩
    rw [List.length_take, List.length_drop]
    omega
  · cases h

theorem checkedAdd_eq_some {a b c : ℕ} (h : checkedAdd a b = some c) : c = a + b := by
  unfold checkedAdd at h
  split at h
  · exact (Option.some.inj h).symm
  · cases h

theorem drop_take_eq_iff (xs ys : List α) (i j : ℕ) :
    (xs.drop i).take (j - i) = (ys.drop i).take (j - i) ↔
      ∀ n, i ≤ n → n < j → xs[n]? = ys[n]? := by
  constructor
  · intro h n hi hj
    have hn := congrArg (fun zs : List α => zs[n - i]?) h
    simpa [List.getElem?_take, show n - i < j - i by omega,
      show i + (n - i) = n by omega] using hn
  · intro h
    apply List.ext_getElem?
    intro n
    rw [List.getElem?_take, List.getElem?_take]
    split
    · rw [List.getElem?_drop, List.getElem?_drop]
      exact h _ (by omega) (by omega)
    · rfl

theorem all_take_iff {xs : List Bool} {j : ℕ} (hj : j ≤ xs.length) :
    (xs.take j).all id = true ↔ ∀ n : ℕ, n < j → xs[n]? = some true := by
  rw [List.all_eq_true]
  constructor
  · intro h n hn
    have hlt : n < xs.length := by omega
    rw [List.getElem?_eq_getElem hlt]
    exact congrArg some (h _ (List.mem_take_iff_getElem.mpr ⟨n, by omega, rfl⟩))
  · intro h x hx
    obtain ⟨n, hn, rfl⟩ := List.mem_take_iff_getElem.mp hx
    have hlt : n < xs.length := by omega
    have hget := h n (by omega)
    rw [List.getElem?_eq_getElem hlt] at hget
    exact Option.some.inj hget

theorem any_slice_iff (xs : List Bool) (i j : ℕ) :
    ((xs.drop i).take (j - i)).any id = true ↔ ∃ n : ℕ, i ≤ n ∧ n < j ∧ xs[n]? = some true := by
  rw [List.any_eq_true]
  constructor
  · rintro ⟨x, hx, hid⟩
    obtain ⟨n, hn⟩ := List.mem_iff_getElem?.mp hx
    rw [List.getElem?_take] at hn
    split at hn
    · rw [List.getElem?_drop] at hn
      refine ⟨i + n, by omega, by omega, ?_⟩
      rw [hn]
      exact congrArg some hid
    · cases hn
  · rintro ⟨n, hi, hj, hget⟩
    refine ⟨true, List.mem_iff_getElem?.mpr ⟨n - i, ?_⟩, rfl⟩
    rw [List.getElem?_take, if_pos (by omega), List.getElem?_drop, show i + (n - i) = n by omega]
    exact hget

theorem getElem?_copied (xs ys : List α) {i : ℕ} (h : i + ys.length ≤ xs.length) (n : ℕ) :
    (xs.take i ++ ys ++ xs.drop (i + ys.length))[n]? =
      if i ≤ n ∧ n < i + ys.length then ys[n - i]? else xs[n]? := by
  have hi : (xs.take i).length = i := by simp; omega
  split
  · next hn =>
    rw [List.append_assoc, List.getElem?_append_right (by omega), hi,
      List.getElem?_append_left (by omega)]
  · next hn =>
    rcases Nat.lt_or_ge n i with hlt | hge
    · rw [List.append_assoc, List.getElem?_append_left (by omega), List.getElem?_take, if_pos hlt]
    · rw [List.getElem?_append_right (by simp; omega), List.getElem?_drop]
      congr 1
      simp
      omega

theorem copyAt_spec (xs ys : List α) {i : ℕ} (h : i + ys.length ≤ xs.length) :
    ∃ zs, copyAt xs i ys = some zs ∧ zs.length = xs.length ∧
      ∀ n, zs[n]? = if i ≤ n ∧ n < i + ys.length then ys[n - i]? else xs[n]? := by
  refine ⟨_, if_pos h, ?_, getElem?_copied xs ys h⟩
  simp
  omega

theorem fillAt_spec (xs : List α) (x : α) {i j : ℕ} (hi : i ≤ j) (hj : j ≤ xs.length) :
    ∃ zs, fillAt xs i j x = some zs ∧ zs.length = xs.length ∧
      ∀ n, zs[n]? = if i ≤ n ∧ n < j then some x else xs[n]? := by
  obtain ⟨zs, hz, hlen, hget⟩ := copyAt_spec xs (List.replicate (j - i) x)
    (i := i) (by simp; omega)
  refine ⟨zs, by rw [fillAt, if_pos hi, hz], hlen, fun n => ?_⟩
  rw [hget, List.length_replicate, show i + (j - i) = j by omega]
  split
  · rw [List.getElem?_replicate, if_pos (by omega)]
  · rfl

theorem setAt_of_lt {xs : List α} {i : ℕ} (x : α) (h : i < xs.length) :
    setAt xs i x = some (xs.set i x) :=
  if_pos h

theorem copyAt_behind (front ys rest : List α) (h : ys.length ≤ rest.length) :
    copyAt (front ++ rest) front.length ys = some (front ++ ys ++ rest.drop ys.length) := by
  have hle : front.length + ys.length ≤ (front ++ rest).length := by
    rw [List.length_append]
    omega
  rw [copyAt, if_pos hle, List.take_left, ← List.drop_drop, List.drop_left]

theorem setAt_behind (front rest : List α) (x : α) (h : 0 < rest.length) :
    setAt (front ++ rest) front.length x = some (front ++ [x] ++ rest.drop 1) := by
  have hlt : front.length < (front ++ rest).length := by
    rw [List.length_append]
    omega
  rw [setAt_of_lt x hlt]
  cases rest with
  | nil => simp at h
  | cons y rest => simp

theorem slice_behind {front rest piece : List α} {n : ℕ} :
    slice (front ++ rest) front.length (front.length + n) = some piece ↔
      piece.length = n ∧ ∃ tail, rest = piece ++ tail := by
  constructor
  · intro h
    obtain ⟨-, hle, hpiece, hlen⟩ := slice_eq_some h
    rw [List.drop_left, Nat.add_sub_cancel_left] at hpiece
    refine ⟨by omega, rest.drop n, ?_⟩
    rw [hpiece, List.take_append_drop]
  · rintro ⟨hlen, tail, rfl⟩
    have hle : front.length + n ≤ (front ++ (piece ++ tail)).length := by
      rw [List.length_append, List.length_append]
      omega
    rw [slice_of_le (by omega) hle, List.drop_left, Nat.add_sub_cancel_left, ← hlen, List.take_left]

end Snolc.CheckedSlice
