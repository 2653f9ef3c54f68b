import Mathlib.Algebra.GroupWithZero.Nat
import Mathlib.Data.List.Basic
import Mathlib.Data.Nat.Notation
import Mathlib.Tactic.Common

set_option autoImplicit false

/-!
# Bounded queues and where their items go

A bounded queue takes items behind the others and gives the oldest away. Its history says
who put each item in and what each item was taken out for: the items that were taken,
followed by those still queued, are the items that were put in, in their order.
-/
namespace Snolc.LossyQueue
variable {κ φ α : Type}

/-- A queue, what was put into it and by whom, and what was taken out and what for. -/
structure Queue (κ φ α : Type) where
  items : List α
  pushed : List (κ × α)
  taken : List (φ × α)

def Queue.empty : Queue κ φ α := ⟨[], [], []⟩

def Queue.push (q : Queue κ φ α) (capacity : ℕ) (key : κ) (item : α) : Option (Queue κ φ α) :=
  if q.items.length < capacity then some { q with items := q.items ++ [item], pushed := q.pushed ++ [(key, item)] }
  else none

def Queue.pop (q : Queue κ φ α) (fate : φ) : Option (α × Queue κ φ α) :=
  match q.items with
  | [] => none
  | item :: items => some (item, { q with items := items, taken := q.taken ++ [(fate, item)] })

def of [DecidableEq κ] (key : κ) (entries : List (κ × α)) : List α :=
  (entries.filter fun e => decide (e.1 = key)).map Prod.snd

section Entries
variable [DecidableEq κ]

@[simp] theorem of_nil (key : κ) : of key ([] : List (κ × α)) = [] := rfl

@[simp] theorem of_append (key : κ) (front back : List (κ × α)) :
    of key (front ++ back) = of key front ++ of key back := by
  simp [of]

@[simp] theorem of_single_self (key : κ) (value : α) : of key [(key, value)] = [value] := by
  simp [of]

theorem of_single_ne {key other : κ} (h : other ≠ key) (value : α) : of key [(other, value)] = [] := by
  simp [of, h]

theorem of_all {key : κ} {entries : List (κ × α)} (h : ∀ e ∈ entries, e.1 = key) :
    of key entries = entries.map Prod.snd := by
  rw [of, List.filter_eq_self.mpr fun e he => by simpa using h e he]

theorem mem_of {key : κ} {value : α} {entries : List (κ × α)} (h : (key, value) ∈ entries) :
    value ∈ of key entries :=
  List.mem_map.mpr ⟨(key, value), List.mem_filter.mpr ⟨h, by simp⟩, rfl⟩

theorem of_sublist (key : κ) (entries : List (κ × α)) : (of key entries).Sublist (entries.map Prod.snd) :=
  List.filter_sublist.map _

end Entries

namespace Queue
variable {q next : Queue κ φ α} {capacity : ℕ}

theorem push_some {key : κ} {item : α} (h : q.push capacity key item = some next) :
    q.items.length < capacity ∧
      next = { q with items := q.items ++ [item], pushed := q.pushed ++ [(key, item)] } := by
  unfold push at h
  split at h
  · rename_i hroom
    exact ⟨hroom, (Option.some.inj h).symm⟩
  · cases h

theorem push_none {key : κ} {item : α} (h : q.push capacity key item = none) : capacity ≤ q.items.length := by
  unfold push at h
  split at h
  · cases h
  · omega

theorem pop_some {fate : φ} {item : α} (h : q.pop fate = some (item, next)) :
    ∃ items, q.items = item :: items ∧ next = { q with items := items, taken := q.taken ++ [(fate, item)] } := by
  unfold pop at h
  split at h
  · cases h
  · rename_i first items hitems
    cases h
    exact ⟨items, hitems, rfl⟩

structure Books (q : Queue κ φ α) (capacity : ℕ) : Prop where
  order : q.taken.map Prod.snd ++ q.items = q.pushed.map Prod.snd
  room : q.items.length ≤ capacity

theorem Books.empty (capacity : ℕ) : (Queue.empty : Queue κ φ α).Books capacity := ⟨rfl, Nat.zero_le _⟩

theorem Books.push (h : q.Books capacity) {key : κ} {item : α} (hpush : q.push capacity key item = some next) :
    next.Books capacity := by
  obtain ⟨hroom, rfl⟩ := push_some hpush
  refine ⟨?_, ?_⟩
  · rw [List.map_append, ← h.order, List.append_assoc]
    rfl
  · rw [List.length_append, List.length_singleton]
    exact hroom

theorem Books.pop (h : q.Books capacity) {fate : φ} {item : α} (hpop : q.pop fate = some (item, next)) :
    next.Books capacity := by
  obtain ⟨items, hitems, rfl⟩ := pop_some hpop
  have horder := h.order
  have hroom := h.room
  rw [hitems] at horder hroom
  refine ⟨?_, Nat.le_of_succ_le hroom⟩
  rw [← horder, List.map_append, List.append_assoc]
  rfl

/-- Every item that was put in is still there or was taken for one thing. -/
theorem Books.count (h : q.Books capacity) [DecidableEq φ] {fate other : φ}
    (hfates : ∀ e ∈ q.taken, e.1 = fate ∨ e.1 = other) (hne : fate ≠ other) :
    q.pushed.length = (of fate q.taken).length + (of other q.taken).length + q.items.length := by
  have hlen := congrArg List.length h.order
  rw [List.length_append, List.length_map, List.length_map] at hlen
  have hsplit : q.taken.length = (of fate q.taken).length + (of other q.taken).length := by
    generalize q.taken = taken at hfates
    induction taken with
    | nil => rfl
    | cons e rest ih =>
      have hrest := ih fun e' he' => hfates e' (List.mem_cons_of_mem _ he')
      obtain ⟨key, value⟩ := e
      have hcons : ∀ k : φ, of k ((key, value) :: rest) = of k [(key, value)] ++ of k rest := fun k =>
        of_append k [(key, value)] rest
      rw [hcons fate, hcons other]
      have hkey : key = fate ∨ key = other := hfates (key, value) List.mem_cons_self
      rcases hkey with rfl | rfl
      · simp only [of_single_self, of_single_ne hne, List.nil_append, List.length_append, List.length_cons,
          List.length_nil]
        omega
      · simp only [of_single_self, of_single_ne (Ne.symm hne), List.nil_append, List.length_append, List.length_cons,
          List.length_nil]
        omega
  omega

end Queue

end Snolc.LossyQueue
