import Mathlib.Algebra.GroupWithZero.Nat
import Mathlib.Data.List.Basic
import Mathlib.Data.Nat.Notation
import Mathlib.Tactic.Common

set_option autoImplicit false

/-!
# Runs of a deterministic machine

A machine takes one labelled step at a time. A run is guarded when every label
satisfies a condition in the state in which it is taken; an invariant that one
guarded step keeps then holds in every state a guarded run passes through.
-/
namespace Snolc.GuardedRuns
variable {σ ι : Type}

def run (step : σ → ι → σ) (s : σ) (labels : List ι) : σ := labels.foldl step s

def Guarded (step : σ → ι → σ) (guard : σ → ι → Prop) : σ → List ι → Prop
  | _, [] => True
  | s, label :: labels => guard s label ∧ Guarded step guard (step s label) labels

@[simp] theorem run_nil (step : σ → ι → σ) (s : σ) : run step s [] = s := rfl

@[simp] theorem run_cons (step : σ → ι → σ) (s : σ) (label : ι) (labels : List ι) :
    run step s (label :: labels) = run step (step s label) labels := rfl

theorem run_snoc (step : σ → ι → σ) (s : σ) (labels : List ι) (label : ι) :
    run step s (labels ++ [label]) = step (run step s labels) label := by
  rw [run, List.foldl_append]
  rfl

/-- The invariant rule: what every guarded step keeps, every guarded run keeps. -/
theorem run_invariant {step : σ → ι → σ} {guard : σ → ι → Prop} (I : σ → Prop)
    (hstep : ∀ s label, I s → guard s label → I (step s label))
    {s : σ} {labels : List ι} (hs : I s) (hg : Guarded step guard s labels) :
    I (run step s labels) := by
  induction labels generalizing s with
  | nil => exact hs
  | cons label labels ih => exact ih (hstep s label hs hg.1) hg.2

theorem run_always {step : σ → ι → σ} (I : σ → Prop) (hstep : ∀ s label, I s → I (step s label))
    {s : σ} (hs : I s) (labels : List ι) : I (run step s labels) := by
  induction labels generalizing s with
  | nil => exact hs
  | cons label labels ih => exact ih (hstep s label hs)

/-- Where each step keeps a property exactly under the guard, the property holds all along
    a run exactly when the run is guarded. -/
theorem always_iff_guarded {step : σ → ι → σ} {guard : σ → ι → Prop} (I P : σ → Prop)
    (hI : ∀ s label, I s → P s → I (step s label))
    (hP : ∀ s label, I s → P s → (P (step s label) ↔ guard s label))
    {s : σ} (hs : I s) (hp : P s) (labels : List ι) :
    (∀ front, front <+: labels → P (run step s front)) ↔ Guarded step guard s labels := by
  induction labels generalizing s with
  | nil =>
    refine ⟨fun _ => trivial, fun _ front hfront => ?_⟩
    rw [List.prefix_nil.mp hfront]
    exact hp
  | cons label labels ih =>
    have hstep := hP s label hs hp
    constructor
    · intro h
      have hnext : P (step s label) := h [label] (by simp)
      refine ⟨hstep.mp hnext, (ih (hI s label hs hp) hnext).mp fun front hfront => ?_⟩
      exact h (label :: front) ((List.prefix_cons_inj label).mpr hfront)
    · rintro ⟨hguard, hrest⟩ front hfront
      have hnext := hstep.mpr hguard
      cases front with
      | nil => exact hp
      | cons first front =>
        obtain ⟨rfl, hshort⟩ := List.cons_prefix_cons.mp hfront
        exact (ih (hI s first hs hp) hnext).mpr hrest front hshort

theorem guarded_append {step : σ → ι → σ} {guard : σ → ι → Prop} {s : σ} {xs ys : List ι} :
    Guarded step guard s (xs ++ ys) ↔
      Guarded step guard s xs ∧ Guarded step guard (run step s xs) ys := by
  induction xs generalizing s with
  | nil => simp [Guarded]
  | cons label xs ih => simp [Guarded, ih, and_assoc]

instance decidableGuarded (step : σ → ι → σ) (guard : σ → ι → Prop)
    [∀ s label, Decidable (guard s label)] (s : σ) (labels : List ι) :
    Decidable (Guarded step guard s labels) :=
  match labels with
  | [] => isTrue trivial
  | label :: labels =>
    have := decidableGuarded step guard (step s label) labels
    inferInstanceAs (Decidable (guard s label ∧ Guarded step guard (step s label) labels))

def GuardedM (step : σ → ι → Option σ) (guard : σ → ι → Prop) : σ → List ι → Prop
  | _, [] => True
  | s, label :: labels => guard s label ∧ ∀ s', step s label = some s' → GuardedM step guard s' labels

theorem foldlM_invariant {step : σ → ι → Option σ} {guard : σ → ι → Prop} (I : σ → Prop)
    (hstep : ∀ s label, I s → guard s label → ∃ s', step s label = some s' ∧ I s')
    {s : σ} {labels : List ι} (hs : I s) (hg : GuardedM step guard s labels) :
    ∃ s', labels.foldlM step s = some s' ∧ I s' := by
  induction labels generalizing s with
  | nil => exact ⟨s, rfl, hs⟩
  | cons label labels ih =>
    obtain ⟨s₁, h1, hs₁⟩ := hstep s label hs hg.1
    obtain ⟨s₂, h2, hs₂⟩ := ih hs₁ (hg.2 s₁ h1)
    exact ⟨s₂, by rw [List.foldlM_cons, h1]; exact h2, hs₂⟩

theorem foldlM_always {step : σ → ι → Option σ} (I : σ → Prop)
    (hstep : ∀ s label, I s → ∃ s', step s label = some s' ∧ I s') {s : σ} (hs : I s)
    (labels : List ι) : ∃ s', labels.foldlM step s = some s' ∧ I s' := by
  induction labels generalizing s with
  | nil => exact ⟨s, rfl, hs⟩
  | cons label labels ih =>
    obtain ⟨s₁, h1, hs₁⟩ := hstep s label hs
    obtain ⟨s₂, h2, hs₂⟩ := ih hs₁
    exact ⟨s₂, by rw [List.foldlM_cons, h1]; exact h2, hs₂⟩

theorem GuardedM.split {step : σ → ι → Option σ} {guard : σ → ι → Prop} {s : σ}
    {front back : List ι} (h : GuardedM step guard s (front ++ back)) :
    GuardedM step guard s front ∧
      ∀ s', front.foldlM step s = some s' → GuardedM step guard s' back := by
  induction front generalizing s with
  | nil =>
    refine ⟨trivial, fun s' hs => ?_⟩
    cases hs
    exact h
  | cons label front ih =>
    refine ⟨⟨h.1, fun s₁ h1 => (ih (h.2 s₁ h1)).1⟩, fun s' hs => ?_⟩
    rw [List.foldlM_cons] at hs
    obtain ⟨s₁, h1, hs⟩ := Option.bind_eq_some_iff.mp hs
    exact (ih (h.2 s₁ h1)).2 s' hs

theorem guardedM_always {step : σ → ι → Option σ} {guard : σ → ι → Prop}
    (h : ∀ s label, guard s label) (s : σ) (labels : List ι) : GuardedM step guard s labels := by
  induction labels generalizing s with
  | nil => trivial
  | cons label labels ih => exact ⟨h s label, fun s' _ => ih s'⟩

/-- A machine that takes a step exactly under the guard goes through exactly the guarded runs. -/
theorem foldlM_ok_iff {ε : Type} {step : σ → ι → Option σ} {machine : σ → ι → Except ε σ} {guard : σ → ι → Prop}
    {allowed : ι → Prop} (I : σ → Prop)
    (hstep : ∀ s label, I s → allowed label → ∃ s', step s label = some s' ∧ I s' ∧
      (guard s label → machine s label = .ok s') ∧ (¬ guard s label → ∃ e, machine s label = .error e))
    {s : σ} {labels : List ι} (hs : I s) (hall : ∀ label ∈ labels, allowed label) :
    ((∃ s', labels.foldlM machine s = .ok s') ↔ GuardedM step guard s labels) ∧
      ∀ s', labels.foldlM machine s = .ok s' → labels.foldlM step s = some s' ∧ I s' := by
  induction labels generalizing s with
  | nil =>
    refine ⟨⟨fun _ => trivial, fun _ => ⟨s, rfl⟩⟩, fun s' hrun => ?_⟩
    cases hrun
    exact ⟨rfl, hs⟩
  | cons label labels ih =>
    obtain ⟨s₁, h1, hs₁, hok, hbad⟩ := hstep s label hs (hall label List.mem_cons_self)
    obtain ⟨hiff, hsame⟩ := ih hs₁ fun next hnext => hall next (List.mem_cons_of_mem _ hnext)
    by_cases hguard : guard s label
    · have hmachine : (label :: labels).foldlM machine s = labels.foldlM machine s₁ := by
        rw [List.foldlM_cons, hok hguard]
        rfl
      have hmodel : (label :: labels).foldlM step s = labels.foldlM step s₁ := by
        rw [List.foldlM_cons, h1]
        rfl
      rw [hmachine, hmodel]
      refine ⟨⟨fun hrun => ⟨hguard, fun s' hs' => ?_⟩, fun hrun => hiff.mpr (hrun.2 s₁ h1)⟩, hsame⟩
      cases h1.symm.trans hs'
      exact hiff.mp hrun
    · obtain ⟨e, he⟩ := hbad hguard
      have hstops : (label :: labels).foldlM machine s = .error e := by
        rw [List.foldlM_cons, he]
        rfl
      rw [hstops]
      refine ⟨⟨fun hrun => ?_, fun hrun => absurd hrun.1 hguard⟩, fun s' hrun => ?_⟩
      · obtain ⟨_, hrun⟩ := hrun
        cases hrun
      · cases hrun

/-- Turns that say whether to go on, so many at most. -/
def loop (turn : σ → Option (σ × Bool)) : ℕ → σ → Option σ
  | 0, s => some s
  | turns + 1, s => do
    match ← turn s with
    | (s, true) => loop turn turns s
    | (s, false) => return s

def EachTurn (turn : σ → Option (σ × Bool)) (guard : σ → Prop) : ℕ → σ → Prop
  | 0, _ => True
  | turns + 1, s => guard s ∧ ∀ s', turn s = some (s', true) → EachTurn turn guard turns s'

theorem loop_invariant {turn : σ → Option (σ × Bool)} {guard : σ → Prop} (I : σ → Prop)
    (hturn : ∀ s, I s → guard s → ∃ s' more, turn s = some (s', more) ∧ I s') {turns : ℕ} {s : σ}
    (hs : I s) (hg : EachTurn turn guard turns s) : ∃ s', loop turn turns s = some s' ∧ I s' := by
  induction turns generalizing s with
  | zero => exact ⟨s, rfl, hs⟩
  | succ turns ih =>
    obtain ⟨s₁, more, h1, hs₁⟩ := hturn s hs hg.1
    cases more with
    | false => exact ⟨s₁, by simp [loop, h1], hs₁⟩
    | true =>
      obtain ⟨s₂, h2, hs₂⟩ := ih hs₁ (hg.2 s₁ h1)
      exact ⟨s₂, by simp [loop, h1, h2], hs₂⟩

theorem eachTurn_always {turn : σ → Option (σ × Bool)} {guard : σ → Prop} (h : ∀ s, guard s)
    (turns : ℕ) (s : σ) : EachTurn turn guard turns s := by
  induction turns generalizing s with
  | zero => trivial
  | succ turns ih => exact ⟨h s, fun s' _ => ih s'⟩

instance decidableAfter {α : Type} (o : Option α) (p : α → Prop) [∀ a, Decidable (p a)] :
    Decidable (∀ a, o = some a → p a) :=
  match o with
  | none => isTrue fun _ h => nomatch h
  | some a => decidable_of_iff (p a) ⟨fun h _ ha => Option.some.inj ha ▸ h, fun h => h a rfl⟩

instance decidableAfterPair {α β : Type} [DecidableEq β] (o : Option (α × β)) (b : β)
    (p : α → Prop) [∀ a, Decidable (p a)] : Decidable (∀ a, o = some (a, b) → p a) :=
  decidable_of_iff (∀ r, o = some r → r.2 = b → p r.1)
    ⟨fun h a ha => h (a, b) ha rfl, fun h r hr hb => h r.1 (by rw [hr, ← hb])⟩

instance decidableGuardedM (step : σ → ι → Option σ) (guard : σ → ι → Prop)
    [∀ s label, Decidable (guard s label)] (s : σ) (labels : List ι) :
    Decidable (GuardedM step guard s labels) :=
  match labels with
  | [] => isTrue trivial
  | label :: labels =>
    have := fun s' => decidableGuardedM step guard s' labels
    inferInstanceAs (Decidable (guard s label ∧ ∀ s', step s label = some s' →
      GuardedM step guard s' labels))

instance decidableEachTurn (turn : σ → Option (σ × Bool)) (guard : σ → Prop)
    [∀ s, Decidable (guard s)] (turns : ℕ) (s : σ) : Decidable (EachTurn turn guard turns s) :=
  match turns with
  | 0 => isTrue trivial
  | turns + 1 =>
    have := fun s' => decidableEachTurn turn guard turns s'
    inferInstanceAs (Decidable (guard s ∧ ∀ s', turn s = some (s', true) →
      EachTurn turn guard turns s'))

end Snolc.GuardedRuns
