import Snolc.GuardedRuns

set_option autoImplicit false

namespace Snolc.QueueLogs
open GuardedRuns

variable {σ ι β : Type}

/-- What went out and what is held now, out of what was held and what came in. -/
def Passes (held out held' arrived : List β) : Prop := (out ++ held').Sublist (held ++ arrived)

namespace Passes

variable {q q₀ q₁ q₂ out out' arrived arrived' : List β}

theorem refl (q : List β) : Passes q [] q [] := by
  rw [Passes, List.nil_append, List.append_nil]

theorem of_sublist (h : q₁.Sublist q₀) : Passes q₀ [] q₁ [] := by
  rw [Passes, List.nil_append, List.append_nil]
  exact h

theorem of_append (h : q₁ = q₀ ++ arrived) : Passes q₀ [] q₁ arrived := by
  rw [Passes, List.nil_append, h]

theorem trans (h : Passes q₀ out q₁ arrived) (h' : Passes q₁ out' q₂ arrived') :
    Passes q₀ (out ++ out') q₂ (arrived ++ arrived') := by
  have hlater : (out ++ (out' ++ q₂)).Sublist (out ++ (q₁ ++ arrived')) := h'.append_left out
  have hearlier : ((out ++ q₁) ++ arrived').Sublist ((q₀ ++ arrived) ++ arrived') :=
    h.append_right arrived'
  rw [← List.append_assoc, ← List.append_assoc] at hlater
  rw [Passes, ← List.append_assoc]
  exact hlater.trans hearlier

theorem lose (h : Passes q₀ out q₁ arrived) (hless : q₂.Sublist q₁) : Passes q₀ out q₂ arrived :=
  List.Sublist.trans (hless.append_left out) h

theorem after_loss (hless : q₁.Sublist q₀) (h : Passes q₁ out q₂ arrived) :
    Passes q₀ out q₂ arrived :=
  List.Sublist.trans h (hless.append_right arrived)

theorem out_sublist (h : Passes [] out q arrived) : out.Sublist arrived :=
  List.Sublist.trans (List.sublist_append_left out q) h

end Passes

def loopLog (turn : σ → Option (σ × Bool)) (log : σ → List β) : ℕ → σ → List β
  | 0, _ => []
  | turns + 1, s =>
    log s ++
      match turn s with
      | some (s', true) => loopLog turn log turns s'
      | _ => []

def runLog (step : σ → ι → Option σ) (log : σ → ι → List β) : σ → List ι → List β
  | _, [] => []
  | s, label :: labels => log s label ++ (step s label).elim [] fun s' => runLog step log s' labels

theorem loop_passes (held : σ → List β) {turn : σ → Option (σ × Bool)} {arrived : σ → List β} (I : σ → Prop)
    (hturn : ∀ s, I s → ∃ s' more, turn s = some (s', more) ∧ I s' ∧
      Passes (held s) [] (held s') (arrived s)) (turns : ℕ) {s : σ} (hs : I s) :
    ∃ s', loop turn turns s = some s' ∧ I s' ∧
      Passes (held s) [] (held s') (loopLog turn arrived turns s) := by
  induction turns generalizing s with
  | zero => exact ⟨s, rfl, hs, Passes.refl _⟩
  | succ turns ih =>
    obtain ⟨s₁, more, h1, hs₁, hp⟩ := hturn s hs
    cases more with
    | false =>
      refine ⟨s₁, by simp [loop, h1], hs₁, ?_⟩
      simpa [loopLog, h1] using hp
    | true =>
      obtain ⟨s₂, h2, hs₂, hrest⟩ := ih hs₁
      refine ⟨s₂, by simp [loop, h1, h2], hs₂, ?_⟩
      simpa [loopLog, h1] using hp.trans hrest

theorem run_passes (held : σ → List β) {step : σ → ι → Option σ} {out arrived : σ → ι → List β} (I : σ → Prop)
    (hstep : ∀ s label, I s → ∃ s', step s label = some s' ∧ I s' ∧
      Passes (held s) (out s label) (held s') (arrived s label)) {s : σ} (hs : I s)
    (labels : List ι) : ∃ s', labels.foldlM step s = some s' ∧ I s' ∧
      Passes (held s) (runLog step out s labels) (held s') (runLog step arrived s labels) := by
  induction labels generalizing s with
  | nil => exact ⟨s, rfl, hs, Passes.refl _⟩
  | cons label labels ih =>
    obtain ⟨s₁, h1, hs₁, hp⟩ := hstep s label hs
    obtain ⟨s₂, h2, hs₂, hrest⟩ := ih hs₁
    refine ⟨s₂, by rw [List.foldlM_cons, h1]; exact h2, hs₂, ?_⟩
    simp only [runLog, h1, Option.elim_some]
    exact hp.trans hrest

end Snolc.QueueLogs
