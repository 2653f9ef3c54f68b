import Snolc.GuardedRuns

set_option autoImplicit false

namespace Snolc.PartialPosts

variable {α β σ ι : Type}

def Yields (o : Option α) (P : α → Prop) : Prop := ∀ a, o = some a → P a

theorem yields_none {P : α → Prop} : Yields none P := by
  intro a h
  cases h

theorem yields_some {P : α → Prop} {a : α} (h : P a) : Yields (some a) P := by
  intro b hb
  cases hb
  exact h

theorem Yields.mono {o : Option α} {P Q : α → Prop} (h : Yields o P) (hpq : ∀ a, P a → Q a) :
    Yields o Q := fun a ha => hpq a (h a ha)

theorem Yields.bind {o : Option α} {P : α → Prop} {f : α → Option β} {Q : β → Prop}
    (h : Yields o P) (hf : ∀ a, P a → Yields (f a) Q) : Yields (o >>= f) Q := by
  intro b hb
  obtain ⟨a, ha, hfa⟩ := Option.bind_eq_some_iff.mp hb
  exact hf a (h a ha) b hfa

theorem Yields.of_bind {o : Option α} {f : α → Option β} {Q : β → Prop}
    (hf : ∀ a, Yields (f a) Q) : Yields (o >>= f) Q := by
  intro b hb
  obtain ⟨a, -, hfa⟩ := Option.bind_eq_some_iff.mp hb
  exact hf a b hfa

theorem Yields.of_some {o : Option α} {f : α → Option β} {Q : β → Prop}
    (hf : ∀ a, o = some a → Yields (f a) Q) : Yields (o >>= f) Q := by
  intro b hb
  obtain ⟨a, ha, hfa⟩ := Option.bind_eq_some_iff.mp hb
  exact hf a ha b hfa

theorem yields_map {o : Option α} {f : α → β} {P : β → Prop} (h : Yields o fun a => P (f a)) :
    Yields (o.map f) P := by
  intro b hb
  obtain ⟨a, ha, rfl⟩ := Option.map_eq_some_iff.mp hb
  exact h a ha

theorem yields_foldlM {step : σ → ι → Option σ} (I : σ → Prop)
    (hstep : ∀ s label, I s → Yields (step s label) I) (labels : List ι) {s : σ} (hs : I s) :
    Yields (labels.foldlM step s) I := by
  induction labels generalizing s with
  | nil => exact yields_some hs
  | cons label labels ih =>
    rw [List.foldlM_cons]
    exact (hstep s label hs).bind fun s' hs' => ih hs'

theorem yields_loop {turn : σ → Option (σ × Bool)} {guard : σ → Prop} (I : σ → Prop)
    (hturn : ∀ s, I s → guard s → Yields (turn s) fun r => I r.1) {turns : ℕ} {s : σ} (hs : I s)
    (hg : GuardedRuns.EachTurn turn guard turns s) : Yields (GuardedRuns.loop turn turns s) I := by
  induction turns generalizing s with
  | zero => exact yields_some hs
  | succ turns ih =>
    intro s' hrun
    unfold GuardedRuns.loop at hrun
    obtain ⟨⟨s₁, more⟩, hfirst, hrest⟩ := Option.bind_eq_some_iff.mp hrun
    have hs₁ : I s₁ := hturn s hs hg.1 (s₁, more) hfirst
    cases more with
    | false =>
      cases hrest
      exact hs₁
    | true => exact ih hs₁ (hg.2 s₁ hfirst) s' hrest

theorem yields_guarded {step : σ → ι → Option σ} {guard : σ → ι → Prop} (I : σ → Prop)
    (hstep : ∀ s label, I s → guard s label → Yields (step s label) I) {labels : List ι} {s : σ}
    (hs : I s) (hg : GuardedRuns.GuardedM step guard s labels) :
    Yields (labels.foldlM step s) I := by
  induction labels generalizing s with
  | nil => exact yields_some hs
  | cons label labels ih =>
    intro s' hrun
    rw [List.foldlM_cons] at hrun
    obtain ⟨s₁, hfirst, hrest⟩ := Option.bind_eq_some_iff.mp hrun
    exact ih (hstep s label hs hg.1 s₁ hfirst) (hg.2 s₁ hfirst) s' hrest

end Snolc.PartialPosts
