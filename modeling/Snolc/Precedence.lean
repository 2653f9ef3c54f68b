import Mathlib.Data.List.Basic
import Mathlib.Tactic.Common

set_option autoImplicit false

namespace Snolc.Precedence
variable {κ : Type}

def Preceded (first : κ) (later : κ → Prop) (events : List κ) : Prop :=
  ∀ before event after, events = before ++ event :: after → later event → first ∈ before

theorem Preceded.of_absent {first : κ} {later : κ → Prop} {events : List κ}
    (h : ∀ event ∈ events, ¬ later event) : Preceded first later events := by
  intro before event after he hl
  exact absurd hl (h event (by simp [he]))

theorem Preceded.initial {first : κ} {later : κ → Prop} {events front : List κ}
    (h : Preceded first later events) (hp : front <+: events) : Preceded first later front := by
  obtain ⟨rest, rfl⟩ := hp
  intro before event after he hl
  exact h before event (after ++ rest) (by simp [he]) hl

/-- Putting an event behind an occurrence of `first` keeps the precedence. -/
theorem Preceded.insert {first : κ} {later : κ → Prop} {front back : List κ} {event : κ}
    (h : Preceded first later (front ++ back)) (hf : first ∈ front ∨ ¬ later event) :
    Preceded first later (front ++ event :: back) := by
  intro before other after he hl
  rcases List.append_eq_append_iff.mp he with ⟨mid, hb, hm⟩ | ⟨mid, hb, hm⟩
  · cases mid with
    | nil =>
      simp only [List.nil_append, List.cons.injEq] at hm
      rw [hb, List.append_nil]
      rcases hf with hf | hf
      · exact hf
      · exact absurd hl (hm.1 ▸ hf)
    | cons x mid =>
      simp only [List.cons_append, List.cons.injEq] at hm
      have hfirst := h (front ++ mid) other after (by rw [hm.2, List.append_assoc]) hl
      rw [hb]
      rcases List.mem_append.mp hfirst with hx | hx
      · exact List.mem_append_left _ hx
      · exact List.mem_append_right _ (List.mem_cons_of_mem _ hx)
  · cases mid with
    | nil =>
      simp only [List.nil_append, List.cons.injEq] at hm
      rw [List.append_nil] at hb
      rcases hf with hf | hf
      · rw [← hb]; exact hf
      · exact absurd hl (hm.1 ▸ hf)
    | cons x mid =>
      simp only [List.cons_append, List.cons.injEq] at hm
      exact h before other (mid ++ back) (by rw [hb, ← hm.1]; simp) hl

theorem Preceded.snoc {first : κ} {later : κ → Prop} {events : List κ} {event : κ}
    (h : Preceded first later events) (hf : first ∈ events ∨ ¬ later event) :
    Preceded first later (events ++ [event]) := by
  rw [← List.append_nil events] at h
  exact h.insert hf

instance decidablePreceded [DecidableEq κ] (first : κ) (later : κ → Prop) [DecidablePred later]
    (events : List κ) : Decidable (Preceded first later events) :=
  decidable_of_iff (∀ i : Fin events.length, later events[i] → first ∈ events.take i) (by
    constructor
    · intro h before event after he hl
      subst he
      have := h ⟨before.length, by simp⟩
      simpa [hl] using this
    · intro h i hl
      refine h (events.take i) events[i] (events.drop (i + 1)) ?_ hl
      simp)

def Once (p : κ → Prop) (q : List κ → Prop) (events : List κ) : Prop :=
  ∃ before event after, events = before ++ event :: after ∧ p event ∧ q after

theorem Once.now {p : κ → Prop} {q : List κ → Prop} {event : κ} (events : List κ) (hp : p event) (hq : q []) :
    Once p q (events ++ [event]) :=
  ⟨events, event, [], rfl, hp, hq⟩

theorem Once.later {p : κ → Prop} {q r : List κ → Prop} {events : List κ} (h : Once p q events)
    (more : List κ) (hq : ∀ after, q after → r (after ++ more)) : Once p r (events ++ more) := by
  obtain ⟨before, event, after, rfl, hp, hafter⟩ := h
  exact ⟨before, event, after ++ more, by simp, hp, hq after hafter⟩

theorem Once.imp {p : κ → Prop} {q r : List κ → Prop} {events : List κ} (h : Once p q events)
    (hq : ∀ after, q after → r after) : Once p r events := by
  obtain ⟨before, event, after, rfl, hp, hafter⟩ := h
  exact ⟨before, event, after, rfl, hp, hq after hafter⟩

def Lawful (allowed : List κ → κ → Prop) (events : List κ) : Prop :=
  ∀ before event after, events = before ++ event :: after → allowed before event

theorem Lawful.nil {allowed : List κ → κ → Prop} : Lawful allowed [] := by
  intro before event after h
  simp at h

theorem Lawful.snoc {allowed : List κ → κ → Prop} {events : List κ} {event : κ}
    (h : Lawful allowed events) (ha : allowed events event) : Lawful allowed (events ++ [event]) := by
  intro before other after he
  rcases List.eq_nil_or_concat after with rfl | ⟨rest, last, rfl⟩
  · obtain ⟨rfl, hx⟩ := List.append_inj' he rfl
    cases hx
    exact ha
  · rw [List.concat_eq_append, ← List.cons_append, ← List.append_assoc] at he
    obtain ⟨rfl, -⟩ := List.append_inj' he rfl
    exact h before other rest rfl

theorem Lawful.append {allowed : List κ → κ → Prop} {events : List κ} (h : Lawful allowed events)
    (more : List κ) (ha : ∀ event ∈ more, ∀ before, allowed before event) : Lawful allowed (events ++ more) := by
  induction more generalizing events with
  | nil => simpa using h
  | cons event more ih =>
    have hs := h.snoc (ha event (by simp) events)
    have := ih hs fun e hm => ha e (by simp [hm])
    simpa using this

end Snolc.Precedence
