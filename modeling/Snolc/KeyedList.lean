import Mathlib.Algebra.GroupWithZero.Nat
import Mathlib.Data.List.Perm.Basic
import Mathlib.Data.Nat.Notation
import Mathlib.Tactic.Common

set_option autoImplicit false

/-!
# Maps as lists of keyed entries

A hash map as the list of its entries, with no two of one key. Its order carries no
meaning: every law is up to permutation.
-/
namespace Snolc.KeyedList

variable {κ ν : Type} [DecidableEq κ]

def get (m : List (κ × ν)) (k : κ) : Option ν := (m.find? fun e => decide (e.1 = k)).map Prod.snd

def insert (m : List (κ × ν)) (k : κ) (v : ν) : List (κ × ν) :=
  (k, v) :: m.filter fun e => decide (e.1 ≠ k)

def remove (m : List (κ × ν)) (k : κ) : List (κ × ν) := m.filter fun e => decide (e.1 ≠ k)

def modify (m : List (κ × ν)) (k : κ) (f : ν → ν) : List (κ × ν) :=
  m.map fun e => if e.1 = k then (e.1, f e.2) else e

def Distinct (m : List (κ × ν)) : Prop := (m.map Prod.fst).Nodup

omit [DecidableEq κ] in
theorem key_mem {m : List (κ × ν)} {k : κ} {v : ν} (h : (k, v) ∈ m) : k ∈ m.map Prod.fst :=
  List.mem_map.mpr ⟨(k, v), h, rfl⟩

omit [DecidableEq κ] in
theorem Distinct.unique {m : List (κ × ν)} (h : Distinct m) {k : κ} {v w : ν} (hv : (k, v) ∈ m)
    (hw : (k, w) ∈ m) : v = w := by
  induction m with
  | nil => cases hv
  | cons e m ih =>
    obtain ⟨hno, hrest⟩ := List.nodup_cons.mp h
    rcases List.mem_cons.mp hv with rfl | hv'
    · rcases List.mem_cons.mp hw with hw' | hw'
      · exact (Prod.mk.inj hw').2.symm
      · exact absurd (key_mem hw') hno
    · rcases List.mem_cons.mp hw with rfl | hw'
      · exact absurd (key_mem hv') hno
      · exact ih hrest hv' hw'

theorem mem_of_get {m : List (κ × ν)} {k : κ} {v : ν} (h : get m k = some v) : (k, v) ∈ m := by
  unfold get at h
  obtain ⟨e, he, rfl⟩ := Option.map_eq_some_iff.mp h
  have hk : e.1 = k := by simpa using List.find?_some he
  subst hk
  exact List.mem_of_find?_eq_some he

theorem get_eq_none {m : List (κ × ν)} {k : κ} : get m k = none ↔ ∀ v, (k, v) ∉ m := by
  unfold get
  rw [Option.map_eq_none_iff, List.find?_eq_none]
  constructor
  · intro h v hv
    exact h (k, v) hv (decide_eq_true rfl)
  · rintro h ⟨k', v⟩ he
    simp only [decide_eq_true_eq]
    rintro rfl
    exact h v he

theorem get_eq_some {m : List (κ × ν)} (hm : Distinct m) {k : κ} {v : ν} :
    get m k = some v ↔ (k, v) ∈ m := by
  refine ⟨mem_of_get, fun h => ?_⟩
  cases hg : get m k with
  | none => exact absurd h (get_eq_none.mp hg v)
  | some w => rw [hm.unique (mem_of_get hg) h]

theorem filter_ne_of_absent {m : List (κ × ν)} {k : κ} (h : ∀ v, (k, v) ∉ m) :
    (m.filter fun e => decide (e.1 ≠ k)) = m := by
  rw [List.filter_eq_self]
  rintro ⟨k', v⟩ he
  simp only [decide_eq_true_eq]
  rintro rfl
  exact h v he

theorem insert_absent {m : List (κ × ν)} {k : κ} (h : ∀ v, (k, v) ∉ m) (v : ν) :
    insert m k v = (k, v) :: m := by
  rw [insert, filter_ne_of_absent h]

omit [DecidableEq κ] in
theorem Distinct.cons {m : List (κ × ν)} (h : Distinct m) {k : κ} (hk : ∀ v, (k, v) ∉ m) (v : ν) :
    Distinct ((k, v) :: m) := by
  refine List.nodup_cons.mpr ⟨fun hm => ?_, h⟩
  obtain ⟨⟨k', w⟩, he, rfl⟩ := List.mem_map.mp hm
  exact hk w he

theorem perm_remove {m : List (κ × ν)} (hm : Distinct m) {k : κ} {v : ν} (h : (k, v) ∈ m) :
    m.Perm ((k, v) :: remove m k) := by
  induction m with
  | nil => cases h
  | cons e m ih =>
    obtain ⟨hno, hrest⟩ := List.nodup_cons.mp hm
    rcases List.mem_cons.mp h with rfl | h'
    · have habs : ∀ w, (k, w) ∉ m := fun w hw => hno (key_mem hw)
      rw [remove, List.filter_cons_of_neg (by simp), filter_ne_of_absent habs]
    · have hne : e.1 ≠ k := by
        rintro rfl
        exact hno (key_mem h')
      rw [remove, List.filter_cons_of_pos (by simpa using hne)]
      exact ((ih hrest h').cons e).trans (List.Perm.swap _ _ _)

theorem mem_remove {m : List (κ × ν)} {k k' : κ} {v : ν} :
    (k', v) ∈ remove m k ↔ k' ≠ k ∧ (k', v) ∈ m := by
  simp [remove, and_comm]

theorem Distinct.modify {m : List (κ × ν)} (h : Distinct m) (k : κ) (f : ν → ν) :
    Distinct (KeyedList.modify m k f) := by
  have hkeys : (KeyedList.modify m k f).map Prod.fst = m.map Prod.fst := by
    simp only [KeyedList.modify, List.map_map]
    apply List.map_congr_left
    intro e _
    simp only [Function.comp_apply]
    split <;> rfl
  rw [Distinct, hkeys]
  exact h

theorem Distinct.remove {m : List (κ × ν)} (h : Distinct m) (k : κ) :
    Distinct (KeyedList.remove m k) :=
  (List.filter_sublist.map Prod.fst).nodup h

theorem perm_modify {m : List (κ × ν)} (hm : Distinct m) {k : κ} {v : ν} (h : (k, v) ∈ m)
    (f : ν → ν) : (modify m k f).Perm ((k, f v) :: remove m k) := by
  induction m with
  | nil => cases h
  | cons e m ih =>
    obtain ⟨hno, hrest⟩ := List.nodup_cons.mp hm
    rcases List.mem_cons.mp h with rfl | h'
    · have habs : ∀ w, (k, w) ∉ m := fun w hw => hno (key_mem hw)
      have hsame : modify m k f = m := by
        rw [modify, List.map_congr_left (g := id), List.map_id]
        rintro ⟨k', w⟩ he
        refine if_neg ?_
        rintro rfl
        exact habs w he
      rw [show modify ((k, v) :: m) k f = (k, f v) :: modify m k f by simp [modify], hsame, remove,
        List.filter_cons_of_neg (by simp), filter_ne_of_absent habs]
    · have hne : e.1 ≠ k := by
        rintro rfl
        exact hno (key_mem h')
      rw [show modify (e :: m) k f = e :: modify m k f by simp [modify, hne], remove,
        List.filter_cons_of_pos (by simpa using hne)]
      exact ((ih hrest h').cons e).trans (List.Perm.swap _ _ _)

theorem mem_modify {m : List (κ × ν)} (hm : Distinct m) {k : κ} {v : ν} (h : (k, v) ∈ m)
    {f : ν → ν} {k' : κ} {w : ν} :
    (k', w) ∈ modify m k f ↔ (k' = k ∧ w = f v) ∨ (k' ≠ k ∧ (k', w) ∈ m) := by
  rw [(perm_modify hm h f).mem_iff, List.mem_cons, mem_remove, Prod.mk.injEq]

theorem get_cons (e : κ × ν) (m : List (κ × ν)) (k : κ) : get (e :: m) k = if e.1 = k then some e.2 else get m k := by
  unfold get
  by_cases h : e.1 = k
  · rw [List.find?_cons_of_pos (by simpa using h), if_pos h]
    rfl
  · rw [List.find?_cons_of_neg (by simpa using h), if_neg h]

theorem get_modify (m : List (κ × ν)) (k : κ) (f : ν → ν) (k' : κ) :
    get (modify m k f) k' = if k' = k then (get m k').map f else get m k' := by
  induction m with
  | nil => simp [modify, get]
  | cons e m ih =>
    have hcons : modify (e :: m) k f = (if e.1 = k then (e.1, f e.2) else e) :: modify m k f := rfl
    rw [hcons, get_cons, get_cons, ih]
    by_cases hek : e.1 = k
    · subst hek
      by_cases hk : k' = e.1
      · simp [hk]
      · simp [hk, Ne.symm hk]
    · by_cases he : e.1 = k'
      · subst he
        simp [hek]
      · simp [hek, he]

theorem get_remove (m : List (κ × ν)) (k k' : κ) : get (remove m k) k' = if k' = k then none else get m k' := by
  split
  · next h => exact get_eq_none.mpr fun v hv => (mem_remove.mp hv).1 h
  · next h =>
    induction m with
    | nil => rfl
    | cons e m ih =>
      by_cases he : e.1 = k
      · have hother : e.1 ≠ k' := fun hek => h (hek.symm.trans he)
        rw [remove, List.filter_cons_of_neg (by simpa using he), get_cons, if_neg hother]
        exact ih
      · rw [remove, List.filter_cons_of_pos (by simpa using he), get_cons, get_cons]
        exact if_congr Iff.rfl rfl ih

theorem get_insert_self (m : List (κ × ν)) (k : κ) (v : ν) : get (insert m k v) k = some v := by
  rw [insert, get_cons, if_pos rfl]

theorem get_insert_of_ne (m : List (κ × ν)) {k k' : κ} (h : k' ≠ k) (v : ν) : get (insert m k v) k' = get m k' := by
  rw [insert, get_cons, if_neg (fun he => h he.symm)]
  exact (get_remove m k k').trans (if_neg h)

theorem get_none_of_absent {m : List (κ × ν)} {k : κ} (h : k ∉ m.map Prod.fst) : get m k = none :=
  get_eq_none.mpr fun _ hv => h (key_mem hv)

omit [DecidableEq κ] in
theorem keys_filterMap_sublist (m : List (κ × ν)) (f : κ → ν → Option ν) :
    ((m.filterMap fun e => (f e.1 e.2).map fun v => (e.1, v)).map Prod.fst).Sublist (m.map Prod.fst) := by
  induction m with
  | nil => exact List.Sublist.slnil
  | cons e m ih =>
    rw [List.filterMap_cons]
    cases f e.1 e.2 with
    | none => exact ih.cons _
    | some v => exact ih.cons_cons _

omit [DecidableEq κ] in
theorem Distinct.filterMap {m : List (κ × ν)} (h : Distinct m) (f : κ → ν → Option ν) :
    Distinct (m.filterMap fun e => (f e.1 e.2).map fun v => (e.1, v)) :=
  (keys_filterMap_sublist m f).nodup h

theorem get_filterMap {m : List (κ × ν)} (hm : Distinct m) (f : κ → ν → Option ν) (k : κ) :
    get (m.filterMap fun e => (f e.1 e.2).map fun v => (e.1, v)) k = (get m k).bind (f k) := by
  induction m with
  | nil => rfl
  | cons e m ih =>
    obtain ⟨hno, hrest⟩ := List.nodup_cons.mp hm
    rw [List.filterMap_cons, get_cons]
    by_cases he : e.1 = k
    · subst he
      have hgone : get (m.filterMap fun e => (f e.1 e.2).map fun v => (e.1, v)) e.1 = none :=
        get_none_of_absent fun hm' => hno ((keys_filterMap_sublist m f).subset hm')
      rw [if_pos rfl, Option.bind_some]
      cases hf : f e.1 e.2 with
      | none => exact hgone
      | some v => rw [Option.map_some, get_cons, if_pos rfl]
    · rw [if_neg he, ← ih hrest]
      cases f e.1 e.2 with
      | none => rfl
      | some v => rw [Option.map_some, get_cons, if_neg he]

/-- What the entries give, restricted to the entry of one key. -/
theorem filterMap_of_key {β : Type} {m : List (κ × ν)} (hm : Distinct m) (g : κ → ν → Option β) (key : β → κ)
    (hg : ∀ k v b, g k v = some b → key b = k) (k : κ) :
    ((m.filterMap fun e => g e.1 e.2).filter fun b => decide (key b = k)) = ((get m k).bind (g k)).toList := by
  induction m with
  | nil => rfl
  | cons e m ih =>
    obtain ⟨hno, hrest⟩ := List.nodup_cons.mp hm
    have hih := ih hrest
    rw [List.filterMap_cons, get_cons]
    by_cases he : e.1 = k
    · subst he
      rw [get_none_of_absent hno, Option.bind_none, Option.toList_none] at hih
      rw [if_pos rfl, Option.bind_some]
      cases hb : g e.1 e.2 with
      | none => exact hih
      | some b => rw [List.filter_cons_of_pos (by simpa using hg _ _ _ hb), hih, Option.toList_some]
    · rw [if_neg he, ← hih]
      cases hb : g e.1 e.2 with
      | none => rfl
      | some b => rw [List.filter_cons_of_neg (by rw [hg _ _ _ hb]; simpa using he)]

omit [DecidableEq κ] in
theorem key_filterMap_sublist {β : Type} (m : List (κ × ν)) (g : κ → ν → Option β) (key : β → κ)
    (hg : ∀ k v b, g k v = some b → key b = k) :
    ((m.filterMap fun e => g e.1 e.2).map key).Sublist (m.map Prod.fst) := by
  induction m with
  | nil => exact List.Sublist.slnil
  | cons e m ih =>
    rw [List.filterMap_cons]
    cases hb : g e.1 e.2 with
    | none => exact ih.cons _
    | some b =>
      rw [List.map_cons, hg _ _ _ hb]
      exact ih.cons_cons _

end Snolc.KeyedList
