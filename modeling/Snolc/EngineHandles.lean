import Snolc.EngineFlowScope
import Mathlib.Data.List.Nodup

set_option autoImplicit false

namespace Snolc.CoreIo

def Registry.handles (r : Registry) : Table → List Handle
  | .streams => r.streams
  | .datagrams => r.datagrams

/-- No number is in a table twice, and the next `draws` numbers are free. -/
structure Registry.Sound (r : Registry) (draws : ℕ) : Prop where
  nodup : ∀ table, (r.handles table).Nodup
  free : ∀ table, ∀ i < draws, r.next + UInt64.ofNat i ∉ r.handles table

namespace Registry
variable (r : Registry) (handle : Handle)

@[simp] theorem remove_next (table : Table) : (r.remove handle table).next = r.next := by
  cases table <;> rfl

theorem handles_insert (table other : Table) :
    (r.insert handle table).handles other =
      if other = table then (r.handles table).insert handle else r.handles other := by
  cases table <;> cases other <;> rfl

theorem handles_remove (table other : Table) :
    (r.remove handle table).handles other =
      if other = table then (r.handles table).erase handle else r.handles other := by
  cases table <;> cases other <;> rfl

theorem register_cases (table : Table) (limit : ℕ) :
    (∃ e next, r.register table limit = (.error e, { r with next }) ∧ (next = r.next ∨ next = r.next + 1)) ∨
    r.register table limit = (.ok r.next, ({ r with next := r.next + 1 } : Registry).insert r.next table) := by
  unfold register
  dsimp only
  split
  · exact .inl ⟨_, r.next, rfl, .inl rfl⟩
  · split
    · exact .inl ⟨_, _, rfl, .inr rfl⟩
    · split
      · exact .inl ⟨_, _, rfl, .inr rfl⟩
      · exact .inr rfl

end Registry
end Snolc.CoreIo

namespace Snolc.Engine
open PollIo MuxFrame Mux AsyncTask WireFormat CoreIo ScriptedIo

abbrev TableHandle := Table × Handle

namespace Occurrence
variable {T : Type}

def attached : Occurrence T → List TableHandle
  | .call (.policyAttachFlow _ _ stack mux) (.ok _) => [(.streams, stack), (.streams, mux)]
  | .call (.policyAttachDatagramFlow _ _ stack mux) (.ok _) => [(.datagrams, stack), (.datagrams, mux)]
  | .call (.adapterAttachFlow _ _ stack) (.ok _) => [(.streams, stack)]
  | .call (.adapterAttachDatagram _ _ stack) (.ok _) => [(.datagrams, stack)]
  | _ => []

def policyRefuses : Occurrence T → Bool
  | .call (.policyAttachFlow _ _ _ _) (.error _) => true
  | .call (.policyAttachDatagramFlow _ _ _ _) (.error _) => true
  | _ => false

theorem idle_of_plain {c : ModuleCall} (h : c.attaches = false) (answer : c.Answer T) :
    (Occurrence.call c answer).attached = [] ∧ (Occurrence.call c answer).policyRefuses = false := by
  cases c <;> first | exact ⟨rfl, rfl⟩ | cases h

theorem idle_of_note {o : Occurrence T} (h : o.isCall = false) : o.attached = [] ∧ o.policyRefuses = false := by
  cases o with
  | call c answer => cases h
  | _ => exact ⟨rfl, rfl⟩

end Occurrence

section Ownership
variable {W T : Type}

/-- Whatever modules do during a call, they only close handles. -/
def OnlyCloses (W : Type) {T : Type} [Modules W T] : Prop :=
  ∀ (w : W) (c : ModuleCall) (r : Registry), ((Modules.answer w c).2.1.registry r).next = r.next ∧
    ∀ table, (((Modules.answer w c).2.1.registry r).handles table).Sublist (r.handles table)

def Spares (W : Type) {T : Type} [Modules W T] (x : TableHandle) : Prop :=
  ∀ (w : W) (c : ModuleCall) (r : Registry), x.2 ∈ r.handles x.1 →
    x.2 ∈ ((Modules.answer w c).2.1.registry r).handles x.1

def Live.attachedSince (m l : Live W T) : List TableHandle := (m.since l).flatMap Occurrence.attached

def Live.refusedSince (m l : Live W T) : Bool := (m.since l).any Occurrence.policyRefuses

def Live.handles (l : Live W T) (table : Table) : List Handle := l.host.registry.handles table

variable [Modules W T]

/-- What a poll may leave of the handles: those that were there and those that a module has
    accepted stay until a module closes them, and there are no others. -/
structure Owned (l l' : Live W T) : Prop where
  kept : ∀ x : TableHandle, x.2 ∈ l.handles x.1 → Spares W x → x.2 ∈ l'.handles x.1
  transferred : ∀ x ∈ l.attachedSince l', Spares W x → x.2 ∈ l'.handles x.1
  noLeak : ∀ x : TableHandle, x.2 ∈ l'.handles x.1 → x.2 ∈ l.handles x.1 ∨ x ∈ l.attachedSince l'

/-- The state while the engine still owns the handles `held`. The handles `torn` are those
    that a module has accepted and the engine takes back. -/
structure Holding (m l : Live W T) (draws : ℕ) (held torn : List TableHandle) : Prop where
  grows : Live.Grows m l
  nodup : ∀ table, (l.handles table).Nodup
  kept : ∀ x : TableHandle, x.2 ∈ m.handles x.1 → Spares W x → x.2 ∈ l.handles x.1
  transferred : ∀ x ∈ m.attachedSince l, x ∉ torn → Spares W x → x.2 ∈ l.handles x.1
  registered : ∀ x ∈ held, Spares W x → x.2 ∈ l.handles x.1
  origin : ∀ x : TableHandle, x.2 ∈ l.handles x.1 → x.2 ∈ m.handles x.1 ∨ x ∈ m.attachedSince l ∨ x ∈ held
  distinct : held.Nodup
  fresh : ∀ x ∈ held, x.2 ∉ m.handles x.1 ∧ (x ∈ m.attachedSince l → x ∈ torn)
  drawn : ∀ x ∈ m.attachedSince l, x.2 ∉ m.handles x.1
  taken : ∀ x ∈ torn, x ∈ m.attachedSince l ∧ m.refusedSince l = true ∧ (x ∈ held ∨ x.2 ∉ l.handles x.1)
  refused : m.refusedSince l = true → ∀ x ∈ m.attachedSince l, x ∈ torn
  small : draws ≤ 3
  room : ∀ i < draws, ∀ table, l.host.registry.next + UInt64.ofNat i ∉ m.handles table ∧
    (table, l.host.registry.next + UInt64.ofNat i) ∉ m.attachedSince l ∧
    (table, l.host.registry.next + UInt64.ofNat i) ∉ held

structure Closes (l l' : Live W T) : Prop where
  next : l'.host.registry.next = l.host.registry.next
  sub : ∀ table, (l'.handles table).Sublist (l.handles table)
  spared : ∀ x : TableHandle, x.2 ∈ l.handles x.1 → Spares W x → x.2 ∈ l'.handles x.1

theorem Closes.same {l l' : Live W T} (h : l'.host.registry = l.host.registry) : Closes l l' :=
  ⟨by rw [h], fun table => by rw [Live.handles, h]; exact List.Sublist.refl _,
    fun _ hx _ => by rw [Live.handles, h]; exact hx⟩

theorem Closes.call (hw : OnlyCloses W) (l : Live W T) (c : ModuleCall) : Closes l (l.call c).2 :=
  ⟨(hw l.host.modules c l.host.registry).1, (hw l.host.modules c l.host.registry).2,
    fun _ hx hs => hs l.host.modules c l.host.registry hx⟩

variable {m l l' : Live W T} {draws : ℕ} {held held' torn : List TableHandle}

omit [Modules W T] in
theorem since_more (hg : Live.Grows m l) {more : List (Occurrence T)} (ht : l'.host.trace = l.host.trace ++ more) :
    Live.Grows m l' ∧ m.attachedSince l' = m.attachedSince l ++ more.flatMap Occurrence.attached ∧
      m.refusedSince l' = (m.refusedSince l || more.any Occurrence.policyRefuses) := by
  have htrace : l'.host.trace = m.host.trace ++ (m.since l ++ more) := by rw [ht, hg, List.append_assoc]
  obtain ⟨hg', hs⟩ := Live.grows_of_append _ htrace
  refine ⟨hg', ?_, ?_⟩
  · rw [Live.attachedSince, hs, List.flatMap_append]
    rfl
  · rw [Live.refusedSince, hs, List.any_append]
    rfl

theorem Holding.act (h : Holding m l draws held torn) (hc : Closes l l') {more : List (Occurrence T)}
    (ht : l'.host.trace = l.host.trace ++ more) (moved : List TableHandle)
    (ha : more.flatMap Occurrence.attached = moved) (hr : more.any Occurrence.policyRefuses = false)
    (hp : held.Perm (moved ++ held')) (hm : moved = [] ∨ m.refusedSince l = false) : Holding m l' draws held' torn := by
  obtain ⟨hg, hat, href⟩ := since_more h.grows ht
  rw [ha] at hat
  rw [hr, Bool.or_false] at href
  have hin (x : TableHandle) : x ∈ held ↔ x ∈ moved ∨ x ∈ held' := by rw [hp.mem_iff, List.mem_append]
  have hdisjoint : (moved ++ held').Nodup := hp.nodup_iff.mp h.distinct
  have hmoved : m.refusedSince l = true → moved = [] := by
    intro ht
    rcases hm with hm | hm
    · exact hm
    · rw [ht] at hm
      cases hm
  refine
    { grows := hg
      nodup := fun table => (h.nodup table).sublist (hc.sub table)
      kept := fun x hx hs => hc.spared x (h.kept x hx hs) hs
      transferred := ?_
      registered := fun x hx hs => hc.spared x (h.registered x ((hin x).mpr (.inr hx)) hs) hs
      origin := ?_
      distinct := (List.nodup_append.mp hdisjoint).2.1
      fresh := ?_
      drawn := ?_
      taken := ?_
      refused := ?_
      small := h.small
      room := ?_ }
  · intro x hx hxt hs
    rw [hat, List.mem_append] at hx
    rcases hx with hx | hx
    · exact hc.spared x (h.transferred x hx hxt hs) hs
    · exact hc.spared x (h.registered x ((hin x).mpr (.inl hx)) hs) hs
  · intro x hx
    rw [hat, List.mem_append]
    rcases h.origin x ((hc.sub x.1).subset hx) with ho | ho | ho
    · exact .inl ho
    · exact .inr (.inl (.inl ho))
    · rcases (hin x).mp ho with ho | ho
      · exact .inr (.inl (.inr ho))
      · exact .inr (.inr ho)
  · intro x hx
    obtain ⟨hnew, hold⟩ := h.fresh x ((hin x).mpr (.inr hx))
    refine ⟨hnew, fun hxa => ?_⟩
    rw [hat, List.mem_append] at hxa
    rcases hxa with hxa | hxa
    · exact hold hxa
    · exact absurd rfl ((List.nodup_append.mp hdisjoint).2.2 x hxa x hx)
  · intro x hx
    rw [hat, List.mem_append] at hx
    rcases hx with hx | hx
    · exact h.drawn x hx
    · exact (h.fresh x ((hin x).mpr (.inl hx))).1
  · intro x hx
    obtain ⟨hxa, hxr, hxh⟩ := h.taken x hx
    rw [hat, href]
    refine ⟨List.mem_append_left _ hxa, hxr, hxh.imp (fun hxh => ?_) fun hxh hx' => hxh ((hc.sub x.1).subset hx')⟩
    rcases (hin x).mp hxh with hxm | hxm
    · rw [hmoved hxr] at hxm
      cases hxm
    · exact hxm
  · intro hxr x hx
    rw [href] at hxr
    rw [hat, hmoved hxr, List.append_nil] at hx
    exact h.refused hxr x hx
  · intro i hi table
    obtain ⟨h1, h2, h3⟩ := h.room i hi table
    rw [hc.next, hat, List.mem_append]
    refine ⟨h1, fun hx => ?_, fun hx => h3 ((hin _).mpr (.inr hx))⟩
    rcases hx with hx | hx
    · exact h2 hx
    · exact h3 ((hin _).mpr (.inl hx))

/-- The policy refuses its handles: what was accepted before goes back to the engine. -/
theorem Holding.refuse (h : Holding m l draws held []) (hc : Closes l l') {more : List (Occurrence T)}
    (ht : l'.host.trace = l.host.trace ++ more) (ha : more.flatMap Occurrence.attached = [])
    (hr : more.any Occurrence.policyRefuses = true) (hone : (m.attachedSince l).Nodup) :
    Holding m l' draws (m.attachedSince l ++ held) (m.attachedSince l) := by
  obtain ⟨hg, hat, href⟩ := since_more h.grows ht
  rw [ha, List.append_nil] at hat
  rw [hr, Bool.or_true] at href
  have hnone : ∀ x ∈ held, x ∉ m.attachedSince l := fun x hx hxa => List.not_mem_nil ((h.fresh x hx).2 hxa)
  refine
    { grows := hg
      nodup := fun table => (h.nodup table).sublist (hc.sub table)
      kept := fun x hx hs => hc.spared x (h.kept x hx hs) hs
      transferred := fun x hx hxt _ => absurd (hat ▸ hx) hxt
      registered := ?_
      origin := ?_
      distinct := List.nodup_append.mpr ⟨hone, h.distinct, fun x hxa y hy he => hnone y hy (he ▸ hxa)⟩
      fresh := ?_
      drawn := fun x hx => h.drawn x (hat ▸ hx)
      taken := fun x hx => ⟨by rwa [hat], href, .inl (List.mem_append_left _ hx)⟩
      refused := fun _ x hx => hat ▸ hx
      small := h.small
      room := ?_ }
  · intro x hx hs
    rcases List.mem_append.mp hx with hx | hx
    · exact hc.spared x (h.transferred x hx List.not_mem_nil hs) hs
    · exact hc.spared x (h.registered x hx hs) hs
  · intro x hx
    rw [hat, List.mem_append]
    rcases h.origin x ((hc.sub x.1).subset hx) with ho | ho | ho
    · exact .inl ho
    · exact .inr (.inl ho)
    · exact .inr (.inr (.inr ho))
  · intro x hx
    rw [hat]
    rcases List.mem_append.mp hx with hx | hx
    · exact ⟨h.drawn x hx, id⟩
    · exact ⟨(h.fresh x hx).1, id⟩
  · intro i hi table
    obtain ⟨h1, h2, h3⟩ := h.room i hi table
    rw [hc.next, hat, List.mem_append]
    exact ⟨h1, h2, fun hx => hx.elim h2 h3⟩

theorem Holding.perm (h : Holding m l draws held torn) (hp : held.Perm held') : Holding m l draws held' torn :=
  h.act (Closes.same rfl) (List.append_nil _).symm [] rfl rfl hp (.inl rfl)

theorem Holding.skip (h : Holding m l (draws + 1) held torn) {next : Handle}
    (hn : next = l.host.registry.next ∨ next = l.host.registry.next + 1) :
    Holding m (l.withRegistry { l.host.registry with next }) draws held torn := by
  have hhandles : ∀ table, (l.withRegistry { l.host.registry with next }).handles table = l.handles table := by
    intro table
    cases table <;> rfl
  refine
    { grows := h.grows
      nodup := fun table => by rw [hhandles]; exact h.nodup table
      kept := fun x hx hs => by rw [hhandles]; exact h.kept x hx hs
      transferred := fun x hx hxt hs => by rw [hhandles]; exact h.transferred x hx hxt hs
      registered := fun x hx hs => by rw [hhandles]; exact h.registered x hx hs
      origin := fun x hx => h.origin x (hhandles x.1 ▸ hx)
      distinct := h.distinct
      fresh := h.fresh
      drawn := h.drawn
      taken := fun x hx => by rw [hhandles]; exact h.taken x hx
      refused := h.refused
      small := Nat.le_of_succ_le h.small
      room := ?_ }
  intro i hi table
  change next + UInt64.ofNat i ∉ _ ∧ (table, next + UInt64.ofNat i) ∉ _ ∧ (table, next + UInt64.ofNat i) ∉ _
  rcases hn with rfl | rfl
  · exact h.room i (Nat.lt_succ_of_lt hi) table
  · have hshift : l.host.registry.next + 1 + UInt64.ofNat i = l.host.registry.next + UInt64.ofNat (i + 1) := by
      rw [UInt64.add_assoc, UInt64.add_comm 1, UInt64.ofNat_add]
      rfl
    rw [hshift]
    exact h.room (i + 1) (Nat.succ_lt_succ hi) table

theorem add_ofNat_ne {a : Handle} {i : ℕ} (hi : i < 3) : a + 1 + UInt64.ofNat i ≠ a := by
  intro h
  have hzero : (1 : UInt64) + UInt64.ofNat i = 0 := by
    rw [UInt64.add_assoc] at h
    exact (UInt64.add_right_inj a).mp (h.trans (UInt64.add_zero a).symm)
  have hcases : i = 0 ∨ i = 1 ∨ i = 2 := by omega
  rcases hcases with rfl | rfl | rfl <;> exact absurd hzero (by decide)

theorem Holding.register (h : Holding m l (draws + 1) held torn) (table : Table) :
    Holding m (l.withRegistry (({ l.host.registry with next := l.host.registry.next + 1 } : Registry).insert
      l.host.registry.next table)) draws ((table, l.host.registry.next) :: held) torn := by
  obtain ⟨hnew, hunattached, hunheld⟩ := h.room 0 (Nat.succ_pos draws) table
  have hzero : l.host.registry.next + UInt64.ofNat 0 = l.host.registry.next := UInt64.add_zero _
  rw [hzero] at hnew hunattached hunheld
  have hskip : Holding m (l.withRegistry { l.host.registry with next := l.host.registry.next + 1 }) draws held torn :=
    h.skip (.inr rfl)
  have hmem (x : TableHandle) : x.2 ∈ (l.withRegistry
      (({ l.host.registry with next := l.host.registry.next + 1 } : Registry).insert
        l.host.registry.next table)).handles x.1 ↔ x = (table, l.host.registry.next) ∨ x.2 ∈ l.handles x.1 := by
    obtain ⟨other, handle⟩ := x
    change handle ∈ (Registry.insert _ _ _).handles other ↔ _
    rw [Registry.handles_insert]
    split
    · next he =>
      subst he
      rw [List.mem_insert_iff]
      simp only [Prod.mk.injEq, true_and]
      cases other <;> rfl
    · next he =>
      simp only [Prod.mk.injEq, he, false_and, false_or]
      cases other <;> rfl
  refine
    { grows := h.grows
      nodup := ?_
      kept := fun x hx hs => (hmem x).mpr (.inr (h.kept x hx hs))
      transferred := fun x hx hxt hs => (hmem x).mpr (.inr (h.transferred x hx hxt hs))
      registered := ?_
      origin := ?_
      distinct := List.nodup_cons.mpr ⟨hunheld, h.distinct⟩
      fresh := ?_
      drawn := h.drawn
      taken := ?_
      refused := h.refused
      small := Nat.le_of_succ_le h.small
      room := ?_ }
  · intro other
    change ((Registry.insert _ _ _).handles other).Nodup
    rw [Registry.handles_insert]
    split
    · exact List.Nodup.insert (hskip.nodup table)
    · exact hskip.nodup other
  · intro x hx hs
    rcases List.mem_cons.mp hx with rfl | hx
    · exact (hmem _).mpr (.inl rfl)
    · exact (hmem x).mpr (.inr (h.registered x hx hs))
  · intro x hx
    rcases (hmem x).mp hx with rfl | hx
    · exact .inr (.inr List.mem_cons_self)
    · exact (h.origin x hx).imp_right fun ho => ho.imp_right (List.mem_cons_of_mem _)
  · intro x hx
    rcases List.mem_cons.mp hx with rfl | hx
    · exact ⟨hnew, fun hxa => absurd hxa hunattached⟩
    · exact h.fresh x hx
  · intro x hx
    obtain ⟨hxa, hxr, hxh⟩ := h.taken x hx
    refine ⟨hxa, hxr, hxh.imp (List.mem_cons_of_mem _) fun hxh hx' => ?_⟩
    rcases (hmem x).mp hx' with rfl | hx'
    · exact hunattached hxa
    · exact hxh hx'
  · intro i hi other
    obtain ⟨h1, h2, h3⟩ := hskip.room i hi other
    have hnext : (l.withRegistry (({ l.host.registry with next := l.host.registry.next + 1 } : Registry).insert
        l.host.registry.next table)).host.registry.next = l.host.registry.next + 1 := by
      cases table <;> rfl
    rw [hnext]
    refine ⟨h1, h2, fun hx => ?_⟩
    rcases List.mem_cons.mp hx with hx | hx
    · have hlt : i < 3 := Nat.lt_of_lt_of_le hi (Nat.le_of_succ_le h.small)
      exact add_ofNat_ne hlt (Prod.mk.inj hx).2
    · exact h3 hx

theorem Holding.remove {x : TableHandle} (h : Holding m l draws (x :: held) torn) :
    Holding m (l.withRegistry (l.host.registry.remove x.2 x.1)) draws held torn := by
  obtain ⟨hxnew, hxtorn⟩ := h.fresh x List.mem_cons_self
  obtain ⟨hxheld, hdistinct⟩ := List.nodup_cons.mp h.distinct
  have hmem (y : TableHandle) : y.2 ∈ (l.withRegistry (l.host.registry.remove x.2 x.1)).handles y.1 ↔
      y ≠ x ∧ y.2 ∈ l.handles y.1 := by
    obtain ⟨other, handle⟩ := y
    obtain ⟨table, gone⟩ := x
    change handle ∈ (Registry.remove _ _ _).handles other ↔ _
    rw [Registry.handles_remove]
    split
    · next he =>
      subst he
      have hnodup : (l.host.registry.handles other).Nodup := h.nodup other
      change handle ∈ (l.host.registry.handles other).erase gone ↔ _
      rw [hnodup.mem_erase_iff]
      simp only [ne_eq, Prod.mk.injEq, true_and]
      rfl
    · next he =>
      simp only [ne_eq, Prod.mk.injEq, he, false_and, not_false_eq_true, true_and]
      rfl
  refine
    { grows := h.grows
      nodup := ?_
      kept := ?_
      transferred := ?_
      registered := ?_
      origin := ?_
      distinct := hdistinct
      fresh := fun y hy => h.fresh y (List.mem_cons_of_mem _ hy)
      drawn := h.drawn
      taken := ?_
      refused := h.refused
      small := h.small
      room := ?_ }
  · intro other
    change ((Registry.remove _ _ _).handles other).Nodup
    rw [Registry.handles_remove]
    split
    · exact (h.nodup x.1).erase _
    · exact h.nodup other
  · intro y hy hs
    refine (hmem y).mpr ⟨?_, h.kept y hy hs⟩
    rintro rfl
    exact hxnew hy
  · intro y hy hyt hs
    refine (hmem y).mpr ⟨?_, h.transferred y hy hyt hs⟩
    rintro rfl
    exact hyt (hxtorn hy)
  · intro y hy hs
    refine (hmem y).mpr ⟨?_, h.registered y (List.mem_cons_of_mem _ hy) hs⟩
    rintro rfl
    exact hxheld hy
  · intro y hy
    obtain ⟨hne, hy⟩ := (hmem y).mp hy
    rcases h.origin y hy with ho | ho | ho
    · exact .inl ho
    · exact .inr (.inl ho)
    · exact .inr (.inr ((List.mem_cons.mp ho).resolve_left hne))
  · intro y hy
    obtain ⟨hya, hyr, hyh⟩ := h.taken y hy
    refine ⟨hya, hyr, ?_⟩
    rcases hyh with hyh | hyh
    · rcases List.mem_cons.mp hyh with rfl | hyh
      · exact .inr fun hin => ((hmem y).mp hin).1 rfl
      · exact .inl hyh
    · exact .inr fun hin => hyh ((hmem y).mp hin).2
  · intro i hi other
    obtain ⟨h1, h2, h3⟩ := h.room i hi other
    have hnext : (l.withRegistry (l.host.registry.remove x.2 x.1)).host.registry.next = l.host.registry.next :=
      Registry.remove_next _ _ _
    rw [hnext]
    exact ⟨h1, h2, fun hx => h3 (List.mem_cons_of_mem _ hx)⟩

theorem Holding.fewer (h : Holding m l draws held torn) {fewer : ℕ} (hf : fewer ≤ draws) :
    Holding m l fewer held torn :=
  { h with
    small := Nat.le_trans hf h.small
    room := fun i hi => h.room i (Nat.lt_of_lt_of_le hi hf) }

structure Waiting (m l : Live W T) (draws : ℕ) (held : List TableHandle) : Prop where
  holding : Holding m l draws held []
  attached : m.attachedSince l = []
  refused : m.refusedSince l = false

/-- How the registration of a flow ends: all handles are handed over, or none is kept. -/
def Attaching {α : Type} (m : Live W T) (held : List TableHandle) (r : Reply W T α) : Prop :=
  (∀ a, r.1 = .ok a → Holding m r.2 0 [] []) ∧ (∀ e, r.1 = .error e → ∃ torn, Holding m r.2 0 held torn)

theorem registering_attaching {α : Type} (h : Waiting m l (draws + 1) held) {table : Table} {limit : ℕ}
    {next : Handle → Live W T → Reply W T α}
    (hnext : ∀ handle l, Waiting m l draws ((table, handle) :: held) →
      Attaching m ((table, handle) :: held) (next handle l)) :
    Attaching m held (l.registering table limit next) := by
  unfold Live.registering
  rcases l.host.registry.register_cases table limit with ⟨e, number, hreg, hn⟩ | hreg <;> rw [hreg]
  · refine ⟨fun a ha => ?_, fun e' _ => ⟨[], (h.holding.skip hn).fewer (Nat.zero_le _)⟩⟩
    cases ha
  · obtain ⟨hok, herror⟩ := hnext l.host.registry.next _ ⟨h.holding.register table, h.attached, h.refused⟩
    dsimp only
    split <;> rename_i heq <;> rw [heq] at hok herror
    · refine ⟨hok, fun e he => ?_⟩
      cases he
    · refine ⟨fun a ha => ?_, fun e' _ => ?_⟩
      · cases ha
      · obtain ⟨torn, htorn⟩ := herror _ rfl
        exact ⟨torn, htorn.remove⟩

structure Offers (l : Live W T) (r : Except LoadError Unit × Live W T) (moved : List TableHandle) (policy : Bool) :
    Prop where
  closes : Closes l r.2
  more : ∃ o : Occurrence T, r.2.host.trace = l.host.trace ++ [o] ∧
    (∀ a, r.1 = .ok a → o.attached = moved ∧ o.policyRefuses = false) ∧
    (∀ e, r.1 = .error e → o.attached = [] ∧ o.policyRefuses = policy)

theorem offers_of_trace {r : Except LoadError Unit × Live W T} {moved : List TableHandle} {policy : Bool}
    {o : Except LoadError Unit → Occurrence T} (hcloses : Closes l r.2)
    (htrace : r.2.host.trace = l.host.trace ++ [o r.1])
    (hok : (o (.ok ())).attached = moved ∧ (o (.ok ())).policyRefuses = false)
    (herror : ∀ e, (o (.error e)).attached = [] ∧ (o (.error e)).policyRefuses = policy) :
    Offers l r moved policy := by
  refine ⟨hcloses, o r.1, htrace, fun a ha => ?_, fun e he => ?_⟩
  · rw [ha]
    exact hok
  · rw [he]
    exact herror e

section Calls
variable (hw : OnlyCloses W) (l : Live W T)
include hw

theorem adapterAttachFlow_offers (adapter : ℕ) (flow : UInt64) (stack : Handle) :
    Offers l (l.call (.adapterAttachFlow adapter flow stack)) [(.streams, stack)] false :=
  offers_of_trace (o := .call (.adapterAttachFlow adapter flow stack)) (Closes.call hw l _) (l.call_trace _)
    ⟨rfl, rfl⟩ fun _ => ⟨rfl, rfl⟩

theorem adapterAttachDatagram_offers (adapter : ℕ) (flow : UInt64) (stack : Handle) :
    Offers l (l.call (.adapterAttachDatagram adapter flow stack)) [(.datagrams, stack)] false :=
  offers_of_trace (o := .call (.adapterAttachDatagram adapter flow stack)) (Closes.call hw l _) (l.call_trace _)
    ⟨rfl, rfl⟩ fun _ => ⟨rfl, rfl⟩

theorem policyAttachFlow_offers (policy : ℕ) (session : UInt64) (stack mux : Handle) :
    Offers l (l.call (.policyAttachFlow policy session stack mux)) [(.streams, stack), (.streams, mux)] true :=
  offers_of_trace (o := .call (.policyAttachFlow policy session stack mux)) (Closes.call hw l _) (l.call_trace _)
    ⟨rfl, rfl⟩ fun _ => ⟨rfl, rfl⟩

theorem policyAttachDatagramFlow_offers (policy : ℕ) (session : UInt64) (stack mux : Handle) :
    Offers l (l.call (.policyAttachDatagramFlow policy session stack mux))
      [(.datagrams, stack), (.datagrams, mux)] true :=
  offers_of_trace (o := .call (.policyAttachDatagramFlow policy session stack mux)) (Closes.call hw l _)
    (l.call_trace _) ⟨rfl, rfl⟩ fun _ => ⟨rfl, rfl⟩

end Calls

/-- The last attach call of a flow hands over what the engine still holds. On a refusal by
    the policy the engine holds again what the adapter had accepted. -/
theorem attempt_last {α : Type} {r : Except LoadError Unit × Live W T} {moved : List TableHandle} {policy : Bool}
    (h : Holding m l draws held []) (hr : m.refusedSince l = false) (hn : (m.attachedSince l).Nodup)
    (hcall : Offers l r moved policy) (hp : held.Perm moved) (hq : policy = true ∨ m.attachedSince l = []) (a : α) :
    Attaching m (m.attachedSince l ++ held) (Live.attempt r fun l => (.ok a, l)) := by
  obtain ⟨answer, l₁⟩ := r
  obtain ⟨hc, o, htrace, hok, herror⟩ := hcall
  cases answer with
  | ok u =>
    refine ⟨fun _ _ => ?_, fun e he => ?_⟩
    · obtain ⟨hat, href⟩ := hok u rfl
      exact (h.act hc htrace moved (by simp [hat]) (by simp [href]) (by simpa using hp) (.inr hr)).fewer (Nat.zero_le _)
    · cases he
  | error e =>
    refine ⟨fun _ ha => ?_, fun _ _ => ?_⟩
    · cases ha
    · obtain ⟨hat, href⟩ := herror e rfl
      cases hpol : policy with
      | true =>
        exact ⟨_, (h.refuse hc htrace (by simp [hat]) (by simp [href, hpol]) hn).fewer (Nat.zero_le _)⟩
      | false =>
        have hnone : m.attachedSince l = [] := hq.resolve_left (by simp [hpol])
        rw [hnone, List.nil_append]
        exact ⟨[], (h.act hc htrace [] (by simp [hat]) (by simp [href, hpol]) (List.Perm.refl _)
          (.inl rfl)).fewer (Nat.zero_le _)⟩

theorem Attaching.left {α : Type} {r : Reply W T α} (h : Attaching m [] r) : ∃ torn, Holding m r.2 0 [] torn := by
  cases hr : r.1 with
  | ok a => exact ⟨[], h.1 a hr⟩
  | error e => exact h.2 e hr

theorem attempt_single {α : Type} {r : Except LoadError Unit × Live W T} {x : TableHandle}
    (h : Waiting m l draws [x]) (hcall : Offers l r [x] false) (a : α) :
    Attaching m [x] (Live.attempt r fun l => (.ok a, l)) := by
  have hlast := attempt_last h.holding h.refused (by rw [h.attached]; exact List.nodup_nil) hcall (List.Perm.refl _)
    (.inr h.attached) a
  rw [h.attached] at hlast
  exact hlast

theorem attempt_double {α : Type} {r : Except LoadError Unit × Live W T} {x y : TableHandle}
    (h : Waiting m l draws [y, x]) (hcall : Offers l r [x, y] true) (a : α) :
    Attaching m [y, x] (Live.attempt r fun l => (.ok a, l)) := by
  have hlast := attempt_last h.holding h.refused (by rw [h.attached]; exact List.nodup_nil) hcall
    (List.Perm.swap _ _ _) (.inl rfl) a
  rw [h.attached] at hlast
  exact hlast

theorem attempt_both {α : Type} {r : Except LoadError Unit × Live W T}
    {next : Live W T → Except LoadError Unit × Live W T} {x y z : TableHandle}
    (h : Waiting m l draws [z, y, x]) (hfirst : Offers l r [x] false)
    (hsecond : ∀ l, Offers l (next l) [y, z] true) (a : α) :
    Attaching m [z, y, x] (Live.attempt r fun l => Live.attempt (next l) fun l => (.ok a, l)) := by
  obtain ⟨answer, l₁⟩ := r
  obtain ⟨hc, o, htrace, hok, herror⟩ := hfirst
  cases answer with
  | ok u =>
    obtain ⟨hat, href⟩ := hok u rfl
    have hheld : Holding m l₁ draws [z, y] [] :=
      h.holding.act hc htrace [x] (by simp [hat]) (by simp [href])
        (List.perm_append_singleton x [z, y]) (.inr h.refused)
    obtain ⟨-, hattached, hrefused⟩ := since_more h.holding.grows htrace
    rw [h.attached, List.nil_append, List.flatMap_singleton, hat] at hattached
    rw [h.refused, Bool.false_or, List.any_cons, List.any_nil, href, Bool.or_false] at hrefused
    have hlast := attempt_last hheld hrefused (by rw [hattached]; exact List.nodup_singleton x) (hsecond l₁)
      (List.Perm.swap _ _ _) (.inl rfl) a
    rw [hattached] at hlast
    refine ⟨hlast.1, fun e he => ?_⟩
    obtain ⟨torn, htorn⟩ := hlast.2 e he
    exact ⟨torn, htorn.perm (List.perm_append_singleton x [z, y]).symm⟩
  | error e =>
    obtain ⟨hat, href⟩ := herror e rfl
    refine ⟨fun a ha => ?_, fun _ _ => ⟨[], ?_⟩⟩
    · cases ha
    · exact (h.holding.act hc htrace [] (by simp [hat]) (by simp [href]) (List.Perm.refl _)
        (.inl rfl)).fewer (Nat.zero_le _)

/-- What neither accepts nor refuses a handle moves none. -/
theorem Holding.still (h : Holding m l draws held torn) (hc : Closes l l') {more : List (Occurrence T)}
    (ht : l'.host.trace = l.host.trace ++ more) (hm : ∀ o ∈ more, o.attached = [] ∧ o.policyRefuses = false) :
    Holding m l' draws held torn ∧ m.attachedSince l' = m.attachedSince l ∧ m.refusedSince l' = m.refusedSince l := by
  have hat : more.flatMap Occurrence.attached = [] := List.flatMap_eq_nil_iff.mpr fun o ho => (hm o ho).1
  have href : more.any Occurrence.policyRefuses = false :=
    List.any_eq_false.mpr fun o ho => by rw [(hm o ho).2]; exact Bool.false_ne_true
  obtain ⟨-, hattached, hrefused⟩ := since_more h.grows ht
  refine ⟨h.act hc ht [] hat href (List.Perm.refl _) (.inl rfl), ?_, ?_⟩
  · rw [hattached, hat, List.append_nil]
  · rw [hrefused, href, Bool.or_false]

theorem Waiting.still (h : Waiting m l draws held) (hc : Closes l l') {more : List (Occurrence T)}
    (ht : l'.host.trace = l.host.trace ++ more) (hm : ∀ o ∈ more, o.attached = [] ∧ o.policyRefuses = false) :
    Waiting m l' draws held := by
  obtain ⟨hheld, hattached, hrefused⟩ := h.holding.still hc ht hm
  exact ⟨hheld, hattached.trans h.attached, hrefused.trans h.refused⟩

variable (hw : OnlyCloses W)
include hw

theorem attachPorts_attaching (b : TunnelBinding) (h : Waiting m l 3 []) (adapter : ℕ) (flow : UInt64)
    (ports : PendingPorts) : Attaching m [] (Live.attachPorts b l adapter flow ports) := by
  cases ports with
  | direct =>
    refine registering_attaching h fun mux l h => ?_
    exact attempt_single h (adapterAttachFlow_offers hw l adapter flow mux) mux
  | tcp =>
    refine registering_attaching h fun stack l h => registering_attaching h fun policy l h =>
      registering_attaching h fun mux l h => ?_
    exact attempt_both h (adapterAttachFlow_offers hw l adapter flow stack)
      (fun l => policyAttachFlow_offers hw l b.policy l.session.policySession policy mux) mux
  | udp =>
    refine registering_attaching h fun stack l h => registering_attaching h fun policy l h =>
      registering_attaching h fun mux l h => ?_
    exact attempt_both h (adapterAttachDatagram_offers hw l adapter flow stack)
      (fun l => policyAttachDatagramFlow_offers hw l b.policy l.session.policySession policy mux) mux

theorem attachOpened_attaching (b : TunnelBinding) (h : Waiting m l 3 []) (pending : PendingClientFlow)
    (port : ClientPolicyPort) : Attaching m [] (Live.attachOpened b l pending port) := by
  cases port with
  | direct =>
    simp only [Live.attachOpened]
    split
    · refine ⟨fun a ha => ?_, fun _ _ => ⟨[], h.holding.fewer (Nat.zero_le _)⟩⟩
      cases ha
    · refine registering_attaching h fun mux l h => ?_
      exact attempt_single h (adapterAttachFlow_offers hw l _ _ mux) mux
  | tcp | packetTcp =>
    refine registering_attaching h fun policy l h => registering_attaching h fun mux l h => ?_
    exact attempt_double h (policyAttachFlow_offers hw l b.policy l.session.policySession policy mux) mux
  | udp | packetUdp =>
    refine registering_attaching h fun policy l h => registering_attaching h fun mux l h => ?_
    exact attempt_double h (policyAttachDatagramFlow_offers hw l b.policy l.session.policySession policy mux) mux

theorem Waiting.call {held : List TableHandle} (h : Waiting m l draws held) {c : ModuleCall} (hc : c.attaches = false) :
    Waiting m (l.call c).2 draws held := by
  refine h.still (Closes.call hw l c) (l.call_trace c) fun o ho => ?_
  rw [List.mem_singleton] at ho
  subst ho
  exact Occurrence.idle_of_plain hc _

theorem clientPort_attaching (b : TunnelBinding) (h : Waiting m l 3 []) (pending : PendingClientFlow) :
    Attaching m [] (Live.clientPort b l pending) := by
  have herror : ∀ (l : Live W T) (e : SessionFlowError), Waiting m l 3 [] →
      Attaching m [] ((.error e, l) : Reply W T ClientPolicyPort) := by
    intro l e h
    refine ⟨fun a ha => ?_, fun _ _ => ⟨[], h.holding.fewer (Nat.zero_le _)⟩⟩
    cases ha
  have htcp := h.call hw (c := .stackOpenTcp (.ofRequest pending.request)) rfl
  have hudp := h.call hw (c := .stackOpenUdp (.ofRequest pending.request)) rfl
  unfold Live.clientPort
  split
  · exact herror l _ h
  · rename_i adapter flow _
    split
    · split
      · refine ⟨fun _ _ => h.holding.fewer (Nat.zero_le _), fun e he => ?_⟩
        cases he
      · split <;> rename_i heq <;> rw [heq] at htcp
        · exact herror _ _ htcp
        · refine registering_attaching htcp fun stack l h => ?_
          exact attempt_single h (adapterAttachFlow_offers hw l adapter flow stack) _
    · split <;> rename_i heq <;> rw [heq] at hudp
      · exact herror _ _ hudp
      · refine registering_attaching hudp fun stack l h => ?_
        exact attempt_single h (adapterAttachDatagram_offers hw l adapter flow stack) _
    · exact herror l _ h

theorem plain_of_still {I : Live W T → Prop}
    (hI : ∀ (l l' : Live W T) (more : List (Occurrence T)), I l → Closes l l' → l'.host.trace = l.host.trace ++ more →
      (∀ o ∈ more, o.attached = [] ∧ o.policyRefuses = false) → I l') : Plain I where
  call l c hc h := by
    refine hI l _ _ h (Closes.call hw l c) (l.call_trace c) fun o ho => ?_
    rw [List.mem_singleton] at ho
    subst ho
    exact Occurrence.idle_of_plain hc _
  session l s h := hI l _ [] h (Closes.same rfl) (List.append_nil _).symm fun o ho => absurd ho List.not_mem_nil
  note l o ho h := by
    refine hI l _ [o] h (Closes.same rfl) rfl fun o' ho' => ?_
    rw [List.mem_singleton] at ho'
    subst ho'
    exact Occurrence.idle_of_note ho
  operation l h := by
    have hreg : l.host.nextOperation.2.registry = l.host.registry := by
      unfold Host.nextOperation
      split <;> rfl
    have htrace : l.host.nextOperation.2.trace = l.host.trace ++ [] := by
      rw [List.append_nil]
      exact l.host.nextOperation_trace
    exact hI l _ [] h (Closes.same hreg) htrace fun o ho => absurd ho List.not_mem_nil

theorem waiting_phased (m : Live W T) :
    Phased (fun l => Waiting m l 3 []) (fun l => ∃ torn, Holding m l 0 [] torn) where
  before := plain_of_still hw fun _ _ _ h hc ht hm => h.still hc ht hm
  after := plain_of_still hw fun l l' more h hc ht hm => by
    obtain ⟨torn, h⟩ := h
    exact ⟨torn, (h.still hc ht hm).1⟩
  weaken _ h := ⟨[], h.holding.fewer (Nat.zero_le _)⟩
  ports b _ adapter flow ports h := (attachPorts_attaching hw b h adapter flow ports).left
  opened b _ pending port h := (attachOpened_attaching hw b h pending port).left
  client b _ pending h := (clientPort_attaching hw b h pending).left

omit hw in
theorem Waiting.start (h : l.host.registry.Sound 3) : Waiting l l 3 [] := by
  obtain ⟨hg, hs⟩ := Live.grows_of_append (l := l) [] (List.append_nil l.host.trace).symm
  have hat : l.attachedSince l = [] := by
    rw [Live.attachedSince, hs]
    rfl
  have href : l.refusedSince l = false := by
    rw [Live.refusedSince, hs]
    rfl
  refine ⟨⟨hg, h.nodup, fun x hx _ => hx, fun x hx => ?_, fun x hx => ?_, fun x hx => .inl hx, List.nodup_nil,
    fun x hx => ?_, fun x hx => ?_, fun x hx => ?_, fun hx => ?_, Nat.le_refl _, fun i hi table => ?_⟩, hat, href⟩
  · rw [hat] at hx
    cases hx
  · cases hx
  · cases hx
  · rw [hat] at hx
    cases hx
  · cases hx
  · rw [href] at hx
    cases hx
  · rw [hat]
    exact ⟨h.free table i hi, List.not_mem_nil, List.not_mem_nil⟩

/-- In a poll of either role, whatever its modules answer, every handle ends up with its owner
    exactly when the policy does not refuse a flow after its adapter has accepted a handle
    that it does not close itself. -/
theorem handles_owned_iff [AsyncIo T] (b : TunnelBinding) (l : Live W T) (hr : l.host.registry.Sound 3) :
    Owned l (Live.poll b l).2 ↔
      (l.refusedSince (Live.poll b l).2 = true → ∀ x ∈ l.attachedSince (Live.poll b l).2, ¬ Spares W x) := by
  obtain ⟨torn, h⟩ := (waiting_phased hw l).poll b (Waiting.start hr)
  constructor
  · intro ho hrefused x hx hs
    obtain ⟨-, -, hgone⟩ := h.taken x (h.refused hrefused x hx)
    exact (hgone.resolve_left List.not_mem_nil) (ho.transferred x hx hs)
  · intro hcond
    refine ⟨h.kept, fun x hx hs => ?_, fun x hx => ?_⟩
    · refine h.transferred x hx (fun hxt => ?_) hs
      obtain ⟨-, hrefused, -⟩ := h.taken x hxt
      exact hcond hrefused x hx hs
    · rcases h.origin x hx with ho | ho | ho
      · exact .inl ho
      · exact .inr ho
      · cases ho

end Ownership
theorem fixed_onlyCloses : OnlyCloses FixedModules := fun _ _ _ => ⟨rfl, fun _ => List.Sublist.refl _⟩

theorem fixed_spares (x : TableHandle) : Spares FixedModules x := fun _ _ _ hx => hx

theorem empty_sound : ({} : Registry).Sound 3 :=
  ⟨fun table => by cases table <;> exact List.nodup_nil, fun table i _ => by cases table <;> exact List.not_mem_nil⟩

/-- A server whose peer has been told that the flow is accepted, about to attach its ports. -/
def answeredFlow (modules : FixedModules) : Live FixedModules Script :=
  (sampleLive .server modules).setPending (some
    { request := sampleRequest
      metadata := .fromRequest sampleRequest
      stream := some { id := 3 }
      operation := 1
      admitted := true
      adapterCursor := 0
      resolvedAddresses := none
      resolvedCursor := 0
      resolutionComplete := true
      adapterFlow := some (0, 7)
      ports := some .tcp
      responseSent := true
      accepted := true })

theorem attached_flow_owned :
    Owned (answeredFlow {}) (Live.poll (sampleBinding .server) (answeredFlow {})).2 := by
  refine (handles_owned_iff fixed_onlyCloses _ _ empty_sound).mpr fun hrefused => ?_
  exact absurd hrefused (by decide +kernel)

/-- The adapter has accepted its handle when the policy refuses: the handle is gone. -/
theorem refused_flow_not_owned :
    ¬ Owned (answeredFlow { attachPolicy := .error (.moduleStatus 3) })
      (Live.poll (sampleBinding .server) (answeredFlow { attachPolicy := .error (.moduleStatus 3) })).2 := by
  intro h
  have hgone := h.transferred (.streams, 1) (by decide +kernel) (fixed_spares _)
  exact absurd hgone (by decide +kernel)

end Snolc.Engine
