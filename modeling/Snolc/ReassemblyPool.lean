import Snolc.ReassemblySlots

set_option autoImplicit false

namespace Snolc.Stack
open CheckedSlice Ipv6ReassemblySlot

structure SoundSlots (slots : List Ipv6ReassemblySlot) : Prop where
  sound : ∀ slot ∈ slots, slot.Sound
  distinct : ∀ (i j : ℕ) (s t : Ipv6ReassemblySlot) (key : Ipv6FragmentKey),
    slots[i]? = some s → slots[j]? = some t → s.key = some key → t.key = some key → i = j

theorem soundSlots_new (slots timeoutMs : ℕ) :
    SoundSlots (Ipv6Reassembly.new slots timeoutMs).slots where
  sound slot hslot := by
    rw [List.eq_of_mem_replicate hslot]
    exact new_sound
  distinct i j s t key hi _ hs _ := by
    have hm := List.mem_of_getElem? hi
    rw [List.eq_of_mem_replicate hm] at hs
    cases hs

theorem expire_key {slot : Ipv6ReassemblySlot} {nowMs : ℕ} {key : Ipv6FragmentKey}
    (h : (slot.expire nowMs).key = some key) : slot.key = some key ∧ slot.expire nowMs = slot := by
  unfold expire at h ⊢
  split at h
  · cases h
  · next hn => exact ⟨h, if_neg hn⟩

theorem SoundSlots.expire {slots : List Ipv6ReassemblySlot} (hs : SoundSlots slots) (nowMs : ℕ) :
    SoundSlots (slots.map (Ipv6ReassemblySlot.expire nowMs)) where
  sound slot hslot := by
    obtain ⟨s, hm, rfl⟩ := List.mem_map.mp hslot
    exact expire_sound (hs.sound s hm) nowMs
  distinct i j s t key hi hj hks hkt := by
    rw [List.getElem?_map, Option.map_eq_some_iff] at hi hj
    obtain ⟨s', hi, rfl⟩ := hi
    obtain ⟨t', hj, rfl⟩ := hj
    exact hs.distinct i j s' t' key hi hj (expire_key hks).1 (expire_key hkt).1

theorem getElem?_set_cases {α : Type} {xs : List α} {i c : ℕ} {y u : α}
    (h : (xs.set i y)[c]? = some u) : c = i ∧ u = y ∨ c ≠ i ∧ xs[c]? = some u := by
  rw [List.getElem?_set] at h
  split at h
  · next hic =>
    split at h
    · exact .inl ⟨hic.symm, (Option.some.inj h).symm⟩
    · cases h
  · next hic => exact .inr ⟨Ne.symm hic, h⟩

/-- A slot reachable by a fragment: the one with its key, or a free one if there is none. -/
def Reaches (slots : List Ipv6ReassemblySlot) (key : Ipv6FragmentKey) (slot : Ipv6ReassemblySlot) :
    Prop :=
  slot.key = some key ∨ slot.key = none ∧ ∀ s ∈ slots, s.key ≠ some key

theorem Reaches.key {slots : List Ipv6ReassemblySlot} {key : Ipv6FragmentKey}
    {slot : Ipv6ReassemblySlot} (h : Reaches slots key slot) :
    slot.key = none ∨ slot.key = some key := by
  rcases h with h | h
  · exact .inr h
  · exact .inl h.1

theorem Reaches.only {slots : List Ipv6ReassemblySlot} {key : Ipv6FragmentKey}
    {slot u : Ipv6ReassemblySlot} {i c : ℕ} (h : Reaches slots key slot) (hs : SoundSlots slots)
    (hi : slots[i]? = some slot) (hc : slots[c]? = some u) (hu : u.key = some key) : c = i := by
  rcases h with h | ⟨-, h⟩
  · exact hs.distinct c i u slot key hc hi hu h
  · exact absurd hu (h u (List.mem_of_getElem? hc))

theorem SoundSlots.set {slots : List Ipv6ReassemblySlot} (hs : SoundSlots slots) {i : ℕ}
    {slot slot' : Ipv6ReassemblySlot} {key : Ipv6FragmentKey} (hi : slots[i]? = some slot)
    (hreach : Reaches slots key slot)
    (hs' : slot'.Sound) (hk' : slot'.key = none ∨ slot'.key = some key) :
    SoundSlots (slots.set i slot') where
  sound s hm := by
    rcases List.mem_or_eq_of_mem_set hm with h | rfl
    · exact hs.sound s h
    · exact hs'
  distinct a b s t k ha hb hks hkt := by
    have here : slot'.key = some k → k = key := by
      intro h
      rcases hk' with h' | h'
      · rw [h'] at h
        cases h
      · exact Option.some.inj (h.symm.trans h')
    rcases getElem?_set_cases ha with ⟨rfl, rfl⟩ | ⟨-, ha'⟩
    · rcases getElem?_set_cases hb with ⟨rfl, -⟩ | ⟨-, hb'⟩
      · rfl
      · exact (hreach.only hs hi hb' (here hks ▸ hkt)).symm
    · rcases getElem?_set_cases hb with ⟨rfl, rfl⟩ | ⟨-, hb'⟩
      · exact hreach.only hs hi ha' (here hkt ▸ hks)
      · exact hs.distinct a b s t k ha' hb' hks hkt

theorem findComplete_spec (key : Ipv6FragmentKey) {slots : List Ipv6ReassemblySlot}
    (hs : ∀ slot ∈ slots, slot.Sound) :
    (∃ i slot, findComplete key slots = some (some i) ∧ slots[i]? = some slot ∧
      slot.key = some key ∧ slot.Complete) ∨
    (findComplete key slots = some none ∧ ∀ slot ∈ slots, slot.key = some key → ¬ slot.Complete) := by
  induction slots with
  | nil => exact .inr ⟨rfl, fun _ h => nomatch h⟩
  | cons slot slots ih =>
    have hslot := hs slot List.mem_cons_self
    by_cases hhere : slot.key = some key ∧ slot.Complete
    · refine .inl ⟨0, slot, ?_, rfl, hhere⟩
      simp [findComplete, hhere.1, (isComplete_spec hslot).1 hhere.2]
    · have hskip : findComplete key (slot :: slots) =
          (findComplete key slots).map fun found => found.map (· + 1) := by
        by_cases hk : slot.key = some key
        · have hn : ¬ slot.Complete := fun hc => hhere ⟨hk, hc⟩
          rw [findComplete, if_pos hk, (isComplete_spec hslot).2 hn]
          cases findComplete key slots <;> rfl
        · rw [findComplete, if_neg hk]
          cases findComplete key slots <;> rfl
      rcases ih fun s hm => hs s (List.mem_cons_of_mem slot hm) with ⟨i, s, hf, hi, hk, hc⟩ | ⟨hf, hno⟩
      · refine .inl ⟨i + 1, s, ?_, hi, hk, hc⟩
        rw [hskip, hf]
        rfl
      · refine .inr ⟨by rw [hskip, hf]; rfl, fun s hm hk => ?_⟩
        rcases List.mem_cons.mp hm with rfl | hm
        · exact fun hc => hhere ⟨hk, hc⟩
        · exact hno s hm hk

def Serves (slot : Ipv6ReassemblySlot) (packet : List UInt8) (f : Ipv6Fragment)
    (nowMs timeoutMs available : ℕ) (slot' : Ipv6ReassemblySlot) (out : ReassemblyOutcome) :
    Prop :=
  (slot.Complete ∧ slot.deliver available = some (slot', out)) ∨
    (¬ slot.Complete ∧ slot.accept packet f nowMs timeoutMs available = some (slot', out))

theorem serves_total {slot : Ipv6ReassemblySlot} {packet : List UInt8} {f : Ipv6Fragment}
    (hs : slot.Sound) (hf : f.Located packet) (hk : slot.key = none ∨ slot.key = some f.key)
    (nowMs timeoutMs available : ℕ) :
    ∃ slot' out, Serves slot packet f nowMs timeoutMs available slot' out := by
  have delivers : ∀ s : Ipv6ReassemblySlot, s.Sound → ∃ s' out,
      s.deliver available = some (s', out) := by
    intro s hs
    rcases deliver_cases hs available with ⟨-, h⟩ | ⟨-, h⟩ | ⟨_, _, _, -, -, -, h, -⟩
    · exact ⟨_, _, h⟩
    · exact ⟨_, _, h⟩
    · exact ⟨_, _, h⟩
  by_cases hc : slot.Complete
  · obtain ⟨s', out, h⟩ := delivers slot hs
    exact ⟨s', out, .inl ⟨hc, h⟩⟩
  · rcases accept_cases hs hf hk nowMs timeoutMs available with
      ⟨left, h, -⟩ | ⟨joined, written, hj, ha, hw, h⟩
    · exact ⟨_, _, .inr ⟨hc, h⟩⟩
    · obtain ⟨hjs, hjk⟩ := hj.sound hs hf
      have hheld : joined.key ≠ none := by rw [hjk]; exact Option.some_ne_none _
      obtain ⟨s', out, hd⟩ := delivers written (hw.sound hjs hheld ha)
      exact ⟨s', out, .inr ⟨hc, h.trans hd⟩⟩

theorem chosen_spec (slots : List Ipv6ReassemblySlot) (key : Ipv6FragmentKey) :
    (∃ i slot, (slots.findIdx? fun slot => decide (slot.key = some key)).or
        (slots.findIdx? fun slot => decide (slot.key = none)) = some i ∧
      slots[i]? = some slot ∧ Reaches slots key slot) ∨
    ((slots.findIdx? fun slot => decide (slot.key = some key)).or
        (slots.findIdx? fun slot => decide (slot.key = none)) = none ∧
      ∀ slot ∈ slots, slot.key ≠ some key ∧ slot.key ≠ none) := by
  cases hown : slots.findIdx? fun slot => decide (slot.key = some key) with
  | some i =>
    obtain ⟨hlt, hp, -⟩ := List.findIdx?_eq_some_iff_getElem.mp hown
    exact .inl ⟨i, slots[i], rfl, List.getElem?_eq_getElem hlt, .inl (of_decide_eq_true hp)⟩
  | none =>
    have hno : ∀ slot ∈ slots, slot.key ≠ some key := by
      intro slot hm
      simpa using List.findIdx?_eq_none_iff.mp hown slot hm
    cases hfree : slots.findIdx? fun slot => decide (slot.key = none) with
    | some i =>
      obtain ⟨hlt, hp, -⟩ := List.findIdx?_eq_some_iff_getElem.mp hfree
      exact .inl ⟨i, slots[i], rfl, List.getElem?_eq_getElem hlt, .inr ⟨of_decide_eq_true hp, hno⟩⟩
    | none =>
      refine .inr ⟨rfl, fun slot hm => ⟨hno slot hm, ?_⟩⟩
      simpa using List.findIdx?_eq_none_iff.mp hfree slot hm

/-- The slot a fragment is served from does not depend on the room there is. -/
theorem ingest_chosen {r : Ipv6Reassembly} {packet : List UInt8} {f : Ipv6Fragment}
    (hr : SoundSlots r.slots) (hf : ipv6Fragment packet = some (.ok (some f)))
    (hl : f.Located packet) (nowMs : ℕ) :
    (∃ i slot, (r.slots.map (expire nowMs))[i]? = some slot ∧
      Reaches (r.slots.map (expire nowMs)) f.key slot ∧ ∀ available, ∃ slot' out,
        Serves slot packet f nowMs r.timeoutMs available slot' out ∧
        r.ingest packet nowMs available =
          some ({ r with slots := (r.slots.map (expire nowMs)).set i slot' }, out)) ∨
    ((∀ slot ∈ r.slots.map (expire nowMs), slot.key ≠ some f.key ∧ slot.key ≠ none) ∧
      ∀ available, r.ingest packet nowMs available =
        some ({ r with slots := r.slots.map (expire nowMs) }, .dropped)) := by
  have hes := hr.expire nowMs
  unfold Ipv6Reassembly.ingest
  generalize r.slots.map (expire nowMs) = slots at hes
  simp only [hf, Option.bind_eq_bind, Option.bind_some]
  rcases findComplete_spec f.key hes.sound with ⟨i, slot, hfind, hi, hk, hc⟩ | ⟨hfind, hno⟩
  · have hslot := hes.sound slot (List.mem_of_getElem? hi)
    refine .inl ⟨i, slot, hi, .inl hk, fun available => ?_⟩
    obtain ⟨slot', out, hserve⟩ := serves_total hslot hl (.inr hk) nowMs r.timeoutMs available
    refine ⟨slot', out, hserve, ?_⟩
    rcases hserve with ⟨-, hd⟩ | ⟨hn, -⟩
    · rw [deliver_complete hslot hc, Option.map_eq_some_iff] at hd
      obtain ⟨q, hq, heq⟩ := hd
      cases heq
      simp only [hfind, Option.bind_some, hi, hq]
      rfl
    · exact absurd hc hn
  · rcases chosen_spec slots f.key with ⟨i, slot, hchosen, hi, hreach⟩ | ⟨hchosen, hfull⟩
    · have hslot := hes.sound slot (List.mem_of_getElem? hi)
      refine .inl ⟨i, slot, hi, hreach, fun available => ?_⟩
      obtain ⟨slot', out, hserve⟩ := serves_total hslot hl hreach.key nowMs r.timeoutMs available
      refine ⟨slot', out, hserve, ?_⟩
      rcases hserve with ⟨hc, -⟩ | ⟨-, hacc⟩
      · rcases hreach with hk | ⟨hk, -⟩
        · exact absurd hc (hno slot (List.mem_of_getElem? hi) hk)
        · exact absurd hk (hc.held hslot)
      · simp only [hfind, Option.bind_some, hchosen, hi, hacc]
        rfl
    · refine .inr ⟨hfull, fun available => ?_⟩
      simp only [hfind, Option.bind_some, hchosen]
      rfl

theorem ingest_fragment {r : Ipv6Reassembly} {packet : List UInt8} {f : Ipv6Fragment}
    (hr : SoundSlots r.slots) (hf : ipv6Fragment packet = some (.ok (some f)))
    (hl : f.Located packet) (nowMs available : ℕ) :
    (∃ i slot slot' out, (r.slots.map (expire nowMs))[i]? = some slot ∧
      Reaches (r.slots.map (expire nowMs)) f.key slot ∧
      Serves slot packet f nowMs r.timeoutMs available slot' out ∧
      r.ingest packet nowMs available =
        some ({ r with slots := (r.slots.map (expire nowMs)).set i slot' }, out)) ∨
    ((∀ slot ∈ r.slots.map (expire nowMs), slot.key ≠ some f.key ∧ slot.key ≠ none) ∧
      r.ingest packet nowMs available =
        some ({ r with slots := r.slots.map (expire nowMs) }, .dropped)) := by
  rcases ingest_chosen hr hf hl nowMs with ⟨i, slot, hi, hreach, hrest⟩ | ⟨hfull, hrest⟩
  · obtain ⟨slot', out, hserve, hin⟩ := hrest available
    exact .inl ⟨i, slot, slot', out, hi, hreach, hserve, hin⟩
  · exact .inr ⟨hfull, hrest available⟩

def fragmentOf (packet : List UInt8) : Option Ipv6Fragment :=
  match ipv6Fragment packet with
  | some (.ok found) => found
  | _ => none

theorem fragmentOf_eq_some {packet : List UInt8} {f : Ipv6Fragment}
    (h : fragmentOf packet = some f) :
    ipv6Fragment packet = some (.ok (some f)) ∧ f.Located packet := by
  obtain ⟨out, hout, hloc⟩ := ipv6Fragment_sane packet
  unfold fragmentOf at h
  rw [hout] at h
  match out, h with
  | .ok (some g), h =>
    cases h
    exact ⟨hout, hloc f rfl⟩

theorem ingest_other {packet : List UInt8} (h : fragmentOf packet = none) (r : Ipv6Reassembly)
    (nowMs available : ℕ) : ∃ out, r.ingest packet nowMs available = some (r, out) := by
  obtain ⟨out, hout, -⟩ := ipv6Fragment_sane packet
  unfold fragmentOf at h
  rw [hout] at h
  match out, h with
  | .ok none, _ => exact ⟨.packet packet, by simp [Ipv6Reassembly.ingest, hout]⟩
  | .error (), _ => exact ⟨.dropped, by simp [Ipv6Reassembly.ingest, hout]⟩

theorem serves_sound {slot slot' : Ipv6ReassemblySlot} {packet : List UInt8} {f : Ipv6Fragment}
    {nowMs timeoutMs available : ℕ} {out : ReassemblyOutcome} (hs : slot.Sound)
    (hl : f.Located packet) (hk : slot.key = none ∨ slot.key = some f.key)
    (hserve : Serves slot packet f nowMs timeoutMs available slot' out) :
    slot'.Sound ∧ (slot'.key = none ∨ slot'.key = some f.key) := by
  have delivered : ∀ s : Ipv6ReassemblySlot, s.Sound → s.key = none ∨ s.key = some f.key →
      s.deliver available = some (slot', out) →
      slot'.Sound ∧ (slot'.key = none ∨ slot'.key = some f.key) := by
    intro s hs hk hd
    rcases deliver_cases hs available with ⟨-, h⟩ | ⟨-, h⟩ | ⟨_, buffer, _, -, -, -, h, hbuf, -⟩
    · cases hd.symm.trans h
      exact ⟨hs, hk⟩
    · cases hd.symm.trans h
      exact ⟨hs, hk⟩
    · cases hd.symm.trans h
      exact ⟨clear_sound hbuf hs.received_length, .inl rfl⟩
  rcases hserve with ⟨-, hd⟩ | ⟨-, hacc⟩
  · exact delivered slot hs hk hd
  · rcases accept_cases hs hl hk nowMs timeoutMs available with
      ⟨left, h, hp, hr⟩ | ⟨joined, written, hj, ha, hw, h⟩
    · cases hacc.symm.trans h
      exact ⟨clear_sound hp hr, .inl rfl⟩
    · obtain ⟨hjs, hjk⟩ := hj.sound hs hl
      have hheld : joined.key ≠ none := by rw [hjk]; exact Option.some_ne_none _
      exact delivered written (hw.sound hjs hheld ha) (.inr (hw.key.trans hjk)) (h.symm.trans hacc)

/-- What a call leaves of the slots: a key it is not about keeps its slot until it
expires, and no key comes in but the fragment's own. -/
theorem ingest_frame {r : Ipv6Reassembly} (hr : SoundSlots r.slots) (packet : List UInt8)
    (nowMs available : ℕ) :
    ∃ r' out, r.ingest packet nowMs available = some (r', out) ∧ SoundSlots r'.slots ∧
      r'.timeoutMs = r.timeoutMs ∧ r'.slots.length = r.slots.length ∧
      (∀ s' ∈ r'.slots, ∀ key, s'.key = some key →
        (∃ s ∈ r.slots, s.key = some key) ∨ ∃ f, fragmentOf packet = some f ∧ f.key = key) ∧
      ∀ s ∈ r.slots, ∀ key, s.key = some key → nowMs < s.expiresAtMs →
        (∀ f, fragmentOf packet = some f → f.key ≠ key) → s ∈ r'.slots := by
  cases hf : fragmentOf packet with
  | none =>
    obtain ⟨out, hin⟩ := ingest_other hf r nowMs available
    exact ⟨r, out, hin, hr, rfl, rfl, fun s hs key hk => .inl ⟨s, hs, hk⟩, fun s hs _ _ _ _ => hs⟩
  | some f =>
    obtain ⟨hwalk, hl⟩ := fragmentOf_eq_some hf
    have hes := hr.expire nowMs
    have old : ∀ s ∈ r.slots.map (expire nowMs), ∀ key, s.key = some key →
        ∃ s ∈ r.slots, s.key = some key := by
      intro s hs key hk
      obtain ⟨t, ht, rfl⟩ := List.mem_map.mp hs
      exact ⟨t, ht, (expire_key hk).1⟩
    have stays : ∀ s ∈ r.slots, nowMs < s.expiresAtMs → s ∈ r.slots.map (expire nowMs) := by
      intro s hs htime
      refine List.mem_map.mpr ⟨s, hs, if_neg ?_⟩
      omega
    rcases ingest_fragment hr hwalk hl nowMs available with
      ⟨i, slot, slot', out, hi, hreach, hserve, hin⟩ | ⟨-, hin⟩
    · have hslot := hes.sound slot (List.mem_of_getElem? hi)
      obtain ⟨hs', hk'⟩ := serves_sound hslot hl hreach.key hserve
      refine ⟨_, out, hin, hes.set hi hreach hs' hk', rfl, by simp, ?_, ?_⟩
      · intro s hs key hk
        rcases List.mem_or_eq_of_mem_set hs with h | rfl
        · exact .inl (old s h key hk)
        · rcases hk' with h | h
          · rw [h] at hk
            cases hk
          · exact .inr ⟨f, rfl, Option.some.inj (h.symm.trans hk)⟩
      · intro s hs key hk htime hother
        obtain ⟨c, hc⟩ := List.mem_iff_getElem?.mp (stays s hs htime)
        refine List.mem_iff_getElem?.mpr ⟨c, ?_⟩
        rw [List.getElem?_set_ne]
        · exact hc
        · rintro rfl
          cases hi.symm.trans hc
          rcases hreach.key with h | h
          · rw [h] at hk
            cases hk
          · exact hother f rfl (Option.some.inj (h.symm.trans hk))
    · exact ⟨_, .dropped, hin, hes, rfl, by simp, fun s hs key hk => .inl (old s hs key hk),
        fun s hs _ _ htime _ => stays s hs htime⟩

structure Call where
  packet : List UInt8
  nowMs : ℕ
  available : ℕ
  deriving DecidableEq, Repr

structure Event where
  call : Call
  outcome : ReassemblyOutcome
  deriving DecidableEq, Repr

def Ipv6Reassembly.run (r : Ipv6Reassembly) : List Call → Option (Ipv6Reassembly × List Event)
  | [] => some (r, [])
  | c :: calls => do
    let (r, out) ← r.ingest c.packet c.nowMs c.available
    let (r, log) ← r.run calls
    return (r, ⟨c, out⟩ :: log)

end Snolc.Stack
