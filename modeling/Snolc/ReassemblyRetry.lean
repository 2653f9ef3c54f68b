import Snolc.ReassemblyRoundTrip
import Snolc.StackAccounts
import Snolc.StackFrames

set_option autoImplicit false

namespace Snolc.Stack
open CheckedSlice GuardedRuns PartialPosts Ipv6ReassemblySlot

namespace Ipv6ReassemblySlot

/-- The slot gives out `p` as soon as there is room for it, and is free from then on. -/
structure Gives (slot : Ipv6ReassemblySlot) (p : List UInt8) : Prop where
  complete : slot.Complete
  short : ∀ room, room < p.length → slot.takePacket room = some (slot, none)
  enough : ∃ freed, freed.key = none ∧
    ∀ room, p.length ≤ room → slot.takePacket room = some (freed, some p)

theorem takePacket_room {slot : Ipv6ReassemblySlot} {total room room' : ℕ}
    (htotal : slot.totalFragmentLen = some total) (hsum : slot.prefixLen + total ≤ wordMax)
    (hroom : slot.prefixLen + total ≤ room) (hroom' : slot.prefixLen + total ≤ room') :
    slot.takePacket room = slot.takePacket room' := by
  simp only [takePacket, htotal, checkedAdd_of_le hsum, Nat.not_lt.mpr hroom,
    Nat.not_lt.mpr hroom', if_false]

theorem Complete.gives {slot : Ipv6ReassemblySlot} (hs : slot.Sound) (hc : slot.Complete) :
    ∃ p, slot.Gives p := by
  obtain ⟨total, htotal, -⟩ := id hc
  have hle := hs.total_le (hc.held hs) total htotal
  have hsum : slot.prefixLen + total ≤ wordMax := Nat.le_trans hle (by decide)
  obtain ⟨buffer, p, htake, -, hlen, -⟩ := takePacket_taken hs hc htotal (Nat.le_refl _)
  refine ⟨p, hc, fun room hroom => ?_, clear { slot with packet := buffer }, rfl,
    fun room hroom => ?_⟩
  · exact takePacket_short hs hc htotal (by omega)
  · rw [← htake]
    exact takePacket_room htotal hsum (by omega) (Nat.le_refl _)

theorem takePacket_none (slot : Ipv6ReassemblySlot) (available : ℕ) :
    Yields (slot.takePacket available) fun q => q.2 = none → q.1 = slot := by
  refine Yields.of_bind fun complete => ?_
  split
  · exact yields_some fun _ => rfl
  split
  · exact yields_some fun _ => rfl
  split
  · exact yields_some fun _ => rfl
  split
  · exact yields_some fun _ => rfl
  split
  · exact yields_some fun _ => rfl
  dsimp only
  split
  · exact yields_some fun _ => rfl
  · refine Yields.of_bind fun _ => Yields.of_bind fun _ => Yields.of_bind fun _ => ?_
    refine yields_some fun h => ?_
    cases h

theorem deliver_pending {slot slot' : Ipv6ReassemblySlot} {available : ℕ}
    (h : slot.deliver available = some (slot', .pending)) :
    slot' = slot ∧ slot.isComplete = some true := by
  cases hc : slot.isComplete with
  | none => simp [deliver, hc] at h
  | some complete =>
    cases complete with
    | false => simp [deliver, hc] at h
    | true =>
      cases htake : slot.takePacket available with
      | none => simp [deliver, hc, htake] at h
      | some q =>
        obtain ⟨left, packet⟩ := q
        cases packet with
        | none =>
          have hleft := takePacket_none slot available _ htake rfl
          simp only [deliver, hc, htake, Option.bind_eq_bind, Option.bind_some, if_true] at h
          cases h
          exact ⟨hleft, rfl⟩
        | some p => simp [deliver, hc, htake, outcome] at h

theorem Gives.deliver {slot : Ipv6ReassemblySlot} {p : List UInt8} (hg : slot.Gives p)
    (hs : slot.Sound) :
    (∀ room, room < p.length → slot.deliver room = some (slot, .pending)) ∧
    ∃ freed, freed.key = none ∧
      ∀ room, p.length ≤ room → slot.deliver room = some (freed, .packet p) := by
  constructor
  · intro room hroom
    rw [deliver_complete hs hg.complete, hg.short room hroom]
    rfl
  · obtain ⟨freed, hfree, htake⟩ := hg.enough
    refine ⟨freed, hfree, fun room hroom => ?_⟩
    rw [deliver_complete hs hg.complete, htake room hroom]
    rfl

/-- The room there is matters only once the fragment has been stored. -/
theorem accept_pending {slot slot' : Ipv6ReassemblySlot} {packet : List UInt8} {f : Ipv6Fragment}
    {nowMs timeoutMs available : ℕ}
    (h : slot.accept packet f nowMs timeoutMs available = some (slot', .pending)) :
    ∃ written, ∀ room, slot.accept packet f nowMs timeoutMs room = deliver written room := by
  unfold accept at h ⊢
  cases hjoin : slot.join packet f nowMs timeoutMs with
  | none => simp [hjoin] at h
  | some res =>
    cases res with
    | error left => simp [hjoin] at h
    | ok joined =>
      simp only [hjoin, Option.bind_eq_bind, Option.bind_some] at h ⊢
      unfold place at h ⊢
      cases hadd : checkedAdd f.offset f.payload.length with
      | none => simp [hadd] at h
      | some stop =>
        cases href : joined.refuses f stop with
        | true => simp [hadd, href] at h
        | false =>
          cases hwrite : joined.write f stop with
          | none => simp [hadd, href, hwrite] at h
          | some res =>
            cases res with
            | error left => simp [hadd, href, hwrite] at h
            | ok written => exact ⟨written, fun room => by simp [href, hwrite]⟩

end Ipv6ReassemblySlot

theorem Serves.unique {slot a b : Ipv6ReassemblySlot} {packet : List UInt8} {f : Ipv6Fragment}
    {nowMs timeoutMs available : ℕ} {out out' : ReassemblyOutcome}
    (h : Serves slot packet f nowMs timeoutMs available a out)
    (h' : Serves slot packet f nowMs timeoutMs available b out') : a = b ∧ out = out' := by
  rcases h with ⟨hc, h⟩ | ⟨hn, h⟩
  · rcases h' with ⟨-, h'⟩ | ⟨hn, -⟩
    · cases h.symm.trans h'
      exact ⟨rfl, rfl⟩
    · exact absurd hc hn
  · rcases h' with ⟨hc, -⟩ | ⟨-, h'⟩
    · exact absurd hc hn
    · cases h.symm.trans h'
      exact ⟨rfl, rfl⟩

theorem serves_pending {slot slot' : Ipv6ReassemblySlot} {packet : List UInt8} {f : Ipv6Fragment}
    {nowMs timeoutMs available : ℕ} (hs : slot.Sound) (hl : f.Located packet)
    (hk : slot.key = none ∨ slot.key = some f.key)
    (h : Serves slot packet f nowMs timeoutMs available slot' .pending) :
    ∃ p, slot'.Gives p ∧ slot'.key = some f.key ∧ available < p.length ∧
      ∀ room, p.length ≤ room → ∃ freed, Serves slot packet f nowMs timeoutMs room freed (.packet p) := by
  obtain ⟨hs', hk'⟩ := serves_sound hs hl hk h
  have whole : ∀ held : Ipv6ReassemblySlot, held.Sound → slot' = held → held.Complete →
      held.deliver available = some (slot', .pending) →
      ∃ p, slot'.Gives p ∧ slot'.key = some f.key ∧ available < p.length ∧ ∃ freed,
        ∀ room, p.length ≤ room → held.deliver room = some (freed, .packet p) := by
    rintro held hs rfl hc hd
    obtain ⟨p, hg⟩ := hc.gives hs
    obtain ⟨freed, -, henough⟩ := (hg.deliver hs).2
    refine ⟨p, hg, hk'.resolve_left (hc.held hs), ?_, freed, henough⟩
    by_contra hroom
    cases hd.symm.trans (henough available (by omega))
  rcases h with ⟨hc, hd⟩ | ⟨hn, hacc⟩
  · obtain ⟨rfl, -⟩ := deliver_pending hd
    obtain ⟨p, hg, hkey, hshort, freed, henough⟩ := whole slot' hs rfl hc hd
    exact ⟨p, hg, hkey, hshort, fun room hroom => ⟨freed, .inl ⟨hc, henough room hroom⟩⟩⟩
  · obtain ⟨written, hroom⟩ := accept_pending hacc
    have hd := (hroom available).symm.trans hacc
    obtain ⟨rfl, hwhole⟩ := deliver_pending hd
    have hc : slot'.Complete := by
      by_contra hn
      cases hwhole.symm.trans ((isComplete_spec hs').2 hn)
    obtain ⟨p, hg, hkey, hshort, freed, henough⟩ := whole slot' hs' rfl hc hd
    refine ⟨p, hg, hkey, hshort, fun room hle => ⟨freed, .inr ⟨hn, ?_⟩⟩⟩
    rw [hroom room, henough room hle]

structure Waiting (r : Ipv6Reassembly) (i : ℕ) (key : Ipv6FragmentKey) (p : List UInt8)
    (slot : Ipv6ReassemblySlot) : Prop where
  pool : SoundSlots r.slots
  here : r.slots[i]? = some slot
  key : slot.key = some key
  gives : slot.Gives p

theorem Waiting.sound {r : Ipv6Reassembly} {i : ℕ} {key : Ipv6FragmentKey} {p : List UInt8}
    {slot : Ipv6ReassemblySlot} (h : Waiting r i key p slot) : slot.Sound :=
  h.pool.sound slot (List.mem_of_getElem? h.here)

theorem Waiting.unexpired {r : Ipv6Reassembly} {i nowMs : ℕ} {key : Ipv6FragmentKey}
    {p : List UInt8} {slot : Ipv6ReassemblySlot} (h : Waiting r i key p slot)
    (htime : nowMs < slot.expiresAtMs) : (r.slots.map (expire nowMs))[i]? = some slot := by
  have hstay : slot.expire nowMs = slot := by
    apply if_neg
    omega
  rw [List.getElem?_map, h.here, Option.map_some, hstay]

theorem ingest_pending {r r' : Ipv6Reassembly} {packet : List UInt8} {nowMs available : ℕ}
    (hr : SoundSlots r.slots) (h : r.ingest packet nowMs available = some (r', .pending)) :
    ∃ f p i slot, fragmentOf packet = some f ∧ available < p.length ∧
      (∀ room, p.length ≤ room → ∃ r₁, r.ingest packet nowMs room = some (r₁, .packet p)) ∧
      Waiting r' i f.key p slot := by
  cases hf : fragmentOf packet with
  | none =>
    -- a packet that is no fragment is passed on or dropped
    unfold fragmentOf at hf
    unfold Ipv6Reassembly.ingest at h
    cases hwalk : ipv6Fragment packet with
    | none => simp [hwalk] at h
    | some out =>
      rw [hwalk] at hf h
      cases out with
      | error _ => simp at h
      | ok found =>
        have hnone : found = none := hf
        simp [hnone] at h
  | some f =>
    obtain ⟨hwalk, hl⟩ := fragmentOf_eq_some hf
    have hes := hr.expire nowMs
    rcases ingest_chosen hr hwalk hl nowMs with ⟨i, slot, hi, hreach, hrest⟩ | ⟨-, hrest⟩
    · obtain ⟨slot', out, hserve, hin⟩ := hrest available
      cases h.symm.trans hin
      have hslot := hes.sound slot (List.mem_of_getElem? hi)
      obtain ⟨hs', hk'⟩ := serves_sound hslot hl hreach.key hserve
      obtain ⟨p, hg, hkey, hshort, henough⟩ := serves_pending hslot hl hreach.key hserve
      refine ⟨f, p, i, slot', rfl, hshort, fun room hroom => ?_, hes.set hi hreach hs' hk', ?_, hkey, hg⟩
      · obtain ⟨freed, hgive⟩ := henough room hroom
        obtain ⟨left, out, hserve', hin'⟩ := hrest room
        obtain ⟨rfl, rfl⟩ := hserve'.unique hgive
        exact ⟨_, hin'⟩
      · rw [List.getElem?_set_self]
        exact (List.getElem?_eq_some_iff.mp hi).1
    · cases h.symm.trans (hrest available)

theorem Waiting.other {r : Ipv6Reassembly} {i nowMs : ℕ} {key : Ipv6FragmentKey} {p : List UInt8}
    {slot : Ipv6ReassemblySlot} (h : Waiting r i key p slot) {packet : List UInt8}
    (hother : ∀ f, fragmentOf packet = some f → f.key ≠ key) (htime : nowMs < slot.expiresAtMs)
    (available : ℕ) :
    ∃ r' out, r.ingest packet nowMs available = some (r', out) ∧ Waiting r' i key p slot := by
  cases hf : fragmentOf packet with
  | none =>
    obtain ⟨out, hin⟩ := ingest_other hf r nowMs available
    exact ⟨r, out, hin, h⟩
  | some f =>
    obtain ⟨hwalk, hl⟩ := fragmentOf_eq_some hf
    have hes := h.pool.expire nowMs
    have hhere := h.unexpired htime
    rcases ingest_fragment h.pool hwalk hl nowMs available with
      ⟨j, served, slot', out, hj, hreach, hserve, hin⟩ | ⟨-, hin⟩
    · obtain ⟨hs', hk'⟩ := serves_sound (hes.sound served (List.mem_of_getElem? hj)) hl hreach.key
        hserve
      have hne : j ≠ i := by
        rintro rfl
        cases hj.symm.trans hhere
        rcases hreach.key with hk | hk
        · cases hk.symm.trans h.key
        · exact hother f hf (Option.some.inj (hk.symm.trans h.key))
      refine ⟨_, out, hin, hes.set hj hreach hs' hk', ?_, h.key, h.gives⟩
      rw [List.getElem?_set_ne hne]
      exact hhere
    · exact ⟨_, .dropped, hin, hes, hhere, h.key, h.gives⟩

theorem Waiting.retry {r : Ipv6Reassembly} {i nowMs : ℕ} {p packet : List UInt8}
    {slot : Ipv6ReassemblySlot} {f : Ipv6Fragment} (h : Waiting r i f.key p slot)
    (hf : fragmentOf packet = some f) (htime : nowMs < slot.expiresAtMs) (room : ℕ) :
    (room < p.length →
      ∃ r', r.ingest packet nowMs room = some (r', .pending) ∧ Waiting r' i f.key p slot) ∧
    (p.length ≤ room → ∃ r' freed, r.ingest packet nowMs room = some (r', .packet p) ∧
      r'.slots[i]? = some freed ∧ freed.key = none ∧ ∀ s ∈ r'.slots, s.key ≠ some f.key) := by
  obtain ⟨hwalk, hl⟩ := fragmentOf_eq_some hf
  have hes := h.pool.expire nowMs
  have hhere := h.unexpired htime
  have hlt := (List.getElem?_eq_some_iff.mp hhere).1
  obtain ⟨hshort, freed, hfree, henough⟩ := h.gives.deliver h.sound
  rcases ingest_chosen h.pool hwalk hl nowMs with ⟨j, served, hj, hreach, hrest⟩ | ⟨hfull, -⟩
  · obtain rfl := hreach.only hes hj hhere h.key
    cases hj.symm.trans hhere
    obtain ⟨slot', out, hserve, hin⟩ := hrest room
    constructor
    · intro hroom
      obtain ⟨rfl, rfl⟩ := hserve.unique (.inl ⟨h.gives.complete, hshort room hroom⟩)
      refine ⟨_, hin, hes.set hj hreach h.sound (.inr h.key), ?_, h.key, h.gives⟩
      exact List.getElem?_set_self hlt
    · intro hroom
      obtain ⟨rfl, rfl⟩ := hserve.unique (.inl ⟨h.gives.complete, henough room hroom⟩)
      refine ⟨_, slot', hin, List.getElem?_set_self hlt, hfree, fun s hs hk => ?_⟩
      obtain ⟨c, hc⟩ := List.mem_iff_getElem?.mp hs
      rcases getElem?_set_cases hc with ⟨-, rfl⟩ | ⟨hne, hc⟩
      · cases hfree.symm.trans hk
      · exact hne (hreach.only hes hj hc hk)
  · exact absurd h.key (hfull slot (List.mem_of_getElem? hhere)).1

/-- What may come while the packet waits: calls about other keys, and the fragment again where
the room is still short. -/
def Meanwhile (packet p : List UInt8) (key : Ipv6FragmentKey) (deadline : ℕ) (c : Call) : Prop :=
  c.nowMs < deadline ∧ (c.ofKey key = false ∨ c.packet = packet ∧ c.available < p.length)

theorem Waiting.step {r : Ipv6Reassembly} {i : ℕ} {p packet : List UInt8}
    {slot : Ipv6ReassemblySlot} {f : Ipv6Fragment} (h : Waiting r i f.key p slot)
    (hf : fragmentOf packet = some f) {c : Call}
    (hc : Meanwhile packet p f.key slot.expiresAtMs c) :
    ∃ r' out, r.ingest c.packet c.nowMs c.available = some (r', out) ∧
      Waiting r' i f.key p slot ∧ (c.ofKey f.key = true → out = .pending) := by
  obtain ⟨htime, hother | ⟨hsame, hshort⟩⟩ := hc
  · obtain ⟨r', out, hin, hw⟩ :=
      h.other (fun g hg => ofKey_eq_false hother hg) htime c.available
    refine ⟨r', out, hin, hw, fun hown => ?_⟩
    rw [hother] at hown
    cases hown
  · obtain ⟨r', hin, hw⟩ := (h.retry hf htime c.available).1 hshort
    rw [hsame]
    exact ⟨r', _, hin, hw, fun _ => rfl⟩

theorem Waiting.run {i : ℕ} {p packet : List UInt8} {slot : Ipv6ReassemblySlot} {f : Ipv6Fragment}
    (hf : fragmentOf packet = some f) (calls : List Call)
    (hcalls : ∀ c ∈ calls, Meanwhile packet p f.key slot.expiresAtMs c) :
    ∀ r : Ipv6Reassembly, Waiting r i f.key p slot →
      ∃ r' log, r.run calls = some (r', log) ∧ Waiting r' i f.key p slot ∧
        ∀ e ∈ log, e.call.ofKey f.key = true → e.outcome = .pending := by
  induction calls with
  | nil =>
    intro r h
    refine ⟨r, [], rfl, h, fun e he => ?_⟩
    cases he
  | cons c calls ih =>
    intro r h
    obtain ⟨r₁, out, hin, hw, hout⟩ := h.step hf (hcalls c List.mem_cons_self)
    obtain ⟨r₂, log, hrun, hw₂, hlog⟩ :=
      ih (fun c' hc' => hcalls c' (List.mem_cons_of_mem c hc')) r₁ hw
    refine ⟨r₂, ⟨c, out⟩ :: log, by simp [Ipv6Reassembly.run, hin, hrun], hw₂, fun e he hown => ?_⟩
    rcases List.mem_cons.mp he with rfl | he
    · exact hout hown
    · exact hlog e he hown

variable {W T U : Type}

def StackBridge.room (s : StackBridge W T U) : ℕ := s.device.byteLimit - s.device.bytes

theorem ingest_fits {r r' : Ipv6Reassembly} {packet p : List UInt8} {f : Ipv6Fragment}
    {nowMs available : ℕ} (hr : SoundSlots r.slots) (hf : fragmentOf packet = some f)
    (h : r.ingest packet nowMs available = some (r', .packet p)) : p.length ≤ available := by
  obtain ⟨hwalk, hl⟩ := fragmentOf_eq_some hf
  have fits : ∀ held left : Ipv6ReassemblySlot, held.Sound →
      held.deliver available = some (left, .packet p) → p.length ≤ available := by
    intro held left hs hd
    rcases deliver_cases hs available with ⟨-, h⟩ | ⟨-, h⟩ | ⟨_, _, _, -, -, hle, h, -, hlen, -⟩
    · cases hd.symm.trans h
    · cases hd.symm.trans h
    · cases hd.symm.trans h
      omega
  rcases ingest_fragment hr hwalk hl nowMs available with
    ⟨i, slot, slot', out, hi, hreach, hserve, hin⟩ | ⟨-, hin⟩
  · cases h.symm.trans hin
    have hs := (hr.expire nowMs).sound slot (List.mem_of_getElem? hi)
    rcases hserve with ⟨-, hd⟩ | ⟨-, hacc⟩
    · exact fits slot slot' hs hd
    · rcases accept_cases hs hl hreach.key nowMs r.timeoutMs available with
        ⟨left, h, -⟩ | ⟨joined, written, hj, ha, hw, h⟩
      · cases hacc.symm.trans h
      · obtain ⟨hjs, hjk⟩ := hj.sound hs hl
        have hheld : joined.key ≠ none := by
          rw [hjk]
          exact Option.some_ne_none _
        exact fits written slot' (hw.sound hjs hheld ha) (h.symm.trans hacc)
  · cases h.symm.trans hin

def Accepted (packet : List UInt8) : Prop :=
  (packet.isEmpty || decide (maxIpv6PacketBytes < packet.length) || !validIpPacket packet) = false

theorem packetSend_ingested {s : StackBridge W T U} {packet : List UInt8} (h : Accepted packet)
    {nowMs : ℕ} {r' : Ipv6Reassembly} {out : ReassemblyOutcome}
    (hin : s.ipv6Reassembly.ingest packet nowMs s.room = some (r', out)) :
    (out = .pending → s.packetSend packet nowMs = some ({ s with ipv6Reassembly := r' }, .pending)) ∧
    (out = .buffered ∨ out = .dropped →
      s.packetSend packet nowMs = some ({ s with ipv6Reassembly := r' }, .sent)) ∧
    ∀ p, out = .packet p → p.length ≤ s.room → s.packetSend packet nowMs = some ({ s with
      ipv6Reassembly := r'
      device := { s.device with
        bytes := s.device.bytes + p.length
        ingress := s.device.ingress ++ [⟨p, true⟩] } }, .sent) := by
  unfold Accepted at h
  unfold StackBridge.room at hin ⊢
  unfold StackBridge.packetSend
  rw [h]
  simp only [hin, Bool.false_eq_true, if_false, Option.bind_eq_bind, Option.bind_some]
  refine ⟨?_, ?_, ?_⟩
  · rintro rfl
    rfl
  · rintro (rfl | rfl)
    · rfl
    · rfl
  · rintro p rfl hroom
    simp only [Nat.not_lt.mpr hroom, if_false]
    rfl

theorem packetSend_pending {s s' : StackBridge W T U} {packet : List UInt8} {f : Ipv6Fragment}
    {nowMs : ℕ} (hr : SoundSlots s.ipv6Reassembly.slots) (hf : fragmentOf packet = some f)
    (h : s.packetSend packet nowMs = some (s', .pending)) :
    Accepted packet ∧ ∃ r', s.ipv6Reassembly.ingest packet nowMs s.room = some (r', .pending) ∧
      s' = { s with ipv6Reassembly := r' } := by
  have hok : Accepted packet := by
    unfold Accepted
    by_contra hbad
    rw [Bool.not_eq_false] at hbad
    simp [StackBridge.packetSend, hbad] at h
  refine ⟨hok, ?_⟩
  obtain ⟨r', out, hin, -⟩ := ingest_frame hr packet nowMs s.room
  obtain ⟨hpending, hsent, hpacket⟩ := packetSend_ingested hok hin
  cases out with
  | pending =>
    cases h.symm.trans (hpending rfl)
    exact ⟨r', hin, rfl⟩
  | buffered => cases h.symm.trans (hsent (.inl rfl))
  | dropped => cases h.symm.trans (hsent (.inr rfl))
  | packet p => cases h.symm.trans (hpacket p rfl (ingest_fits hr hf hin))

theorem packetSend_reassembly (s : StackBridge W T U) (packet : List UInt8) (nowMs : ℕ) :
    Yields (s.packetSend packet nowMs) fun q => q.1.ipv6Reassembly = s.ipv6Reassembly ∨
      ∃ out, s.ipv6Reassembly.ingest packet nowMs s.room = some (q.1.ipv6Reassembly, out) := by
  unfold StackBridge.packetSend
  split
  · exact yields_some (.inl rfl)
  have hin : Yields (s.ipv6Reassembly.ingest packet nowMs s.room) fun q =>
      s.ipv6Reassembly.ingest packet nowMs s.room = some q := fun _ h => h
  refine hin.bind fun q hq => ?_
  obtain ⟨r', out⟩ := q
  cases out with
  | pending => exact yields_some (.inr ⟨_, hq⟩)
  | buffered => exact yields_some (.inr ⟨_, hq⟩)
  | dropped => exact yields_some (.inr ⟨_, hq⟩)
  | packet p =>
    dsimp only
    split
    · exact yields_some (.inr ⟨_, hq⟩)
    · exact yields_some (.inr ⟨_, hq⟩)

def MeanwhileCall (packet p : List UInt8) (key : Ipv6FragmentKey) (deadline : ℕ)
    (s : SharedStackBridge W T U) : StackCall T U → Prop
  | .packetSend sent nowMs => Meanwhile packet p key deadline ⟨sent, nowMs, s.inner.room⟩
  | _ => True

theorem Waiting.call {env : Smoltcp W T U} {base i : ℕ} {s : SharedStackBridge W T U}
    {p packet : List UInt8} {slot : Ipv6ReassemblySlot} {f : Ipv6Fragment}
    (hb : Books base {} s.inner) (h : Waiting s.inner.ipv6Reassembly i f.key p slot)
    (hf : fragmentOf packet = some f) (call : StackCall T U)
    (hcall : MeanwhileCall packet p f.key slot.expiresAtMs s call) :
    ∃ s', s.step env call = some s' ∧ Books base {} s'.inner ∧
      Waiting s'.inner.ipv6Reassembly i f.key p slot := by
  obtain ⟨s', e, hb', -⟩ := (books_rule env base).step hb trivial call (callGuard_any env s call)
  refine ⟨s', e, hb', ?_⟩
  by_cases hsend : ∃ sent nowMs, call = .packetSend sent nowMs
  · obtain ⟨sent, nowMs, rfl⟩ := hsend
    obtain ⟨r', out, hin, hw, -⟩ := h.step hf hcall
    obtain ⟨inner, hsent, rfl⟩ := Option.map_eq_some_iff.mp e
    obtain ⟨q, hq, rfl⟩ := Option.map_eq_some_iff.mp hsent
    rcases packetSend_reassembly s.inner sent nowMs q hq with hsame | ⟨out', hin'⟩
    · change Waiting q.1.ipv6Reassembly i f.key p slot
      rw [hsame]
      exact h
    · cases hin.symm.trans hin'
      exact hw
  · have hsame := SharedStackBridge.step_reassembly env call
      (fun sent nowMs hc => hsend ⟨sent, nowMs, hc⟩) s' e
    rw [hsame]
    exact h

/-- How the pool answers the fragment: pending while the room is short, and with the packet
once there is enough, after which the slot is free. -/
structure Answered (r : Ipv6Reassembly) (packet p : List UInt8) (key : Ipv6FragmentKey)
    (i nowMs : ℕ) : Prop where
  short : ∀ room, room < p.length → ∃ r', r.ingest packet nowMs room = some (r', .pending)
  enough : ∀ room, p.length ≤ room → ∃ r' freed, r.ingest packet nowMs room = some (r', .packet p) ∧
    r'.slots[i]? = some freed ∧ freed.key = none ∧ ∀ slot ∈ r'.slots, slot.key ≠ some key

/-- How the packet port answers its sender: pending with the device as it was while the room
is short, and once there is enough with one copy of the packet behind everything queued. -/
structure SentOnce (s : StackBridge W T U) (packet p : List UInt8) (key : Ipv6FragmentKey)
    (nowMs : ℕ) : Prop where
  short : s.room < p.length →
    ∃ s', s.packetSend packet nowMs = some (s', .pending) ∧ s'.device = s.device
  enough : p.length ≤ s.room →
    ∃ s', s.packetSend packet nowMs = some (s', .sent) ∧
      s'.device = { s.device with
        bytes := s.device.bytes + p.length
        ingress := s.device.ingress ++ [⟨p, true⟩] } ∧
      ∀ slot ∈ s'.ipv6Reassembly.slots, slot.key ≠ some key

/-- The call that left `r'` completed a packet that only lacked room, the packet more room
would have brought out; until its slot expires the fragment is answered with it, whatever
comes in between. -/
def HeldForRetry (r r' : Ipv6Reassembly) (packet : List UInt8) (nowMs available : ℕ) : Prop :=
  ∃ (f : Ipv6Fragment) (p : List UInt8) (i : ℕ) (slot : Ipv6ReassemblySlot),
    fragmentOf packet = some f ∧ available < p.length ∧
    (∀ room, p.length ≤ room → ∃ r₁, r.ingest packet nowMs room = some (r₁, .packet p)) ∧
    r'.slots[i]? = some slot ∧ slot.key = some f.key ∧
    ∀ calls, (∀ c ∈ calls, Meanwhile packet p f.key slot.expiresAtMs c) →
      ∃ r₂ log, r'.run calls = some (r₂, log) ∧
        (∀ e ∈ log, e.call.ofKey f.key = true → e.outcome = .pending) ∧
        ∀ later, later < slot.expiresAtMs → Answered r₂ packet p f.key i later

def HeldForSender (env : Smoltcp W T U) (s : SharedStackBridge W T U) (s' : StackBridge W T U)
    (packet : List UInt8) (nowMs : ℕ) : Prop :=
  s'.device = s.inner.device ∧
  ∃ (f : Ipv6Fragment) (p : List UInt8) (i : ℕ) (slot : Ipv6ReassemblySlot),
    fragmentOf packet = some f ∧ s.inner.room < p.length ∧
    (∀ room, p.length ≤ room →
      ∃ r₁, s.inner.ipv6Reassembly.ingest packet nowMs room = some (r₁, .packet p)) ∧
    s'.ipv6Reassembly.slots[i]? = some slot ∧ slot.key = some f.key ∧
    ∀ calls, GuardedM (SharedStackBridge.step env)
        (MeanwhileCall packet p f.key slot.expiresAtMs) { s with inner := s' } calls →
      ∃ t, SharedStackBridge.run env { s with inner := s' } calls = some t ∧
        ∀ later, later < slot.expiresAtMs → SentOnce t.inner packet p f.key later

theorem heldForRetry {r r' : Ipv6Reassembly} {packet : List UInt8} {nowMs available : ℕ}
    (hr : SoundSlots r.slots) (h : r.ingest packet nowMs available = some (r', .pending)) :
    HeldForRetry r r' packet nowMs available := by
  obtain ⟨f, p, i, slot, hf, hshort, hmore, hw⟩ := ingest_pending hr h
  refine ⟨f, p, i, slot, hf, hshort, hmore, hw.here, hw.key, fun calls hcalls => ?_⟩
  obtain ⟨r₂, log, hrun, hw₂, hlog⟩ := Waiting.run hf calls hcalls r' hw
  refine ⟨r₂, log, hrun, hlog, fun later htime => ⟨fun room hroom => ?_, fun room hroom => ?_⟩⟩
  · obtain ⟨r₃, hin, -⟩ := (hw₂.retry hf htime room).1 hroom
    exact ⟨r₃, hin⟩
  · exact (hw₂.retry hf htime room).2 hroom

theorem Waiting.sentOnce {s : StackBridge W T U} {i nowMs : ℕ} {p packet : List UInt8}
    {slot : Ipv6ReassemblySlot} {f : Ipv6Fragment} (h : Waiting s.ipv6Reassembly i f.key p slot)
    (hf : fragmentOf packet = some f) (hok : Accepted packet) (htime : nowMs < slot.expiresAtMs) :
    SentOnce s packet p f.key nowMs := by
  obtain ⟨hshort, henough⟩ := h.retry hf htime s.room
  constructor
  · intro hroom
    obtain ⟨r', hin, -⟩ := hshort hroom
    exact ⟨_, (packetSend_ingested hok hin).1 rfl, rfl⟩
  · intro hroom
    obtain ⟨r', freed, hin, -, -, hgone⟩ := henough hroom
    exact ⟨_, (packetSend_ingested hok hin).2.2 p rfl hroom, rfl, hgone⟩

theorem heldForSender {env : Smoltcp W T U} {base : ℕ} {s : SharedStackBridge W T U}
    {s' : StackBridge W T U} {packet : List UInt8} {f : Ipv6Fragment} {nowMs : ℕ}
    (hb : Books base {} s.inner) (hf : fragmentOf packet = some f)
    (h : s.inner.packetSend packet nowMs = some (s', .pending)) :
    HeldForSender env s s' packet nowMs := by
  obtain ⟨hok, r', hin, rfl⟩ := packetSend_pending hb.reassembly hf h
  obtain ⟨g, p, i, slot, hg, hshort, hmore, hw⟩ := ingest_pending hb.reassembly hin
  refine ⟨rfl, g, p, i, slot, hg, hshort, hmore, hw.here, hw.key, fun calls hguard => ?_⟩
  have hb' : Books base {} { s.inner with ipv6Reassembly := r' } := { hb with reassembly := hw.pool }
  obtain ⟨t, hrun, -, hwt⟩ := foldlM_invariant
    (fun t : SharedStackBridge W T U =>
      Books base {} t.inner ∧ Waiting t.inner.ipv6Reassembly i g.key p slot)
    (fun t call ht hcall => Waiting.call ht.1 ht.2 hg call hcall)
    (s := { s with inner := { s.inner with ipv6Reassembly := r' } }) ⟨hb', hw⟩ hguard
  exact ⟨t, hrun, fun later htime => hwt.sentOnce hg hok htime⟩

/-- A packet whose last fragment finds no room is kept for the retry of that fragment: in the
pool after any calls, and behind the packet port in any run of the bridge. -/
theorem held_packet_delivered_once (env : Smoltcp W T U) :
    (∀ slots timeoutMs before r log packet nowMs available r',
      (Ipv6Reassembly.new slots timeoutMs).run before = some (r, log) →
      r.ingest packet nowMs available = some (r', .pending) →
      HeldForRetry r r' packet nowMs available) ∧
    ∀ config maxFlows maxManagedBytes maxIngressPacketsPerTick s₀ before s packet f nowMs s',
      StackBridge.new env config maxFlows maxManagedBytes maxIngressPacketsPerTick = .ok s₀ →
      SharedStackBridge.run env ⟨s₀, [], []⟩ before = some s →
      fragmentOf packet = some f → s.inner.packetSend packet nowMs = some (s', .pending) →
      HeldForSender env s s' packet nowMs := by
  constructor
  · intro slots timeoutMs before r log packet nowMs available r' hrun hpend
    obtain ⟨r₁, past, hrun', -, hlog, -⟩ := run_logged slots timeoutMs before
      (Ipv6Reassembly.new slots timeoutMs) []
      ⟨rfl, List.length_replicate, tracks_new slots timeoutMs⟩
    cases hrun.symm.trans hrun'
    exact heldForRetry hlog.tracks.toSoundSlots hpend
  · intro config maxFlows maxManagedBytes maxIngress s₀ before s packet f nowMs s' hnew hrun hf hpend
    obtain ⟨s₁, hrun', hb⟩ := run_books env (s := ⟨s₀, [], []⟩) (books_new hnew) before
    cases hrun.symm.trans hrun'
    exact heldForSender hb hf hpend

theorem whole_fragment_pending (o : Datagram) (identifier : ℕ) (hid : identifier < 2 ^ 32)
    (hfits : chainLen o.chain + ipv6FragmentHeaderBytes + o.body.length ≤ 65535)
    (slots timeoutMs nowMs room : ℕ) (hroom : room < o.bytes.length) :
    ∃ r', (Ipv6Reassembly.new (slots + 1) timeoutMs).ingest
      (o.fragment identifier ⟨0, o.body, false⟩) nowMs room = some (r', .pending) := by
  let q : Piece := ⟨0, o.body, false⟩
  have hwhole : Partition o.body [o.body] := ⟨by simp, by simpa using o.nonempty, by simp⟩
  have hc : Covers o.body 0 [q] := hwhole.covers o.nonempty
  obtain ⟨hwalk, hl⟩ := fragmentOf_eq_some
    (fragmentOf_fragment o identifier q ⟨rfl, by change 0 < 65536; decide⟩ hid hfits)
  have hpool := soundSlots_new (slots + 1) timeoutMs
  have hfresh : ∀ slot ∈ (Ipv6Reassembly.new (slots + 1) timeoutMs).slots.map (expire nowMs),
      slot.Sound ∧ slot.key = none := by
    intro slot hm
    obtain ⟨s, hs, rfl⟩ := List.mem_map.mp hm
    refine ⟨(hpool.expire nowMs).sound _ hm, ?_⟩
    rw [List.eq_of_mem_replicate hs]
    rfl
  rcases ingest_fragment hpool hwalk hl nowMs room with
    ⟨i, slot, slot', out, hi, -, hserve, hin⟩ | ⟨hfull, -⟩
  · obtain ⟨hslot, hk⟩ := hfresh slot (List.mem_of_getElem? hi)
    obtain ⟨joined, hjoin, ho⟩ :=
      join_free hslot hl hk nowMs (Ipv6Reassembly.new (slots + 1) timeoutMs).timeoutMs
    have hg := gathers_opened hslot hk hl ho
    have hheld : joined.key ≠ none := by
      rw [hg.key]
      exact Option.some_ne_none _
    obtain ⟨written, hw, hplace⟩ := (place_spec hg.sound hheld hl room).1
      (hg.admits hc (by simp) List.mem_cons_self (by simp))
    have hgw := hg.written hc (by simp) List.mem_cons_self (by simp) hw
    obtain ⟨hwhole, htotal⟩ := hgw.complete hc (by simp)
    have hout : slot' = written ∧ out = .pending := by
      rcases hserve with ⟨hcomplete, -⟩ | ⟨-, hacc⟩
      · exact absurd hk (hcomplete.held hslot)
      · rw [accept_of_joins room hjoin, hplace, deliver_complete hgw.sound hwhole,
          takePacket_short hgw.sound hwhole htotal
            (by rw [hgw.prefixLen, ← o.bytes_length]; exact hroom)] at hacc
        cases hacc
        exact ⟨rfl, rfl⟩
    rw [hout.2] at hin
    exact ⟨_, hin⟩
  · have hm : expire nowMs new ∈ (Ipv6Reassembly.new (slots + 1) timeoutMs).slots.map (expire nowMs) :=
      List.mem_map_of_mem (List.mem_replicate.mpr ⟨by omega, rfl⟩)
    exact absurd (hfresh _ hm).2 (hfull _ hm).2

theorem step_plain {packet : List UInt8} (hplain : fragmentOf packet = none)
    (env : Smoltcp W T U) (s : SharedStackBridge W T U) (nowMs : ℕ) :
    Yields (s.step env (.packetSend packet nowMs)) fun s' =>
      s'.inner.ipv6Reassembly = s.inner.ipv6Reassembly := by
  refine yields_map (yields_map fun q hq => ?_)
  rcases packetSend_reassembly s.inner packet nowMs q hq with hsame | ⟨out, hingest⟩
  · exact hsame
  · obtain ⟨out', hother⟩ := ingest_other hplain s.inner.ipv6Reassembly nowMs s.inner.room
    exact (Prod.mk.inj (Option.some.inj (hingest.symm.trans hother))).1

def wholeFragment : List UInt8 := samplePacket.fragment 7 ⟨0, samplePacket.body, false⟩

/-- A packet that leaves the queue of the small stack sixteen bytes. -/
def longPacket : List UInt8 := 0x45 :: List.replicate 4079 0

theorem sample_held_packet :
    (∃ r', (Ipv6Reassembly.new 1 1000).ingest wholeFragment 10 16 = some (r', .pending) ∧
      HeldForRetry (Ipv6Reassembly.new 1 1000) r' wholeFragment 10 16) ∧
    ∃ s₀ s s', StackBridge.new sampleSmoltcp sampleConfig 4 200000 8 = .ok s₀ ∧
      SharedStackBridge.run sampleSmoltcp ⟨s₀, [], []⟩ [.packetSend longPacket 5] = some s ∧
      s.inner.packetSend wholeFragment 10 = some (s', .pending) ∧
      HeldForSender sampleSmoltcp s s' wholeFragment 10 := by
  obtain ⟨r', hin⟩ := whole_fragment_pending samplePacket 7 (by decide) (by decide) 0 1000 10 16
    (by decide)
  refine ⟨⟨r', hin, (held_packet_delivered_once sampleSmoltcp).1 1 1000 [] _ [] _ _ _ r' rfl hin⟩, ?_⟩
  obtain ⟨s₀, hnew⟩ := sample_starts
  have hfill : (sampleRun [.packetSend longPacket 5]).map (fun s => s.inner.room) = some 16 := by
    decide +kernel
  obtain ⟨s, hrun, hroom⟩ := Option.map_eq_some_iff.mp hfill
  simp only [sampleRun, hnew] at hrun
  -- what fills the queue is no fragment, so the pool is as it was at the start
  have hpool : s.inner.ipv6Reassembly = Ipv6Reassembly.new 1 1000 := by
    have hstep : SharedStackBridge.step sampleSmoltcp ⟨s₀, [], []⟩ (.packetSend longPacket 5) =
        some s := by
      simpa only [SharedStackBridge.run, List.foldlM_cons, List.foldlM_nil, bind_pure] using hrun
    have hplain : (fragmentOf longPacket).isNone = true := by decide +kernel
    exact (step_plain (Option.isNone_iff_eq_none.mp hplain) sampleSmoltcp ⟨s₀, [], []⟩ 5 s hstep).trans
      (new_idle hnew).reassembly
  rw [← hpool, ← hroom] at hin
  have hok : Accepted wholeFragment := by
    unfold Accepted
    decide +kernel
  have hsend := (packetSend_ingested hok hin).1 rfl
  obtain ⟨f, hf⟩ : ∃ f, fragmentOf wholeFragment = some f :=
    Option.isSome_iff_exists.mp (by decide +kernel)
  exact ⟨s₀, s, _, hnew, hrun, hsend, (held_packet_delivered_once sampleSmoltcp).2 sampleConfig 4
    200000 8 s₀ _ s _ f 10 _ hnew hrun hf hsend⟩

end Snolc.Stack
