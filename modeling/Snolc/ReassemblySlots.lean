import Snolc.StackReassembly

set_option autoImplicit false

namespace Snolc.Stack
open ByteOrder CheckedSlice

theorem block_le {a : ℕ} (h : a ≤ 65535) : divCeil a reassemblyBlockBytes ≤ reassemblyBlocks := by
  simp only [divCeil, reassemblyBlockBytes, reassemblyBlocks]
  omega

namespace Ipv6ReassemblySlot

structure Sound (slot : Ipv6ReassemblySlot) : Prop where
  packet_length : slot.packet.length = maxIpv6PacketBytes
  received_length : slot.received.length = reassemblyBlocks
  free : slot.key = none →
    slot.totalFragmentLen = none ∧ ∀ b : ℕ, slot.received[b]? ≠ some true
  header_le : slot.key ≠ none → ipv6HeaderBytes ≤ slot.prefixLen
  prefix_le : slot.key ≠ none → slot.prefixLen ≤ maxIpv6PacketBytes
  le_previous : slot.key ≠ none → 6 ≤ slot.previousNextHeader
  previous_lt : slot.key ≠ none → slot.previousNextHeader < slot.prefixLen
  total_le : slot.key ≠ none → ∀ total, slot.totalFragmentLen = some total →
    slot.prefixLen + total ≤ maxIpv6PacketBytes

def Complete (slot : Ipv6ReassemblySlot) : Prop :=
  ∃ total, slot.totalFragmentLen = some total ∧
    ∀ b : ℕ, b < divCeil total reassemblyBlockBytes → slot.received[b]? = some true

theorem new_sound : new.Sound where
  packet_length := List.length_replicate
  received_length := List.length_replicate
  free _ := by
    refine ⟨rfl, fun b hb => ?_⟩
    simp [new, List.getElem?_replicate] at hb
  header_le h := absurd rfl h
  prefix_le h := absurd rfl h
  le_previous h := absurd rfl h
  previous_lt h := absurd rfl h
  total_le h := absurd rfl h

theorem clear_sound {slot : Ipv6ReassemblySlot} (hp : slot.packet.length = maxIpv6PacketBytes)
    (hr : slot.received.length = reassemblyBlocks) : slot.clear.Sound where
  packet_length := hp
  received_length := by rw [← hr]; exact List.length_replicate
  free _ := by
    refine ⟨rfl, fun b hb => ?_⟩
    simp [clear, List.getElem?_replicate] at hb
  header_le h := absurd rfl h
  prefix_le h := absurd rfl h
  le_previous h := absurd rfl h
  previous_lt h := absurd rfl h
  total_le h := absurd rfl h

theorem Complete.held {slot : Ipv6ReassemblySlot} (hc : slot.Complete) (hs : slot.Sound) :
    slot.key ≠ none := by
  intro hk
  obtain ⟨total, htotal, -⟩ := hc
  rw [(hs.free hk).1] at htotal
  cases htotal

theorem Sound.total_small {slot : Ipv6ReassemblySlot} (hs : slot.Sound) {total : ℕ}
    (htotal : slot.totalFragmentLen = some total) : total ≤ 65535 := by
  have hk : slot.key ≠ none := by
    intro hk
    rw [(hs.free hk).1] at htotal
    cases htotal
  have hle := hs.total_le hk total htotal
  have hh : 40 ≤ slot.prefixLen := hs.header_le hk
  have hm : maxIpv6PacketBytes = 65575 := rfl
  omega

theorem isComplete_spec {slot : Ipv6ReassemblySlot} (hs : slot.Sound) :
    (slot.Complete → slot.isComplete = some true) ∧
    (¬ slot.Complete → slot.isComplete = some false) := by
  cases htotal : slot.totalFragmentLen with
  | none =>
    refine ⟨fun ⟨total, h, _⟩ => ?_, fun _ => ?_⟩
    · rw [htotal] at h
      cases h
    · simp [isComplete, htotal]
  | some total =>
    have hle : divCeil total reassemblyBlockBytes ≤ slot.received.length := by
      rw [hs.received_length]
      exact block_le (hs.total_small htotal)
    have heq : slot.isComplete =
        some ((slot.received.take (divCeil total reassemblyBlockBytes)).all id) := by
      simp [isComplete, htotal, slice_start hle]
    have hall := all_take_iff hle
    constructor
    · rintro ⟨total', h, hb⟩
      rw [htotal] at h
      cases h
      rw [heq, hall.mpr hb]
    · intro hn
      rw [heq, Bool.eq_false_iff.mpr fun h => hn ⟨total, htotal, hall.mp h⟩]

/-- The bytes a complete slot hands out: its buffer with the length and the
next-header field rewritten. -/
def rewritten (slot : Ipv6ReassemblySlot) (packetLen i : ℕ) : Option UInt8 :=
  if i = slot.previousNextHeader then some slot.fragmentNextHeader
  else if 4 ≤ i ∧ i < 6 then (toBytes 2 (packetLen - ipv6HeaderBytes))[i - 4]?
  else slot.packet[i]?

theorem takePacket_short {slot : Ipv6ReassemblySlot} {total available : ℕ} (hs : slot.Sound)
    (hc : slot.Complete) (htotal : slot.totalFragmentLen = some total)
    (hav : available < slot.prefixLen + total) : slot.takePacket available = some (slot, none) := by
  have hk := hc.held hs
  have hle := hs.total_le hk total htotal
  have hsum : slot.prefixLen + total ≤ wordMax := Nat.le_trans hle (by decide)
  simp [takePacket, (isComplete_spec hs).1 hc, htotal, checkedAdd_of_le hsum, hav]

theorem takePacket_taken {slot : Ipv6ReassemblySlot} {total available : ℕ} (hs : slot.Sound)
    (hc : slot.Complete) (htotal : slot.totalFragmentLen = some total)
    (hav : slot.prefixLen + total ≤ available) :
    ∃ buffer p, slot.takePacket available = some ({ slot with packet := buffer }.clear, some p) ∧
      buffer.length = maxIpv6PacketBytes ∧ p.length = slot.prefixLen + total ∧
      ∀ i : ℕ, i < slot.prefixLen + total → p[i]? = slot.rewritten (slot.prefixLen + total) i := by
  have hk := hc.held hs
  have hle := hs.total_le hk total htotal
  have hh := hs.header_le hk
  have hprev := hs.previous_lt hk
  have hsum : slot.prefixLen + total ≤ wordMax := Nat.le_trans hle (by decide)
  have hpay : ¬ 65535 < slot.prefixLen + total - ipv6HeaderBytes := by
    have hm : maxIpv6PacketBytes = 65575 := rfl
    have h40 : ipv6HeaderBytes = 40 := rfl
    omega
  obtain ⟨buffer, hcopy, hlen, hget⟩ := copyAt_spec slot.packet
    (toBytes 2 (slot.prefixLen + total - ipv6HeaderBytes)) (i := 4)
    (by rw [toBytes_length, hs.packet_length]; decide)
  have hlen' : buffer.length = maxIpv6PacketBytes := hlen.trans hs.packet_length
  have hset : slot.previousNextHeader < buffer.length := by omega
  refine ⟨buffer.set slot.previousNextHeader slot.fragmentNextHeader,
    (buffer.set slot.previousNextHeader slot.fragmentNextHeader).take (slot.prefixLen + total),
    ?_, by simpa using hlen', by simp; omega, fun i hi => ?_⟩
  · have hslice : slice (buffer.set slot.previousNextHeader slot.fragmentNextHeader) 0
        (slot.prefixLen + total) =
        some ((buffer.set slot.previousNextHeader slot.fragmentNextHeader).take
          (slot.prefixLen + total)) := slice_start (by simp; omega)
    simp only [takePacket, (isComplete_spec hs).1 hc, htotal, checkedAdd_of_le hsum,
      show ¬ available < slot.prefixLen + total by omega,
      show ¬ slot.prefixLen + total < ipv6HeaderBytes by omega, hpay, if_false,
      Option.bind_eq_bind, Option.bind_some, hcopy, setAt_of_lt slot.fragmentNextHeader hset, hslice]
    simp
  · rw [List.getElem?_take, if_pos hi, List.getElem?_set]
    unfold rewritten
    by_cases hi' : i = slot.previousNextHeader
    · subst hi'
      rw [if_pos rfl, if_pos rfl, if_pos hset]
    · rw [if_neg (Ne.symm hi'), if_neg hi', hget, toBytes_length]

theorem deliver_buffered {slot : Ipv6ReassemblySlot} (hs : slot.Sound) (hn : ¬ slot.Complete)
    (available : ℕ) : slot.deliver available = some (slot, .buffered) := by
  simp [deliver, (isComplete_spec hs).2 hn]

theorem deliver_complete {slot : Ipv6ReassemblySlot} (hs : slot.Sound) (hc : slot.Complete)
    (available : ℕ) : slot.deliver available =
      (slot.takePacket available).map fun q => (q.1, outcome q.2) := by
  rw [deliver, (isComplete_spec hs).1 hc]
  cases slot.takePacket available <;> rfl

theorem deliver_cases {slot : Ipv6ReassemblySlot} (hs : slot.Sound) (available : ℕ) :
    (¬ slot.Complete ∧ slot.deliver available = some (slot, .buffered)) ∨
    (slot.Complete ∧ slot.deliver available = some (slot, .pending)) ∨
    (∃ total buffer p, slot.Complete ∧ slot.totalFragmentLen = some total ∧
      slot.prefixLen + total ≤ available ∧
      slot.deliver available = some ({ slot with packet := buffer }.clear, .packet p) ∧
      buffer.length = maxIpv6PacketBytes ∧ p.length = slot.prefixLen + total ∧
      ∀ i : ℕ, i < slot.prefixLen + total →
        p[i]? = slot.rewritten (slot.prefixLen + total) i) := by
  by_cases hc : slot.Complete
  · obtain ⟨total, htotal, -⟩ := id hc
    rcases Nat.lt_or_ge available (slot.prefixLen + total) with hlt | hge
    · refine .inr (.inl ⟨hc, ?_⟩)
      rw [deliver_complete hs hc, takePacket_short hs hc htotal hlt]
      rfl
    · obtain ⟨buffer, p, htake, hbuf, hlen, hget⟩ := takePacket_taken hs hc htotal hge
      refine .inr (.inr ⟨total, buffer, p, hc, htotal, hge, ?_, hbuf, hlen, hget⟩)
      rw [deliver_complete hs hc, htake]
      rfl
  · exact .inl ⟨hc, deliver_buffered hs hc available⟩

structure Opened (slot : Ipv6ReassemblySlot) (packet : List UInt8) (f : Ipv6Fragment)
    (nowMs timeoutMs : ℕ) (joined : Ipv6ReassemblySlot) : Prop where
  key : joined.key = some f.key
  prefixLen : joined.prefixLen = f.prefixLen
  previous : joined.previousNextHeader = f.previousNextHeader
  next : joined.fragmentNextHeader = f.nextHeader
  expires : joined.expiresAtMs = saturatingSum nowMs timeoutMs
  received : joined.received = slot.received
  total : joined.totalFragmentLen = slot.totalFragmentLen
  packet_length : joined.packet.length = slot.packet.length
  head : ∀ n : ℕ, n < f.prefixLen → joined.packet[n]? = packet[n]?

/-- The prefix of a fragment is the one the slot was opened with, up to the length field. -/
structure SamePrefix (slot : Ipv6ReassemblySlot) (packet : List UInt8) (f : Ipv6Fragment) :
    Prop where
  prefixLen : slot.prefixLen = f.prefixLen
  previous : slot.previousNextHeader = f.previousNextHeader
  next : slot.fragmentNextHeader = f.nextHeader
  head : ∀ n : ℕ, n < f.prefixLen → n ≠ 4 → n ≠ 5 → slot.packet[n]? = packet[n]?

theorem join_free {slot : Ipv6ReassemblySlot} {packet : List UInt8} {f : Ipv6Fragment}
    (hs : slot.Sound) (hf : f.Located packet) (hk : slot.key = none) (nowMs timeoutMs : ℕ) :
    ∃ joined, slot.join packet f nowMs timeoutMs = some (.ok joined) ∧
      Opened slot packet f nowMs timeoutMs joined := by
  have hle := hf.prefix_le
  have hmax := hf.packet_le
  have hhead : (packet.take f.prefixLen).length = f.prefixLen :=
    List.length_take_of_le (by omega)
  obtain ⟨buffer, hcopy, hlen, hget⟩ := copyAt_spec slot.packet (packet.take f.prefixLen)
    (i := 0) (by rw [hhead, hs.packet_length]; omega)
  refine ⟨{ slot with
    key := some f.key, prefixLen := f.prefixLen, previousNextHeader := f.previousNextHeader,
    fragmentNextHeader := f.nextHeader, expiresAtMs := saturatingSum nowMs timeoutMs,
    packet := buffer }, ?_, rfl, rfl, rfl, rfl, rfl, rfl, rfl, hlen, fun n hn => ?_⟩
  · simp [join, hk, slice_start (show f.prefixLen ≤ packet.length by omega), hcopy]
  · change buffer[n]? = packet[n]?
    rw [hget, hhead, if_pos (by omega), List.getElem?_take, if_pos (by omega), Nat.sub_zero]

theorem join_held {slot : Ipv6ReassemblySlot} {packet : List UInt8} {f : Ipv6Fragment}
    (hs : slot.Sound) (hf : f.Located packet) (hk : slot.key ≠ none) (nowMs timeoutMs : ℕ) :
    (SamePrefix slot packet f → slot.join packet f nowMs timeoutMs = some (.ok slot)) ∧
    (¬ SamePrefix slot packet f → slot.join packet f nowMs timeoutMs = some (.error slot)) := by
  have hle := hf.prefix_le
  have hmax := hf.packet_le
  have hh : 40 ≤ f.prefixLen := hf.header_le
  have hsl := hs.packet_length
  have hmx : maxIpv6PacketBytes = 65575 := rfl
  by_cases hsc : slot.prefixLen ≠ f.prefixLen ∨ slot.previousNextHeader ≠ f.previousNextHeader ∨
      slot.fragmentNextHeader ≠ f.nextHeader
  · constructor
    · intro h
      rcases hsc with h1 | h1 | h1
      · exact absurd h.prefixLen h1
      · exact absurd h.previous h1
      · exact absurd h.next h1
    · intro _
      rw [join, if_neg hk, if_pos hsc]
  · have heq : slot.join packet f nowMs timeoutMs =
        if slot.packet.take 4 ≠ packet.take 4 then some (.error slot)
        else if (slot.packet.drop 6).take (f.prefixLen - 6) ≠ (packet.drop 6).take (f.prefixLen - 6)
        then some (.error slot) else some (.ok slot) := by
      rw [join, if_neg hk, if_neg hsc]
      simp only [slice_start (show 4 ≤ slot.packet.length by omega),
        slice_start (show 4 ≤ packet.length by omega),
        slice_of_le (show 6 ≤ f.prefixLen by omega) (show f.prefixLen ≤ slot.packet.length by omega),
        slice_of_le (show 6 ≤ f.prefixLen by omega) (show f.prefixLen ≤ packet.length by omega),
        Option.bind_eq_bind, Option.bind_some]
      rfl
    have h4 := drop_take_eq_iff slot.packet packet 0 4
    have h6 := drop_take_eq_iff slot.packet packet 6 f.prefixLen
    simp only [List.drop_zero, Nat.sub_zero] at h4
    push Not at hsc
    constructor
    · intro h
      rw [heq, if_neg (not_not.mpr (h4.mpr fun n _ hn => h.head n (by omega) (by omega) (by omega))),
        if_neg (not_not.mpr (h6.mpr fun n hi hn => h.head n hn (by omega) (by omega)))]
    · intro h
      rw [heq]
      by_cases ha : slot.packet.take 4 = packet.take 4
      · rw [if_neg (not_not.mpr ha), if_pos]
        intro hb
        refine h ⟨hsc.1, hsc.2.1, hsc.2.2, fun n hn hn4 hn5 => ?_⟩
        rcases Nat.lt_or_ge n 4 with hlt | hge
        · exact h4.mp ha n (Nat.zero_le n) hlt
        · exact h6.mp hb n (by omega) hn
      · rw [if_pos ha]

structure Admits (slot : Ipv6ReassemblySlot) (f : Ipv6Fragment) (stop : ℕ) : Prop where
  pos : stop ≠ 0
  fits : slot.prefixLen + stop ≤ maxIpv6PacketBytes
  aligned : f.more = true → f.payload.length % reassemblyBlockBytes = 0
  below : ∀ total, slot.totalFragmentLen = some total →
    stop ≤ total ∧ (f.more = true → stop ≠ total)
  fresh : ∀ b : ℕ, f.offset / reassemblyBlockBytes ≤ b → b < divCeil stop reassemblyBlockBytes →
    slot.received[b]? ≠ some true
  last : f.more = false → ∀ total, slot.totalFragmentLen = some total → total = stop

structure Written (slot : Ipv6ReassemblySlot) (f : Ipv6Fragment) (stop : ℕ)
    (written : Ipv6ReassemblySlot) : Prop where
  key : written.key = slot.key
  prefixLen : written.prefixLen = slot.prefixLen
  previous : written.previousNextHeader = slot.previousNextHeader
  next : written.fragmentNextHeader = slot.fragmentNextHeader
  expires : written.expiresAtMs = slot.expiresAtMs
  total : written.totalFragmentLen = if f.more then slot.totalFragmentLen else some stop
  packet_length : written.packet.length = slot.packet.length
  packet : ∀ n : ℕ, written.packet[n]? =
    if slot.prefixLen + f.offset ≤ n ∧ n < slot.prefixLen + stop then
      f.payload[n - (slot.prefixLen + f.offset)]?
    else slot.packet[n]?
  received_length : written.received.length = slot.received.length
  received : ∀ b : ℕ, written.received[b]? =
    if f.offset / reassemblyBlockBytes ≤ b ∧ b < divCeil stop reassemblyBlockBytes then some true
    else slot.received[b]?

theorem refuses_eq_false_iff (slot : Ipv6ReassemblySlot) (f : Ipv6Fragment) (stop : ℕ) :
    slot.refuses f stop = false ↔ stop ≠ 0 ∧ slot.prefixLen + stop ≤ maxIpv6PacketBytes ∧
      (f.more = true → f.payload.length % reassemblyBlockBytes = 0) ∧
      ∀ total, slot.totalFragmentLen = some total →
        stop ≤ total ∧ (f.more = true → stop ≠ total) := by
  have hm : maxIpv6PacketBytes ≤ wordMax := by decide
  have hadd : (checkedAdd slot.prefixLen stop).isNone = false ↔ slot.prefixLen + stop ≤ wordMax := by
    unfold checkedAdd
    split <;> simp_all
  unfold refuses
  simp only [Bool.or_eq_false_iff, hadd, decide_eq_false_iff_not, Bool.and_eq_false_iff,
    Option.any_eq_false]
  constructor
  · rintro ⟨⟨⟨⟨h0, -⟩, hfit⟩, hal⟩, htot⟩
    refine ⟨h0, by omega, fun hmore => ?_, fun total ht => ?_⟩
    · rcases hal with h | h
      · rw [h] at hmore
        cases hmore
      · exact not_not.mp h
    · have h := htot total ht
      refine ⟨by omega, fun hmore => ?_⟩
      rcases h.2 with h2 | h2
      · rw [h2] at hmore
        cases hmore
      · exact h2
  · rintro ⟨h0, hfit, hal, htot⟩
    refine ⟨⟨⟨⟨h0, by omega⟩, by omega⟩, ?_⟩, fun total ht => ?_⟩
    · cases hmore : f.more with
      | false => exact .inl rfl
      | true => exact .inr (not_not.mpr (hal hmore))
    · obtain ⟨h1, h2⟩ := htot total ht
      refine ⟨by omega, ?_⟩
      cases hmore : f.more with
      | false => exact .inl rfl
      | true => exact .inr (h2 hmore)

theorem write_eq {slot : Ipv6ReassemblySlot} {f : Ipv6Fragment} {stop : ℕ} {blocks : List Bool}
    {buffer : List UInt8} {received : List Bool}
    (hslice : slice slot.received (f.offset / reassemblyBlockBytes)
      (divCeil stop reassemblyBlockBytes) = some blocks)
    (hcopy : copyAt slot.packet (slot.prefixLen + f.offset) f.payload = some buffer)
    (hfill : fillAt slot.received (f.offset / reassemblyBlockBytes)
      (divCeil stop reassemblyBlockBytes) true = some received) :
    slot.write f stop = if blocks.any id then some (.error slot)
      else if f.more then some (.ok { slot with packet := buffer, received := received })
      else if slot.totalFragmentLen.any (fun total => decide (total ≠ stop)) then
        some (.error { slot with packet := buffer, received := received })
      else some (.ok { slot with
        packet := buffer, received := received, totalFragmentLen := some stop }) := by
  simp only [write, hslice, hcopy, hfill, Option.bind_eq_bind, Option.bind_some]
  rfl

theorem place_eq (slot : Ipv6ReassemblySlot) {f : Ipv6Fragment} (available : ℕ)
    (hsum : f.offset + f.payload.length ≤ wordMax) :
    slot.place f available =
      if slot.refuses f (f.offset + f.payload.length) then some (slot.clear, .dropped)
      else (slot.write f (f.offset + f.payload.length)).bind fun res =>
        match res with
        | .error slot => some (slot.clear, .dropped)
        | .ok slot => slot.deliver available := by
  rw [place, checkedAdd_of_le hsum]
  rfl

theorem place_spec {slot : Ipv6ReassemblySlot} {packet : List UInt8} {f : Ipv6Fragment}
    (hs : slot.Sound) (hk : slot.key ≠ none) (hf : f.Located packet) (available : ℕ) :
    (slot.Admits f (f.offset + f.payload.length) →
      ∃ written, slot.Written f (f.offset + f.payload.length) written ∧
        slot.place f available = written.deliver available) ∧
    (¬ slot.Admits f (f.offset + f.payload.length) →
      ∃ left, slot.place f available = some (clear left, .dropped) ∧
        left.packet.length = maxIpv6PacketBytes ∧ left.received.length = reassemblyBlocks) := by
  have hh : 40 ≤ slot.prefixLen := hs.header_le hk
  have hmx : maxIpv6PacketBytes = 65575 := rfl
  have hoff := hf.offset_lt
  have hpl := hf.packet_le
  have hsum : f.offset + f.payload.length ≤ wordMax := by
    have hw : 65575 + 65536 ≤ wordMax := by decide
    omega
  have hplace := place_eq slot available hsum
  generalize hstop : f.offset + f.payload.length = stop at *
  cases href : slot.refuses f stop with
  | true =>
    constructor
    · intro ha
      have hno := (refuses_eq_false_iff slot f stop).mpr ⟨ha.pos, ha.fits, ha.aligned, ha.below⟩
      rw [href] at hno
      cases hno
    · intro _
      exact ⟨slot, by rw [hplace, href, if_pos rfl], hs.packet_length, hs.received_length⟩
  | false =>
    obtain ⟨h0, hfit, hal, hbelow⟩ := (refuses_eq_false_iff slot f stop).mp href
    rw [href, if_neg Bool.false_ne_true] at hplace
    have hlast : divCeil stop reassemblyBlockBytes ≤ slot.received.length := by
      rw [hs.received_length]
      exact block_le (by omega)
    have hfirst : f.offset / reassemblyBlockBytes ≤ divCeil stop reassemblyBlockBytes := by
      simp only [divCeil, reassemblyBlockBytes]
      omega
    have hslice := slice_of_le hfirst hlast
    obtain ⟨buffer, hcopy, hblen, hbget⟩ := copyAt_spec slot.packet f.payload
      (i := slot.prefixLen + f.offset) (by rw [hs.packet_length]; omega)
    obtain ⟨received, hfill, hrlen, hrget⟩ := fillAt_spec slot.received true hfirst hlast
    have hwrite := write_eq hslice hcopy hfill
    by_cases hover : ∃ b : ℕ, f.offset / reassemblyBlockBytes ≤ b ∧
        b < divCeil stop reassemblyBlockBytes ∧ slot.received[b]? = some true
    · rw [if_pos ((any_slice_iff _ _ _).mpr hover)] at hwrite
      constructor
      · intro ha
        obtain ⟨b, h1, h2, h3⟩ := hover
        exact absurd h3 (ha.fresh b h1 h2)
      · intro _
        exact ⟨slot, by rw [hplace, hwrite]; rfl, hs.packet_length, hs.received_length⟩
    · rw [if_neg fun h => hover ((any_slice_iff _ _ _).mp h)] at hwrite
      by_cases hlt : f.more = false ∧ ∃ total, slot.totalFragmentLen = some total ∧ total ≠ stop
      · obtain ⟨hmore, total, htotal, hne⟩ := hlt
        constructor
        · intro ha
          exact absurd (ha.last hmore total htotal) hne
        · intro _
          refine ⟨{ slot with packet := buffer, received := received }, ?_,
            hblen.trans hs.packet_length, hrlen.trans hs.received_length⟩
          rw [hplace, hwrite]
          simp [hmore, htotal, hne]
      · have ha : slot.Admits f stop := by
          refine ⟨h0, hfit, hal, hbelow, fun b h1 h2 h3 => hover ⟨b, h1, h2, h3⟩, ?_⟩
          intro hmore total htotal
          by_contra hne
          exact hlt ⟨hmore, total, htotal, hne⟩
        constructor
        · intro _
          refine ⟨{ slot with
            packet := buffer, received := received,
            totalFragmentLen := if f.more then slot.totalFragmentLen else some stop }, ?_, ?_⟩
          · refine ⟨rfl, rfl, rfl, rfl, rfl, rfl, hblen, fun n => ?_, hrlen, hrget⟩
            rw [hbget, show slot.prefixLen + f.offset + f.payload.length = slot.prefixLen + stop by
              omega]
          · rw [hplace, hwrite]
            cases hmore : f.more with
            | true => simp
            | false =>
              have hany : slot.totalFragmentLen.any (fun total => decide (total ≠ stop)) = false := by
                rw [Option.any_eq_false]
                intro total htotal
                simpa using ha.last hmore total htotal
              simp only [hany, Bool.false_eq_true, if_false, Option.bind_some]
        · intro hn
          exact absurd ha hn

theorem Opened.sound {slot joined : Ipv6ReassemblySlot} {packet : List UInt8} {f : Ipv6Fragment}
    {nowMs timeoutMs : ℕ} (ho : Opened slot packet f nowMs timeoutMs joined) (hs : slot.Sound)
    (hk : slot.key = none) (hf : f.Located packet) : joined.Sound where
  packet_length := ho.packet_length.trans hs.packet_length
  received_length := by rw [ho.received, hs.received_length]
  free h := by rw [ho.key] at h; cases h
  header_le _ := by rw [ho.prefixLen]; exact hf.header_le
  prefix_le _ := by
    have := hf.packet_le
    rw [ho.prefixLen]
    omega
  le_previous _ := by rw [ho.previous]; exact hf.le_previous
  previous_lt _ := by rw [ho.previous, ho.prefixLen]; exact hf.previous_lt
  total_le _ total htotal := by
    rw [ho.total, (hs.free hk).1] at htotal
    cases htotal

theorem Written.sound {slot written : Ipv6ReassemblySlot} {f : Ipv6Fragment} {stop : ℕ}
    (hw : slot.Written f stop written) (hs : slot.Sound) (hk : slot.key ≠ none)
    (ha : slot.Admits f stop) : written.Sound where
  packet_length := hw.packet_length.trans hs.packet_length
  received_length := hw.received_length.trans hs.received_length
  free h := absurd (hw.key ▸ h) hk
  header_le _ := by rw [hw.prefixLen]; exact hs.header_le hk
  prefix_le _ := by rw [hw.prefixLen]; exact hs.prefix_le hk
  le_previous _ := by rw [hw.previous]; exact hs.le_previous hk
  previous_lt _ := by rw [hw.previous, hw.prefixLen]; exact hs.previous_lt hk
  total_le _ total htotal := by
    rw [hw.total] at htotal
    rw [hw.prefixLen]
    split at htotal
    · exact hs.total_le hk total htotal
    · cases htotal
      exact ha.fits

def Joins (slot : Ipv6ReassemblySlot) (packet : List UInt8) (f : Ipv6Fragment)
    (nowMs timeoutMs : ℕ) (joined : Ipv6ReassemblySlot) : Prop :=
  (slot.key = none ∧ Opened slot packet f nowMs timeoutMs joined) ∨
    (slot.key = some f.key ∧ SamePrefix slot packet f ∧ joined = slot)

theorem Joins.sound {slot joined : Ipv6ReassemblySlot} {packet : List UInt8} {f : Ipv6Fragment}
    {nowMs timeoutMs : ℕ} (hj : slot.Joins packet f nowMs timeoutMs joined) (hs : slot.Sound)
    (hf : f.Located packet) : joined.Sound ∧ joined.key = some f.key := by
  rcases hj with ⟨hk, ho⟩ | ⟨hk, -, rfl⟩
  · exact ⟨ho.sound hs hk hf, ho.key⟩
  · exact ⟨hs, hk⟩

theorem accept_of_joins {slot joined : Ipv6ReassemblySlot} {packet : List UInt8}
    {f : Ipv6Fragment} {nowMs timeoutMs : ℕ} (available : ℕ)
    (h : slot.join packet f nowMs timeoutMs = some (.ok joined)) :
    slot.accept packet f nowMs timeoutMs available = joined.place f available := by
  simp [accept, h]

/-- A fragment offered to a slot that is free or holds its key is stored and delivered
from, or it clears the slot. -/
theorem accept_cases {slot : Ipv6ReassemblySlot} {packet : List UInt8} {f : Ipv6Fragment}
    (hs : slot.Sound) (hf : f.Located packet) (hk : slot.key = none ∨ slot.key = some f.key)
    (nowMs timeoutMs available : ℕ) :
    (∃ left, slot.accept packet f nowMs timeoutMs available = some (clear left, .dropped) ∧
      left.packet.length = maxIpv6PacketBytes ∧ left.received.length = reassemblyBlocks) ∨
    (∃ joined written, slot.Joins packet f nowMs timeoutMs joined ∧
      joined.Admits f (f.offset + f.payload.length) ∧
      joined.Written f (f.offset + f.payload.length) written ∧
      slot.accept packet f nowMs timeoutMs available = written.deliver available) := by
  have hjoin : (∃ joined, slot.join packet f nowMs timeoutMs = some (.ok joined) ∧
      slot.Joins packet f nowMs timeoutMs joined) ∨
      slot.join packet f nowMs timeoutMs = some (.error slot) := by
    rcases hk with hk | hk
    · obtain ⟨joined, hjoin, ho⟩ := join_free hs hf hk nowMs timeoutMs
      exact .inl ⟨joined, hjoin, .inl ⟨hk, ho⟩⟩
    · have hheld : slot.key ≠ none := by rw [hk]; exact Option.some_ne_none _
      by_cases hsame : SamePrefix slot packet f
      · exact .inl ⟨slot, (join_held hs hf hheld nowMs timeoutMs).1 hsame, .inr ⟨hk, hsame, rfl⟩⟩
      · exact .inr ((join_held hs hf hheld nowMs timeoutMs).2 hsame)
  rcases hjoin with ⟨joined, hjoin, hj⟩ | hjoin
  · obtain ⟨hjs, hjk⟩ := hj.sound hs hf
    have hheld : joined.key ≠ none := by rw [hjk]; exact Option.some_ne_none _
    have heq := accept_of_joins available hjoin
    by_cases ha : joined.Admits f (f.offset + f.payload.length)
    · obtain ⟨written, hw, hp⟩ := (place_spec hjs hheld hf available).1 ha
      exact .inr ⟨joined, written, hj, ha, hw, heq.trans hp⟩
    · obtain ⟨left, hp, hl⟩ := (place_spec hjs hheld hf available).2 ha
      exact .inl ⟨left, heq.trans hp, hl⟩
  · refine .inl ⟨slot, ?_, hs.packet_length, hs.received_length⟩
    simp [accept, hjoin]

theorem expire_sound {slot : Ipv6ReassemblySlot} (hs : slot.Sound) (nowMs : ℕ) :
    (slot.expire nowMs).Sound := by
  unfold expire
  split
  · exact clear_sound hs.packet_length hs.received_length
  · exact hs

end Ipv6ReassemblySlot
end Snolc.Stack
