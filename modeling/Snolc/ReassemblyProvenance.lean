import Snolc.ReassemblyPool

set_option autoImplicit false

namespace Snolc.Stack
open ByteOrder CheckedSlice Ipv6ReassemblySlot

def unexpired (timeoutMs nowMs : ℕ) (held : List Event) : List Event :=
  match held with
  | [] => []
  | first :: rest =>
    if saturatingSum first.call.nowMs timeoutMs ≤ nowMs then [] else first :: rest

/-- A slot that was left complete stores nothing more. -/
def gather (held : List Event) (e : Event) : List Event :=
  if held.getLast?.any (fun last => decide (last.outcome = .pending)) then held else held ++ [e]

def retain (held : List Event) (e : Event) : List Event :=
  match e.outcome with
  | .buffered => gather held e
  | .pending => gather held e
  | .packet _ => []
  | .dropped => []

def keep (timeoutMs : ℕ) (key : Ipv6FragmentKey) (held : List Event) (e : Event) : List Event :=
  match fragmentOf e.call.packet with
  | none => held
  | some f =>
    if f.key = key then retain (unexpired timeoutMs e.call.nowMs held) e
    else unexpired timeoutMs e.call.nowMs held

def stored (timeoutMs : ℕ) (key : Ipv6FragmentKey) (log : List Event) : List Event :=
  log.foldl (keep timeoutMs key) []

/-- The calls a packet given out by call `e` is made of. -/
def contributors (timeoutMs : ℕ) (key : Ipv6FragmentKey) (before : List Event) (e : Event) :
    List Event :=
  gather (unexpired timeoutMs e.call.nowMs (stored timeoutMs key before)) e

def payloadByte (prefixLen i : ℕ) (e : Event) : Option UInt8 :=
  match fragmentOf e.call.packet with
  | none => none
  | some f =>
    if prefixLen + f.offset ≤ i then f.payload[i - (prefixLen + f.offset)]? else none

def assembled (held : List Event) (i : ℕ) : Option UInt8 :=
  match held with
  | [] => none
  | first :: _ =>
    match fragmentOf first.call.packet with
    | none => none
    | some f =>
      if i < f.prefixLen then first.call.packet[i]?
      else held.reverse.findSome? (payloadByte f.prefixLen i)

/-- The opening fragment of `held`, and that all of it is of one key and in time. -/
structure OneTenure (timeoutMs : ℕ) (key : Ipv6FragmentKey) (held : List Event) (first : Event)
    (f : Ipv6Fragment) : Prop where
  head : held.head? = some first
  fragment : fragmentOf first.call.packet = some f
  key : ∀ e ∈ held, ∃ g, fragmentOf e.call.packet = some g ∧ g.key = key
  in_time : ∀ e ∈ held.tail, e.call.nowMs < saturatingSum first.call.nowMs timeoutMs

def Ends (total : ℕ) (e : Event) : Prop :=
  ∃ f, fragmentOf e.call.packet = some f ∧ f.more = false ∧ f.offset + f.payload.length = total

/-- Of fragments in the order of their storing: each last one announces the recorded length, and
none that comes after it ends further on. -/
def Extents (recorded : Option ℕ) (held : List Event) : Prop :=
  ∀ front last back, held = front ++ last :: back → ∀ total, Ends total last →
    recorded = some total ∧ ∀ e ∈ back, ∀ f, fragmentOf e.call.packet = some f →
      f.offset + f.payload.length ≤ total

structure Backed (timeoutMs : ℕ) (key : Ipv6FragmentKey) (slot : Ipv6ReassemblySlot)
    (held : List Event) (first : Event) (f : Ipv6Fragment) : Prop
    extends OneTenure timeoutMs key held first f where
  prefixLen : slot.prefixLen = f.prefixLen
  previous : slot.previousNextHeader = f.previousNextHeader
  next : slot.fragmentNextHeader = f.nextHeader
  expires : slot.expiresAtMs = saturatingSum first.call.nowMs timeoutMs
  ends : ∀ total, slot.totalFragmentLen = some total → ∃ e ∈ held, Ends total e
  extents : Extents slot.totalFragmentLen held
  opening : ∀ i : ℕ, i < slot.prefixLen → slot.packet[i]? = first.call.packet[i]?
  block : ∀ n : ℕ, slot.received[n / reassemblyBlockBytes]? = some true →
    (∀ total, slot.totalFragmentLen = some total → n < total) →
    slot.packet[slot.prefixLen + n]? = assembled held (slot.prefixLen + n)

theorem assembled_head {held : List Event} {first : Event} {f : Ipv6Fragment}
    (hh : held.head? = some first) (hf : fragmentOf first.call.packet = some f) {i : ℕ}
    (hi : i < f.prefixLen) : assembled held i = first.call.packet[i]? := by
  match held, hh with
  | e :: rest, hh =>
    cases hh
    simp only [assembled, hf, if_pos hi]

theorem assembled_body {held : List Event} {first : Event} {f : Ipv6Fragment}
    (hh : held.head? = some first) (hf : fragmentOf first.call.packet = some f) (n : ℕ) :
    assembled held (f.prefixLen + n) =
      held.reverse.findSome? (payloadByte f.prefixLen (f.prefixLen + n)) := by
  match held, hh with
  | e :: rest, hh =>
    cases hh
    simp only [assembled, hf, if_neg (show ¬ f.prefixLen + n < f.prefixLen by omega)]

theorem payloadByte_inside {e : Event} {g : Ipv6Fragment}
    (hg : fragmentOf e.call.packet = some g) {prefixLen n : ℕ} (h1 : g.offset ≤ n) :
    payloadByte prefixLen (prefixLen + n) e = g.payload[n - g.offset]? := by
  simp only [payloadByte, hg, if_pos (show prefixLen + g.offset ≤ prefixLen + n by omega)]
  congr 1
  omega

theorem payloadByte_outside {e : Event} {g : Ipv6Fragment}
    (hg : fragmentOf e.call.packet = some g) {prefixLen n : ℕ}
    (h : n < g.offset ∨ g.offset + g.payload.length ≤ n) :
    payloadByte prefixLen (prefixLen + n) e = none := by
  simp only [payloadByte, hg]
  split
  · rw [List.getElem?_eq_none]
    omega
  · rfl

/-- A block is either inside the stored piece's blocks or untouched by its bytes. -/
theorem block_outside {offset stop n : ℕ} (hoff : offset % reassemblyBlockBytes = 0)
    (h : ¬ (offset / reassemblyBlockBytes ≤ n / reassemblyBlockBytes ∧
      n / reassemblyBlockBytes < divCeil stop reassemblyBlockBytes)) :
    n < offset ∨ stop ≤ n := by
  simp only [divCeil, reassemblyBlockBytes] at *
  omega

theorem block_inside {offset stop n : ℕ} (h1 : offset ≤ n) (h2 : n < stop) :
    offset / reassemblyBlockBytes ≤ n / reassemblyBlockBytes ∧
      n / reassemblyBlockBytes < divCeil stop reassemblyBlockBytes := by
  simp only [divCeil, reassemblyBlockBytes]
  omega

theorem Written.below_prefix {slot written : Ipv6ReassemblySlot} {f : Ipv6Fragment} {stop i : ℕ}
    (hw : slot.Written f stop written) (hi : i < slot.prefixLen) :
    written.packet[i]? = slot.packet[i]? := by
  rw [hw.packet, if_neg (by omega)]

theorem Written.stored_byte {slot written : Ipv6ReassemblySlot} {f : Ipv6Fragment}
    {packet : List UInt8} (hw : slot.Written f (f.offset + f.payload.length) written)
    (ha : slot.Admits f (f.offset + f.payload.length)) (hl : f.Located packet) {n : ℕ}
    (hblock : f.offset / reassemblyBlockBytes ≤ n / reassemblyBlockBytes ∧
      n / reassemblyBlockBytes < divCeil (f.offset + f.payload.length) reassemblyBlockBytes)
    (htotal : ∀ total, written.totalFragmentLen = some total → n < total) :
    f.offset ≤ n ∧ n < f.offset + f.payload.length ∧
      written.packet[slot.prefixLen + n]? = f.payload[n - f.offset]? := by
  have hoff := hl.offset_aligned
  have hstop : n < f.offset + f.payload.length := by
    cases hmore : f.more with
    | false => exact htotal _ (by rw [hw.total, hmore]; rfl)
    | true =>
      have hal := ha.aligned hmore
      simp only [divCeil, reassemblyBlockBytes] at *
      omega
  have hle : f.offset ≤ n := by
    simp only [reassemblyBlockBytes] at *
    omega
  refine ⟨hle, hstop, ?_⟩
  rw [hw.packet, if_pos (by omega)]
  congr 1
  omega

theorem Extents.snoc {held : List Event} {slot written : Ipv6ReassemblySlot} {e : Event} {f : Ipv6Fragment}
    (h : Extents slot.totalFragmentLen held) (hf : fragmentOf e.call.packet = some f)
    (ha : slot.Admits f (f.offset + f.payload.length))
    (hw : slot.Written f (f.offset + f.payload.length) written) :
    Extents written.totalFragmentLen (held ++ [e]) := by
  intro front last back hsplit total hends
  rcases List.eq_nil_or_concat back with rfl | ⟨back, e', rfl⟩
  · -- the new fragment is itself a last one
    obtain ⟨rfl, hlast⟩ := List.append_inj' hsplit rfl
    cases hlast
    obtain ⟨f', hf', hmore, rfl⟩ := hends
    cases hf.symm.trans hf'
    rw [hw.total, hmore]
    exact ⟨rfl, fun _ hm => absurd hm List.not_mem_nil⟩
  · rw [List.concat_eq_append, ← List.cons_append, ← List.append_assoc] at hsplit
    obtain ⟨rfl, hlast⟩ := List.append_inj' hsplit rfl
    cases hlast
    obtain ⟨hrecorded, hback⟩ := h front last back rfl total hends
    have hle := (ha.below total hrecorded).1
    refine ⟨?_, fun e' hm f' hf' => ?_⟩
    · rw [hw.total]
      split
      · exact hrecorded
      · rename_i hmore
        rw [ha.last (by simpa using hmore) total hrecorded]
    · rw [List.concat_eq_append] at hm
      rcases List.mem_append.mp hm with hm | hm
      · exact hback e' hm f' hf'
      · cases List.mem_singleton.mp hm
        cases hf.symm.trans hf'
        exact hle

theorem backed_opened {slot joined written : Ipv6ReassemblySlot} {e : Event} {f : Ipv6Fragment}
    {timeoutMs : ℕ} (hs : slot.Sound) (hk : slot.key = none)
    (hf : fragmentOf e.call.packet = some f)
    (ho : Opened slot e.call.packet f e.call.nowMs timeoutMs joined)
    (ha : joined.Admits f (f.offset + f.payload.length))
    (hw : joined.Written f (f.offset + f.payload.length) written) :
    Backed timeoutMs f.key written [e] e f where
  head := rfl
  fragment := hf
  key e' he := by
    rw [List.mem_singleton.mp he]
    exact ⟨f, hf, rfl⟩
  in_time _ he := nomatch he
  prefixLen := hw.prefixLen.trans ho.prefixLen
  previous := hw.previous.trans ho.previous
  next := hw.next.trans ho.next
  expires := hw.expires.trans ho.expires
  ends total ht := by
    rw [hw.total, ho.total, (hs.free hk).1] at ht
    split at ht
    · cases ht
    · next hmore => exact ⟨e, List.mem_singleton_self e, f, hf, by simpa using hmore, Option.some.inj ht⟩
  extents := by
    have hempty : Extents joined.totalFragmentLen [] := by
      intro front last back hsplit
      cases (List.append_eq_nil_iff.mp hsplit.symm).2
    exact hempty.snoc hf ha hw
  opening i hi := by
    rw [hw.prefixLen] at hi
    rw [Written.below_prefix hw hi]
    exact ho.head i (ho.prefixLen ▸ hi)
  block n hn htotal := by
    obtain ⟨-, hl⟩ := fragmentOf_eq_some hf
    rw [hw.received] at hn
    split at hn
    · next hb =>
      obtain ⟨hle, -, hbyte⟩ := Written.stored_byte hw ha hl hb htotal
      rw [hw.prefixLen, hbyte, ho.prefixLen, assembled_body rfl hf]
      simp only [List.reverse_singleton, List.findSome?_cons, payloadByte_inside hf hle]
      cases f.payload[n - f.offset]? <;> rfl
    · -- a slot just opened has no other block
      rw [ho.received] at hn
      exact absurd hn ((hs.free hk).2 _)

theorem backed_joined {slot written : Ipv6ReassemblySlot} {held : List Event} {first e : Event}
    {f g : Ipv6Fragment} {timeoutMs : ℕ} (hb : Backed timeoutMs f.key slot held first g)
    (hf : fragmentOf e.call.packet = some f) (htime : e.call.nowMs < slot.expiresAtMs)
    (ha : slot.Admits f (f.offset + f.payload.length))
    (hw : slot.Written f (f.offset + f.payload.length) written) :
    Backed timeoutMs f.key written (held ++ [e]) first g where
  head := by rw [List.head?_append, hb.head]; rfl
  fragment := hb.fragment
  key e' he := by
    rcases List.mem_append.mp he with h | h
    · exact hb.key e' h
    · rw [List.mem_singleton.mp h]
      exact ⟨f, hf, rfl⟩
  in_time e' he := by
    have hne : held ≠ [] := fun h => by rw [h] at hb; cases hb.head
    rw [List.tail_append_of_ne_nil hne] at he
    rcases List.mem_append.mp he with h | h
    · exact hb.in_time e' h
    · rw [List.mem_singleton.mp h, ← hb.expires]
      exact htime
  prefixLen := hw.prefixLen.trans hb.prefixLen
  previous := hw.previous.trans hb.previous
  next := hw.next.trans hb.next
  expires := hw.expires.trans hb.expires
  ends total ht := by
    rw [hw.total] at ht
    split at ht
    · obtain ⟨e', hm, he⟩ := hb.ends total ht
      exact ⟨e', List.mem_append_left _ hm, he⟩
    · next hmore =>
      exact ⟨e, by simp, f, hf, by simpa using hmore, Option.some.inj ht⟩
  extents := hb.extents.snoc hf ha hw
  opening i hi := by
    rw [hw.prefixLen] at hi
    rw [Written.below_prefix hw hi]
    exact hb.opening i hi
  block n hn htotal := by
    have hhead : (held ++ [e]).head? = some first := by
      rw [List.head?_append, hb.head]
      rfl
    obtain ⟨-, hl⟩ := fragmentOf_eq_some hf
    rw [hw.received] at hn
    rw [hw.prefixLen]
    split at hn
    · next hblock =>
      obtain ⟨hle, hlt, hbyte⟩ := Written.stored_byte hw ha hl hblock htotal
      rw [hbyte, hb.prefixLen, assembled_body hhead hb.fragment]
      rw [List.reverse_append, List.reverse_singleton, List.singleton_append,
        List.findSome?_cons, payloadByte_inside hf hle,
        List.getElem?_eq_getElem (show n - f.offset < f.payload.length by omega)]
    · next hblock =>
      have hout := block_outside hl.offset_aligned hblock
      rw [hw.packet, if_neg (by omega)]
      have hold : ∀ total, slot.totalFragmentLen = some total → n < total := by
        intro total ht
        cases hmore : f.more with
        | true => exact htotal total (by rw [hw.total, hmore]; exact ht)
        | false =>
          rw [ha.last hmore total ht]
          exact htotal _ (by rw [hw.total, hmore]; rfl)
      rw [hb.block n hn hold, hb.prefixLen, assembled_body hb.head hb.fragment,
        assembled_body hhead hb.fragment, List.reverse_append, List.reverse_singleton,
        List.singleton_append, List.findSome?_cons, payloadByte_outside hf hout]

/-- What a packet made of `held` looks like. -/
structure MadeOf (timeoutMs : ℕ) (key : Ipv6FragmentKey) (held : List Event) (available : ℕ)
    (p : List UInt8) (first : Event) (f : Ipv6Fragment) : Prop
    extends OneTenure timeoutMs key held first f where
  length : ∃ total, p.length = f.prefixLen + total ∧ ∃ e ∈ held, Ends total e
  le_available : p.length ≤ available
  header_le : ipv6HeaderBytes ≤ p.length
  payload_length : payloadLength p = p.length - ipv6HeaderBytes
  next_header : p[f.previousNextHeader]? = some f.nextHeader
  bytes : ∀ i : ℕ, i < p.length → i ≠ 4 → i ≠ 5 → i ≠ f.previousNextHeader →
    p[i]? = assembled held i

theorem payloadLength_eq {p : List UInt8} {n : ℕ} (hn : n ≤ 65535)
    (h4 : p[4]? = (toBytes 2 n)[0]?) (h5 : p[5]? = (toBytes 2 n)[1]?) : payloadLength p = n := by
  have heq : (p.drop 4).take 2 = toBytes 2 n := by
    apply List.ext_getElem?
    intro i
    rw [List.getElem?_take]
    split
    · next hi =>
      rw [List.getElem?_drop]
      match i, hi with
      | 0, _ => exact h4
      | 1, _ => exact h5
    · rw [List.getElem?_eq_none]
      rw [toBytes_length]
      omega
  rw [payloadLength, heq, ofBytes_toBytes_of_lt (by omega)]

theorem madeOf_delivered {slot : Ipv6ReassemblySlot} {held : List Event} {first : Event}
    {f : Ipv6Fragment} {key : Ipv6FragmentKey} {timeoutMs available total : ℕ} {p : List UInt8}
    (hs : slot.Sound) (hb : Backed timeoutMs key slot held first f) (hc : slot.Complete)
    (htotal : slot.totalFragmentLen = some total) (hav : slot.prefixLen + total ≤ available)
    (hlen : p.length = slot.prefixLen + total)
    (hget : ∀ i : ℕ, i < slot.prefixLen + total →
      p[i]? = slot.rewritten (slot.prefixLen + total) i) :
    MadeOf timeoutMs key held available p first f := by
  have hk := hc.held hs
  have hh : 40 ≤ slot.prefixLen := hs.header_le hk
  have h6 := hs.le_previous hk
  have hprev := hs.previous_lt hk
  have hle := hs.total_le hk total htotal
  have hm : maxIpv6PacketBytes = 65575 := rfl
  have h40 : ipv6HeaderBytes = 40 := rfl
  obtain ⟨total', ht', hblocks⟩ := id hc
  cases htotal.symm.trans ht'
  refine ⟨hb.toOneTenure, ⟨total, hb.prefixLen ▸ hlen, hb.ends total htotal⟩, by omega, by omega,
    ?_, ?_, fun i hi h4 h5 hp => ?_⟩
  · rw [hlen]
    apply payloadLength_eq (by omega)
    · rw [hget 4 (by omega), rewritten, if_neg (by omega), if_pos (by omega)]
    · rw [hget 5 (by omega), rewritten, if_neg (by omega), if_pos (by omega)]
  · rw [← hb.previous, hget _ (by omega), rewritten, if_pos rfl, hb.next]
  · rw [hget i (by omega), rewritten, if_neg (by rw [hb.previous]; exact hp), if_neg (by omega)]
    rcases Nat.lt_or_ge i slot.prefixLen with hlt | hge
    · rw [hb.opening i hlt, assembled_head hb.head hb.fragment (hb.prefixLen ▸ hlt)]
    · obtain ⟨n, rfl⟩ := Nat.exists_eq_add_of_le hge
      refine hb.block n (hblocks _ ?_) fun t ht => ?_
      · exact (block_inside (Nat.zero_le n) (show n < total by omega)).2
      · cases htotal.symm.trans ht
        omega

def Retained (held : List Event) : Prop :=
  ∃ last, held.getLast? = some last ∧ last.outcome = .pending

theorem gather_retained {held : List Event} (h : Retained held) (e : Event) :
    gather held e = held := by
  obtain ⟨last, hlast, hp⟩ := h
  simp [gather, hlast, hp]

theorem gather_fresh {held : List Event} (h : ¬ Retained held) (e : Event) :
    gather held e = held ++ [e] := by
  refine if_neg fun hany => h ?_
  unfold Retained
  cases hlast : held.getLast? with
  | none =>
    rw [hlast] at hany
    cases hany
  | some last =>
    rw [hlast] at hany
    exact ⟨last, rfl, of_decide_eq_true hany⟩

theorem retained_snoc (held : List Event) (e : Event) :
    Retained (held ++ [e]) ↔ e.outcome = .pending := by
  simp [Retained]

def Tracked (timeoutMs : ℕ) (key : Ipv6FragmentKey) (slot : Ipv6ReassemblySlot)
    (held : List Event) : Prop :=
  slot.key = none ∧ held = [] ∨
    slot.key = some key ∧ (slot.Complete ↔ Retained held) ∧
      ∃ first f, Backed timeoutMs key slot held first f

theorem Tracked.key {timeoutMs : ℕ} {key : Ipv6FragmentKey} {slot : Ipv6ReassemblySlot}
    {held : List Event} (h : Tracked timeoutMs key slot held) :
    slot.key = none ∨ slot.key = some key := by
  rcases h with ⟨h, -⟩ | ⟨h, -⟩
  · exact .inl h
  · exact .inr h

theorem serves_tracked {slot slot' : Ipv6ReassemblySlot} {held : List Event} {e : Event}
    {f : Ipv6Fragment} {timeoutMs : ℕ} (hs : slot.Sound)
    (hf : fragmentOf e.call.packet = some f) (ht : Tracked timeoutMs f.key slot held)
    (htime : slot.key = some f.key → e.call.nowMs < slot.expiresAtMs)
    (hserve : Serves slot e.call.packet f e.call.nowMs timeoutMs e.call.available slot' e.outcome) :
    slot'.Sound ∧ Tracked timeoutMs f.key slot' (retain held e) ∧
      ∀ p, e.outcome = .packet p →
        ∃ first g total, MadeOf timeoutMs f.key (gather held e) e.call.available p first g ∧
          p.length = g.prefixLen + total ∧ Extents (some total) (gather held e) := by
  obtain ⟨-, hl⟩ := fragmentOf_eq_some hf
  have cleared : ∀ left : Ipv6ReassemblySlot, left.packet.length = maxIpv6PacketBytes →
      left.received.length = reassemblyBlocks → retain held e = [] →
      left.clear.Sound ∧ Tracked timeoutMs f.key left.clear (retain held e) :=
    fun left hp hr hnil => ⟨clear_sound hp hr, .inl ⟨rfl, hnil⟩⟩
  rcases hserve with ⟨hc, hd⟩ | ⟨hn, hacc⟩
  · -- a slot left complete: the fragment of this call is not stored
    rcases ht with ⟨hk, -⟩ | ⟨hk, hret, first, g, hb⟩
    · exact absurd hk (hc.held hs)
    have hgather := gather_retained (hret.mp hc) e
    rcases deliver_cases hs e.call.available with ⟨hno, -⟩ | ⟨-, h⟩ |
      ⟨total, buffer, p, -, htotal, hav, h, hbuf, hlen, hget⟩
    · exact absurd hc hno
    · obtain ⟨rfl, hout⟩ := Prod.mk.inj (Option.some.inj (hd.symm.trans h))
      rw [hout]
      refine ⟨hs, .inr ⟨hk, ?_, first, g, ?_⟩, fun p hp => nomatch hp⟩
      · simpa only [retain, hout, hgather] using hret
      · simpa only [retain, hout, hgather] using hb
    · obtain ⟨rfl, hout⟩ := Prod.mk.inj (Option.some.inj (hd.symm.trans h))
      obtain ⟨h1, h2⟩ := cleared { slot with packet := buffer } hbuf hs.received_length
        (by simp only [retain, hout])
      refine ⟨h1, h2, fun p' hp => ⟨first, g, total, ?_⟩⟩
      rw [hout] at hp
      cases hp
      rw [hgather]
      exact ⟨madeOf_delivered hs hb hc htotal hav hlen hget, hb.prefixLen ▸ hlen, htotal ▸ hb.extents⟩
  · rcases accept_cases hs hl ht.key e.call.nowMs timeoutMs e.call.available with
      ⟨left, h, hp, hr⟩ | ⟨joined, written, hj, ha, hw, h⟩
    · obtain ⟨rfl, hout⟩ := Prod.mk.inj (Option.some.inj (hacc.symm.trans h))
      obtain ⟨h1, h2⟩ := cleared left hp hr (by simp only [retain, hout])
      refine ⟨h1, h2, fun p hp => ?_⟩
      rw [hout] at hp
      cases hp
    · obtain ⟨hjs, hjk⟩ := hj.sound hs hl
      have hheld : joined.key ≠ none := by rw [hjk]; exact Option.some_ne_none _
      have hws := hw.sound hjs hheld ha
      have hwk : written.key = some f.key := hw.key.trans hjk
      have hfresh : ¬ Retained held := by
        rcases ht with ⟨-, rfl⟩ | ⟨-, hret, -⟩
        · rintro ⟨last, hlast, -⟩
          cases hlast
        · exact fun hr => hn (hret.mpr hr)
      have hgather := gather_fresh hfresh e
      obtain ⟨first, g, hb⟩ : ∃ first g, Backed timeoutMs f.key written (held ++ [e]) first g := by
        rcases ht with ⟨hk, rfl⟩ | ⟨hk, -, first, g, hb⟩
        · rcases hj with ⟨-, ho⟩ | ⟨hk', -⟩
          · exact ⟨e, f, backed_opened hs hk hf ho ha hw⟩
          · rw [hk] at hk'
            cases hk'
        · rcases hj with ⟨hk', -⟩ | ⟨-, -, rfl⟩
          · rw [hk] at hk'
            cases hk'
          · exact ⟨first, g, backed_joined hb hf (htime hk) ha hw⟩
      rcases deliver_cases hws e.call.available with ⟨hno, hd⟩ | ⟨hc, hd⟩ |
        ⟨total, buffer, p, hc, htotal, hav, hd, hbuf, hlen, hget⟩
      · obtain ⟨rfl, hout⟩ := Prod.mk.inj (Option.some.inj (hacc.symm.trans (h.trans hd)))
        have hkeep : retain held e = held ++ [e] := by simp only [retain, hout, hgather]
        rw [hkeep, hout]
        refine ⟨hws, .inr ⟨hwk, ?_, first, g, hb⟩, fun p hp => nomatch hp⟩
        rw [retained_snoc, hout]
        exact ⟨fun hc => absurd hc hno, fun h => nomatch h⟩
      · obtain ⟨rfl, hout⟩ := Prod.mk.inj (Option.some.inj (hacc.symm.trans (h.trans hd)))
        have hkeep : retain held e = held ++ [e] := by simp only [retain, hout, hgather]
        rw [hkeep]
        refine ⟨hws, .inr ⟨hwk, ?_, first, g, hb⟩, fun p hp => ?_⟩
        · rw [retained_snoc, hout]
          exact ⟨fun _ => rfl, fun _ => hc⟩
        · rw [hout] at hp
          cases hp
      · obtain ⟨rfl, hout⟩ := Prod.mk.inj (Option.some.inj (hacc.symm.trans (h.trans hd)))
        obtain ⟨h1, h2⟩ := cleared { written with packet := buffer } hbuf hws.received_length
          (by simp only [retain, hout])
        refine ⟨h1, h2, fun p' hp => ⟨first, g, total, ?_⟩⟩
        rw [hout] at hp
        cases hp
        rw [hgather]
        exact ⟨madeOf_delivered hws hb hc htotal hav hlen hget, hb.prefixLen ▸ hlen, htotal ▸ hb.extents⟩

structure Tracks (timeoutMs : ℕ) (slots : List Ipv6ReassemblySlot)
    (held : Ipv6FragmentKey → List Event) : Prop extends SoundSlots slots where
  tracked : ∀ slot ∈ slots, ∀ key, slot.key = some key → Tracked timeoutMs key slot (held key)
  absent : ∀ key, (∀ slot ∈ slots, slot.key ≠ some key) → held key = []

theorem tracks_new (slots timeoutMs : ℕ) :
    Tracks timeoutMs (Ipv6Reassembly.new slots timeoutMs).slots fun _ => [] where
  toSoundSlots := soundSlots_new slots timeoutMs
  tracked slot hslot key hk := by
    rw [List.eq_of_mem_replicate hslot] at hk
    cases hk
  absent _ _ := rfl

theorem unexpired_of_head {timeoutMs nowMs : ℕ} {held : List Event} {first : Event}
    (h : held.head? = some first) : unexpired timeoutMs nowMs held =
      if saturatingSum first.call.nowMs timeoutMs ≤ nowMs then [] else held := by
  match held, h with
  | e :: rest, h =>
    cases h
    rfl

theorem Tracks.expire {timeoutMs : ℕ} {slots : List Ipv6ReassemblySlot}
    {held : Ipv6FragmentKey → List Event} (ht : Tracks timeoutMs slots held) (nowMs : ℕ) :
    Tracks timeoutMs (slots.map (Ipv6ReassemblySlot.expire nowMs))
      fun key => unexpired timeoutMs nowMs (held key) where
  toSoundSlots := ht.toSoundSlots.expire nowMs
  tracked slot hslot key hk := by
    obtain ⟨s, hm, rfl⟩ := List.mem_map.mp hslot
    obtain ⟨hsk, heq⟩ := expire_key hk
    rw [heq]
    rcases ht.tracked s hm key hsk with ⟨hn, -⟩ | ⟨-, hret, first, f, hb⟩
    · rw [hsk] at hn
      cases hn
    · have hlive : ¬ saturatingSum first.call.nowMs timeoutMs ≤ nowMs := by
        intro hle
        have hclear : s.expire nowMs = s.clear :=
          if_pos ⟨by rw [hsk]; exact Option.some_ne_none _, by rw [hb.expires]; exact hle⟩
        rw [hclear] at hk
        cases hk
      rw [unexpired_of_head hb.head, if_neg hlive]
      exact .inr ⟨hsk, hret, first, f, hb⟩
  absent key hno := by
    by_cases hall : ∀ slot ∈ slots, slot.key ≠ some key
    · rw [ht.absent key hall]
      rfl
    · push Not at hall
      obtain ⟨s, hm, hsk⟩ := hall
      rcases ht.tracked s hm key hsk with ⟨-, hnil⟩ | ⟨-, -, first, f, hb⟩
      · rw [hnil]
        rfl
      · rw [unexpired_of_head hb.head, if_pos]
        by_contra hlive
        have hstay : s.expire nowMs = s :=
          if_neg fun h => hlive (hb.expires ▸ h.2)
        exact hno _ (List.mem_map_of_mem hm) (by rw [hstay]; exact hsk)

theorem Tracks.set {timeoutMs i : ℕ} {slots : List Ipv6ReassemblySlot}
    {held : Ipv6FragmentKey → List Event} {slot slot' : Ipv6ReassemblySlot}
    {key : Ipv6FragmentKey} {new : List Event} (ht : Tracks timeoutMs slots held)
    (hi : slots[i]? = some slot) (hreach : Reaches slots key slot) (hs' : slot'.Sound)
    (ht' : Tracked timeoutMs key slot' new) :
    Tracks timeoutMs (slots.set i slot') (fun k => if k = key then new else held k) where
  toSoundSlots := ht.toSoundSlots.set hi hreach hs' ht'.key
  tracked s hm k hk := by
    obtain ⟨c, hc⟩ := List.mem_iff_getElem?.mp hm
    rcases getElem?_set_cases hc with ⟨-, rfl⟩ | ⟨hne, hc'⟩
    · have hkey : k = key := by
        rcases ht'.key with h | h
        · rw [h] at hk
          cases hk
        · exact Option.some.inj (hk.symm.trans h)
      rw [hkey, if_pos rfl]
      exact ht'
    · have hkk : k ≠ key := by
        intro h
        exact hne (hreach.only ht.toSoundSlots hi hc' (h ▸ hk))
      rw [if_neg hkk]
      exact ht.tracked s (List.mem_of_getElem? hc') k hk
  absent k hno := by
    have hlt : i < slots.length := (List.getElem?_eq_some_iff.mp hi).1
    by_cases hkk : k = key
    · rw [if_pos hkk]
      rcases ht' with ⟨-, h⟩ | ⟨h, -⟩
      · exact h
      · exact absurd (hkk ▸ h) (hno slot' (List.mem_set hlt slot'))
    · rw [if_neg hkk]
      refine ht.absent k fun s hm hk => ?_
      obtain ⟨c, hc⟩ := List.mem_iff_getElem?.mp hm
      by_cases hci : c = i
      · subst hci
        cases hi.symm.trans hc
        rcases hreach.key with h | h
        · rw [h] at hk
          cases hk
        · exact hkk (Option.some.inj (hk.symm.trans h))
      · refine hno s (List.mem_iff_getElem?.mpr ⟨c, ?_⟩) hk
        rw [List.getElem?_set_ne (Ne.symm hci)]
        exact hc

theorem in_time_of_expire {slots : List Ipv6ReassemblySlot} {slot : Ipv6ReassemblySlot}
    {nowMs : ℕ} (hm : slot ∈ slots.map (expire nowMs)) {key : Ipv6FragmentKey}
    (hk : slot.key = some key) : nowMs < slot.expiresAtMs := by
  obtain ⟨s, -, rfl⟩ := List.mem_map.mp hm
  obtain ⟨hsk, heq⟩ := expire_key hk
  rw [heq]
  by_contra hle
  have hclear : s.expire nowMs = s.clear :=
    if_pos ⟨by rw [hsk]; exact Option.some_ne_none _, by omega⟩
  rw [hclear] at hk
  cases hk

structure Logged (slots timeoutMs : ℕ) (r : Ipv6Reassembly) (log : List Event) : Prop where
  timeout : r.timeoutMs = timeoutMs
  count : r.slots.length = slots
  tracks : Tracks timeoutMs r.slots fun key => stored timeoutMs key log

def Accounted (timeoutMs : ℕ) (before : List Event) (e : Event) : Prop :=
  ∀ f, fragmentOf e.call.packet = some f → ∀ p, e.outcome = .packet p →
    ∃ first g total, MadeOf timeoutMs f.key (contributors timeoutMs f.key before e) e.call.available p
      first g ∧ p.length = g.prefixLen + total ∧ Extents (some total) (contributors timeoutMs f.key before e)

theorem stored_snoc (timeoutMs : ℕ) (key : Ipv6FragmentKey) (log : List Event) (e : Event) :
    stored timeoutMs key (log ++ [e]) = keep timeoutMs key (stored timeoutMs key log) e := by
  simp [stored, List.foldl_append]

theorem ingest_logged {slots timeoutMs : ℕ} {r : Ipv6Reassembly} {log : List Event}
    (hr : Logged slots timeoutMs r log) (c : Call) :
    ∃ r' out, r.ingest c.packet c.nowMs c.available = some (r', out) ∧
      Logged slots timeoutMs r' (log ++ [⟨c, out⟩]) ∧ Accounted timeoutMs log ⟨c, out⟩ := by
  cases hf : fragmentOf c.packet with
  | none =>
    obtain ⟨out, hin⟩ := ingest_other hf r c.nowMs c.available
    refine ⟨r, out, hin, ⟨hr.timeout, hr.count, ?_⟩, fun f hf' => ?_⟩
    · have heq : (fun key => stored timeoutMs key (log ++ [⟨c, out⟩])) =
          fun key => stored timeoutMs key log := by
        funext key
        simp only [stored_snoc, keep, hf]
      rw [heq]
      exact hr.tracks
    · rw [hf] at hf'
      cases hf'
  | some f =>
    obtain ⟨hwalk, hl⟩ := fragmentOf_eq_some hf
    have hexp := hr.tracks.expire c.nowMs
    have heq : ∀ out, (fun key => stored timeoutMs key (log ++ [⟨c, out⟩])) = fun key =>
        if key = f.key then retain (unexpired timeoutMs c.nowMs (stored timeoutMs f.key log)) ⟨c, out⟩
        else unexpired timeoutMs c.nowMs (stored timeoutMs key log) := by
      intro out
      funext key
      simp only [stored_snoc, keep, hf]
      by_cases hk : key = f.key
      · rw [if_pos hk, if_pos hk.symm, hk]
      · rw [if_neg hk, if_neg (Ne.symm hk)]
    rcases ingest_fragment hr.tracks.toSoundSlots hwalk hl c.nowMs c.available with
      ⟨i, slot, slot', out, hi, hreach, hserve, hin⟩ | ⟨hfull, hin⟩
    · have hm := List.mem_of_getElem? hi
      have htr : Tracked timeoutMs f.key slot
          (unexpired timeoutMs c.nowMs (stored timeoutMs f.key log)) := by
        rcases hreach with hk | ⟨hk, hno⟩
        · exact hexp.tracked slot hm f.key hk
        · exact .inl ⟨hk, hexp.absent f.key hno⟩
      rw [hr.timeout] at hserve
      obtain ⟨hs', ht', hmade⟩ := serves_tracked (e := ⟨c, out⟩) (hexp.sound slot hm) hf htr
        (fun hk => in_time_of_expire hm hk) hserve
      refine ⟨_, out, hin, ⟨hr.timeout, ?_, ?_⟩, fun g hg p hp => ?_⟩
      · simpa using hr.count
      · rw [heq out]
        exact hexp.set hi hreach hs' ht'
      · cases hf.symm.trans hg
        exact hmade p hp
    · refine ⟨_, .dropped, hin, ⟨hr.timeout, ?_, ?_⟩, fun g hg p hp => nomatch hp⟩
      · simpa using hr.count
      · have hnil := hexp.absent f.key fun slot hm => (hfull slot hm).1
        have hsame : (fun key => stored timeoutMs key (log ++ [⟨c, .dropped⟩])) = fun key =>
            unexpired timeoutMs c.nowMs (stored timeoutMs key log) := by
          rw [heq .dropped]
          funext key
          split
          · next hk => rw [hk, hnil, retain]
          · rfl
        rw [hsame]
        exact hexp

theorem run_logged (slots timeoutMs : ℕ) (calls : List Call) :
    ∀ (r : Ipv6Reassembly) (log : List Event), Logged slots timeoutMs r log →
      ∃ r' rest, r.run calls = some (r', rest) ∧ rest.map Event.call = calls ∧
        Logged slots timeoutMs r' (log ++ rest) ∧
        ∀ before e after, rest = before ++ e :: after →
          Accounted timeoutMs (log ++ before) e := by
  induction calls with
  | nil =>
    intro r log hr
    refine ⟨r, [], rfl, rfl, by simpa using hr, fun before e after h => ?_⟩
    simp at h
  | cons c calls ih =>
    intro r log hr
    obtain ⟨r₁, out, hin, hr₁, hacc⟩ := ingest_logged hr c
    obtain ⟨r₂, rest, hrun, hcalls, hr₂, hall⟩ := ih r₁ _ hr₁
    refine ⟨r₂, ⟨c, out⟩ :: rest, ?_, by simp [hcalls], by simpa using hr₂, ?_⟩
    · simp [Ipv6Reassembly.run, hin, hrun]
    · intro before e after h
      match before, h with
      | [], h =>
        obtain ⟨rfl, -⟩ := List.cons.inj h
        simpa using hacc
      | b :: before, h =>
        obtain ⟨rfl, hrest⟩ := List.cons.inj h
        simpa using hall before e after hrest

theorem unexpired_sublist (timeoutMs nowMs : ℕ) (held : List Event) :
    (unexpired timeoutMs nowMs held).Sublist held := by
  unfold unexpired
  split
  · exact List.Sublist.refl _
  · split
    · exact List.nil_sublist _
    · exact List.Sublist.refl _

theorem gather_sublist {held log : List Event} (h : held.Sublist log) (e : Event) :
    (gather held e).Sublist (log ++ [e]) := by
  unfold gather
  split
  · exact h.trans (List.sublist_append_left log [e])
  · exact h.append (List.Sublist.refl [e])

theorem stored_sublist (timeoutMs : ℕ) (key : Ipv6FragmentKey) (log : List Event) :
    (stored timeoutMs key log).Sublist log := by
  induction log using List.reverseRecOn with
  | nil => exact List.Sublist.refl _
  | append_singleton log e ih =>
    rw [stored_snoc, keep]
    have hexp : ∀ nowMs, (unexpired timeoutMs nowMs (stored timeoutMs key log)).Sublist log :=
      fun nowMs => (unexpired_sublist timeoutMs nowMs _).trans ih
    have hup : log.Sublist (log ++ [e]) := List.sublist_append_left log [e]
    split
    · exact ih.trans hup
    · split
      · unfold retain
        split
        · exact gather_sublist (hexp _) e
        · exact gather_sublist (hexp _) e
        · exact List.nil_sublist _
        · exact List.nil_sublist _
      · exact (hexp _).trans hup

theorem contributors_sublist (timeoutMs : ℕ) (key : Ipv6FragmentKey) (before : List Event)
    (e : Event) : (contributors timeoutMs key before e).Sublist (before ++ [e]) :=
  gather_sublist ((unexpired_sublist timeoutMs _ _).trans (stored_sublist timeoutMs key before)) e

/-- No sequence of calls aborts or changes the number of slots, and every packet given
out for a fragment is the one assembled from the calls of its key stored since the slot
was opened: they alone fix its length and all bytes but the two rewritten fields. -/
theorem reassembly_never_mixes (slots timeoutMs : ℕ) (calls : List Call) :
    ∃ r log, (Ipv6Reassembly.new slots timeoutMs).run calls = some (r, log) ∧
      log.map Event.call = calls ∧ r.slots.length = slots ∧
      ∀ before e after, log = before ++ e :: after →
        ∀ f, fragmentOf e.call.packet = some f → ∀ p, e.outcome = .packet p →
          (contributors timeoutMs f.key before e).Sublist (before ++ [e]) ∧
          ∃ first g, MadeOf timeoutMs f.key (contributors timeoutMs f.key before e)
            e.call.available p first g := by
  obtain ⟨r, log, hrun, hcalls, hlog, hall⟩ := run_logged slots timeoutMs calls
    (Ipv6Reassembly.new slots timeoutMs) []
    ⟨rfl, List.length_replicate, tracks_new slots timeoutMs⟩
  refine ⟨r, log, hrun, hcalls, hlog.count, fun before e after h f hf p hp => ?_⟩
  obtain ⟨first, g, -, hmade, -⟩ := hall before e after h f hf p hp
  exact ⟨contributors_sublist timeoutMs f.key before e, first, g, hmade⟩

end Snolc.Stack
