import Snolc.ReassemblyProvenance
import Snolc.StackDatagram
import Mathlib.Data.List.Pairwise
import Mathlib.Data.List.Perm.Subperm

set_option autoImplicit false

namespace Snolc.Stack
open ByteOrder CheckedSlice Ipv6ReassemblySlot

/-- Consecutive pieces: all but the last of whole blocks, none empty. -/
structure Partition (body : List UInt8) (parts : List (List UInt8)) : Prop where
  flatten : parts.flatten = body
  nonempty : ∀ part ∈ parts, part ≠ []
  aligned : ∀ part ∈ parts.dropLast, part.length % reassemblyBlockBytes = 0

def cut : ℕ → List (List UInt8) → List Piece
  | _, [] => []
  | offset, [last] => [⟨offset, last, false⟩]
  | offset, part :: next :: rest =>
    ⟨offset, part, true⟩ :: cut (offset + part.length) (next :: rest)

def Piece.stop (piece : Piece) : ℕ := piece.offset + piece.payload.length

/-- Pieces that lie apart and together cover the part from `start` to its end. -/
structure Covers (body : List UInt8) (start : ℕ) (pieces : List Piece) : Prop where
  start_le : ∀ q ∈ pieces, start ≤ q.offset
  aligned : ∀ q ∈ pieces, q.offset % 8 = 0
  pos : ∀ q ∈ pieces, q.offset < q.stop
  more : ∀ q ∈ pieces, q.more = true → q.payload.length % 8 = 0 ∧ q.stop < body.length
  last : ∀ q ∈ pieces, q.more = false → q.stop = body.length
  bytes : ∀ q ∈ pieces, ∀ n : ℕ, q.offset ≤ n → n < q.stop →
    q.payload[n - q.offset]? = body[n]?
  apart : pieces.Pairwise fun p q => p.stop ≤ q.offset
  covered : ∀ n : ℕ, start ≤ n → n < body.length → ∃ q ∈ pieces, q.offset ≤ n ∧ n < q.stop
  ends : ∃ q ∈ pieces, q.more = false

theorem cut_covers (parts : List (List UInt8)) :
    ∀ (before : List UInt8), before.length % 8 = 0 → parts ≠ [] → (∀ part ∈ parts, part ≠ []) →
      (∀ part ∈ parts.dropLast, part.length % reassemblyBlockBytes = 0) →
      Covers (before ++ parts.flatten) before.length (cut before.length parts) := by
  induction parts with
  | nil =>
    intro before _ hne
    exact absurd rfl hne
  | cons part rest ih =>
    intro before hbefore _ hnonempty haligned
    have hpart : 0 < part.length := List.length_pos_iff.mpr (hnonempty part List.mem_cons_self)
    cases rest with
    | nil =>
      have hb : before ++ [part].flatten = before ++ part := by simp
      rw [hb]
      constructor
      · simp [cut]
      · simpa [cut] using hbefore
      · simpa [cut, Piece.stop] using hpart
      · simp [cut]
      · simp [cut, Piece.stop]
      · intro q hq n h1 h2
        simp only [cut, List.mem_singleton] at hq
        subst hq
        rw [List.getElem?_append_right h1]
      · simp [cut]
      · intro n h1 h2
        refine ⟨_, List.mem_singleton_self _, h1, ?_⟩
        simpa [Piece.stop] using h2
      · exact ⟨_, List.mem_singleton_self _, rfl⟩
    | cons next rest =>
      have hal : part.length % 8 = 0 := haligned part (by simp)
      have hrec := ih (before ++ part) (by simp; omega) (List.cons_ne_nil _ _)
        (fun q hq => hnonempty q (List.mem_cons_of_mem part hq))
        (fun q hq => haligned q (by
          rw [List.dropLast_cons_of_ne_nil (List.cons_ne_nil _ _)]
          exact List.mem_cons_of_mem part hq))
      have hb : before ++ (part :: next :: rest).flatten = before ++ part ++ (next :: rest).flatten := by
        simp
      have hnext : 0 < (next :: rest).flatten.length := by
        have := List.length_pos_iff.mpr (hnonempty next (by simp))
        simp
        omega
      rw [List.length_append] at hrec
      rw [hb, cut]
      have hlen : (before ++ part ++ (next :: rest).flatten).length =
          before.length + part.length + (next :: rest).flatten.length := by
        rw [List.length_append, List.length_append]
      constructor
      · intro q hq
        rcases List.mem_cons.mp hq with rfl | h
        · exact Nat.le_refl _
        · have := hrec.start_le q h
          omega
      · intro q hq
        rcases List.mem_cons.mp hq with rfl | h
        · exact hbefore
        · exact hrec.aligned q h
      · intro q hq
        rcases List.mem_cons.mp hq with rfl | h
        · simpa [Piece.stop] using hpart
        · exact hrec.pos q h
      · intro q hq hmore
        rcases List.mem_cons.mp hq with rfl | h
        · refine ⟨hal, ?_⟩
          simp only [Piece.stop]
          omega
        · exact hrec.more q h hmore
      · intro q hq hmore
        rcases List.mem_cons.mp hq with rfl | h
        · cases hmore
        · exact hrec.last q h hmore
      · intro q hq n h1 h2
        rcases List.mem_cons.mp hq with rfl | h
        · simp only [Piece.stop] at h1 h2
          rw [List.append_assoc, List.getElem?_append_right h1, List.getElem?_append_left (by omega)]
        · exact hrec.bytes q h n h1 h2
      · refine List.pairwise_cons.mpr ⟨fun q h => ?_, hrec.apart⟩
        exact hrec.start_le q h
      · intro n h1 h2
        rcases Nat.lt_or_ge n (before.length + part.length) with hlt | hge
        · exact ⟨_, List.mem_cons_self, h1, hlt⟩
        · obtain ⟨q, hq, hn⟩ := hrec.covered n hge h2
          exact ⟨q, List.mem_cons_of_mem _ hq, hn⟩
      · obtain ⟨q, hq, hm⟩ := hrec.ends
        exact ⟨q, List.mem_cons_of_mem _ hq, hm⟩

theorem Partition.covers {body : List UInt8} {parts : List (List UInt8)}
    (h : Partition body parts) (hb : body ≠ []) : Covers body 0 (cut 0 parts) := by
  have hne : parts ≠ [] := by
    rintro rfl
    exact hb h.flatten.symm
  have hc := cut_covers parts [] rfl hne h.nonempty h.aligned
  rw [List.nil_append, h.flatten] at hc
  exact hc

theorem Covers.stop_le {body : List UInt8} {start : ℕ} {pieces : List Piece} (h : Covers body start pieces)
    {q : Piece} (hq : q ∈ pieces) : q.stop ≤ body.length := by
  cases hmore : q.more with
  | true => exact Nat.le_of_lt (h.more q hq hmore).2
  | false => exact Nat.le_of_eq (h.last q hq hmore)

def Piece.Holds (q : Piece) (b : ℕ) : Prop :=
  q.offset / reassemblyBlockBytes ≤ b ∧ b < divCeil q.stop reassemblyBlockBytes

theorem Covers.nodup {body : List UInt8} {pieces : List Piece} (h : Covers body 0 pieces) :
    pieces.Nodup := by
  refine List.Pairwise.imp_of_mem ?_ h.apart
  rintro p q hp - hle rfl
  have := h.pos p hp
  omega

theorem Covers.disjoint {body : List UInt8} {pieces : List Piece} (h : Covers body 0 pieces)
    {p q : Piece} (hp : p ∈ pieces) (hq : q ∈ pieces) {b : ℕ} (hbp : p.Holds b) (hbq : q.Holds b) :
    p = q := by
  by_contra hne
  have hsym : p.stop ≤ q.offset ∨ q.stop ≤ p.offset := by
    let Apart : Piece → Piece → Prop := fun p q => p.stop ≤ q.offset ∨ q.stop ≤ p.offset
    have hsymm : Std.Symm Apart := ⟨fun _ _ hor => hor.symm⟩
    have hpair : pieces.Pairwise Apart := h.apart.imp fun hle => .inl hle
    exact hpair.forall hp hq hne
  have h1 := h.aligned p hp
  have h2 := h.aligned q hq
  have h3 := h.pos p hp
  have h4 := h.pos q hq
  simp only [Piece.Holds, divCeil, reassemblyBlockBytes] at hbp hbq
  omega

def Datagram.read (o : Datagram) (identifier : ℕ) (q : Piece) : Ipv6Fragment where
  key := o.key identifier
  prefixLen := o.prefixLen
  previousNextHeader := o.previousNextHeader
  nextHeader := o.nextHeader
  offset := q.offset
  more := q.more
  payload := q.payload

/-- A slot that holds exactly the pieces in `seen`. -/
structure Gathers (o : Datagram) (identifier deadline : ℕ) (slot : Ipv6ReassemblySlot)
    (seen : List Piece) : Prop where
  sound : slot.Sound
  key : slot.key = some (o.key identifier)
  prefixLen : slot.prefixLen = o.prefixLen
  previous : slot.previousNextHeader = o.previousNextHeader
  next : slot.fragmentNextHeader = o.nextHeader
  expires : slot.expiresAtMs = deadline
  head : ∀ (n i : ℕ), i < o.prefixLen → i ≠ 4 → i ≠ 5 →
    slot.packet[i]? = (o.prefixBytes n 44)[i]?
  received : ∀ b : ℕ, slot.received[b]? = some true ↔ ∃ q ∈ seen, q.Holds b
  total : ∀ t, slot.totalFragmentLen = some t ↔ t = o.body.length ∧ ∃ q ∈ seen, q.more = false
  bytes : ∀ q ∈ seen, ∀ n : ℕ, q.offset ≤ n → n < q.stop →
    slot.packet[o.prefixLen + n]? = o.body[n]?

section Cutting

variable {o : Datagram} {identifier deadline : ℕ} {pieces seen : List Piece}

theorem Gathers.admits {slot : Ipv6ReassemblySlot} {q : Piece}
    (hg : Gathers o identifier deadline slot seen) (hc : Covers o.body 0 pieces)
    (hseen : ∀ p ∈ seen, p ∈ pieces) (hq : q ∈ pieces) (hnew : q ∉ seen) :
    slot.Admits (o.read identifier q) (q.offset + q.payload.length) := by
  have hpos : q.offset < q.stop := hc.pos q hq
  have hstop : q.offset + q.payload.length = q.stop := rfl
  have hsmall := o.small
  have hpre : o.prefixLen = 40 + chainLen o.chain := rfl
  have hm : maxIpv6PacketBytes = 65575 := rfl
  have hle := hc.stop_le hq
  rw [hstop]
  refine ⟨by omega, by rw [hg.prefixLen]; omega, fun hmore => (hc.more q hq hmore).1, ?_, ?_, ?_⟩
  · intro total ht
    obtain ⟨rfl, -⟩ := (hg.total total).mp ht
    exact ⟨hle, fun hmore => Nat.ne_of_lt (hc.more q hq hmore).2⟩
  · intro b h1 h2 hrec
    obtain ⟨p, hp, hb⟩ := (hg.received b).mp hrec
    have heq := hc.disjoint (hseen p hp) hq hb ⟨h1, h2⟩
    exact hnew (heq ▸ hp)
  · intro hmore total ht
    obtain ⟨rfl, -⟩ := (hg.total total).mp ht
    exact (hc.last q hq hmore).symm

theorem Gathers.written {slot written : Ipv6ReassemblySlot} {q : Piece}
    (hg : Gathers o identifier deadline slot seen) (hc : Covers o.body 0 pieces)
    (hseen : ∀ p ∈ seen, p ∈ pieces) (hq : q ∈ pieces) (hnew : q ∉ seen)
    (hw : slot.Written (o.read identifier q) (q.offset + q.payload.length) written) :
    Gathers o identifier deadline written (seen ++ [q]) where
  sound := hw.sound hg.sound (by rw [hg.key]; exact Option.some_ne_none _)
    (hg.admits hc hseen hq hnew)
  key := hw.key.trans hg.key
  prefixLen := hw.prefixLen.trans hg.prefixLen
  previous := hw.previous.trans hg.previous
  next := hw.next.trans hg.next
  expires := hw.expires.trans hg.expires
  head n i hi h4 h5 := by
    rw [Written.below_prefix hw (hg.prefixLen ▸ hi)]
    exact hg.head n i hi h4 h5
  received b := by
    rw [hw.received]
    simp only [List.mem_append, List.mem_singleton]
    split
    · next hb => exact ⟨fun _ => ⟨q, .inr rfl, hb⟩, fun _ => rfl⟩
    · next hb =>
      rw [hg.received]
      constructor
      · rintro ⟨p, hp, hpb⟩
        exact ⟨p, .inl hp, hpb⟩
      · rintro ⟨p, hp | rfl, hpb⟩
        · exact ⟨p, hp, hpb⟩
        · exact absurd hpb hb
  total t := by
    rw [hw.total]
    change (if q.more = true then slot.totalFragmentLen else some (q.offset + q.payload.length)) =
      some t ↔ _
    simp only [List.mem_append, List.mem_singleton]
    cases hmore : q.more with
    | true =>
      rw [if_pos rfl, hg.total]
      constructor
      · rintro ⟨ht, p, hp, hpm⟩
        exact ⟨ht, p, .inl hp, hpm⟩
      · rintro ⟨ht, p, hp | rfl, hpm⟩
        · exact ⟨ht, p, hp, hpm⟩
        · rw [hmore] at hpm
          cases hpm
    | false =>
      have hlast : q.offset + q.payload.length = o.body.length := hc.last q hq hmore
      rw [if_neg Bool.false_ne_true, hlast]
      constructor
      · intro ht
        exact ⟨(Option.some.inj ht).symm, q, .inr rfl, hmore⟩
      · rintro ⟨rfl, -⟩
        rfl
  bytes p hp n h1 h2 := by
    rw [hw.packet, hg.prefixLen]
    change (if o.prefixLen + q.offset ≤ o.prefixLen + n ∧ o.prefixLen + n < o.prefixLen + q.stop
      then q.payload[o.prefixLen + n - (o.prefixLen + q.offset)]?
      else slot.packet[o.prefixLen + n]?) = _
    by_cases hin : q.offset ≤ n ∧ n < q.stop
    · rw [if_pos (by omega), show o.prefixLen + n - (o.prefixLen + q.offset) = n - q.offset by omega]
      exact hc.bytes q hq n hin.1 hin.2
    · rw [if_neg (by omega)]
      rcases List.mem_append.mp hp with h | h
      · exact hg.bytes p h n h1 h2
      · rw [List.mem_singleton.mp h] at h1 h2
        exact absurd ⟨h1, h2⟩ hin

theorem Gathers.incomplete {slot : Ipv6ReassemblySlot} {q : Piece}
    (hg : Gathers o identifier deadline slot seen) (hc : Covers o.body 0 pieces)
    (hseen : ∀ p ∈ seen, p ∈ pieces) (hq : q ∈ pieces) (hmiss : q ∉ seen) : ¬ slot.Complete := by
  rintro ⟨total, htotal, hblocks⟩
  obtain ⟨rfl, p₀, hp₀, hlast⟩ := (hg.total total).mp htotal
  have hpos := hc.pos q hq
  have hle := hc.stop_le hq
  have hfirst := block_inside (Nat.le_refl q.offset) hpos
  have hrec := hblocks (q.offset / reassemblyBlockBytes)
    (block_inside (Nat.zero_le _) (show q.offset < o.body.length by omega)).2
  obtain ⟨p, hp, hb⟩ := (hg.received _).mp hrec
  exact hmiss (hc.disjoint (hseen p hp) hq hb hfirst ▸ hp)

theorem Gathers.complete {slot : Ipv6ReassemblySlot}
    (hg : Gathers o identifier deadline slot seen) (hc : Covers o.body 0 pieces)
    (hall : ∀ p ∈ pieces, p ∈ seen) :
    slot.Complete ∧ slot.totalFragmentLen = some o.body.length := by
  obtain ⟨p₀, hp₀, hlast⟩ := hc.ends
  have htotal := (hg.total o.body.length).mpr ⟨rfl, p₀, hall p₀ hp₀, hlast⟩
  refine ⟨⟨o.body.length, htotal, fun b hb => ?_⟩, htotal⟩
  have hlt : b * 8 < o.body.length := by
    simp only [divCeil, reassemblyBlockBytes] at hb
    omega
  obtain ⟨q, hq, h1, h2⟩ := hc.covered (b * 8) (Nat.zero_le _) hlt
  refine (hg.received b).mpr ⟨q, hall q hq, ?_⟩
  have hin := block_inside h1 h2
  rw [show b * 8 / reassemblyBlockBytes = b from Nat.mul_div_cancel b (by decide)] at hin
  exact hin

theorem Gathers.delivers {slot : Ipv6ReassemblySlot} {available : ℕ}
    (hg : Gathers o identifier deadline slot seen) (hc : Covers o.body 0 pieces)
    (hall : ∀ p ∈ pieces, p ∈ seen) (hav : o.bytes.length ≤ available) :
    ∃ left, slot.deliver available = some (left, .packet o.bytes) := by
  obtain ⟨hcomplete, htotal⟩ := hg.complete hc hall
  have hroom : slot.prefixLen + o.body.length ≤ available := by
    rw [hg.prefixLen, ← o.bytes_length]
    exact hav
  obtain ⟨buffer, p, htake, -, hlen, hget⟩ := takePacket_taken hg.sound hcomplete htotal hroom
  have hp : p = o.bytes := by
    rw [hg.prefixLen] at hlen hget
    apply List.ext_getElem?
    intro i
    rcases Nat.lt_or_ge i (o.prefixLen + o.body.length) with hi | hi
    · rw [hget i hi, Datagram.bytes]
      rcases Nat.lt_or_ge i o.prefixLen with hlt | hge
      · rw [List.getElem?_append_left (by rw [o.prefixBytes_length]; exact hlt),
          o.prefixBytes_restored 0 _ hlt, rewritten, hg.previous, hg.next,
          show o.prefixLen + o.body.length - ipv6HeaderBytes = chainLen o.chain + o.body.length by
            rw [Datagram.prefixLen]; omega]
        split
        · rfl
        · split
          · rfl
          · exact hg.head 0 i hlt (by omega) (by omega)
      · obtain ⟨n, rfl⟩ := Nat.exists_eq_add_of_le hge
        have hk : slot.key ≠ none := by rw [hg.key]; exact Option.some_ne_none _
        have hprev := hg.sound.previous_lt hk
        have hh : 40 ≤ slot.prefixLen := hg.sound.header_le hk
        rw [hg.prefixLen] at hprev hh
        obtain ⟨q, hq, h1, h2⟩ := hc.covered n (Nat.zero_le n) (by omega)
        rw [List.getElem?_append_right (by rw [o.prefixBytes_length]; omega), o.prefixBytes_length,
          Nat.add_sub_cancel_left, rewritten, if_neg (by omega), if_neg (by omega)]
        exact hg.bytes q (hall q hq) n h1 h2
    · rw [List.getElem?_eq_none (by omega), List.getElem?_eq_none (by rw [o.bytes_length]; exact hi)]
  refine ⟨{ slot with packet := buffer }.clear, ?_⟩
  rw [deliver_complete hg.sound hcomplete, htake, hp]
  rfl

theorem Datagram.fragment_head (o : Datagram) (identifier : ℕ) (q : Piece) (n : ℕ) {i : ℕ}
    (hi : i < o.prefixLen) (h4 : i ≠ 4) (h5 : i ≠ 5) :
    (o.fragment identifier q)[i]? = (o.prefixBytes n 44)[i]? := by
  rw [Datagram.fragment, List.getElem?_append_left (by rw [o.prefixBytes_length]; exact hi)]
  exact o.prefixBytes_payload _ _ 44 (by omega)

theorem gathers_opened {slot joined : Ipv6ReassemblySlot} {q : Piece} {nowMs timeoutMs : ℕ}
    (hs : slot.Sound) (hk : slot.key = none)
    (hl : (o.read identifier q).Located (o.fragment identifier q))
    (ho : Opened slot (o.fragment identifier q) (o.read identifier q) nowMs timeoutMs joined) :
    Gathers o identifier (saturatingSum nowMs timeoutMs) joined [] where
  sound := ho.sound hs hk hl
  key := ho.key
  prefixLen := ho.prefixLen
  previous := ho.previous
  next := ho.next
  expires := ho.expires
  head n i hi h4 h5 := by
    rw [ho.head i hi]
    exact o.fragment_head identifier q n hi h4 h5
  received b := by
    rw [ho.received]
    exact ⟨fun h => absurd h ((hs.free hk).2 b), fun ⟨_, h, _⟩ => nomatch h⟩
  total t := by
    rw [ho.total, (hs.free hk).1]
    exact ⟨fun h => (nomatch h), fun ⟨_, _, h, _⟩ => (nomatch h)⟩
  bytes _ h := nomatch h

theorem Gathers.samePrefix {slot : Ipv6ReassemblySlot}
    (hg : Gathers o identifier deadline slot seen) (q : Piece) :
    SamePrefix slot (o.fragment identifier q) (o.read identifier q) where
  prefixLen := hg.prefixLen
  previous := hg.previous
  next := hg.next
  head n hn h4 h5 := by
    rw [hg.head 0 n hn h4 h5]
    exact (o.fragment_head identifier q 0 hn h4 h5).symm

theorem Gathers.place {slot : Ipv6ReassemblySlot} {q : Piece}
    (hg : Gathers o identifier deadline slot seen) (hc : Covers o.body 0 pieces)
    (hl : (o.read identifier q).Located (o.fragment identifier q))
    (hseen : ∀ p ∈ seen, p ∈ pieces) (hq : q ∈ pieces) (hnew : q ∉ seen) (available : ℕ)
    (hav : o.bytes.length ≤ available) :
    ((∀ p ∈ pieces, p ∈ seen ++ [q]) →
      ∃ left, slot.place (o.read identifier q) available = some (left, .packet o.bytes)) ∧
    ((∃ p ∈ pieces, p ∉ seen ++ [q]) →
      ∃ left, slot.place (o.read identifier q) available = some (left, .buffered) ∧
        Gathers o identifier deadline left (seen ++ [q])) := by
  have hk : slot.key ≠ none := by rw [hg.key]; exact Option.some_ne_none _
  obtain ⟨written, hw, hplace⟩ := (place_spec hg.sound hk hl available).1
    (hg.admits hc hseen hq hnew)
  have hgw := hg.written hc hseen hq hnew hw
  have hseen' : ∀ p ∈ seen ++ [q], p ∈ pieces := by
    intro p hp
    rcases List.mem_append.mp hp with h | h
    · exact hseen p h
    · rw [List.mem_singleton.mp h]
      exact hq
  constructor
  · intro hall
    obtain ⟨left, hd⟩ := hgw.delivers hc hall hav
    exact ⟨left, hplace.trans hd⟩
  · rintro ⟨p, hp, hmiss⟩
    have hn := hgw.incomplete hc hseen' hp hmiss
    exact ⟨written, hplace.trans (deliver_buffered hgw.sound hn available), hgw⟩

end Cutting

def Call.ofKey (key : Ipv6FragmentKey) (c : Call) : Bool :=
  (fragmentOf c.packet).any fun f => decide (f.key = key)

/-- The reassembly while the pieces in `seen` have come and others are to come. -/
structure Carries (o : Datagram) (identifier deadline : ℕ) (others : List Ipv6FragmentKey)
    (timeoutMs : ℕ) (r : Ipv6Reassembly) (seen : List Piece) : Prop where
  slots : SoundSlots r.slots
  timeout : r.timeoutMs = timeoutMs
  held : (seen = [] ∧ others.length < r.slots.length ∧
      ∀ slot ∈ r.slots, ∀ key, slot.key = some key → key ∈ others) ∨
    (seen ≠ [] ∧ ∃ slot ∈ r.slots, Gathers o identifier deadline slot seen)

theorem exists_free {slots : List Ipv6ReassemblySlot} (hs : SoundSlots slots)
    {others : List Ipv6FragmentKey} (hfew : others.length < slots.length)
    (hkeys : ∀ slot ∈ slots, ∀ key, slot.key = some key → key ∈ others) :
    ∃ slot ∈ slots, slot.key = none := by
  by_contra hno
  push Not at hno
  have hnodup : (slots.map Ipv6ReassemblySlot.key).Nodup := by
    refine List.pairwise_iff_getElem.mpr fun i j hi hj hij heq => ?_
    rw [List.getElem_map, List.getElem_map] at heq
    rw [List.length_map] at hi hj
    cases hk : slots[j].key with
    | none => exact hno _ (List.getElem_mem hj) hk
    | some key =>
      have := hs.distinct i j _ _ key (List.getElem?_eq_getElem hi)
        (List.getElem?_eq_getElem hj) (heq.trans hk) hk
      omega
  have hsub : slots.map Ipv6ReassemblySlot.key ⊆ others.map some := by
    intro k hk
    obtain ⟨slot, hm, rfl⟩ := List.mem_map.mp hk
    cases hkey : slot.key with
    | none => exact absurd hkey (hno slot hm)
    | some key => exact List.mem_map_of_mem (hkeys slot hm key hkey)
  have hle := (List.Nodup.subperm hnodup hsub).length_le
  simp only [List.length_map] at hle
  omega

section Delivery

variable {o : Datagram} {identifier deadline timeoutMs : ℕ} {others : List Ipv6FragmentKey}
  {pieces seen : List Piece} {r : Ipv6Reassembly}

theorem Carries.other (hr : Carries o identifier deadline others timeoutMs r seen) {c : Call}
    (hother : ∀ f, fragmentOf c.packet = some f → f.key ≠ o.key identifier ∧ f.key ∈ others)
    (htime : c.nowMs < deadline) :
    ∃ r' out, r.ingest c.packet c.nowMs c.available = some (r', out) ∧
      Carries o identifier deadline others timeoutMs r' seen := by
  obtain ⟨r', out, hin, hs', ht', hlen, hkeys, hkeep⟩ :=
    ingest_frame hr.slots c.packet c.nowMs c.available
  refine ⟨r', out, hin, hs', ht'.trans hr.timeout, ?_⟩
  rcases hr.held with ⟨hnil, hfew, hin'⟩ | ⟨hne, slot, hm, hg⟩
  · refine .inl ⟨hnil, by omega, fun slot hm key hk => ?_⟩
    rcases hkeys slot hm key hk with ⟨s, hs, hsk⟩ | ⟨f, hf, rfl⟩
    · exact hin' s hs key hsk
    · exact (hother f hf).2
  · refine .inr ⟨hne, slot, ?_, hg⟩
    exact hkeep slot hm _ hg.key (by rw [hg.expires]; exact htime) fun f hf => (hother f hf).1

/-- The next piece of the packet: it is buffered while others are missing, and brings
the packet out when it is the last to come. -/
theorem Carries.own (hr : Carries o identifier deadline others timeoutMs r seen)
    (hc : Covers o.body 0 pieces) (hkey : o.key identifier ∉ others) {q : Piece} {c : Call}
    (hpacket : c.packet = o.fragment identifier q)
    (hread : fragmentOf (o.fragment identifier q) = some (o.read identifier q))
    (hseen : ∀ p ∈ seen, p ∈ pieces) (hq : q ∈ pieces) (hnew : q ∉ seen)
    (hopen : seen = [] → saturatingSum c.nowMs timeoutMs = deadline) (htime : c.nowMs < deadline)
    (hav : o.bytes.length ≤ c.available) :
    ∃ r' out, r.ingest c.packet c.nowMs c.available = some (r', out) ∧ SoundSlots r'.slots ∧
      ((∀ p ∈ pieces, p ∈ seen ++ [q]) → out = .packet o.bytes) ∧
      ((∃ p ∈ pieces, p ∉ seen ++ [q]) → out = .buffered ∧
        Carries o identifier deadline others timeoutMs r' (seen ++ [q])) := by
  obtain ⟨r', out, hin, hs', ht', hlen, -, -⟩ :=
    ingest_frame hr.slots c.packet c.nowMs c.available
  refine ⟨r', out, hin, hs', ?_⟩
  obtain ⟨hwalk, hl⟩ := fragmentOf_eq_some hread
  rw [hpacket] at hin
  have hes := hr.slots.expire c.nowMs
  -- the slot the fragment reaches, once it has the prefix, holds what came before
  have hjoined : ∀ slot slot' : Ipv6ReassemblySlot, ∀ out : ReassemblyOutcome,
      slot ∈ r.slots.map (expire c.nowMs) → Reaches (r.slots.map (expire c.nowMs)) (o.key identifier) slot →
      Serves slot (o.fragment identifier q) (o.read identifier q) c.nowMs r.timeoutMs c.available
        slot' out →
      ∃ joined, Gathers o identifier deadline joined seen ∧
        joined.place (o.read identifier q) c.available = some (slot', out) := by
    intro slot slot' out hm hreach hserve
    have hslot := hes.sound slot hm
    rcases hr.held with ⟨rfl, hfew, hkeys⟩ | ⟨hne, own, hown, hg⟩
    · have hk : slot.key = none := by
        rcases hreach with hk | ⟨hk, -⟩
        · obtain ⟨s, hs, rfl⟩ := List.mem_map.mp hm
          exact absurd (hkeys s hs _ (expire_key hk).1) hkey
        · exact hk
      have hn : ¬ slot.Complete := fun h => h.held hslot hk
      obtain ⟨joined, hjoin, ho⟩ := join_free hslot hl hk c.nowMs r.timeoutMs
      have hg := gathers_opened hslot hk hl ho
      rw [hr.timeout, hopen rfl] at hg
      rcases hserve with ⟨h, -⟩ | ⟨-, hacc⟩
      · exact absurd h hn
      · exact ⟨joined, hg, (accept_of_joins c.available hjoin).symm.trans hacc⟩
    · have hstay : own ∈ r.slots.map (expire c.nowMs) := by
        refine List.mem_map.mpr ⟨own, hown, if_neg ?_⟩
        rw [hg.expires]
        omega
      have heq : slot = own := by
        obtain ⟨i, hi⟩ := List.mem_iff_getElem?.mp hm
        obtain ⟨j, hj⟩ := List.mem_iff_getElem?.mp hstay
        cases hreach.only hes hi hj hg.key
        exact Option.some.inj (hi.symm.trans hj)
      subst heq
      have hheld : slot.key ≠ none := by rw [hg.key]; exact Option.some_ne_none _
      have hn := hg.incomplete hc hseen hq hnew
      have hjoin := (join_held hslot hl hheld c.nowMs r.timeoutMs).1 (hg.samePrefix q)
      rcases hserve with ⟨h, -⟩ | ⟨-, hacc⟩
      · exact absurd h hn
      · exact ⟨slot, hg, (accept_of_joins c.available hjoin).symm.trans hacc⟩
  rcases ingest_fragment hr.slots hwalk hl c.nowMs c.available with
    ⟨i, slot, slot', out', hi, hreach, hserve, hin'⟩ | ⟨hfull, -⟩
  · cases hin.symm.trans hin'
    obtain ⟨joined, hg, hplace⟩ := hjoined slot slot' out (List.mem_of_getElem? hi) hreach hserve
    obtain ⟨hlast, hmore⟩ := hg.place hc hl hseen hq hnew c.available hav
    constructor
    · intro hall
      obtain ⟨left, h⟩ := hlast hall
      cases hplace.symm.trans h
      rfl
    · intro hmiss
      obtain ⟨left, h, hg'⟩ := hmore hmiss
      cases hplace.symm.trans h
      refine ⟨rfl, hs', hr.timeout, .inr ⟨by simp, slot', ?_, hg'⟩⟩
      exact List.mem_set (List.getElem?_eq_some_iff.mp hi).1 slot'
  · exfalso
    rcases hr.held with ⟨-, hfew, hkeys⟩ | ⟨-, own, hown, hg⟩
    · obtain ⟨slot, hm, hk⟩ := exists_free hes (by simpa using hfew) fun s hs key hk => by
        obtain ⟨t, ht, rfl⟩ := List.mem_map.mp hs
        exact hkeys t ht key (expire_key hk).1
      exact (hfull slot hm).2 hk
    · have hstay : own ∈ r.slots.map (expire c.nowMs) := by
        refine List.mem_map.mpr ⟨own, hown, if_neg ?_⟩
        rw [hg.expires]
        omega
      exact (hfull own hstay).1 hg.key

theorem ofKey_eq_false {key : Ipv6FragmentKey} {c : Call} (h : c.ofKey key = false)
    {f : Ipv6Fragment} (hf : fragmentOf c.packet = some f) : f.key ≠ key := by
  simpa [Call.ofKey, hf] using h

theorem run_others (key : Ipv6FragmentKey) (calls : List Call) :
    ∀ r : Ipv6Reassembly, SoundSlots r.slots → calls.filter (Call.ofKey key) = [] →
      ∃ r' log, r.run calls = some (r', log) ∧ log.filter (fun e => e.call.ofKey key) = [] := by
  induction calls with
  | nil =>
    intro r _ _
    exact ⟨r, [], rfl, rfl⟩
  | cons c calls ih =>
    intro r hr hnone
    obtain ⟨r₁, out, hin, hr₁, -⟩ := ingest_frame hr c.packet c.nowMs c.available
    have hc : c.ofKey key = false := by
      have h := List.filter_eq_nil_iff.mp hnone c List.mem_cons_self
      simpa using h
    rw [List.filter_cons_of_neg (by rw [hc]; decide)] at hnone
    obtain ⟨r₂, log, hrun, hlog⟩ := ih r₁ hr₁ hnone
    refine ⟨r₂, ⟨c, out⟩ :: log, by simp [Ipv6Reassembly.run, hin, hrun], ?_⟩
    rw [List.filter_cons_of_neg (by change ¬ c.ofKey key = true; rw [hc]; decide), hlog]

theorem run_delivers (hc : Covers o.body 0 pieces) (hkey : o.key identifier ∉ others)
    (hread : ∀ q ∈ pieces, fragmentOf (o.fragment identifier q) = some (o.read identifier q))
    (calls : List Call) :
    ∀ (r : Ipv6Reassembly) (seen rest : List Piece),
      Carries o identifier deadline others timeoutMs r seen → (seen ++ rest).Perm pieces →
      rest ≠ [] →
      (calls.filter (Call.ofKey (o.key identifier))).map Call.packet =
        rest.map (o.fragment identifier) →
      (∀ c ∈ calls, ∀ f, fragmentOf c.packet = some f →
        f.key = o.key identifier ∨ f.key ∈ others) →
      (∀ c ∈ calls, c.nowMs < deadline) →
      (seen = [] → ∀ c₀, (calls.filter (Call.ofKey (o.key identifier))).head? = some c₀ →
        saturatingSum c₀.nowMs timeoutMs = deadline) →
      (∀ c ∈ calls, c.ofKey (o.key identifier) = true → o.bytes.length ≤ c.available) →
      ∃ r' log, r.run calls = some (r', log) ∧
        (log.filter fun e => e.call.ofKey (o.key identifier)).map Event.outcome =
          List.replicate (rest.length - 1) .buffered ++ [.packet o.bytes] := by
  induction calls with
  | nil =>
    intro r seen rest _ _ hne hown
    exact absurd (List.map_eq_nil_iff.mp hown.symm) hne
  | cons c calls ih =>
    intro r seen rest hr hperm hne hown hothers htime hopen hav
    have htl : ∀ {P : Call → Prop}, (∀ c' ∈ c :: calls, P c') → ∀ c' ∈ calls, P c' :=
      fun h c' hm => h c' (List.mem_cons_of_mem c hm)
    have hnow := htime c List.mem_cons_self
    cases hk : c.ofKey (o.key identifier) with
    | false =>
      have hskip : (c :: calls).filter (Call.ofKey (o.key identifier)) =
          calls.filter (Call.ofKey (o.key identifier)) :=
        List.filter_cons_of_neg (by rw [hk]; decide)
      rw [hskip] at hown hopen
      obtain ⟨r₁, out, hin, hr₁⟩ := hr.other (c := c) (fun f hf => by
        have hno := ofKey_eq_false hk hf
        exact ⟨hno, (hothers c List.mem_cons_self f hf).resolve_left hno⟩) hnow
      obtain ⟨r₂, log, hrun, hlog⟩ := ih r₁ seen rest hr₁ hperm hne hown (htl hothers) (htl htime)
        hopen (htl hav)
      refine ⟨r₂, ⟨c, out⟩ :: log, by simp [Ipv6Reassembly.run, hin, hrun], ?_⟩
      rw [List.filter_cons_of_neg (by change ¬ c.ofKey _ = true; rw [hk]; decide)]
      exact hlog
    | true =>
      cases rest with
      | nil => exact absurd rfl hne
      | cons q rest =>
        have hfirst : (c :: calls).filter (Call.ofKey (o.key identifier)) =
            c :: calls.filter (Call.ofKey (o.key identifier)) := List.filter_cons_of_pos hk
        rw [hfirst] at hown hopen
        obtain ⟨hpacket, hown⟩ := List.cons.inj hown
        have hnodup : (seen ++ q :: rest).Nodup := hperm.nodup_iff.mpr hc.nodup
        have hq : q ∈ pieces := hperm.subset (by simp)
        have hseen : ∀ p ∈ seen, p ∈ pieces := fun p hp => hperm.subset (by simp [hp])
        have hnew : q ∉ seen := by
          intro hm
          exact (List.nodup_append.mp hnodup).2.2 q hm q List.mem_cons_self rfl
        obtain ⟨r₁, out, hin, hr₁, hlast, hmore⟩ := hr.own hc hkey hpacket (hread q hq) hseen hq hnew
          (fun h => hopen h c rfl) hnow (hav c List.mem_cons_self hk)
        cases rest with
        | nil =>
          have hout := hlast fun p hp => hperm.symm.subset hp
          have hnone : calls.filter (Call.ofKey (o.key identifier)) = [] :=
            List.map_eq_nil_iff.mp hown
          obtain ⟨r₂, log, hrun, hlog⟩ := run_others (o.key identifier) calls r₁ hr₁ hnone
          refine ⟨r₂, ⟨c, out⟩ :: log, by simp [Ipv6Reassembly.run, hin, hrun], ?_⟩
          simp only [List.filter_cons, hk, if_true, hlog, hout]
          rfl
        | cons q' rest =>
          have hperm' : (seen ++ [q] ++ (q' :: rest)).Perm pieces := by simpa using hperm
          have hmiss : ∃ p ∈ pieces, p ∉ seen ++ [q] := by
            refine ⟨q', hperm'.subset (by simp), fun hm => ?_⟩
            have hnd := hperm'.nodup_iff.mpr hc.nodup
            exact (List.nodup_append.mp hnd).2.2 q' hm q' List.mem_cons_self rfl
          obtain ⟨hout, hr₁'⟩ := hmore hmiss
          obtain ⟨r₂, log, hrun, hlog⟩ := ih r₁ (seen ++ [q]) (q' :: rest) hr₁' hperm'
            (List.cons_ne_nil _ _) hown (htl hothers) (htl htime) (fun h => by simp at h) (htl hav)
          refine ⟨r₂, ⟨c, out⟩ :: log, by simp [Ipv6Reassembly.run, hin, hrun], ?_⟩
          simp only [List.filter_cons, hk, if_true, List.map_cons, hlog, hout]
          rfl

end Delivery

theorem cut_payload_mem (parts : List (List UInt8)) :
    ∀ (offset : ℕ) (q : Piece), q ∈ cut offset parts → q.payload ∈ parts := by
  induction parts with
  | nil =>
    intro offset q hq
    cases hq
  | cons part rest ih =>
    intro offset q hq
    cases rest with
    | nil =>
      rw [List.mem_singleton.mp hq]
      exact List.mem_cons_self
    | cons next rest =>
      rcases List.mem_cons.mp hq with rfl | h
      · exact List.mem_cons_self
      · exact List.mem_cons_of_mem part (ih _ q h)

/-- Every fragment of the packet is buffered but the last to come, which brings the
packet out: for every cut of its fragmentable part, every order of the fragments, and
any other packets and fragments of fewer other keys than there are slots in between,
from any state reached in which the key holds no slot. -/
theorem reassembly_inverts_fragmentation (o : Datagram) (identifier : ℕ)
    (hid : identifier < 2 ^ 32) (parts : List (List UInt8)) (hparts : Partition o.body parts)
    (hfits : ∀ part ∈ parts, chainLen o.chain + ipv6FragmentHeaderBytes + part.length ≤ 65535)
    (order : List Piece) (horder : order.Perm (cut 0 parts))
    (slots timeoutMs : ℕ) (history : List Call) (r : Ipv6Reassembly) (past : List Event)
    (hpast : (Ipv6Reassembly.new slots timeoutMs).run history = some (r, past))
    (others : List Ipv6FragmentKey) (hfew : others.length < slots)
    (hkey : o.key identifier ∉ others)
    (hheld : ∀ slot ∈ r.slots, ∀ key, slot.key = some key → key ∈ others)
    (calls : List Call)
    (hown : (calls.filter (Call.ofKey (o.key identifier))).map Call.packet =
      order.map (o.fragment identifier))
    (hothers : ∀ c ∈ calls, ∀ f, fragmentOf c.packet = some f →
      f.key = o.key identifier ∨ f.key ∈ others)
    (htime : ∀ c₀, (calls.filter (Call.ofKey (o.key identifier))).head? = some c₀ →
      ∀ c ∈ calls, c.nowMs < saturatingSum c₀.nowMs timeoutMs)
    (havailable : ∀ c ∈ calls, c.ofKey (o.key identifier) = true →
      o.bytes.length ≤ c.available) :
    ∃ r' log, r.run calls = some (r', log) ∧
      (log.filter fun e => e.call.ofKey (o.key identifier)).map Event.outcome =
        List.replicate (order.length - 1) .buffered ++ [.packet o.bytes] := by
  have hc := hparts.covers o.nonempty
  have hread : ∀ q ∈ cut 0 parts,
      fragmentOf (o.fragment identifier q) = some (o.read identifier q) := by
    intro q hq
    have hpos := hc.pos q hq
    have hsmall := o.small
    have hle := hc.stop_le hq
    exact fragmentOf_fragment o identifier q ⟨hc.aligned q hq, by omega⟩ hid
      (hfits q.payload (cut_payload_mem parts 0 q hq))
  have horder_ne : order ≠ [] := by
    rintro rfl
    obtain ⟨q, hq, -⟩ := hc.ends
    exact absurd (horder.symm.subset hq) List.not_mem_nil
  obtain ⟨c₀, hc₀⟩ : ∃ c₀, (calls.filter (Call.ofKey (o.key identifier))).head? = some c₀ := by
    cases hfilter : calls.filter (Call.ofKey (o.key identifier)) with
    | nil =>
      rw [hfilter] at hown
      exact absurd (List.map_eq_nil_iff.mp hown.symm) horder_ne
    | cons c rest => exact ⟨c, rfl⟩
  obtain ⟨r', past', hrun, -, hlog, -⟩ := run_logged slots timeoutMs history
    (Ipv6Reassembly.new slots timeoutMs) []
    ⟨rfl, List.length_replicate, tracks_new slots timeoutMs⟩
  cases hpast.symm.trans hrun
  have hr : Carries o identifier (saturatingSum c₀.nowMs timeoutMs) others timeoutMs r [] :=
    ⟨hlog.tracks.toSoundSlots, hlog.timeout, .inl ⟨rfl, by rw [hlog.count]; exact hfew, hheld⟩⟩
  exact run_delivers hc hkey hread calls r [] order hr horder horder_ne hown hothers
    (htime c₀ hc₀) (fun _ c hc' => by rw [Option.some.inj (hc₀.symm.trans hc')]) havailable

def samplePacket : Datagram where
  lead := [0x60, 0, 0, 0]
  lead_length := rfl
  version := by decide
  hopLimit := 64
  source := List.replicate 16 1
  source_length := rfl
  destination := List.replicate 16 2
  destination_length := rfl
  chain := [⟨0, 0, List.replicate 6 0, by decide⟩, ⟨51, 1, List.replicate 10 7, by decide⟩]
  nextHeader := 17
  body := (List.range 20).map UInt8.ofNat
  nonempty := by decide
  small := by decide

def sampleParts : List (List UInt8) :=
  [(List.range 8).map UInt8.ofNat, (List.range' 8 8).map UInt8.ofNat,
    (List.range' 16 4).map UInt8.ofNat]

def samplePieces : List Piece :=
  [⟨16, (List.range' 16 4).map UInt8.ofNat, false⟩, ⟨0, (List.range 8).map UInt8.ofNat, true⟩,
    ⟨8, (List.range' 8 8).map UInt8.ofNat, true⟩]

/-- The last piece comes first; a packet of another kind and a fragment of another
packet come in between. -/
def sampleCalls : List Call :=
  [⟨samplePacket.fragment 7 ⟨16, (List.range' 16 4).map UInt8.ofNat, false⟩, 10, 1000⟩,
    ⟨[0x45], 11, 1000⟩,
    ⟨samplePacket.fragment 9 ⟨0, (List.range 8).map UInt8.ofNat, true⟩, 12, 1000⟩,
    ⟨samplePacket.fragment 7 ⟨0, (List.range 8).map UInt8.ofNat, true⟩, 13, 1000⟩,
    ⟨samplePacket.fragment 7 ⟨8, (List.range' 8 8).map UInt8.ofNat, true⟩, 14, 1000⟩]

theorem sample_reassembled : ∃ r' log,
    (Ipv6Reassembly.new 4 30000).run sampleCalls = some (r', log) ∧
      (log.filter fun e => e.call.ofKey (samplePacket.key 7)).map Event.outcome =
        [.buffered, .buffered, .packet samplePacket.bytes] := by
  have hothers : ∀ c ∈ sampleCalls, (fragmentOf c.packet).all
      (fun f => decide (f.key = samplePacket.key 7 ∨ f.key ∈ [samplePacket.key 9])) = true := by
    decide +kernel
  have htime : ∀ c ∈ sampleCalls, c.nowMs < saturatingSum 10 30000 := by decide
  refine reassembly_inverts_fragmentation samplePacket 7 (by decide) sampleParts
    ⟨by decide, by decide, by decide⟩ (by decide) samplePieces (by decide) 4 30000 []
    (Ipv6Reassembly.new 4 30000) [] rfl [samplePacket.key 9] (by decide) (by decide) ?_ sampleCalls
    (by decide +kernel) ?_ ?_ (by decide +kernel)
  · intro slot hm key hk
    rw [List.eq_of_mem_replicate hm] at hk
    cases hk
  · intro c hm f hf
    have h := hothers c hm
    rw [hf] at h
    simpa using h
  · intro c₀ hc₀
    have hfirst : (sampleCalls.filter (Call.ofKey (samplePacket.key 7))).head?.map Call.nowMs =
        some 10 := by decide +kernel
    rw [hc₀] at hfirst
    rw [show c₀.nowMs = 10 from Option.some.inj hfirst]
    exact htime

end Snolc.Stack
