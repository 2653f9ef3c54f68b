import Snolc.WireCodec

set_option autoImplicit false

namespace Snolc.WireFormat
open ByteOrder

theorem proper_cut_cases {lead count body cut : List UInt8} (hcut : cut <+: lead ++ (count ++ body))
    (hne : cut ≠ lead ++ (count ++ body)) :
    cut.length < lead.length ∨
    (∃ piece, cut = lead ++ piece ∧ piece.length < count.length) ∨
    ∃ piece, cut = lead ++ (count ++ piece) ∧ piece.length < body.length := by
  have hlt : cut.length < (lead ++ (count ++ body)).length :=
    Nat.lt_of_le_of_ne hcut.length_le fun h => hne (hcut.eq_of_length h)
  by_cases hlead : cut.length < lead.length
  · exact .inl hlead
  have hfirst : lead <+: cut :=
    List.prefix_of_prefix_length_le (List.prefix_append _ _) hcut (Nat.le_of_not_lt hlead)
  obtain ⟨piece, rfl⟩ := hfirst
  have hpiece := (List.prefix_append_right_inj lead).mp hcut
  simp only [List.length_append] at hlt
  by_cases hcount : piece.length < count.length
  · exact .inr (.inl ⟨piece, rfl, hcount⟩)
  have hsecond : count <+: piece :=
    List.prefix_of_prefix_length_le (List.prefix_append _ _) hpiece (Nat.le_of_not_lt hcount)
  obtain ⟨rest, rfl⟩ := hsecond
  refine .inr (.inr ⟨rest, rfl, ?_⟩)
  rw [List.length_append] at hlt
  omega

namespace Cursor

theorem reads_at (lead piece rest : List UInt8) :
    (Cursor.mk (lead ++ (piece ++ rest)) lead.length).Reads piece
      ⟨lead ++ (piece ++ rest), lead.length + piece.length⟩ where
  start := by simp
  rest := by
    rw [List.drop_left, ← List.drop_drop, List.drop_left, List.drop_left]
  next := rfl

theorem u16_at {lead : List UInt8} {p n : ℕ} (hp : p = lead.length) (h : n < 2 ^ 16) (rest : List UInt8) :
    (Cursor.mk (lead ++ (toBytes 2 n ++ rest)) p).u16 =
      .ok (n, ⟨lead ++ (toBytes 2 n ++ rest), p + 2⟩) := by
  subst hp
  have hread := reads_at lead (toBytes 2 n) rest
  rw [toBytes_length] at hread
  exact u16_eq_ok.mpr ⟨h, hread⟩

theorem bytes_behind {lead count : List UInt8} {p : ℕ} (hp : p = lead.length + count.length)
    (body rest : List UInt8) :
    (Cursor.mk (lead ++ (count ++ (body ++ rest))) p).bytes body.length =
      .ok (body, ⟨lead ++ (count ++ (body ++ rest)), p + body.length⟩) := by
  subst hp
  have hread := reads_at (lead ++ count) body rest
  rw [List.length_append, List.append_assoc] at hread
  exact bytes_eq_ok.mpr ⟨rfl, hread⟩

theorem bytes_incomplete {c : Cursor} {n : ℕ} (h : c.input.length < c.position + n) :
    c.bytes n = .error .incomplete :=
  if_neg (Nat.not_le_of_lt h)

theorem u8_incomplete {c : Cursor} (h : c.input.length < c.position + 1) : c.u8 = .error .incomplete := by
  rw [u8, bytes_incomplete h]
  rfl

theorem u16_incomplete {c : Cursor} (h : c.input.length < c.position + 2) : c.u16 = .error .incomplete := by
  rw [u16, bytes_incomplete h]
  rfl

end Cursor

theorem parseHeader_incomplete {input : List UInt8} (h : input.length < headerLength) :
    parseHeader input = .error .incomplete :=
  if_pos h

theorem parseHeader_append (kind : StreamKind) (rest : List UInt8) :
    parseHeader (encodeHeader kind ++ rest) = .ok kind :=
  (header_then.mpr rfl).1

/-- The parser calls every proper prefix of the frame incomplete and every proper extension trailing. -/
structure Delimits {α : Type} (parse : List UInt8 → Except WireError α) (frame : List UInt8) : Prop where
  cut : ∀ input, input <+: frame → input ≠ frame → parse input = .error .incomplete
  joined : ∀ input, frame <+: input → input ≠ frame → parse input = .error .trailingBytes

theorem Delimits.of_parts {α : Type} {parse : List UInt8 → Except WireError α} (lead : List UInt8)
    {body : List UInt8} (hlead : ∀ input, input.length < lead.length → parse input = .error .incomplete)
    (hcount : ∀ piece, piece.length < 2 → parse (lead ++ piece) = .error .incomplete)
    (hbody : ∀ piece, piece.length < body.length →
      parse (lead ++ (toBytes 2 body.length ++ piece)) = .error .incomplete)
    (hrest : ∀ rest, rest ≠ [] →
      parse (lead ++ (toBytes 2 body.length ++ (body ++ rest))) = .error .trailingBytes) :
    Delimits parse (lead ++ (toBytes 2 body.length ++ body)) where
  cut := by
    intro input hcut hne
    rcases proper_cut_cases hcut hne with h | ⟨piece, rfl, h⟩ | ⟨piece, rfl, h⟩
    · exact hlead input h
    · rw [toBytes_length] at h
      exact hcount piece h
    · exact hbody piece h
  joined := by
    rintro input ⟨rest, rfl⟩ hne
    rw [List.append_assoc, List.append_assoc]
    apply hrest rest
    rintro rfl
    exact hne (List.append_nil _)

theorem remaining_behind {lead count body : List UInt8} {p : ℕ} (h : p = lead.length + count.length) :
    (Cursor.mk (lead ++ (count ++ body)) p).remaining = body.length := by
  simp only [Cursor.remaining, List.length_append]
  omega

theorem u16_cut {lead piece : List UInt8} {p : ℕ} (hp : p = lead.length) (h : piece.length < 2) :
    (Cursor.mk (lead ++ piece) p).u16 = .error .incomplete := by
  apply Cursor.u16_incomplete
  dsimp only
  rw [List.length_append]
  omega

theorem remaining_trailing {lead count body rest : List UInt8} {p : ℕ} (h : p = lead.length + count.length)
    (hne : rest ≠ []) :
    (Cursor.mk (lead ++ (count ++ (body ++ rest))) (p + body.length)).remaining ≠ 0 := by
  have hpos := List.length_pos_iff.mpr hne
  simp only [Cursor.remaining, List.length_append]
  omega

theorem bytes_cut {lead count piece : List UInt8} {p n : ℕ} (h : p = lead.length + count.length)
    (hshort : piece.length < n) : (Cursor.mk (lead ++ (count ++ piece)) p).bytes n = .error .incomplete := by
  apply Cursor.bytes_incomplete
  simp only [List.length_append]
  omega

theorem fromUtf8_octets (text : String) : fromUtf8 (octets text) = .ok text := fromUtf8_eq_ok.mpr rfl

/-- The open request's count is compared with all that follows it, before the body is looked at. -/
theorem parseOpen_delimits {request : OpenRequest} {frame : List UInt8} (h : encodeOpen request = .ok frame) :
    Delimits parseOpen frame := by
  simp only [encodeOpen, throw_bind, check_eq_ok, bind_eq_ok, Nat.not_lt] at h
  obtain ⟨hkind, -, -, piece, -, hmax, h⟩ := h
  cases h
  generalize piece ++ toBytes 2 request.port.toNat ++ toBytes 2 request.metadata.length ++ request.metadata = body
    at hmax ⊢
  have hcast : body.length < 2 ^ 16 := Nat.lt_of_le_of_lt hmax (by decide)
  have hhead := (encodeHeader_length request.kind).symm
  have hbehind : headerLength + 2 = (encodeHeader request.kind).length + (toBytes 2 body.length).length := by
    rw [encodeHeader_length, toBytes_length]
  rw [List.append_assoc]
  apply Delimits.of_parts
  · intro input hshort
    rw [encodeHeader_length] at hshort
    rw [parseOpen, parseHeader_incomplete hshort, error_bind]
  · intro piece hshort
    simp only [parseOpen, parseHeader_append, ok_bind, if_neg hkind, u16_cut hhead hshort, error_bind]
  · intro piece hshort
    simp only [parseOpen, parseHeader_append, ok_bind, if_neg hkind, Cursor.u16_at hhead hcast,
      remaining_behind hbehind, if_neg (Nat.not_lt.mpr hmax), if_pos hshort, throw_bind]
  · intro rest hne
    have hlong : body.length < (body ++ rest).length := by
      have hpos := List.length_pos_iff.mpr hne
      rw [List.length_append]
      omega
    simp only [parseOpen, parseHeader_append, ok_bind, if_neg hkind, Cursor.u16_at hhead hcast,
      remaining_behind hbehind, if_neg (Nat.not_lt.mpr hmax), if_neg (Nat.not_lt.mpr hlong.le), if_pos hlong,
      throw_bind]

theorem parsePolicy_delimits {family : String} {frame : List UInt8} (h : encodePolicy family = .ok frame) :
    Delimits parsePolicy frame := by
  simp only [encodePolicy, bind_eq_ok] at h
  obtain ⟨⟨⟩, hvalid, h⟩ := h
  cases h
  have hrange := validateFamily_length hvalid
  have hcast : (octets family).length < 2 ^ 16 := Nat.lt_of_le_of_lt hrange.2 (by decide)
  have hbehind : headerLength + 2 = (encodeHeader .policy).length + (toBytes 2 (octets family).length).length := by
    rw [encodeHeader_length, toBytes_length]
  have hhead := (encodeHeader_length .policy).symm
  have hkind : ¬ StreamKind.policy ≠ .policy := not_not.mpr rfl
  rw [List.append_assoc]
  apply Delimits.of_parts
  · intro input hshort
    rw [encodeHeader_length] at hshort
    rw [parsePolicy, parseHeader_incomplete hshort, error_bind]
  · intro piece hshort
    simp only [parsePolicy, parseHeader_append, ok_bind, if_neg hkind, u16_cut hhead hshort, error_bind]
  · intro piece hshort
    simp only [parsePolicy, parseHeader_append, ok_bind, if_neg hkind, Cursor.u16_at hhead hcast,
      if_neg (not_not.mpr hrange), bytes_cut hbehind hshort, error_bind]
  · intro rest hne
    simp only [parsePolicy, parseHeader_append, ok_bind, if_neg hkind, Cursor.u16_at hhead hcast,
      if_neg (not_not.mpr hrange), Cursor.bytes_behind hbehind, fromUtf8_octets, throw_bind,
      if_pos (remaining_trailing hbehind hne)]

theorem parseOpenResponse_delimits {response : OpenResponse} {frame : List UInt8}
    (h : encodeOpenResponse response = .ok frame) : Delimits parseOpenResponse frame := by
  simp only [encodeOpenResponse, check_eq_ok, Nat.not_lt] at h
  obtain ⟨hmax, h⟩ := h
  cases h
  have hcast : (octets response.reason).length < 2 ^ 16 := Nat.lt_of_le_of_lt hmax (by decide)
  have hhead : 0 + 1 = [response.status.code].length := rfl
  have hbehind : 0 + 1 + 2 = [response.status.code].length + (toBytes 2 (octets response.reason).length).length := by
    rw [toBytes_length]
    rfl
  have hstatus : ∀ rest, (Cursor.mk ([response.status.code] ++ rest) 0).u8 =
      .ok (response.status.code, ⟨[response.status.code] ++ rest, 0 + 1⟩) :=
    fun rest => Cursor.u8_eq_ok.mpr (Cursor.reads_at [] [response.status.code] rest)
  have htag : OpenStatus.tryFrom response.status.code = .ok response.status := OpenStatus.tryFrom_eq_ok.mpr rfl
  apply Delimits.of_parts [response.status.code]
  · intro input hshort
    have hnone : (Cursor.mk input 0).u8 = .error .incomplete := Cursor.u8_incomplete (by simpa using hshort)
    simp only [parseOpenResponse, hnone, error_bind]
  · intro piece hshort
    simp only [parseOpenResponse, hstatus, htag, ok_bind, u16_cut hhead hshort, error_bind]
  · intro piece hshort
    simp only [parseOpenResponse, hstatus, htag, ok_bind, Cursor.u16_at hhead hcast,
      if_neg (Nat.not_lt.mpr hmax), bytes_cut hbehind hshort, error_bind]
  · intro rest hne
    simp only [parseOpenResponse, hstatus, htag, ok_bind, Cursor.u16_at hhead hcast,
      if_neg (Nat.not_lt.mpr hmax), Cursor.bytes_behind hbehind, fromUtf8_octets, throw_bind,
      if_pos (remaining_trailing hbehind hne)]

theorem parseUdp_delimits {payload frame : List UInt8} (h : encodeUdp payload = .ok frame) :
    Delimits parseUdp frame := by
  simp only [encodeUdp, check_eq_ok, Nat.not_lt] at h
  obtain ⟨hmax, h⟩ := h
  cases h
  have hcast : payload.length < 2 ^ 16 := Nat.lt_of_le_of_lt hmax (by decide)
  have hhead : 0 = ([] : List UInt8).length := rfl
  have hbehind : 0 + 2 = ([] : List UInt8).length + (toBytes 2 payload.length).length := by
    rw [toBytes_length]
    rfl
  apply Delimits.of_parts []
  · intro input hshort
    exact absurd hshort (Nat.not_lt_zero _)
  · intro piece hshort
    simp only [parseUdp, u16_cut hhead hshort, error_bind]
  · intro piece hshort
    simp only [parseUdp, Cursor.u16_at hhead hcast, ok_bind, if_neg (Nat.not_lt.mpr hmax),
      bytes_cut hbehind hshort, error_bind]
  · intro rest hne
    simp only [parseUdp, Cursor.u16_at hhead hcast, ok_bind, if_neg (Nat.not_lt.mpr hmax),
      Cursor.bytes_behind hbehind, throw_bind, if_pos (remaining_trailing hbehind hne)]

/-- Whatever the value, a parser calls every proper prefix of its encoding incomplete and
reports trailing bytes for every proper extension. -/
theorem frames_classified :
    (∀ request frame, encodeOpen request = .ok frame → Delimits parseOpen frame) ∧
    (∀ family frame, encodePolicy family = .ok frame → Delimits parsePolicy frame) ∧
    (∀ response frame, encodeOpenResponse response = .ok frame → Delimits parseOpenResponse frame) ∧
    (∀ payload frame, encodeUdp payload = .ok frame → Delimits parseUdp frame) := by
  refine ⟨?_, ?_, ?_, ?_⟩
  · intro request frame h
    exact parseOpen_delimits h
  · intro family frame h
    exact parsePolicy_delimits h
  · intro response frame h
    exact parseOpenResponse_delimits h
  · intro payload frame h
    exact parseUdp_delimits h

end Snolc.WireFormat
