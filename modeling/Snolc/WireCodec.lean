import Snolc.WireFormat
import Mathlib.Data.Set.Subsingleton

set_option autoImplicit false

namespace Snolc.WireFormat
open ByteOrder

theorem bind_eq_ok {ε α β : Type} {x : Except ε α} {f : α → Except ε β} {b : β} :
    (x >>= f) = .ok b ↔ ∃ a, x = .ok a ∧ f a = .ok b := by
  cases x with
  | ok a => simp [bind, Except.bind]
  | error e => simp [bind, Except.bind]

theorem throw_bind {ε α β : Type} (e : ε) (f : α → Except ε β) :
    ((throw e : Except ε α) >>= f) = .error e := rfl

theorem throw_eq {ε α : Type} (e : ε) : (throw e : Except ε α) = .error e := rfl

theorem error_bind {ε α β : Type} (e : ε) (f : α → Except ε β) : ((.error e : Except ε α) >>= f) = .error e := rfl

theorem ok_bind {ε α β : Type} (a : α) (f : α → Except ε β) : ((.ok a : Except ε α) >>= f) = f a := rfl

theorem check_eq_ok {ε β : Type} {p : Prop} [Decidable p] {e : ε} {x : Except ε β} {b : β} :
    (if p then .error e else x) = .ok b ↔ ¬ p ∧ x = .ok b := by
  split <;> simp [*]

theorem fromUtf8_eq_ok {bytes : List UInt8} {text : String} :
    fromUtf8 bytes = .ok text ↔ octets text = bytes := by
  have hbytes : octets text = bytes ↔ text.toByteArray = ⟨bytes.toArray⟩ := by
    rw [ByteArray.ext_iff, octets, ← Array.toList_inj]
  rw [hbytes, fromUtf8, String.fromUTF8?]
  split
  · rename_i text' heq
    split at heq
    · cases heq
      simp only [Except.ok.injEq, ← String.toByteArray_inj]
      exact eq_comm
    · cases heq
  · rename_i heq
    split at heq
    · cases heq
    · rename_i hinvalid
      simp only [reduceCtorEq, false_iff]
      intro h
      exact hinvalid (h ▸ text.isValidUTF8)

structure Cursor.Reads (c : Cursor) (piece : List UInt8) (c' : Cursor) : Prop where
  start : c.position ≤ c.input.length
  rest : c.input.drop c.position = piece ++ c.input.drop (c.position + piece.length)
  next : c' = { c with position := c.position + piece.length }

namespace Cursor

theorem Reads.length_le {c c' : Cursor} {piece : List UInt8} (h : c.Reads piece c') :
    c.position + piece.length ≤ c.input.length := by
  have hlen := congrArg List.length h.rest
  have hstart := h.start
  rw [List.length_append, List.length_drop, List.length_drop] at hlen
  omega

theorem reads_append {c c' : Cursor} {a b : List UInt8} :
    c.Reads (a ++ b) c' ↔ ∃ m, c.Reads a m ∧ m.Reads b c' := by
  constructor
  · intro h
    have hle := h.length_le
    have hrest := h.rest
    rw [List.length_append] at hle hrest
    rw [List.append_assoc] at hrest
    have hmid : c.input.drop (c.position + a.length) = b ++ c.input.drop (c.position + (a.length + b.length)) := by
      rw [← List.drop_drop, hrest, List.drop_left]
    refine ⟨{ c with position := c.position + a.length }, ⟨h.start, ?_, rfl⟩, ⟨?_, ?_, ?_⟩⟩
    · rw [hrest, hmid]
    · dsimp only
      omega
    · dsimp only
      rw [hmid, Nat.add_assoc]
    · rw [h.next, List.length_append, Nat.add_assoc]
  · rintro ⟨m, ha, hb⟩
    obtain ⟨hstart, hrest, rfl⟩ := ha
    have hmid := hb.rest
    dsimp only at hmid
    refine ⟨hstart, ?_, ?_⟩
    · rw [hrest, hmid, List.length_append, List.append_assoc, Nat.add_assoc]
    · rw [hb.next, List.length_append, ← Nat.add_assoc]

theorem bytes_eq_ok {c c' : Cursor} {n : ℕ} {piece : List UInt8} :
    c.bytes n = .ok (piece, c') ↔ piece.length = n ∧ c.Reads piece c' := by
  unfold bytes
  split
  · rename_i hle
    have hlen : ((c.input.drop c.position).take n).length = n := by
      rw [List.length_take, List.length_drop]
      omega
    simp only [Except.ok.injEq, Prod.mk.injEq]
    constructor
    · rintro ⟨rfl, rfl⟩
      refine ⟨hlen, by omega, ?_, by rw [hlen]⟩
      rw [hlen, ← List.drop_drop, List.take_append_drop]
    · rintro ⟨rfl, h⟩
      refine ⟨?_, h.next.symm⟩
      rw [h.rest, List.take_left]
  · rename_i hlt
    simp only [reduceCtorEq, false_iff, not_and]
    intro hn h
    have hle := h.length_le
    omega

theorem array_eq_ok {c c' : Cursor} {n : ℕ} {v : Vector UInt8 n} :
    c.array n = .ok (v, c') ↔ c.Reads v.toList c' := by
  simp only [array, bind_eq_ok, Prod.exists, bytes_eq_ok]
  constructor
  · rintro ⟨piece, m, ⟨hlen, h⟩, hv⟩
    rw [dif_pos hlen] at hv
    cases hv
    exact h
  · intro h
    have hlen : v.toList.length = n := Vector.length_toList
    refine ⟨v.toList, c', ⟨hlen, h⟩, ?_⟩
    rw [dif_pos hlen]
    rfl

theorem u8_eq_ok {c c' : Cursor} {b : UInt8} : c.u8 = .ok (b, c') ↔ c.Reads [b] c' := by
  simp only [u8, bind_eq_ok, Prod.exists, bytes_eq_ok]
  constructor
  · rintro ⟨piece, m, ⟨hlen, h⟩, hb⟩
    obtain ⟨first, rfl⟩ := List.length_eq_one_iff.mp hlen
    cases hb
    exact h
  · intro h
    exact ⟨[b], c', ⟨rfl, h⟩, rfl⟩

theorem u16_eq_ok {c c' : Cursor} {n : ℕ} :
    c.u16 = .ok (n, c') ↔ n < 2 ^ 16 ∧ c.Reads (toBytes 2 n) c' := by
  simp only [u16, bind_eq_ok, Prod.exists, bytes_eq_ok]
  constructor
  · rintro ⟨piece, m, ⟨hlen, h⟩, hn⟩
    cases hn
    have hlt := ofBytes_lt piece
    have hpiece := toBytes_ofBytes piece
    rw [hlen] at hlt hpiece
    exact ⟨hlt, hpiece.symm ▸ h⟩
  · rintro ⟨hlt, h⟩
    refine ⟨toBytes 2 n, c', ⟨toBytes_length 2 n, h⟩, ?_⟩
    rw [ofBytes_toBytes_of_lt hlt]
    rfl

theorem Reads.remaining {c c' : Cursor} {piece : List UInt8} (h : c.Reads piece c') :
    c'.remaining + (c.position + piece.length) = c.input.length := by
  have hle := h.length_le
  rw [h.next]
  simp only [Cursor.remaining]
  omega

theorem reads_all {input piece : List UInt8} {position : ℕ} {c' : Cursor} (hstart : position ≤ input.length) :
    (Cursor.mk input position).Reads piece c' ∧ c'.position = input.length ↔
      input.drop position = piece ∧ c' = ⟨input, input.length⟩ := by
  constructor
  · rintro ⟨h, hend⟩
    have hrest := h.rest
    rw [h.next] at hend ⊢
    dsimp only at hend hrest ⊢
    rw [hend, List.drop_length, List.append_nil] at hrest
    exact ⟨hrest, by rw [hend]⟩
  · rintro ⟨hpiece, rfl⟩
    have hlen : input.length = position + piece.length := by
      rw [← hpiece, List.length_drop]
      omega
    refine ⟨⟨hstart, ?_, ?_⟩, rfl⟩
    · dsimp only
      rw [hpiece, ← hlen, List.drop_length, List.append_nil]
    · dsimp only
      rw [hlen]

end Cursor

theorem StreamKind.tryFrom_eq_ok {value : UInt8} {kind : StreamKind} :
    StreamKind.tryFrom value = .ok kind ↔ kind.code = value := by
  constructor
  · intro h
    unfold StreamKind.tryFrom at h
    split_ifs at h <;> cases h <;> exact Eq.symm ‹value = _›
  · rintro rfl
    cases kind <;> rfl

theorem OpenStatus.tryFrom_eq_ok {value : UInt8} {status : OpenStatus} :
    OpenStatus.tryFrom value = .ok status ↔ status.code = value := by
  constructor
  · intro h
    unfold OpenStatus.tryFrom at h
    split_ifs at h <;> cases h <;> exact Eq.symm ‹value = _›
  · rintro rfl
    cases status <;> rfl

@[simp] theorem encodeHeader_length (kind : StreamKind) : (encodeHeader kind).length = headerLength := by
  simp [encodeHeader, magic, headerLength]

theorem parseHeader_eq_ok {input : List UInt8} {kind : StreamKind} :
    parseHeader input = .ok kind ↔ input.take headerLength = encodeHeader kind := by
  have hencode : encodeHeader kind =
      [0x53, 0x4e, 0x4f, 0x4c, 0, 0, 0, 1, kind.code, 0, 0, 0] := by
    cases kind <;> decide
  unfold parseHeader
  split
  · rename_i hshort
    simp only [reduceCtorEq, false_iff]
    intro h
    have hlen := congrArg List.length h
    rw [encodeHeader_length, List.length_take] at hlen
    omega
  · rename_i hlong
    have hlen : (input.take headerLength).length = 12 := by
      rw [List.length_take]
      exact Nat.min_eq_left (Nat.le_of_not_lt hlong)
    rw [hencode]
    generalize input.take headerLength = header at hlen
    match header, hlen with
    | [a, b, c, d, e, f, g, h, k, x, y, z], _ =>
      have hversion : ofBytes [e, f, g, h] = wireVersion ↔ [e, f, g, h] = [0, 0, 0, 1] :=
        ofBytes_eq_iff (by simp [wireVersion])
      simp only [check_eq_ok, StreamKind.tryFrom_eq_ok, List.take_succ_cons, List.take_zero,
        List.drop_succ_cons, List.drop_zero, List.headD_cons, ne_eq, not_not, hversion, magic,
        List.cons.injEq, and_true]
      tauto

theorem header_then {input piece : List UInt8} {kind : StreamKind} :
    parseHeader input = .ok kind ∧ input.drop headerLength = piece ↔ input = encodeHeader kind ++ piece := by
  rw [parseHeader_eq_ok]
  constructor
  · rintro ⟨hheader, hpiece⟩
    rw [← hheader, ← hpiece, List.take_append_drop]
  · rintro rfl
    exact ⟨List.take_left' (encodeHeader_length kind), List.drop_left' (encodeHeader_length kind)⟩

theorem parseHeader_length {input : List UInt8} {kind : StreamKind} (h : parseHeader input = .ok kind) :
    headerLength ≤ input.length := by
  have hlen := congrArg List.length (parseHeader_eq_ok.mp h)
  rw [encodeHeader_length, List.length_take] at hlen
  omega

theorem reads_frame {input p : List UInt8} {k : StreamKind} {c : Cursor} :
    (parseHeader input = .ok k ∧ (Cursor.mk input headerLength).Reads p c ∧ c.remaining = 0) ↔
      input = encodeHeader k ++ p ∧ c = ⟨input, input.length⟩ := by
  rw [← header_then]
  constructor
  · rintro ⟨hheader, hread, hend⟩
    have hall := (Cursor.reads_all (parseHeader_length hheader)).mp ⟨hread, ?_⟩
    · exact ⟨⟨hheader, hall.1⟩, hall.2⟩
    · have hremaining := hread.remaining
      rw [hread.next]
      dsimp only at hremaining ⊢
      omega
  · rintro ⟨⟨hheader, hpiece⟩, rfl⟩
    have hall := (Cursor.reads_all (parseHeader_length hheader)).mpr ⟨hpiece, rfl⟩
    exact ⟨hheader, hall.1, by simp [Cursor.remaining]⟩

theorem validateFamily_length {family : String} (h : validateFamily family = .ok ()) :
    1 ≤ (octets family).length ∧ (octets family).length ≤ maxPolicyFamily := by
  simp only [validateFamily, check_eq_ok, not_or, Nat.not_lt] at h
  exact ⟨List.length_pos_iff.mpr h.1.1, h.1.2.1⟩

theorem parsePolicy_eq_ok {input : List UInt8} {family : String} :
    parsePolicy input = .ok family ↔ encodePolicy family = .ok input := by
  simp only [parsePolicy, encodePolicy, throw_bind, check_eq_ok, bind_eq_ok, Prod.exists, Cursor.u16_eq_ok,
    Cursor.bytes_eq_ok, fromUtf8_eq_ok, not_not]
  constructor
  · rintro ⟨kind, hheader, rfl, length, c, ⟨hlength, hcount⟩, hrange, piece, c', ⟨rfl, hread⟩, text, rfl, hend,
      ⟨⟩, hvalid, h⟩
    cases h
    obtain ⟨rfl, -⟩ := reads_frame.mp ⟨hheader, Cursor.reads_append.mpr ⟨c, hcount, hread⟩, hend⟩
    refine ⟨(), hvalid, ?_⟩
    rw [List.append_assoc]
    rfl
  · rintro ⟨⟨⟩, hvalid, h⟩
    cases h
    have hrange := validateFamily_length hvalid
    obtain ⟨hheader, hread, hend⟩ := reads_frame.mpr
      ⟨List.append_assoc (encodeHeader .policy) (toBytes 2 (octets family).length) (octets family), rfl⟩
    obtain ⟨c, hcount, hfamily⟩ := Cursor.reads_append.mp hread
    exact ⟨.policy, hheader, rfl, _, c, ⟨by simp only [maxPolicyFamily] at hrange; omega, hcount⟩, hrange, _, _,
      ⟨rfl, hfamily⟩, family, rfl, hend, (), hvalid, rfl⟩

theorem validateDomain_length {name : String} (h : validateDomain name = .ok ()) :
    (octets name).length ≤ 253 := by
  simp only [validateDomain, check_eq_ok, not_or, Nat.not_lt] at h
  exact h.1.2.1

theorem parseDestination_eq_ok {c c' : Cursor} {destination : Destination} :
    parseDestination c = .ok (destination, c') ↔
      ∃ piece, encodeDestination destination = .ok piece ∧ c.Reads piece c' := by
  simp only [parseDestination, bind_eq_ok, Prod.exists, Cursor.u8_eq_ok]
  constructor
  · rintro ⟨tag, m, htag, h⟩
    split_ifs at h with h₁ h₂ h₃
    · subst h₁
      simp only [bind_eq_ok, Prod.exists, Cursor.array_eq_ok] at h
      obtain ⟨address, _, hread, h⟩ := h
      cases h
      exact ⟨_, rfl, Cursor.reads_append.mpr ⟨m, htag, hread⟩⟩
    · subst h₂
      simp only [bind_eq_ok, Prod.exists, Cursor.array_eq_ok] at h
      obtain ⟨address, _, hread, h⟩ := h
      cases h
      exact ⟨_, rfl, Cursor.reads_append.mpr ⟨m, htag, hread⟩⟩
    · subst h₃
      simp only [bind_eq_ok, Prod.exists, Cursor.u16_eq_ok, Cursor.bytes_eq_ok, fromUtf8_eq_ok] at h
      obtain ⟨length, m', ⟨-, hlength⟩, piece, _, ⟨hpiece, hread⟩, name, hname, ⟨⟩, hvalid, h⟩ := h
      cases h
      subst hname hpiece
      refine ⟨3 :: (toBytes 2 (octets name).length ++ octets name), ?_, ?_⟩
      · rw [encodeDestination, hvalid]
        rfl
      · exact Cursor.reads_append.mpr ⟨m, htag, Cursor.reads_append.mpr ⟨m', hlength, hread⟩⟩
  · rintro ⟨piece, hencode, hread⟩
    cases destination with
    | ipv4 address =>
      cases hencode
      obtain ⟨m, htag, haddress⟩ := Cursor.reads_append (a := [1]).mp hread
      exact ⟨1, m, htag, bind_eq_ok.mpr ⟨(address, c'), Cursor.array_eq_ok.mpr haddress, rfl⟩⟩
    | ipv6 address =>
      cases hencode
      obtain ⟨m, htag, haddress⟩ := Cursor.reads_append (a := [2]).mp hread
      exact ⟨2, m, htag, bind_eq_ok.mpr ⟨(address, c'), Cursor.array_eq_ok.mpr haddress, rfl⟩⟩
    | domain name =>
      simp only [encodeDestination, bind_eq_ok] at hencode
      obtain ⟨⟨⟩, hvalid, hencode⟩ := hencode
      cases hencode
      have hlength := validateDomain_length hvalid
      obtain ⟨m, htag, hrest⟩ :=
        Cursor.reads_append (a := [3]) (b := toBytes 2 (octets name).length ++ octets name).mp hread
      obtain ⟨m', hcount, hname⟩ := Cursor.reads_append.mp hrest
      refine ⟨3, m, htag, ?_⟩
      simp only [show ¬ (3 : UInt8) = 1 by decide, show ¬ (3 : UInt8) = 2 by decide, if_false, if_true,
        bind_eq_ok, Prod.exists, Cursor.u16_eq_ok, Cursor.bytes_eq_ok, fromUtf8_eq_ok]
      exact ⟨_, m', ⟨by omega, hcount⟩, _, c', ⟨rfl, hname⟩, name, rfl, (), hvalid, rfl⟩

theorem encodeDestination_length {destination : Destination} {piece : List UInt8}
    (h : encodeDestination destination = .ok piece) : piece.length ≤ 256 := by
  cases destination with
  | ipv4 address =>
    cases h
    simp
  | ipv6 address =>
    cases h
    simp
  | domain name =>
    simp only [encodeDestination, bind_eq_ok] at h
    obtain ⟨⟨⟩, hvalid, h⟩ := h
    cases h
    have hlength := validateDomain_length hvalid
    simp only [List.length_cons, List.length_append, toBytes_length]
    omega

theorem parseOpen_eq_ok {input : List UInt8} {request : OpenRequest} :
    parseOpen input = .ok request ↔ encodeOpen request = .ok input := by
  simp only [parseOpen, encodeOpen, throw_bind, check_eq_ok, bind_eq_ok, Prod.exists, Cursor.u16_eq_ok,
    Cursor.bytes_eq_ok, parseDestination_eq_ok, not_not, Nat.not_lt]
  constructor
  · rintro ⟨kind, hheader, hkind, length, c, ⟨hlength, hcount⟩, hbody, hlow, hhigh, destination, c₁,
      ⟨piece, hpiece, hdestination⟩, port, c₂, ⟨hport, hportread⟩, hport0, metadataLength, c₃,
      ⟨hmeta, hmetaread⟩, hmax, metadata, c₄, ⟨rfl, hread⟩, hend, h⟩
    cases h
    have hall := Cursor.reads_append.mpr ⟨c₁, hdestination, Cursor.reads_append.mpr
      ⟨c₂, hportread, Cursor.reads_append.mpr ⟨c₃, hmetaread, hread⟩⟩⟩
    have hposition := congrArg Cursor.position hall.next
    have hremaining := hall.remaining
    dsimp only at hposition
    obtain rfl : length =
        (piece ++ (toBytes 2 port ++ (toBytes 2 metadata.length ++ metadata))).length := by omega
    have hdone : c₄.remaining = 0 := by
      unfold Cursor.remaining at hlow hhigh
      have hstart := hall.start
      omega
    obtain ⟨rfl, -⟩ := reads_frame.mp ⟨hheader, Cursor.reads_append.mpr ⟨c, hcount, hall⟩, hdone⟩
    have hvalue : (UInt16.ofNat port).toNat = port := UInt16.toNat_ofNat_of_lt' hport
    refine ⟨hkind, ?_, hmax, piece, hpiece, ?_, ?_⟩
    · intro hzero
      change UInt16.ofNat port = 0 at hzero
      rw [hzero] at hvalue
      exact hport0 hvalue.symm
    · simpa only [hvalue, List.append_assoc] using hbody
    · simp only [hvalue, List.append_assoc]
      rfl
  · rintro ⟨hkind, hport, hmax, piece, hpiece, hbody, h⟩
    cases h
    have hvalue := request.port.toNat_lt
    have hmax' : request.metadata.length < 2 ^ 16 := Nat.lt_of_le_of_lt hmax (by decide)
    simp only [List.append_assoc] at hbody ⊢
    obtain ⟨hheader, hread, hend⟩ := reads_frame (k := request.kind) (p := toBytes 2 _ ++
      (piece ++ (toBytes 2 request.port.toNat ++ (toBytes 2 request.metadata.length ++ request.metadata)))).mpr
        ⟨rfl, rfl⟩
    obtain ⟨c, hcount, hall⟩ := Cursor.reads_append.mp hread
    obtain ⟨c₁, hdestination, hrest⟩ := Cursor.reads_append.mp hall
    obtain ⟨c₂, hportread, hrest⟩ := Cursor.reads_append.mp hrest
    obtain ⟨c₃, hmetaread, hmetadata⟩ := Cursor.reads_append.mp hrest
    have hcremaining := hcount.remaining
    have hremaining := hall.remaining
    have hposition := congrArg Cursor.position hall.next
    refine ⟨request.kind, hheader, hkind, _, c, ⟨Nat.lt_of_le_of_lt hbody (by decide), hcount⟩, hbody, ?_, ?_,
      request.destination, c₁, ⟨piece, hpiece, hdestination⟩, request.port.toNat, c₂, ⟨hvalue, hportread⟩, ?_,
      request.metadata.length, c₃, ⟨hmax', hmetaread⟩, hmax, request.metadata, _, ⟨rfl, hmetadata⟩, hposition, ?_⟩
    · unfold Cursor.remaining
      omega
    · unfold Cursor.remaining
      omega
    · intro hzero
      exact hport (UInt16.toNat.inj hzero)
    · rw [UInt16.ofNat_toNat]
      rfl

structure OpenRequest.Valid (request : OpenRequest) : Prop where
  kind : request.kind = .tcp ∨ request.kind = .udp
  destination : ∀ name, request.destination = .domain name → validateDomain name = .ok ()
  port : request.port ≠ 0
  metadata : request.metadata.length ≤ maxMetadata

theorem encodeDestination_total {destination : Destination}
    (h : ∀ name, destination = .domain name → validateDomain name = .ok ()) :
    ∃ piece, encodeDestination destination = .ok piece := by
  cases destination with
  | ipv4 address => exact ⟨_, rfl⟩
  | ipv6 address => exact ⟨_, rfl⟩
  | domain name =>
    rw [encodeDestination, h name rfl]
    exact ⟨_, rfl⟩

theorem encodeOpen_total {request : OpenRequest} (h : request.Valid) : ∃ input, encodeOpen request = .ok input := by
  obtain ⟨piece, hpiece⟩ := encodeDestination_total h.destination
  have hlength := encodeDestination_length hpiece
  have hmetadata := h.metadata
  simp only [encodeOpen, throw_bind, check_eq_ok, bind_eq_ok, Nat.not_lt]
  refine ⟨_, ?_, h.port, hmetadata, piece, hpiece, ?_, rfl⟩
  · rintro ⟨htcp, hudp⟩
    exact h.kind.elim htcp hudp
  · simp only [List.length_append, toBytes_length, maxOpenBody]
    simp only [maxMetadata] at hmetadata
    omega

theorem encodeOpen_valid {request : OpenRequest} {input : List UInt8} (h : encodeOpen request = .ok input) :
    request.Valid := by
  simp only [encodeOpen, throw_bind, check_eq_ok, bind_eq_ok, Nat.not_lt] at h
  obtain ⟨hkind, hport, hmetadata, piece, hpiece, -, -⟩ := h
  refine ⟨?_, ?_, hport, hmetadata⟩
  · cases hk : request.kind with
    | policy => exact absurd ⟨by simp [hk], by simp [hk]⟩ hkind
    | tcp => exact .inl rfl
    | udp => exact .inr rfl
  · intro name hname
    rw [hname, encodeDestination, bind_eq_ok] at hpiece
    obtain ⟨⟨⟩, hvalid, -⟩ := hpiece
    exact hvalid

/-- The open request codec is a bijection between the valid requests and the accepted frames. -/
theorem open_codec_bijective (request : OpenRequest) :
    (∀ input, parseOpen input = .ok request ↔ encodeOpen request = .ok input) ∧
    ((∃ input, encodeOpen request = .ok input) ↔ request.Valid) ∧
    {input | parseOpen input = .ok request}.Subsingleton := by
  refine ⟨fun input => parseOpen_eq_ok, ⟨fun ⟨_, h⟩ => encodeOpen_valid h, encodeOpen_total⟩, ?_⟩
  intro a ha b hb
  have hencode := (parseOpen_eq_ok.mp ha).symm.trans (parseOpen_eq_ok.mp hb)
  exact Except.ok.inj hencode

example : encodeOpen ⟨.udp, .ipv4 #v[192, 0, 2, 1], 53, [7]⟩ =
    .ok [83, 78, 79, 76, 0, 0, 0, 1, 3, 0, 0, 0, 0, 10, 1, 192, 0, 2, 1, 0, 53, 0, 1, 7] := by decide

theorem parseOpenResponse_eq_ok {input : List UInt8} {response : OpenResponse} :
    parseOpenResponse input = .ok response ↔ encodeOpenResponse response = .ok input := by
  simp only [parseOpenResponse, encodeOpenResponse, throw_bind, check_eq_ok, bind_eq_ok, Prod.exists,
    Cursor.u8_eq_ok, Cursor.u16_eq_ok, Cursor.bytes_eq_ok, fromUtf8_eq_ok, OpenStatus.tryFrom_eq_ok, not_not,
    Nat.not_lt]
  constructor
  · rintro ⟨tag, c, htag, status, rfl, length, c', ⟨hlength, hcount⟩, hmax, piece, c'', ⟨rfl, hread⟩, reason, rfl,
      hend, h⟩
    cases h
    have hall := Cursor.reads_append.mpr ⟨c, htag, Cursor.reads_append.mpr ⟨c', hcount, hread⟩⟩
    have hremaining := hall.remaining
    have hposition := congrArg Cursor.position hall.next
    dsimp only at hremaining hposition
    obtain ⟨hinput, -⟩ := (Cursor.reads_all (Nat.zero_le _)).mp ⟨hall, by omega⟩
    exact ⟨hmax, congrArg Except.ok hinput.symm⟩
  · rintro ⟨hmax, h⟩
    cases h
    have hmax' : (octets response.reason).length < 2 ^ 16 := Nat.lt_of_le_of_lt hmax (by decide)
    obtain ⟨hall, hend⟩ := (Cursor.reads_all (Nat.zero_le _)).mpr ⟨List.drop_zero, rfl⟩
    obtain ⟨c, htag, hrest⟩ := Cursor.reads_append (a := [response.status.code])
      (b := toBytes 2 (octets response.reason).length ++ octets response.reason).mp hall
    obtain ⟨c', hcount, hread⟩ := Cursor.reads_append.mp hrest
    exact ⟨_, c, htag, response.status, rfl, _, c', ⟨hmax', hcount⟩, hmax, _, _, ⟨rfl, hread⟩, response.reason, rfl,
      by simp [Cursor.remaining], rfl⟩

theorem parseUdp_eq_ok {input payload : List UInt8} :
    parseUdp input = .ok payload ↔ encodeUdp payload = .ok input := by
  simp only [parseUdp, encodeUdp, throw_bind, check_eq_ok, bind_eq_ok, Prod.exists, Cursor.u16_eq_ok,
    Cursor.bytes_eq_ok, not_not, Nat.not_lt]
  constructor
  · rintro ⟨length, c, ⟨-, hcount⟩, hmax, piece, c', ⟨rfl, hread⟩, hend, h⟩
    cases h
    have hall := Cursor.reads_append.mpr ⟨c, hcount, hread⟩
    have hremaining := hall.remaining
    have hposition := congrArg Cursor.position hall.next
    dsimp only at hremaining hposition
    obtain ⟨hinput, -⟩ := (Cursor.reads_all (Nat.zero_le _)).mp ⟨hall, by omega⟩
    exact ⟨hmax, congrArg Except.ok hinput.symm⟩
  · rintro ⟨hmax, h⟩
    cases h
    have hmax' : payload.length < 2 ^ 16 := Nat.lt_of_le_of_lt hmax (by decide)
    obtain ⟨hall, hend⟩ := (Cursor.reads_all (Nat.zero_le _)).mpr ⟨List.drop_zero, rfl⟩
    obtain ⟨c, hcount, hread⟩ := Cursor.reads_append.mp hall
    exact ⟨_, c, ⟨hmax', hcount⟩, hmax, _, _, ⟨rfl, hread⟩, by simp [Cursor.remaining], rfl⟩

/-- The decoder is the inverse of the encoder: a value has at most one encoding, an
encoding belongs to one value, and a string that encodes nothing is rejected. -/
structure CodecBijective {α : Type} (encode : α → Except WireError (List UInt8))
    (parse : List UInt8 → Except WireError α) : Prop where
  inverse : ∀ input value, parse input = .ok value ↔ encode value = .ok input
  unique : ∀ value, {input | parse input = .ok value}.Subsingleton
  injective : ∀ input, {value | encode value = .ok input}.Subsingleton
  rejects : ∀ input, (∀ value, encode value ≠ .ok input) → ∃ e, parse input = .error e

theorem CodecBijective.of_inverse {α : Type} {encode : α → Except WireError (List UInt8)}
    {parse : List UInt8 → Except WireError α}
    (h : ∀ input value, parse input = .ok value ↔ encode value = .ok input) : CodecBijective encode parse where
  inverse := h
  unique := by
    intro value a ha b hb
    exact Except.ok.inj (((h a value).mp ha).symm.trans ((h b value).mp hb))
  injective := by
    intro input v hv w hw
    exact Except.ok.inj (((h input v).mpr hv).symm.trans ((h input w).mpr hw))
  rejects := by
    intro input hnone
    cases hparse : parse input with
    | ok value => exact absurd ((h input value).mp hparse) (hnone value)
    | error e => exact ⟨e, rfl⟩

/-- The policy, response and UDP codecs are bijections between encodable values and accepted strings. -/
theorem remaining_codecs_bijective :
    CodecBijective encodePolicy parsePolicy ∧
    CodecBijective encodeOpenResponse parseOpenResponse ∧
    CodecBijective encodeUdp parseUdp := by
  refine ⟨?_, ?_, ?_⟩
  · exact .of_inverse fun _ _ => parsePolicy_eq_ok
  · exact .of_inverse fun _ _ => parseOpenResponse_eq_ok
  · exact .of_inverse fun _ _ => parseUdp_eq_ok

end Snolc.WireFormat
