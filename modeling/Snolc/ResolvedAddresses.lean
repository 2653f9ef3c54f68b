import Snolc.CheckedSlice
import Snolc.EngineHost
import Snolc.WireCodec

set_option autoImplicit false

namespace Snolc.Resolved
open ByteOrder CheckedSlice
open Engine (IpAddr)
open WireFormat (bind_eq_ok check_eq_ok)

def maxResolvedAddresses : ℕ := 64

inductive ResolvedAddressError where
  | count
  | buffer
  | encoding
  deriving DecidableEq, Repr

def entrySize : IpAddr → ℕ
  | .v4 _ => 5
  | .v6 _ => 17

def resolvedAddressesSize (addresses : List IpAddr) : Except ResolvedAddressError ℕ :=
  if addresses.isEmpty ∨ addresses.length > maxResolvedAddresses then .error .count
  else
    addresses.foldlM (fun length address =>
      match checkedAdd length (entrySize address) with
      | some length => .ok length
      | none => .error .encoding) 2

def encodeAddress : List UInt8 × ℕ → IpAddr → Option (List UInt8 × ℕ)
  | (output, offset), .v4 address => do
    let output ← setAt output offset 1
    let output ← copyAt output (offset + 1) address.toList
    some (output, offset + 5)
  | (output, offset), .v6 address => do
    let output ← setAt output offset 2
    let output ← copyAt output (offset + 1) address.toList
    some (output, offset + 17)

def encodeResolvedAddresses (addresses : List IpAddr) (output : List UInt8) :
    Option (Except ResolvedAddressError ℕ × List UInt8) :=
  match resolvedAddressesSize addresses with
  | .error e => some (.error e, output)
  | .ok required =>
    if output.length < required then some (.error .buffer, output)
    else do
      let output ← copyAt output 0 (toBytes 2 addresses.length)
      let (output, _) ← addresses.foldlM encodeAddress (output, 2)
      some (.ok required, output)

theorem size_of_length {n : ℕ} {bytes : List UInt8} (h : bytes.length = n) : bytes.toArray.size = n := by
  rw [List.size_toArray]
  exact h

def array (input : List UInt8) (offset n : ℕ) : Except ResolvedAddressError (Vector UInt8 n) :=
  match slice input offset (offset + n) with
  | none => .error .encoding
  | some bytes =>
    if h : bytes.length = n then .ok ⟨bytes.toArray, size_of_length h⟩ else .error .encoding

def decodeAddress (input : List UInt8) (offset : ℕ) : Except ResolvedAddressError (IpAddr × ℕ) :=
  match input[offset]? with
  | none => .error .encoding
  | some tag =>
    if tag = 1 then do
      let bytes ← array input (offset + 1) 4
      .ok (.v4 bytes, offset + 1 + 4)
    else if tag = 2 then do
      let bytes ← array input (offset + 1) 16
      .ok (.v6 bytes, offset + 1 + 16)
    else .error .encoding

def decodeAddresses (input : List UInt8) :
    ℕ → ℕ → List IpAddr → Except ResolvedAddressError (List IpAddr × ℕ)
  | 0, offset, addresses => .ok (addresses, offset)
  | n + 1, offset, addresses => do
    let (address, offset) ← decodeAddress input offset
    decodeAddresses input n offset (addresses ++ [address])

def decodeResolvedAddresses (input : List UInt8) : Except ResolvedAddressError (List IpAddr) := do
  let count ← array input 0 2
  if ofBytes count.toList = 0 ∨ ofBytes count.toList > maxResolvedAddresses then .error .count
  else do
    let (addresses, offset) ← decodeAddresses input (ofBytes count.toList) 2 []
    if offset ≠ input.length then .error .encoding else .ok addresses

example : decodeResolvedAddresses [0, 1, 1, 192, 0, 2, 1] = .ok [.v4 (Vector.mk #[192, 0, 2, 1] rfl)] := by
  decide

def entry : IpAddr → List UInt8
  | .v4 address => 1 :: address.toList
  | .v6 address => 2 :: address.toList

def wire (addresses : List IpAddr) : List UInt8 := toBytes 2 addresses.length ++ addresses.flatMap entry

@[simp] theorem entry_length (address : IpAddr) : (entry address).length = entrySize address := by
  cases address <;> simp [entry, entrySize]

theorem wire_length (addresses : List IpAddr) :
    (wire addresses).length = 2 + (addresses.map entrySize).sum := by
  simp [wire, List.length_flatMap]

theorem sizes_le (addresses : List IpAddr) : (addresses.map entrySize).sum ≤ addresses.length * 17 := by
  induction addresses with
  | nil => simp
  | cons address addresses ih =>
    have hsize : entrySize address ≤ 17 := by cases address <;> simp [entrySize]
    rw [List.map_cons, List.sum_cons, List.length_cons]
    omega

theorem foldSizes (addresses : List IpAddr) (length : ℕ)
    (h : length + (addresses.map entrySize).sum ≤ wordMax) :
    addresses.foldlM (fun length address =>
      match checkedAdd length (entrySize address) with
      | some length => (.ok length : Except ResolvedAddressError ℕ)
      | none => .error .encoding) length = .ok (length + (addresses.map entrySize).sum) := by
  induction addresses generalizing length with
  | nil => rfl
  | cons address addresses ih =>
    rw [List.map_cons, List.sum_cons] at h
    rw [List.foldlM_cons, checkedAdd_of_le (by omega)]
    change List.foldlM _ (length + entrySize address) addresses = _
    rw [ih _ (by omega), List.map_cons, List.sum_cons, Nat.add_assoc]

theorem resolvedAddressesSize_eq_ok {addresses : List IpAddr} {size : ℕ} :
    resolvedAddressesSize addresses = .ok size ↔
      addresses ≠ [] ∧ addresses.length ≤ maxResolvedAddresses ∧ size = (wire addresses).length := by
  unfold resolvedAddressesSize
  rw [check_eq_ok, wire_length, List.isEmpty_iff]
  constructor
  · rintro ⟨hcount, hfold⟩
    have hle := sizes_le addresses
    simp only [maxResolvedAddresses] at *
    rw [foldSizes addresses 2 (by simp only [wordMax]; omega)] at hfold
    cases hfold
    exact ⟨fun h => hcount (.inl h), by omega, rfl⟩
  · rintro ⟨hne, hlen, rfl⟩
    have hle := sizes_le addresses
    simp only [maxResolvedAddresses] at *
    rw [foldSizes addresses 2 (by simp only [wordMax]; omega)]
    exact ⟨by simp only [hne, false_or]; omega, rfl⟩

theorem tagged_behind (front rest bytes : List UInt8) (tag : UInt8) (h : (tag :: bytes).length ≤ rest.length) :
    (setAt (front ++ rest) front.length tag).bind (fun output => copyAt output (front.length + 1) bytes) =
      some (front ++ tag :: bytes ++ rest.drop (tag :: bytes).length) := by
  rw [List.length_cons] at h
  have hcopy := copyAt_behind (front ++ [tag]) bytes (rest.drop 1) (by simp; omega)
  rw [List.length_append, List.length_singleton] at hcopy
  rw [setAt_behind front rest tag (by omega), Option.bind_some, hcopy]
  simp

theorem encodeAddress_behind (front rest : List UInt8) (address : IpAddr)
    (h : entrySize address ≤ rest.length) :
    encodeAddress (front ++ rest, front.length) address =
      some (front ++ entry address ++ rest.drop (entrySize address),
        (front ++ entry address).length) := by
  rw [← entry_length] at h ⊢
  cases address with
  | v4 address =>
    have hwrite := tagged_behind front rest address.toList 1 h
    simp only [encodeAddress, Option.bind_eq_bind, ← Option.bind_assoc, hwrite]
    simp [entry]
  | v6 address =>
    have hwrite := tagged_behind front rest address.toList 2 h
    simp only [encodeAddress, Option.bind_eq_bind, ← Option.bind_assoc, hwrite]
    simp [entry]

/-- The writer stands behind what it has written; what lies behind the entries is left alone. -/
theorem encodeAddresses_behind (addresses : List IpAddr) (front rest : List UInt8)
    (h : (addresses.flatMap entry).length ≤ rest.length) :
    addresses.foldlM encodeAddress (front ++ rest, front.length) =
      some (front ++ addresses.flatMap entry ++ rest.drop (addresses.flatMap entry).length,
        (front ++ addresses.flatMap entry).length) := by
  induction addresses generalizing front rest with
  | nil => simp
  | cons address addresses ih =>
    rw [List.flatMap_cons, List.length_append, entry_length] at h
    rw [List.foldlM_cons, encodeAddress_behind front rest address (by omega)]
    change addresses.foldlM encodeAddress _ = _
    rw [ih (front ++ entry address) (rest.drop (entrySize address)) (by rw [List.length_drop]; omega)]
    simp [List.append_assoc]

theorem encode_eq {addresses : List IpAddr} {output : List UInt8} (hne : addresses ≠ [])
    (hcount : addresses.length ≤ maxResolvedAddresses) (hroom : (wire addresses).length ≤ output.length) :
    encodeResolvedAddresses addresses output =
      some (.ok (wire addresses).length, wire addresses ++ output.drop (wire addresses).length) := by
  have hsize := resolvedAddressesSize_eq_ok.mpr ⟨hne, hcount, rfl⟩
  have hlen : (wire addresses).length = 2 + (addresses.flatMap entry).length := by simp [wire]
  have hcopy := copyAt_behind [] (toBytes 2 addresses.length) output (by rw [toBytes_length]; omega)
  rw [List.nil_append, List.length_nil, List.nil_append, toBytes_length] at hcopy
  have hwrite := encodeAddresses_behind addresses (toBytes 2 addresses.length) (output.drop 2)
    (by rw [List.length_drop]; omega)
  rw [toBytes_length] at hwrite
  simp only [encodeResolvedAddresses, hsize]
  rw [if_neg (by omega), hcopy]
  simp only [Option.bind_eq_bind, Option.bind_some, hwrite, List.drop_drop, ← hlen]
  rfl

theorem array_behind (front rest : List UInt8) {n : ℕ} {v : Vector UInt8 n} :
    array (front ++ rest) front.length n = .ok v ↔ ∃ tail, rest = v.toList ++ tail := by
  unfold array
  cases hs : slice (front ++ rest) front.length (front.length + n) with
  | none =>
    simp only [reduceCtorEq, false_iff]
    rintro ⟨tail, htail⟩
    rw [slice_behind.mpr ⟨Vector.length_toList, tail, htail⟩] at hs
    cases hs
  | some bytes =>
    obtain ⟨hlen, tail, hrest⟩ := slice_behind.mp hs
    simp only [dif_pos hlen, Except.ok.injEq]
    constructor
    · rintro rfl
      exact ⟨tail, hrest⟩
    · rintro ⟨tail', htail'⟩
      rw [hrest] at htail'
      have heq := (List.append_inj htail' (by rw [hlen, Vector.length_toList])).1
      apply Vector.toList_inj.mp
      rw [← heq]
      rfl

theorem kind_behind (front rest : List UInt8) {tag : UInt8} {n : ℕ} (make : Vector UInt8 n → IpAddr)
    (hentry : ∀ bytes, entry (make bytes) = tag :: bytes.toList)
    (honly : ∀ address, (entry address).head? = some tag → ∃ bytes, address = make bytes)
    {address : IpAddr} {offset : ℕ} :
    (array (front ++ tag :: rest) (front.length + 1) n >>= fun bytes => .ok (make bytes, front.length + 1 + n)) =
        .ok (address, offset) ↔
      ∃ tail, tag :: rest = entry address ++ tail ∧ offset = (front ++ entry address).length := by
  have harray (v : Vector UInt8 n) :
      array (front ++ tag :: rest) (front.length + 1) n = .ok v ↔ ∃ tail, rest = v.toList ++ tail := by
    simpa using array_behind (front ++ [tag]) rest (v := v)
  simp only [bind_eq_ok, harray, Except.ok.injEq, Prod.mk.injEq]
  constructor
  · rintro ⟨bytes, ⟨tail, rfl⟩, rfl, rfl⟩
    refine ⟨tail, by rw [hentry, List.cons_append], ?_⟩
    rw [hentry, List.length_append, List.length_cons, Vector.length_toList]
    omega
  · rintro ⟨tail, hrest, hoffset⟩
    obtain ⟨bytes, rfl⟩ := honly address (by cases address <;> simp_all [entry])
    rw [hentry, List.cons_append, List.cons.injEq] at hrest
    rw [hentry, List.length_append, List.length_cons, Vector.length_toList] at hoffset
    exact ⟨bytes, ⟨tail, hrest.2⟩, rfl, by omega⟩

theorem decodeAddress_behind (front rest : List UInt8) {address : IpAddr} {offset : ℕ} :
    decodeAddress (front ++ rest) front.length = .ok (address, offset) ↔
      ∃ tail, rest = entry address ++ tail ∧ offset = (front ++ entry address).length := by
  unfold decodeAddress
  rw [List.getElem?_append_right (le_refl _), Nat.sub_self]
  cases rest with
  | nil =>
    simp only [List.getElem?_nil, reduceCtorEq, false_iff, not_exists, not_and]
    intro tail h
    cases address <;> simp [entry] at h
  | cons tag rest =>
    simp only [List.getElem?_cons_zero]
    split
    · next htag =>
      subst htag
      refine kind_behind front rest .v4 (fun _ => rfl) fun address hhead => ?_
      cases address with
      | v4 bytes => exact ⟨bytes, rfl⟩
      | v6 bytes => simp [entry] at hhead
    · next hnot =>
      split
      · next htag =>
        subst htag
        refine kind_behind front rest .v6 (fun _ => rfl) fun address hhead => ?_
        cases address with
        | v4 bytes => simp [entry] at hhead
        | v6 bytes => exact ⟨bytes, rfl⟩
      · next hnot' =>
        simp only [reduceCtorEq, false_iff, not_exists, not_and]
        intro tail hrest
        cases address <;> simp_all [entry]

theorem decodeAddresses_behind (n : ℕ) (front rest : List UInt8) (seen addresses : List IpAddr) (offset : ℕ) :
    decodeAddresses (front ++ rest) n front.length seen = .ok (addresses, offset) ↔
      ∃ read tail, addresses = seen ++ read ∧ read.length = n ∧ rest = read.flatMap entry ++ tail ∧
        offset = (front ++ read.flatMap entry).length := by
  induction n generalizing front rest seen with
  | zero =>
    simp only [decodeAddresses, Except.ok.injEq, Prod.mk.injEq, List.length_eq_zero_iff]
    constructor
    · rintro ⟨rfl, rfl⟩
      exact ⟨[], rest, by simp, rfl, rfl, by simp⟩
    · rintro ⟨read, tail, rfl, rfl, -, rfl⟩
      simp
  | succ n ih =>
    simp only [decodeAddresses, bind_eq_ok, Prod.exists, decodeAddress_behind]
    constructor
    · rintro ⟨address, middle, ⟨tail, rfl, rfl⟩, h⟩
      rw [← List.append_assoc, ih] at h
      obtain ⟨read, tail', rfl, hlen, rfl, rfl⟩ := h
      exact ⟨address :: read, tail', by simp, by simp [hlen], by simp, by simp⟩
    · rintro ⟨read, tail, rfl, hlen, rfl, rfl⟩
      cases read with
      | nil => simp at hlen
      | cons address read =>
        refine ⟨address, _, ⟨read.flatMap entry ++ tail, by simp, rfl⟩, ?_⟩
        rw [List.flatMap_cons, List.append_assoc, ← List.append_assoc front]
        apply (ih (front ++ entry address) _ _).mpr
        exact ⟨read, tail, by simp, by simpa using hlen, rfl, by simp⟩

theorem decode_iff {input : List UInt8} {addresses : List IpAddr} :
    decodeResolvedAddresses input = .ok addresses ↔
      addresses ≠ [] ∧ addresses.length ≤ maxResolvedAddresses ∧ input = wire addresses := by
  have hcount (count : Vector UInt8 2) : array input 0 2 = .ok count ↔ ∃ tail, input = count.toList ++ tail :=
    array_behind [] input
  simp only [decodeResolvedAddresses, bind_eq_ok, hcount, check_eq_ok, Prod.exists, Except.ok.injEq]
  constructor
  · rintro ⟨count, ⟨tail, rfl⟩, hrange, read, offset, hread, hend, rfl⟩
    have hlen : count.toList.length = 2 := Vector.length_toList
    have hiff := decodeAddresses_behind (ofBytes count.toList) count.toList tail [] read offset
    rw [hlen] at hiff
    obtain ⟨read', tail', hread', hn, rfl, rfl⟩ := hiff.mp hread
    obtain rfl : read = read' := hread'
    have htail : tail' = [] := by
      rw [← List.length_eq_zero_iff]
      simp only [List.length_append, not_not] at hend
      omega
    have hwritten := toBytes_ofBytes count.toList
    rw [hlen, ← hn] at hwritten
    refine ⟨?_, ?_, ?_⟩
    · intro hnil
      rw [hnil, List.length_nil] at hn
      omega
    · omega
    · rw [wire, hwritten, htail, List.append_nil]
  · rintro ⟨hne, hle, rfl⟩
    have hpos := List.length_pos_of_ne_nil hne
    simp only [maxResolvedAddresses] at *
    have hcode := ofBytes_toBytes_of_lt (w := 2) (n := addresses.length) (by omega)
    refine ⟨Vector.mk (toBytes 2 addresses.length).toArray (by simp), ⟨addresses.flatMap entry, rfl⟩, ?_,
      addresses, (wire addresses).length, ?_, by simp, rfl⟩
    · change ¬ (ofBytes (toBytes 2 addresses.length) = 0 ∨ ofBytes (toBytes 2 addresses.length) > 64)
      rw [hcode]
      omega
    · change decodeAddresses (wire addresses) (ofBytes (toBytes 2 addresses.length)) 2 [] = _
      rw [hcode]
      have hread := decodeAddresses_behind addresses.length (toBytes 2 addresses.length)
        (addresses.flatMap entry) [] addresses (wire addresses).length
      rw [toBytes_length] at hread
      exact hread.mpr ⟨addresses, [], by simp, rfl, by simp, rfl⟩

/-- A list within the bounds is written into its own size and read back; what the reader takes is written the
same. -/
theorem codec_bijective :
    (∀ addresses : List IpAddr, addresses ≠ [] → addresses.length ≤ maxResolvedAddresses →
      ∃ size, resolvedAddressesSize addresses = .ok size ∧
        ∀ output : List UInt8, size ≤ output.length →
          ∃ written, written.length = size ∧
            encodeResolvedAddresses addresses output = some (.ok size, written ++ output.drop size) ∧
            decodeResolvedAddresses written = .ok addresses) ∧
    ∀ (input : List UInt8) (addresses : List IpAddr), decodeResolvedAddresses input = .ok addresses →
      resolvedAddressesSize addresses = .ok input.length ∧
        ∀ output : List UInt8, input.length ≤ output.length →
          encodeResolvedAddresses addresses output =
            some (.ok input.length, input ++ output.drop input.length) := by
  constructor
  · intro addresses hne hcount
    refine ⟨_, resolvedAddressesSize_eq_ok.mpr ⟨hne, hcount, rfl⟩, fun output hroom => ?_⟩
    exact ⟨wire addresses, rfl, encode_eq hne hcount hroom, decode_iff.mpr ⟨hne, hcount, rfl⟩⟩
  · intro input addresses h
    obtain ⟨hne, hcount, rfl⟩ := decode_iff.mp h
    exact ⟨resolvedAddressesSize_eq_ok.mpr ⟨hne, hcount, rfl⟩, fun output => encode_eq hne hcount⟩

theorem sample_codec :
    ∃ size, resolvedAddressesSize [.v4 (Vector.replicate 4 9), .v6 (Vector.replicate 16 1)] = .ok size ∧
      ∀ output : List UInt8, size ≤ output.length →
        ∃ written, written.length = size ∧
          encodeResolvedAddresses [.v4 (Vector.replicate 4 9), .v6 (Vector.replicate 16 1)] output =
            some (.ok size, written ++ output.drop size) ∧
          decodeResolvedAddresses written = .ok [.v4 (Vector.replicate 4 9), .v6 (Vector.replicate 16 1)] :=
  codec_bijective.1 _ (List.cons_ne_nil _ _) (by simp [maxResolvedAddresses])

end Snolc.Resolved
