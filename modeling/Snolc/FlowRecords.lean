import Snolc.WireCodec
import Snolc.EngineHost

set_option autoImplicit false

namespace Snolc.Engine
open PollIo Mux WireFormat CoreIo AsyncTask

/-- A null pointer with the length beside it, or the bytes that are borrowed. -/
inductive SnolBytes where
  | null (length : ℕ)
  | borrowed (bytes : List UInt8)
  deriving DecidableEq, Repr

namespace SnolBytes

def length : SnolBytes → ℕ
  | null length => length
  | borrowed bytes => bytes.length

def bytes : SnolBytes → List UInt8
  | null _ => []
  | borrowed bytes => bytes

def input (s : SnolBytes) : Except Status (List UInt8) :=
  match s with
  | null length => if length ≠ 0 then .error .invalid else .ok []
  | borrowed bytes => .ok bytes

end SnolBytes

structure SnolFlowMetadataV1 where
  structSize : UInt32
  kind : UInt32
  addressType : UInt32
  reserved : UInt32
  address : SnolBytes
  port : UInt16
  reserved2 : Vector UInt8 6
  metadata : SnolBytes
  deriving DecidableEq, Repr

def SnolFlowMetadataV1.size : UInt32 := 56

structure BorrowedFlowMetadata where
  kind : UInt32
  addressType : UInt32
  address : List UInt8
  port : UInt16
  metadata : List UInt8
  deriving DecidableEq, Repr

def isAsciiUppercase (byte : UInt8) : Bool := 65 ≤ byte && byte ≤ 90

def addressValid (addressType : UInt32) (address : List UInt8) : Bool :=
  if addressType = addressIpv4 then address.length == 4
  else if addressType = addressIpv6 then address.length == 16
  else if addressType = addressDomain then
    !address.isEmpty && address.length ≤ 253 && address.all (· < 128) &&
      address.all (fun byte => !isAsciiUppercase byte)
  else false

/-- The null record is `none`. -/
def flowMetadata (metadata : Option SnolFlowMetadataV1) : Except Status BorrowedFlowMetadata := do
  match metadata with
  | none => throw .invalid
  | some metadata =>
    if metadata.structSize < SnolFlowMetadataV1.size ∨ metadata.reserved ≠ 0 ∨
        metadata.reserved2 ≠ Vector.replicate 6 0 ∨
        ¬ (metadata.kind = flowTcp ∨ metadata.kind = flowUdp) ∨
        ¬ (metadata.addressType = addressIpv4 ∨ metadata.addressType = addressIpv6 ∨
          metadata.addressType = addressDomain) ∨
        metadata.port = 0 ∨ 1024 < metadata.metadata.length then throw .invalid
    let address ← metadata.address.input
    let opaqueBytes ← metadata.metadata.input
    if addressValid metadata.addressType address = false then throw .invalid
    pure ⟨metadata.kind, metadata.addressType, address, metadata.port, opaqueBytes⟩

def OwnedFlowMetadata.abi (metadata : OwnedFlowMetadata) : SnolFlowMetadataV1 where
  structSize := SnolFlowMetadataV1.size
  kind := metadata.kind
  addressType := metadata.addressType
  reserved := 0
  address := .borrowed metadata.address
  port := metadata.port
  reserved2 := Vector.replicate 6 0
  metadata := .borrowed metadata.opaqueBytes

def classAdapter : UInt32 := 1

structure AcceptAnswer where
  status : UInt32
  flow : UInt64
  metadata : SnolFlowMetadataV1

structure LoadedAdapter where
  handle : Option UInt64
  adapter : Option (Option (UInt64 → AcceptAnswer))

def destinationOf (metadata : BorrowedFlowMetadata) : Except LoadError Destination :=
  if metadata.addressType = addressIpv4 then
    if h : metadata.address.length = 4 then .ok (.ipv4 ⟨metadata.address.toArray, by simpa using h⟩)
    else .error .flowMetadata
  else if metadata.addressType = addressIpv6 then
    if h : metadata.address.length = 16 then .ok (.ipv6 ⟨metadata.address.toArray, by simpa using h⟩)
    else .error .flowMetadata
  else if metadata.addressType = addressDomain then
    match fromUtf8 metadata.address with
    | .ok name => .ok (.domain name)
    | .error _ => .error .flowMetadata
  else .error .flowMetadata

def requestOf (metadata : BorrowedFlowMetadata) : Except LoadError OpenRequest := do
  let destination ← destinationOf metadata
  if metadata.kind = flowTcp then pure ⟨.tcp, destination, metadata.port, metadata.metadata⟩
  else if metadata.kind = flowUdp then pure ⟨.udp, destination, metadata.port, metadata.metadata⟩
  else throw .flowMetadata

def adapterAccept (module : LoadedAdapter) : Poll (Except LoadError (UInt64 × OpenRequest)) :=
  match module.handle with
  | none => .ready (.error .notCreated)
  | some handle =>
    match module.adapter with
    | none => .ready (.error (.classTable classAdapter))
    | some none => .ready (.error .missingFunction)
    | some (some accept) =>
      let answer := accept handle
      if answer.status = Status.pending.code then .pending
      else if answer.status = Status.ok.code then
        if answer.flow = 0 then .ready (.error .invalidHandle)
        else
          match flowMetadata (some answer.metadata) with
          | .error _ => .ready (.error .flowMetadata)
          | .ok metadata =>
            match requestOf metadata with
            | .error e => .ready (.error e)
            | .ok request => .ready (.ok (answer.flow, request))
      else .ready (.error (.moduleStatus answer.status))

theorem SnolBytes.input_eq_ok {s : SnolBytes} {bytes : List UInt8} :
    s.input = .ok bytes ↔ s.length = s.bytes.length ∧ bytes = s.bytes := by
  cases s with
  | null length =>
    rw [input, check_eq_ok, not_not]
    simp [SnolBytes.length, SnolBytes.bytes, eq_comm]
  | borrowed given => simp [input, SnolBytes.length, SnolBytes.bytes, eq_comm]

structure SnolFlowMetadataV1.Accepted (record : SnolFlowMetadataV1) : Prop where
  structSize : ¬ record.structSize < size
  reserved : record.reserved = 0
  reserved2 : record.reserved2 = Vector.replicate 6 0
  kind : record.kind = flowTcp ∨ record.kind = flowUdp
  addressType : record.addressType = addressIpv4 ∨ record.addressType = addressIpv6 ∨
    record.addressType = addressDomain
  port : record.port ≠ 0
  metadata : record.metadata.length ≤ 1024
  addressBorrowed : record.address.length = record.address.bytes.length
  metadataBorrowed : record.metadata.length = record.metadata.bytes.length
  address : addressValid record.addressType record.address.bytes = true

def SnolFlowMetadataV1.borrow (record : SnolFlowMetadataV1) : BorrowedFlowMetadata :=
  ⟨record.kind, record.addressType, record.address.bytes, record.port, record.metadata.bytes⟩

theorem flowMetadata_eq_ok {record : SnolFlowMetadataV1} {metadata : BorrowedFlowMetadata} :
    flowMetadata (some record) = .ok metadata ↔ record.Accepted ∧ metadata = record.borrow := by
  rw [flowMetadata]
  dsimp only
  simp only [throw_bind, check_eq_ok, bind_eq_ok, SnolBytes.input_eq_ok, Bool.not_eq_false]
  constructor
  · rintro ⟨hcheck, address, ⟨haddress, rfl⟩, opaqueBytes, ⟨hgiven, rfl⟩, hvalid, h⟩
    cases h
    obtain ⟨hsize, hcheck⟩ := not_or.mp hcheck
    obtain ⟨hreserved, hcheck⟩ := not_or.mp hcheck
    obtain ⟨hreserved2, hcheck⟩ := not_or.mp hcheck
    obtain ⟨hkind, hcheck⟩ := not_or.mp hcheck
    obtain ⟨htype, hcheck⟩ := not_or.mp hcheck
    obtain ⟨hport, hmetadata⟩ := not_or.mp hcheck
    exact ⟨⟨hsize, not_not.mp hreserved, not_not.mp hreserved2, not_not.mp hkind, not_not.mp htype, hport,
      Nat.le_of_not_lt hmetadata, haddress, hgiven, hvalid⟩, rfl⟩
  · rintro ⟨h, rfl⟩
    refine ⟨?_, _, ⟨h.addressBorrowed, rfl⟩, _, ⟨h.metadataBorrowed, rfl⟩, h.address, rfl⟩
    rintro (hx | hx | hx | hx | hx | hx | hx)
    · exact h.structSize hx
    · exact hx h.reserved
    · exact hx h.reserved2
    · exact hx h.kind
    · exact hx h.addressType
    · exact h.port hx
    · exact Nat.not_lt.mpr h.metadata hx

theorem addressValid_domain {address : List UInt8} :
    addressValid addressDomain address = true ↔ address ≠ [] ∧ address.length ≤ 253 ∧
      address.all (· < 128) = true ∧ ∀ byte ∈ address, isAsciiUppercase byte = false := by
  have hne : addressDomain ≠ addressIpv4 ∧ addressDomain ≠ addressIpv6 := by decide
  rw [addressValid, if_neg hne.1, if_neg hne.2, if_pos rfl]
  simp [and_assoc]

theorem validateDomain_eq_ok {name : String} :
    validateDomain name = .ok () ↔ octets name ≠ [] ∧ (octets name).length ≤ 253 ∧
      (octets name).all (· < 128) = true ∧ ((octets name).splitOn 46).all validLabel = true := by
  rw [validateDomain, check_eq_ok]
  simp only [not_or, not_not, Nat.not_lt]
  constructor
  · rintro ⟨⟨hne, hlength, hascii⟩, h⟩
    split at h
    · next hlabels => exact ⟨hne, hlength, hascii, hlabels⟩
    · cases h
  · rintro ⟨hne, hlength, hascii, hlabels⟩
    exact ⟨⟨hne, hlength, hascii⟩, if_pos hlabels⟩

theorem fromUtf8_ascii {bytes : List UInt8} (h : bytes.all (· < 128) = true) :
    ∃ text, fromUtf8 bytes = .ok text := by
  refine ⟨String.ofList (bytes.map Char.ofUInt8), fromUtf8_eq_ok.mpr ?_⟩
  have hchar : ∀ byte ∈ bytes, String.utf8EncodeChar (Char.ofUInt8 byte) = [byte] := by
    intro byte hm
    have hlt : byte < 128 := by simpa using List.all_eq_true.mp h byte hm
    have hsize : (Char.ofUInt8 byte).utf8Size = 1 := by
      rw [Char.utf8Size_eq_one_iff, UInt32.le_iff_toNat_le]
      change byte.toUInt32.toNat ≤ 127
      rw [UInt8.toNat_toUInt32]
      rw [UInt8.lt_iff_toNat_lt] at hlt
      exact Nat.le_of_lt_succ hlt
    rw [String.utf8EncodeChar_eq_singleton hsize]
    exact congrArg (fun b => [b]) (UInt8.toUInt8_toUInt32 byte)
  rw [octets, String.toByteArray_ofList, List.utf8Encode, List.flatMap_map, List.flatMap_congr hchar]
  simp

theorem destinationOf_total {metadata : BorrowedFlowMetadata}
    (h : addressValid metadata.addressType metadata.address = true) :
    ∃ destination, destinationOf metadata = .ok destination ∧
      (metadata.addressType ≠ addressDomain → ∀ name, destination ≠ .domain name) ∧
      (metadata.addressType = addressDomain →
        ∃ name, destination = .domain name ∧ octets name = metadata.address) := by
  rw [destinationOf]
  split
  · next h4 =>
    rw [addressValid, if_pos h4, beq_iff_eq] at h
    rw [dif_pos h]
    exact ⟨_, rfl, (fun _ _ hx => nomatch hx), fun hd => absurd (h4.symm.trans hd) (by decide)⟩
  · next h4 =>
    split
    · next h6 =>
      rw [addressValid, if_neg h4, if_pos h6, beq_iff_eq] at h
      rw [dif_pos h]
      exact ⟨_, rfl, (fun _ _ hx => nomatch hx), fun hd => absurd (h6.symm.trans hd) (by decide)⟩
    · next h6 =>
      by_cases hd : metadata.addressType = addressDomain
      · rw [if_pos hd]
        rw [hd, addressValid_domain] at h
        obtain ⟨name, hname⟩ := fromUtf8_ascii h.2.2.1
        rw [hname]
        exact ⟨_, rfl, fun hx => absurd hd hx, fun _ => ⟨name, rfl, fromUtf8_eq_ok.mp hname⟩⟩
      · rw [addressValid, if_neg h4, if_neg h6, if_neg hd] at h
        cases h

theorem requestOf_total {record : SnolFlowMetadataV1} (h : record.Accepted) :
    ∃ request, requestOf record.borrow = .ok request ∧
      destinationOf record.borrow = .ok request.destination ∧
      (request.kind = .tcp ∨ request.kind = .udp) ∧ request.port = record.port ∧
      request.metadata = record.metadata.bytes := by
  have haddress : addressValid record.borrow.addressType record.borrow.address = true := h.address
  obtain ⟨destination, hd, -⟩ := destinationOf_total haddress
  rw [requestOf, hd]
  rcases h.kind with hk | hk
  · exact ⟨⟨.tcp, destination, record.port, record.metadata.bytes⟩, if_pos hk, rfl, .inl rfl, rfl, rfl⟩
  · have hne : record.borrow.kind ≠ flowTcp := by
      change record.kind ≠ flowTcp
      rw [hk]
      decide
    exact ⟨⟨.udp, destination, record.port, record.metadata.bytes⟩, (if_neg hne).trans (if_pos hk), rfl, .inr rfl,
      rfl, rfl⟩

def SnolFlowMetadataV1.LabelsValid (record : SnolFlowMetadataV1) : Prop :=
  record.addressType = addressDomain → (record.address.bytes.splitOn 46).all validLabel = true

instance (record : SnolFlowMetadataV1) : Decidable record.LabelsValid :=
  inferInstanceAs (Decidable (_ → _))

/-- A request has a frame, and the future that opens its flow gets to its first byte. -/
def Sendable (request : OpenRequest) : Prop :=
  (∃ frame, encodeOpen request = .ok frame) ∧ ∀ e, openFlowTask request ≠ .done (.error (.wire e))

theorem sendable_iff_valid (request : OpenRequest) : Sendable request ↔ request.Valid := by
  constructor
  · rintro ⟨⟨frame, hframe⟩, -⟩
    exact encodeOpen_valid hframe
  · intro h
    obtain ⟨frame, hframe⟩ := encodeOpen_total h
    refine ⟨⟨frame, hframe⟩, fun e hx => ?_⟩
    rw [openFlowTask, writeOpen, hframe] at hx
    cases hx

theorem sendable_iff_labels {record : SnolFlowMetadataV1} {request : OpenRequest} (h : record.Accepted)
    (hr : requestOf record.borrow = .ok request) : Sendable request ↔ record.LabelsValid := by
  obtain ⟨request', hr', hdest, hkind, hport, hmetadata⟩ := requestOf_total h
  cases hr.symm.trans hr'
  have haddress : addressValid record.borrow.addressType record.borrow.address = true := h.address
  obtain ⟨destination, hd, hother, hdomain⟩ := destinationOf_total haddress
  cases hd.symm.trans hdest
  rw [sendable_iff_valid]
  constructor
  · intro hv ht
    obtain ⟨name, hname, hoctets⟩ := hdomain ht
    have hlabels := (validateDomain_eq_ok.mp (hv.destination name hname)).2.2.2
    rw [hoctets] at hlabels
    exact hlabels
  · intro hl
    refine ⟨hkind, fun name hname => ?_, by rw [hport]; exact h.port, ?_⟩
    · have ht : record.addressType = addressDomain := by
        by_contra hne
        exact hother hne name hname
      obtain ⟨name', hname', hoctets⟩ := hdomain ht
      cases hname.symm.trans hname'
      have hvalid := h.address
      rw [ht, addressValid_domain] at hvalid
      rw [validateDomain_eq_ok, hoctets]
      exact ⟨hvalid.1, hvalid.2.1, hvalid.2.2.1, hl ht⟩
    · rw [hmetadata, ← h.metadataBorrowed]
      exact h.metadata

theorem adapterAccept_record {module : LoadedAdapter} {flow : UInt64} {request : OpenRequest}
    (h : adapterAccept module = .ready (.ok (flow, request))) :
    ∃ record metadata, flowMetadata (some record) = .ok metadata ∧ requestOf metadata = .ok request := by
  unfold adapterAccept at h
  split at h
  · cases h
  · split at h
    · cases h
    · cases h
    · next handle _ _ accept _ =>
      dsimp only at h
      split at h
      · cases h
      split at h
      · split at h
        · cases h
        cases hm : flowMetadata (some (accept handle).metadata) with
        | error e =>
          rw [hm] at h
          cases h
        | ok metadata =>
          rw [hm] at h
          dsimp only at h
          cases hq : requestOf metadata with
          | error e =>
            rw [hq] at h
            cases h
          | ok request' =>
            rw [hq] at h
            cases h
            exact ⟨_, metadata, hm, hq⟩
      · cases h

/-- Every accepted record is a request, which can be sent exactly if the labels of a domain are
valid; and the requests of `adapter_accept` are of this kind. -/
theorem submission_sendable_iff (record : SnolFlowMetadataV1) (metadata : BorrowedFlowMetadata)
    (h : flowMetadata (some record) = .ok metadata) (module : LoadedAdapter) :
    (∃ request, requestOf metadata = .ok request ∧ (Sendable request ↔ record.LabelsValid)) ∧
    ∀ flow request, adapterAccept module = .ready (.ok (flow, request)) →
      ∃ record metadata, flowMetadata (some record) = .ok metadata ∧ requestOf metadata = .ok request := by
  refine ⟨?_, fun flow request hr => adapterAccept_record hr⟩
  obtain ⟨haccepted, rfl⟩ := flowMetadata_eq_ok.mp h
  obtain ⟨request, hr, -⟩ := requestOf_total haccepted
  exact ⟨request, hr, sendable_iff_labels haccepted hr⟩

def domainRecord (name : List UInt8) : SnolFlowMetadataV1 where
  structSize := 56
  kind := flowTcp
  addressType := addressDomain
  reserved := 0
  address := .borrowed name
  port := 443
  reserved2 := Vector.replicate 6 0
  metadata := .null 0

theorem labels_sendable : ∃ request,
    requestOf (domainRecord [97, 46, 98]).borrow = .ok request ∧ Sendable request := by
  obtain ⟨⟨request, hr, hiff⟩, -⟩ :=
    submission_sendable_iff (domainRecord [97, 46, 98]) (domainRecord [97, 46, 98]).borrow (by decide) ⟨none, none⟩
  exact ⟨request, hr, hiff.mpr (by decide)⟩

/-- The domain is `a_b`: the record is accepted, its request has no frame. -/
theorem underscore_not_sendable : ∃ record metadata request,
    record = domainRecord [97, 95, 98] ∧ flowMetadata (some record) = .ok metadata ∧
      requestOf metadata = .ok request ∧ ¬ Sendable request := by
  have hcheck : flowMetadata (some (domainRecord [97, 95, 98])) = .ok (domainRecord [97, 95, 98]).borrow := by
    decide
  obtain ⟨haccepted, -⟩ := flowMetadata_eq_ok.mp hcheck
  obtain ⟨request, hr, -⟩ := requestOf_total haccepted
  refine ⟨_, _, request, rfl, hcheck, hr, fun hs => ?_⟩
  have hlabels := (sendable_iff_labels haccepted hr).mp hs
  revert hlabels
  decide

/-- The module sees the kind, the address, the port and the metadata of the request. -/
structure BorrowedFlowMetadata.Describes (metadata : BorrowedFlowMetadata) (request : OpenRequest) : Prop where
  kind : (request.kind = .tcp ∧ metadata.kind = flowTcp) ∨ (request.kind = .udp ∧ metadata.kind = flowUdp)
  address : match request.destination with
    | .ipv4 address => metadata.addressType = addressIpv4 ∧ metadata.address = address.toList
    | .ipv6 address => metadata.addressType = addressIpv6 ∧ metadata.address = address.toList
    | .domain name => metadata.addressType = addressDomain ∧ metadata.address = octets name
  port : metadata.port = request.port
  metadata : metadata.metadata = request.metadata

def LowerCase (request : OpenRequest) : Prop :=
  ∀ name, request.destination = .domain name → ∀ byte ∈ octets name, isAsciiUppercase byte = false

theorem fromRequest_describes {request : OpenRequest} (h : request.Valid) :
    (OwnedFlowMetadata.fromRequest request).abi.borrow.Describes request := by
  refine ⟨?_, ?_, rfl, rfl⟩
  · rcases h.kind with hk | hk
    · exact .inl ⟨hk, by simp [OwnedFlowMetadata.fromRequest, OwnedFlowMetadata.abi, SnolFlowMetadataV1.borrow, hk]⟩
    · exact .inr ⟨hk, by simp [OwnedFlowMetadata.fromRequest, OwnedFlowMetadata.abi, SnolFlowMetadataV1.borrow, hk]⟩
  · obtain ⟨kind, destination, port, metadata⟩ := request
    cases destination with
    | ipv4 address => exact ⟨rfl, rfl⟩
    | ipv6 address => exact ⟨rfl, rfl⟩
    | domain name => exact ⟨rfl, rfl⟩

theorem fromRequest_addressValid {request : OpenRequest} (h : request.Valid) :
    addressValid (OwnedFlowMetadata.fromRequest request).addressType
      (OwnedFlowMetadata.fromRequest request).address = true ↔ LowerCase request := by
  obtain ⟨kind, destination, port, metadata⟩ := request
  cases destination with
  | ipv4 address =>
    have htrue : addressValid addressIpv4 address.toList = true := by
      rw [addressValid, if_pos rfl, Vector.length_toList]
      rfl
    exact ⟨fun _ name hname => (nomatch hname), fun _ => htrue⟩
  | ipv6 address =>
    have htrue : addressValid addressIpv6 address.toList = true := by
      rw [addressValid, if_neg (by decide), if_pos rfl, Vector.length_toList]
      rfl
    exact ⟨fun _ name hname => (nomatch hname), fun _ => htrue⟩
  | domain name =>
    obtain ⟨hne, hlength, hascii, -⟩ := validateDomain_eq_ok.mp (h.destination name rfl)
    change addressValid addressDomain (octets name) = true ↔ _
    rw [addressValid_domain]
    constructor
    · rintro ⟨-, -, -, hlower⟩ name' hname
      cases hname
      exact hlower
    · intro hlower
      exact ⟨hne, hlength, hascii, hlower name rfl⟩

/-- A module accepts what the wire accepted exactly if a domain has no upper-case letter, and then
sees the request. -/
theorem received_accepted_iff (frame : List UInt8) (request : OpenRequest)
    (h : parseOpen frame = .ok request) :
    (∃ metadata, flowMetadata (some (OwnedFlowMetadata.fromRequest request).abi) = .ok metadata ∧
      metadata.Describes request) ↔ LowerCase request := by
  have hvalid := encodeOpen_valid (parseOpen_eq_ok.mp h)
  have hdescribes := fromRequest_describes hvalid
  rw [← fromRequest_addressValid hvalid]
  constructor
  · rintro ⟨metadata, hm, -⟩
    exact (flowMetadata_eq_ok.mp hm).1.address
  · intro haddress
    refine ⟨_, flowMetadata_eq_ok.mpr ⟨⟨?_, rfl, rfl, ?_, ?_, hvalid.port, hvalid.metadata, rfl, rfl, haddress⟩, rfl⟩,
      hdescribes⟩
    · exact UInt32.lt_irrefl _
    · rcases hdescribes.kind with ⟨-, hk⟩ | ⟨-, hk⟩
      · exact .inl hk
      · exact .inr hk
    · have htype := hdescribes.address
      split at htype
      · exact .inl htype.1
      · exact .inr (.inl htype.1)
      · exact .inr (.inr htype.1)

def letterFrame (letter : UInt8) : List UInt8 :=
  [83, 78, 79, 76, 0, 0, 0, 1, 2, 0, 0, 0, 0, 8, 3, 0, 1, letter, 0, 80, 0, 0]

theorem lower_letter_accepted : ∃ request metadata, parseOpen (letterFrame 97) = .ok request ∧
    flowMetadata (some (OwnedFlowMetadata.fromRequest request).abi) = .ok metadata ∧
      metadata.Describes request := by
  have hparse : parseOpen (letterFrame 97) = .ok ⟨.tcp, .domain "a", 80, []⟩ :=
    parseOpen_eq_ok.mpr (by decide)
  have hlower : LowerCase ⟨.tcp, .domain "a", 80, []⟩ := by
    intro name hname byte hm
    cases hname
    rw [show octets "a" = [97] by decide, List.mem_singleton] at hm
    rw [hm]
    decide
  obtain ⟨metadata, hm⟩ := (received_accepted_iff _ _ hparse).mpr hlower
  exact ⟨_, metadata, hparse, hm⟩

/-- The wire accepts the domain `A`, no module does. -/
theorem upper_letter_refused : ∃ request, parseOpen (letterFrame 65) = .ok request ∧
    flowMetadata (some (OwnedFlowMetadata.fromRequest request).abi) = .error .invalid := by
  have hparse : parseOpen (letterFrame 65) = .ok ⟨.tcp, .domain "A", 80, []⟩ :=
    parseOpen_eq_ok.mpr (by decide)
  exact ⟨_, hparse, by decide⟩

end Snolc.Engine
