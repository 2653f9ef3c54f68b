import Snolc.ControlSocket
import Snolc.WireCodec

set_option autoImplicit false

namespace Snolc.Control
open ByteOrder WireFormat CheckedSlice

structure LegalRequest (limit : ℕ) (name : String) (request : List UInt8) : Prop where
  named : 0 < (octets name).length
  short : (octets name).length ≤ maxInstanceBytes
  fits : request.length ≤ limit

theorem encodeRequest_length (name : String) (request : List UInt8) :
    (encodeRequest name request).length = requestHeaderBytes + (octets name).length + request.length := by
  simp only [encodeRequest, List.length_append, toBytes_length, requestHeaderBytes]

theorem requestLengths_header {instanceLength requestLength : ℕ} (hi : instanceLength < 2 ^ 32)
    (hr : requestLength < 2 ^ 32) (body : List UInt8) :
    requestLengths (toBytes 4 instanceLength ++ toBytes 4 requestLength ++ body) =
      some (instanceLength, requestLength) := by
  have hfirst : (toBytes 4 instanceLength ++ toBytes 4 requestLength ++ body).take 4 = toBytes 4 instanceLength := by
    rw [List.append_assoc, List.take_left' (toBytes_length _ _)]
  have hsecond : ((toBytes 4 instanceLength ++ toBytes 4 requestLength ++ body).drop 4).take 4 =
      toBytes 4 requestLength := by
    rw [List.append_assoc, List.drop_left' (toBytes_length _ _), List.take_left' (toBytes_length _ _)]
  have hlong : ¬ (toBytes 4 instanceLength ++ toBytes 4 requestLength ++ body).length < requestHeaderBytes := by
    simp only [List.length_append, toBytes_length, requestHeaderBytes]
    omega
  rw [requestLengths, if_neg hlong, hfirst, hsecond, ofBytes_toBytes_of_lt hi, ofBytes_toBytes_of_lt hr]

theorem total_checked {instanceLength requestLength : ℕ} (hi : instanceLength ≤ maxInstanceBytes)
    (hr : requestLength < 2 ^ 32) :
    ((checkedAdd requestHeaderBytes instanceLength).bind fun size => checkedAdd size requestLength) =
      some (requestHeaderBytes + instanceLength + requestLength) := by
  unfold maxInstanceBytes at hi
  rw [checkedAdd_of_le (by unfold requestHeaderBytes wordMax; omega), Option.bind_some,
    checkedAdd_of_le (by unfold requestHeaderBytes wordMax; omega)]

theorem parseRequest_header {limit : Limit} {instanceLength requestLength : ℕ} {input : List UInt8}
    (h : requestLengths input = some (instanceLength, requestLength)) (hi : 0 < instanceLength)
    (hs : instanceLength ≤ maxInstanceBytes) (hr : requestLength ≤ limit.bytes) :
    parseRequest limit.bytes input =
      if input.length < requestHeaderBytes + instanceLength + requestLength then .ok none
      else if input.length ≠ requestHeaderBytes + instanceLength + requestLength then .error .frame
      else requestBody input instanceLength := by
  have hsmall := limit.small
  have hlegal : ¬ (instanceLength = 0 ∨ maxInstanceBytes < instanceLength ∨ limit.bytes < requestLength) := by omega
  rw [parseRequest, h]
  dsimp only
  rw [if_neg hlegal, total_checked hs (by omega)]

variable {limit : Limit} {name : String} {request : List UInt8}

theorem lengths_encode (h : LegalRequest limit.bytes name request) :
    requestLengths (encodeRequest name request) = some ((octets name).length, request.length) := by
  have hshort := h.short
  have hfits := h.fits
  have hsmall := limit.small
  unfold maxInstanceBytes at hshort
  rw [encodeRequest, List.append_assoc _ (octets name)]
  exact requestLengths_header (by omega) (by omega) _

theorem parseRequest_encode (h : LegalRequest limit.bytes name request) :
    parseRequest limit.bytes (encodeRequest name request) = .ok (some (name, request)) := by
  have hname : ((encodeRequest name request).drop requestHeaderBytes).take (octets name).length = octets name := by
    rw [encodeRequest, List.append_assoc _ (octets name),
      List.drop_left' (by simp [requestHeaderBytes]), List.take_left]
  have hbody : (encodeRequest name request).drop (requestHeaderBytes + (octets name).length) = request := by
    rw [encodeRequest, List.drop_left' (by simp [requestHeaderBytes]; omega)]
  rw [parseRequest_header (lengths_encode h) h.named h.short h.fits, encodeRequest_length, if_neg (by omega),
    if_neg (by omega), requestBody, hname, fromUtf8_eq_ok.mpr rfl, hbody]

theorem parseRequest_part (h : LegalRequest limit.bytes name request) {input rest : List UInt8}
    (hpart : input ++ rest = encodeRequest name request) (hmore : rest ≠ []) :
    parseRequest limit.bytes input = .ok none := by
  have hlength := congrArg List.length hpart
  rw [encodeRequest_length, List.length_append] at hlength
  have hpos := List.length_pos_iff.mpr hmore
  by_cases hheader : input.length < requestHeaderBytes
  · rw [parseRequest, requestLengths, if_pos hheader]
  · have hlengths : requestLengths input = requestLengths (encodeRequest name request) := by
      unfold requestHeaderBytes at hheader
      rw [← hpart, requestLengths, requestLengths, if_neg (by unfold requestHeaderBytes; omega),
        if_neg (by unfold requestHeaderBytes; rw [List.length_append]; omega), List.take_append_of_le_length (by omega),
        List.drop_append_of_le_length (by omega), List.take_append_of_le_length (by rw [List.length_drop]; omega)]
    rw [lengths_encode h] at hlengths
    rw [parseRequest_header hlengths h.named h.short h.fits, if_pos (by omega)]

/-- The bytes that have been read are no part of a request: a name of no or of too many bytes,
    too many bytes of a request, bytes behind the request, or a name that is not text. -/
def Malformed (limit : ℕ) (input : List UInt8) : Prop :=
  ∃ instanceLength requestLength, requestLengths input = some (instanceLength, requestLength) ∧
    (instanceLength = 0 ∨ maxInstanceBytes < instanceLength ∨ limit < requestLength ∨
      requestHeaderBytes + instanceLength + requestLength < input.length ∨
      input.length = requestHeaderBytes + instanceLength + requestLength ∧
        ¬ ∃ name, octets name = (input.drop requestHeaderBytes).take instanceLength)

theorem parseRequest_malformed {input : List UInt8} (h : Malformed limit.bytes input) :
    parseRequest limit.bytes input = .error .frame := by
  obtain ⟨instanceLength, requestLength, hlengths, hbad⟩ := h
  by_cases hlegal : instanceLength = 0 ∨ maxInstanceBytes < instanceLength ∨ limit.bytes < requestLength
  · rw [parseRequest, hlengths]
    exact if_pos hlegal
  · rw [parseRequest_header hlengths (by omega) (by omega) (by omega)]
    rcases hbad with hbad | hbad | hbad | hmore | ⟨hexact, hname⟩
    · exact absurd (.inl hbad) hlegal
    · exact absurd (.inr (.inl hbad)) hlegal
    · exact absurd (.inr (.inr hbad)) hlegal
    · rw [if_neg (by omega), if_pos (by omega)]
    · rw [if_neg (by omega), if_neg (by omega), requestBody]
      cases htext : fromUtf8 ((input.drop requestHeaderBytes).take instanceLength) with
      | error error => rfl
      | ok name => exact absurd ⟨name, fromUtf8_eq_ok.mp htext⟩ hname

def readBytes : List ReadResult → List UInt8
  | [] => []
  | .wouldBlock :: _ => []
  | .failed :: _ => []
  | .read bytes :: reads => bytes ++ readBytes reads

def Arrives (reads : List ReadResult) : Prop := ∀ r ∈ reads, r = .wouldBlock ∨ ∃ bytes, bytes ≠ [] ∧ r = .read bytes

theorem readLoop_ok {maximum : ℕ} {input : List UInt8} {reads : List ReadResult}
    (h : Arrives reads) (hroom : (input ++ readBytes reads).length ≤ maximum) :
    readLoop maximum input reads = .ok (input ++ readBytes reads) := by
  induction reads generalizing input with
  | nil => rw [readLoop, readBytes, List.append_nil]
  | cons r reads ih =>
    rcases h r List.mem_cons_self with rfl | ⟨bytes, hbytes, rfl⟩
    · rw [readLoop, readBytes, List.append_nil]
    · have hrest : Arrives reads := fun r hr => h r (List.mem_cons_of_mem _ hr)
      rw [readBytes, ← List.append_assoc] at hroom ⊢
      have hfirst : ¬ maximum < saturatingSum input.length bytes.length := by
        rw [List.length_append, List.length_append] at hroom
        unfold saturatingSum
        omega
      rw [readLoop, if_neg hbytes, if_neg hfirst]
      exact ih hrest hroom

theorem readLoop_eq_ok {maximum : ℕ} {input output : List UInt8} {reads : List ReadResult}
    (h : readLoop maximum input reads = .ok output) : output = input ++ readBytes reads := by
  induction reads generalizing input with
  | nil =>
    rw [readLoop] at h
    rw [readBytes, List.append_nil]
    exact (Except.ok.inj h).symm
  | cons r reads ih =>
    cases r with
    | wouldBlock =>
      rw [readLoop] at h
      rw [readBytes, List.append_nil]
      exact (Except.ok.inj h).symm
    | failed =>
      rw [readLoop] at h
      cases h
    | read bytes =>
      rw [readLoop] at h
      split at h
      · cases h
      · split at h
        · cases h
        · rw [ih h, readBytes, List.append_assoc]

theorem maximum_checked (limit : Limit) :
    ((checkedAdd requestHeaderBytes maxInstanceBytes).bind fun size => checkedAdd size limit.bytes) =
      some (requestHeaderBytes + maxInstanceBytes + limit.bytes) :=
  total_checked (Nat.le_refl _) limit.small

theorem boundaryBelow_spec (text : String) (n : ℕ) :
    boundaryBelow text n ≤ n ∧ (⟨boundaryBelow text n⟩ : String.Pos.Raw).IsValid text ∧
      ∀ m ≤ n, (⟨m⟩ : String.Pos.Raw).IsValid text → m ≤ boundaryBelow text n := by
  induction n with
  | zero =>
    refine ⟨Nat.le_refl _, ?_, fun m hm _ => hm⟩
    exact String.Pos.Raw.isValid_iff_exists_append.mpr ⟨"", text, by simp, rfl⟩
  | succ n ih =>
    rw [boundaryBelow]
    split
    · rename_i hvalid
      exact ⟨Nat.le_refl _, String.Pos.Raw.isValid_eq_true_iff.mp hvalid, fun m hm _ => hm⟩
    · rename_i hinvalid
      obtain ⟨hle, hvalid, hmost⟩ := ih
      refine ⟨Nat.le_succ_of_le hle, hvalid, fun m hm hmvalid => hmost m ?_ hmvalid⟩
      have hne : m ≠ n + 1 := by
        rintro rfl
        exact hinvalid (String.Pos.Raw.isValid_eq_true_iff.mpr hmvalid)
      omega

/-- The longest beginning of a text with at most so many bytes. -/
structure LongestPrefix (text : String) (limit : ℕ) (start : String) : Prop where
  starts : ∃ rest, text = start ++ rest
  fits : (octets start).length ≤ limit
  longest : ∀ start' rest', text = start' ++ rest' → (octets start').length ≤ limit →
    (octets start').length ≤ (octets start).length

theorem octets_append (s t : String) : octets (s ++ t) = octets s ++ octets t := by
  simp [octets]

theorem rawEndPos_eq (text : String) : text.rawEndPos = ⟨(octets text).length⟩ := by
  rw [octets, Array.length_toList]
  rfl

theorem truncated_text (text : String) (limit : ℕ) :
    ∃ start, octets start = (octets text).take (boundaryBelow text (min (octets text).length limit)) ∧
      LongestPrefix text limit start := by
  obtain ⟨hle, hvalid, hmost⟩ := boundaryBelow_spec text (min (octets text).length limit)
  obtain ⟨start, rest, htext, hstop⟩ := String.Pos.Raw.isValid_iff_exists_append.mp hvalid
  rw [rawEndPos_eq, String.Pos.Raw.mk.injEq] at hstop
  refine ⟨start, ?_, ⟨⟨rest, htext⟩, by omega, fun start' rest' htext' hfits => ?_⟩⟩
  · rw [hstop, htext, octets_append, List.take_left]
  · rw [← hstop]
    have hlength := congrArg (fun t => (octets t).length) htext'
    rw [octets_append, List.length_append] at hlength
    refine hmost _ (by omega) ?_
    exact String.Pos.Raw.isValid_iff_exists_append.mpr ⟨start', rest', htext', (rawEndPos_eq start').symm⟩

/-- What the client is to get for an answer: the payload as far as the limit goes, or the error
    with as much of its text. -/
def Answer.Yields (limit : ℕ) (answer : Answer) (result : Except ControlError (List UInt8)) : Prop :=
  (∃ payload, answer.response = .ok payload ∧ result = .ok (payload.take limit)) ∨
    ∃ text start, answer.response = .error text ∧ result = .error (.remote start) ∧ LongestPrefix text limit start

theorem decode_yields (limit : ℕ) (answer : Answer) :
    answer.Yields limit (Client.decode (responsePayload limit answer.response).1
      (responsePayload limit answer.response).2) := by
  cases hresponse : answer.response with
  | ok payload => exact .inl ⟨payload, hresponse, rfl⟩
  | error text =>
    obtain ⟨start, hstart, hlongest⟩ := truncated_text text limit
    have hone : (1 : UInt8) ≠ 0 := by decide
    refine .inr ⟨text, start, hresponse, ?_, hlongest⟩
    rw [responsePayload, ← hstart, Client.decode, if_neg hone, if_pos rfl, fromUtf8_eq_ok.mpr rfl]

theorem payload_length (limit : ℕ) (response : Except String (List UInt8)) :
    (responsePayload limit response).2.length ≤ limit := by
  cases response with
  | ok payload =>
    rw [responsePayload, List.length_take]
    exact Nat.min_le_left _ _
  | error text =>
    have hle := (boundaryBelow_spec text (min (octets text).length limit)).1
    rw [responsePayload, List.length_take]
    omega

end Snolc.Control
