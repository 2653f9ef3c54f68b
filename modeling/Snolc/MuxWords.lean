import Snolc.MuxReaders
import Snolc.WireBoundaries

set_option autoImplicit false

namespace Snolc.Mux
open WireFormat AsyncTask ByteFeed

inductive Word where
  | policy (name : String)
  | request (flow : OpenRequest)
  | response (answer : OpenResponse)
  deriving DecidableEq

def Word.encode : Word → Except WireError (List UInt8)
  | .policy name => encodePolicy name
  | .request flow => encodeOpen flow
  | .response answer => encodeOpenResponse answer

/-- What the reader of a stream expects. -/
inductive Ear where
  | policy
  | request
  | response
  deriving DecidableEq, Repr

namespace Ear

def Result : Ear → Type
  | .policy => String
  | .request => OpenRequest
  | .response => OpenResponse

def reader : (ear : Ear) → Task MuxError ear.Result
  | .policy => readPolicy
  | .request => readOpen
  | .response => readOpenResponse

def word : (ear : Ear) → ear.Result → Word
  | .policy, name => .policy name
  | .request, flow => .request flow
  | .response, answer => .response answer

end Ear

namespace Word

def By : Mode → Word → Prop
  | .client, .policy _ => True
  | .client, .request _ => True
  | .server, .policy _ => True
  | .server, .response _ => True
  | _, _ => False

def kind : Word → Option StreamKind
  | .policy _ => some .policy
  | .request flow => some flow.kind
  | .response _ => none

theorem encode_header {w : Word} {kind : StreamKind} (hk : w.kind = some kind) {bytes : List UInt8}
    (h : w.encode = .ok bytes) : encodeHeader kind <+: bytes := by
  cases w with
  | policy name =>
    cases hk
    simp only [encode, encodePolicy, bind_eq_ok] at h
    obtain ⟨⟨⟩, -, hbytes⟩ := h
    cases hbytes
    rw [List.append_assoc]
    exact List.prefix_append _ _
  | request flow =>
    cases hk
    simp only [encode, encodeOpen, throw_bind, check_eq_ok, bind_eq_ok] at h
    obtain ⟨-, -, -, piece, -, -, hbytes⟩ := h
    cases hbytes
    rw [List.append_assoc]
    exact List.prefix_append _ _
  | response answer => cases hk

theorem encode_kind {flow : OpenRequest} {bytes : List UInt8} (h : (Word.request flow).encode = .ok bytes) :
    flow.kind ≠ .policy := by
  simp only [encode, encodeOpen, throw_bind, check_eq_ok, bind_eq_ok] at h
  rintro hk
  rw [hk] at h
  exact h.1 ⟨by decide, by decide⟩

theorem encode_head {answer : OpenResponse} {bytes : List UInt8} (h : (Word.response answer).encode = .ok bytes) :
    ∃ rest, bytes = answer.status.code :: rest := by
  simp only [encode, encodeOpenResponse, check_eq_ok] at h
  obtain ⟨-, hbytes⟩ := h
  cases hbytes
  exact ⟨_, rfl⟩

theorem encode_length {w : Word} {bytes : List UInt8} (h : w.encode = .ok bytes) :
    bytes ≠ [] ∧ bytes.length < 2 ^ 32 := by
  cases w with
  | policy name =>
    obtain ⟨header, body, rfl, hheader, -, -, -, hbody⟩ := parsePolicy_shape (parsePolicy_eq_ok.mpr h)
    simp only [headerLength, maxPolicyFamily] at hheader hbody
    refine ⟨fun hnil => ?_, ?_⟩
    · rw [List.append_eq_nil_iff.mp hnil |>.1] at hheader
      cases hheader
    · rw [List.length_append]
      omega
  | request flow =>
    obtain ⟨start, body, rfl, hstart, -, hbody⟩ := parseOpen_shape (parseOpen_eq_ok.mpr h)
    simp only [headerLength, maxOpenBody] at hstart hbody
    refine ⟨fun hnil => ?_, ?_⟩
    · rw [List.append_eq_nil_iff.mp hnil |>.1] at hstart
      cases hstart
    · rw [List.length_append]
      omega
  | response answer =>
    obtain ⟨start, body, rfl, hstart, -, hbody⟩ := parseOpenResponse_shape (parseOpenResponse_eq_ok.mpr h)
    simp only [maxReason] at hbody
    refine ⟨fun hnil => ?_, ?_⟩
    · rw [List.append_eq_nil_iff.mp hnil |>.1] at hstart
      cases hstart
    · rw [List.length_append]
      omega

theorem kind_of_front {u w : Word} {kind kind' : StreamKind} (hu : u.kind = some kind) (hw : w.kind = some kind')
    {x y : List UInt8} (hx : u.encode = .ok x) (hy : w.encode = .ok y) (h : x <+: y) : kind = kind' := by
  have hlong := (encode_header hu hx).trans h
  have hlong' := encode_header hw hy
  have hsame : encodeHeader kind = encodeHeader kind' := by
    rw [List.prefix_iff_eq_take] at hlong hlong'
    rw [hlong, hlong', encodeHeader_length, encodeHeader_length]
  have hparse := parseHeader_append kind []
  rw [hsame, parseHeader_append] at hparse
  exact (Except.ok.inj hparse).symm

theorem head_of_front {w : Word} {kind : StreamKind} (hw : w.kind = some kind) {answer : OpenResponse}
    {x y : List UInt8} (hx : w.encode = .ok x) (hy : (response answer).encode = .ok y) :
    ¬ x <+: y ∧ ¬ y <+: x := by
  obtain ⟨rest, rfl⟩ := encode_head hy
  obtain ⟨tail, rfl⟩ := encode_header hw hx
  have hcode : answer.status.code ≠ 0x53 := by cases answer.status <;> decide
  have hhead : encodeHeader kind = 0x53 :: (encodeHeader kind).tail := rfl
  rw [hhead, List.cons_append]
  exact ⟨fun h => hcode (List.cons_prefix_cons.mp h).1.symm, fun h => hcode (List.cons_prefix_cons.mp h).1⟩

/-- The frame of one word of a side is the front of no other of its words. -/
theorem By.unique {mode : Mode} {u w : Word} (hu : u.By mode) (hw : w.By mode) {x y : List UInt8}
    (hx : u.encode = .ok x) (hy : w.encode = .ok y) (h : x <+: y) : u = w := by
  -- a parser that reads one of the frames finds no end of the other
  have hsame {α : Type} {parse : List UInt8 → Except WireError α} {a b : α} (ha : parse x = .ok a)
      (hb : parse y = .ok b) (hd : Delimits parse y) : a = b := by
    by_cases he : x = y
    · rw [he, hb] at ha
      exact (Except.ok.inj ha).symm
    · rw [hd.cut x h he] at ha
      cases ha
  cases u with
  | policy name =>
    cases w with
    | policy other =>
      exact congrArg policy (hsame (parsePolicy_eq_ok.mpr hx) (parsePolicy_eq_ok.mpr hy) (parsePolicy_delimits hy))
    | request flow => exact absurd (kind_of_front rfl rfl hx hy h).symm (encode_kind hy)
    | response answer => exact absurd h (head_of_front rfl hx hy).1
  | request flow =>
    cases w with
    | policy name => exact absurd (kind_of_front rfl rfl hx hy h) (encode_kind hx)
    | request other =>
      exact congrArg request (hsame (parseOpen_eq_ok.mpr hx) (parseOpen_eq_ok.mpr hy) (parseOpen_delimits hy))
    | response answer => exact absurd h (head_of_front rfl hx hy).1
  | response answer =>
    cases w with
    | policy name => exact absurd h (head_of_front rfl hy hx).2
    | request flow => exact absurd h (head_of_front rfl hy hx).2
    | response other =>
      exact congrArg response
        (hsame (parseOpenResponse_eq_ok.mpr hx) (parseOpenResponse_eq_ok.mpr hy) (parseOpenResponse_delimits hy))

end Word

namespace Ear

theorem reader_readsOnly (ear : Ear) : ReadsOnly ear.reader := by
  cases ear with
  | policy => exact readPolicy_readsOnly
  | request => exact readOpen_readsOnly
  | response => exact readOpenResponse_readsOnly

theorem reader_consume (ear : Ear) {bytes rest : List UInt8} {a : ear.Result}
    (h : consume ear.reader bytes = some (.ok a, rest)) :
    ∃ frame, (ear.word a).encode = .ok frame ∧ bytes = frame ++ rest := by
  cases ear with
  | policy =>
    obtain ⟨frame, hparse, hbytes⟩ := readPolicy_consume.mp h
    exact ⟨frame, parsePolicy_eq_ok.mp hparse, hbytes⟩
  | request =>
    obtain ⟨frame, hparse, hbytes⟩ := readOpen_consume.mp h
    exact ⟨frame, parseOpen_eq_ok.mp hparse, hbytes⟩
  | response =>
    obtain ⟨frame, hparse, hbytes⟩ := readOpenResponse_consume.mp h
    exact ⟨frame, parseOpenResponse_eq_ok.mp hparse, hbytes⟩

end Ear
end Snolc.Mux
