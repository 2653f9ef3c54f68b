import Snolc.ByteFeed
import Snolc.MuxSession
import Snolc.WireCodec

set_option autoImplicit false

namespace Snolc.Mux
open ByteOrder WireFormat PollIo AsyncTask ByteFeed ScriptedIo

theorem wireResult_eq_ok {α : Type} {result : Except WireError α} {a : α} :
    wireResult result = .ok a ↔ result = .ok a := by
  cases result <;> simp [wireResult]

theorem readPolicy_readsOnly : ReadsOnly readPolicy := by
  intro header
  dsimp only
  split
  · trivial
  · split
    · trivial
    · split
      · trivial
      · exact fun _ => trivial

theorem readOpen_readsOnly : ReadsOnly readOpen := by
  intro start
  dsimp only
  split
  · trivial
  · exact fun _ => trivial

theorem readOpenResponse_readsOnly : ReadsOnly readOpenResponse := by
  intro start
  dsimp only
  split
  · trivial
  · exact fun _ => trivial

theorem parsePolicy_shape {frame : List UInt8} {family : String} (h : parsePolicy frame = .ok family) :
    ∃ header body, frame = header ++ body ∧ header.length = headerLength + 2 ∧
      parseHeader (header.take headerLength) = .ok .policy ∧ ofBytes (header.drop headerLength) = body.length ∧
      1 ≤ body.length ∧ body.length ≤ maxPolicyFamily := by
  have hencode := parsePolicy_eq_ok.mp h
  simp only [encodePolicy, bind_eq_ok] at hencode
  obtain ⟨⟨⟩, hvalid, hframe⟩ := hencode
  cases hframe
  obtain ⟨hlow, hhigh⟩ := validateFamily_length hvalid
  have hsize : (octets family).length < 256 ^ 2 := Nat.lt_of_le_of_lt hhigh (by decide)
  refine ⟨_, octets family, rfl, by simp, ?_, ?_, hlow, hhigh⟩
  · rw [List.take_left' (encodeHeader_length _), parseHeader_eq_ok,
      List.take_of_length_le (Nat.le_of_eq (encodeHeader_length _))]
  · rw [List.drop_left' (encodeHeader_length _), ofBytes_toBytes_of_lt hsize]

theorem parseOpen_shape {frame : List UInt8} {request : OpenRequest} (h : parseOpen frame = .ok request) :
    ∃ start body, frame = start ++ body ∧ start.length = headerLength + 2 ∧
      ofBytes (start.drop headerLength) = body.length ∧ body.length ≤ maxOpenBody := by
  have hencode := parseOpen_eq_ok.mp h
  simp only [encodeOpen, throw_bind, check_eq_ok, bind_eq_ok, Nat.not_lt] at hencode
  obtain ⟨-, -, -, piece, -, hbody, hframe⟩ := hencode
  cases hframe
  refine ⟨_, _, rfl, by simp, ?_, hbody⟩
  rw [List.drop_left' (encodeHeader_length _), ofBytes_toBytes_of_lt (Nat.lt_of_le_of_lt hbody (by decide))]

theorem parseOpenResponse_shape {frame : List UInt8} {response : OpenResponse}
    (h : parseOpenResponse frame = .ok response) :
    ∃ start body, frame = start ++ body ∧ start.length = 3 ∧ ofBytes (start.drop 1) = body.length ∧
      body.length ≤ maxReason := by
  have hencode := parseOpenResponse_eq_ok.mp h
  simp only [encodeOpenResponse, check_eq_ok, Nat.not_lt] at hencode
  obtain ⟨hreason, hframe⟩ := hencode
  cases hframe
  refine ⟨response.status.code :: toBytes 2 _, octets response.reason, rfl, by simp, ?_, hreason⟩
  rw [List.drop_succ_cons, List.drop_zero, ofBytes_toBytes_of_lt (Nat.lt_of_le_of_lt hreason (by decide))]

theorem readPolicy_consume {bytes rest : List UInt8} {family : String} :
    consume readPolicy bytes = some (.ok family, rest) ↔
      ∃ frame, parsePolicy frame = .ok family ∧ bytes = frame ++ rest := by
  rw [readPolicy, consume_read]
  constructor
  · rintro ⟨header, tail, rfl, hheader, h⟩
    split at h
    · cases h
    · split at h
      · cases h
      · dsimp only at h
        split at h
        · cases h
        · obtain ⟨body, tail', rfl, -, h⟩ := consume_read.mp h
          simp only [consume, Option.some.injEq, Prod.mk.injEq, wireResult_eq_ok] at h
          obtain ⟨hparse, rfl⟩ := h
          exact ⟨header ++ body, hparse, (List.append_assoc _ _ _).symm⟩
  · rintro ⟨frame, hparse, rfl⟩
    obtain ⟨header, body, rfl, hlength, hheader, hbody, hlow, hhigh⟩ := parsePolicy_shape hparse
    refine ⟨header, body ++ rest, List.append_assoc _ _ _, hlength, ?_⟩
    rw [hheader]
    dsimp only
    rw [if_neg (by simp), hbody, if_neg (by omega), consume_read]
    exact ⟨body, rest, rfl, rfl, by rw [hparse]; rfl⟩

/-- A reader that takes a length from the start of the frame, checks it, and parses the whole. -/
theorem framed_consume {α : Type} {count most : ℕ} {lengthOf : List UInt8 → ℕ}
    {parse : List UInt8 → Except WireError α}
    (hshape : ∀ frame a, parse frame = .ok a → ∃ start body, frame = start ++ body ∧ start.length = count ∧
      lengthOf start = body.length ∧ body.length ≤ most) {bytes rest : List UInt8} {a : α} :
    consume (.read count fun start =>
        if most < lengthOf start then .done (.error (.wire .length))
        else .read (lengthOf start) fun body => .done (wireResult (parse (start ++ body)))) bytes =
          some (.ok a, rest) ↔
      ∃ frame, parse frame = .ok a ∧ bytes = frame ++ rest := by
  rw [consume_read]
  constructor
  · rintro ⟨start, tail, rfl, hstart, h⟩
    split at h
    · cases h
    · obtain ⟨body, tail', rfl, -, h⟩ := consume_read.mp h
      simp only [consume, Option.some.injEq, Prod.mk.injEq, wireResult_eq_ok] at h
      obtain ⟨hparse, rfl⟩ := h
      exact ⟨start ++ body, hparse, (List.append_assoc _ _ _).symm⟩
  · rintro ⟨frame, hparse, rfl⟩
    obtain ⟨start, body, rfl, hlength, hbody, hmost⟩ := hshape frame a hparse
    refine ⟨start, body ++ rest, List.append_assoc _ _ _, hlength, ?_⟩
    rw [hbody, if_neg (Nat.not_lt.mpr hmost), consume_read]
    exact ⟨body, rest, rfl, rfl, by rw [hparse]; rfl⟩

theorem readOpen_consume {bytes rest : List UInt8} {request : OpenRequest} :
    consume readOpen bytes = some (.ok request, rest) ↔
      ∃ frame, parseOpen frame = .ok request ∧ bytes = frame ++ rest :=
  framed_consume (fun _ _ => parseOpen_shape)

theorem readOpenResponse_consume {bytes rest : List UInt8} {response : OpenResponse} :
    consume readOpenResponse bytes = some (.ok response, rest) ↔
      ∃ frame, parseOpenResponse frame = .ok response ∧ bytes = frame ++ rest :=
  framed_consume (fun _ _ => parseOpenResponse_shape)

def Returns {α : Type} (task : Task MuxError α) (io : Script) (a : α) (rest : List UInt8) : Prop :=
  ∃ n, (pollUntilReady MuxError.io n task io).1 = .ready (.ok a) ∧
    (pollUntilReady MuxError.io n task io).2.incoming = rest

/-- However the stream is cut into reads, a reader succeeds exactly when a front of the
    stream parses, with the same value, and leaves exactly the bytes behind that front. -/
theorem readers_agree_with_parsers (io : Script) (rest : List UInt8) :
    (∀ request, Returns readOpen io request rest ↔
      ∃ frame, parseOpen frame = .ok request ∧ io.incoming = frame ++ rest) ∧
    (∀ family, Returns readPolicy io family rest ↔
      ∃ frame, parsePolicy frame = .ok family ∧ io.incoming = frame ++ rest) ∧
    (∀ response, Returns readOpenResponse io response rest ↔
      ∃ frame, parseOpenResponse frame = .ok response ∧ io.incoming = frame ++ rest) := by
  refine ⟨fun request => ?_, fun family => ?_, fun response => ?_⟩
  · exact (script_feeds.pollUntilReady MuxError.io io readOpen_readsOnly request rest).trans readOpen_consume
  · exact (script_feeds.pollUntilReady MuxError.io io readPolicy_readsOnly family rest).trans readPolicy_consume
  · exact (script_feeds.pollUntilReady MuxError.io io readOpenResponse_readsOnly response rest).trans
      readOpenResponse_consume

end Snolc.Mux
