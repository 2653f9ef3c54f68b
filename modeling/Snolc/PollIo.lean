import Mathlib.Algebra.GroupWithZero.Nat
import Mathlib.Data.List.Basic
import Mathlib.Data.Nat.Notation
import Mathlib.Tactic.Common

set_option autoImplicit false

/-!
# Poll-based byte streams

A poll either produces a value or reports that it has to be called again. An
`AsyncIo` object is a byte stream in that convention; its answers are state
passed explicitly, so an arbitrary object stands for an arbitrary pattern of
partial transfers, pending answers and failures. `TracedIo` adds the history of
the bytes that crossed the object, the part of the `AsyncRead` and `AsyncWrite`
contracts that callers rely on: an accepted count lies within the buffer that
was offered, and the accepted bytes are the front of that buffer.
-/
namespace Snolc.PollIo

inductive Poll (α : Type) where
  | ready (value : α)
  | pending
  deriving DecidableEq, Repr

inductive ErrorKind where
  | brokenPipe
  | notConnected
  | writeZero
  | unexpectedEof
  | invalidData
  | invalidInput
  | other
  deriving DecidableEq, Repr

structure IoError where
  kind : ErrorKind
  message : String := ""
  deriving DecidableEq, Repr

abbrev IoPoll (α : Type) := Poll (Except IoError α)

namespace Poll

def map {α β : Type} (f : α → β) : Poll α → Poll β
  | ready a => ready (f a)
  | pending => pending

end Poll

def readBytes : IoPoll (List UInt8) → List UInt8
  | .ready (.ok bytes) => bytes
  | _ => []

def writeCount : IoPoll ℕ → ℕ
  | .ready (.ok count) => count
  | _ => 0

@[simp] theorem readBytes_ok (bytes : List UInt8) : readBytes (.ready (.ok bytes)) = bytes := rfl
@[simp] theorem readBytes_error (e : IoError) : readBytes (.ready (.error e)) = [] := rfl
@[simp] theorem readBytes_pending : readBytes .pending = [] := rfl
@[simp] theorem writeCount_ok (count : ℕ) : writeCount (.ready (.ok count)) = count := rfl
@[simp] theorem writeCount_error (e : IoError) : writeCount (.ready (.error e)) = 0 := rfl
@[simp] theorem writeCount_pending : writeCount .pending = 0 := rfl

theorem writeCount_unanswered {result : IoPoll ℕ} (h : ∀ n, result ≠ .ready (.ok n)) : writeCount result = 0 := by
  rcases result with (e | n) | _
  · rfl
  · exact absurd rfl (h n)
  · rfl

class AsyncIo (T : Type) where
  pollRead : T → ℕ → IoPoll (List UInt8) × T
  pollWrite : T → List UInt8 → IoPoll ℕ × T
  pollFlush : T → IoPoll Unit × T

/-- A byte stream with the history of the bytes it handed out and accepted. -/
class TracedIo (T : Type) extends AsyncIo T where
  received : T → List UInt8
  written : T → List UInt8
  read_bound : ∀ t n, (readBytes (pollRead t n).1).length ≤ n
  read_received : ∀ t n, received (pollRead t n).2 = received t ++ readBytes (pollRead t n).1
  read_written : ∀ t n, written (pollRead t n).2 = written t
  write_bound : ∀ t bytes, writeCount (pollWrite t bytes).1 ≤ bytes.length
  write_written : ∀ t bytes,
    written (pollWrite t bytes).2 = written t ++ bytes.take (writeCount (pollWrite t bytes).1)
  write_received : ∀ t bytes, received (pollWrite t bytes).2 = received t
  flush_written : ∀ t, written (pollFlush t).2 = written t
  flush_received : ∀ t, received (pollFlush t).2 = received t

structure Steady (T : Type) [AsyncIo T] : Prop where
  write : ∀ (io : T) (bytes : List UInt8), bytes ≠ [] →
    (AsyncIo.pollWrite io bytes).1 = .pending ∨ ∃ n, (AsyncIo.pollWrite io bytes).1 = .ready (.ok (n + 1))
  flush : ∀ (io : T) (e : IoError), (AsyncIo.pollFlush io).1 ≠ .ready (.error e)

section Loops
variable {T : Type} [AsyncIo T]

/-- Offer `bytes` until all are accepted or a poll does not accept any. The
    last component counts the accepted bytes. Every accepting poll shortens
    the rest, so `bytes.length + 1` polls are always enough. -/
def drain : ℕ → T → List UInt8 → IoPoll Unit × T × ℕ
  | 0, io, _ => (.pending, io, 0)
  | fuel + 1, io, bytes =>
    match AsyncIo.pollWrite io bytes with
    | (.ready (.ok 0), io) => (.ready (.error ⟨.writeZero, ""⟩), io, 0)
    | (.ready (.ok count), io) =>
      if bytes.length ≤ count then (.ready (.ok ()), io, count)
      else
        let rest := drain fuel io (bytes.drop count)
        (rest.1, rest.2.1, count + rest.2.2)
    | (.ready (.error e), io) => (.ready (.error e), io, 0)
    | (.pending, io) => (.pending, io, 0)

inductive Fill where
  | full
  | ended
  | failed (error : IoError)
  | pending
  deriving DecidableEq, Repr

/-- Read until `want` bytes arrived, the stream ended, failed or has to be
    polled again; the last component holds the bytes that did arrive. -/
def fill : ℕ → T → ℕ → Fill × T × List UInt8
  | _, io, 0 => (.full, io, [])
  | 0, io, _ + 1 => (.pending, io, [])
  | fuel + 1, io, want + 1 =>
    match AsyncIo.pollRead io (want + 1) with
    | (.ready (.ok []), io) => (.ended, io, [])
    | (.ready (.ok bytes), io) =>
      let rest := fill fuel io (want + 1 - bytes.length)
      (rest.1, rest.2.1, bytes ++ rest.2.2)
    | (.ready (.error e), io) => (.failed e, io, [])
    | (.pending, io) => (.pending, io, [])

theorem drain_invariant (P : T → Prop) (n : ℕ)
    (hw : ∀ io bytes, bytes ≠ [] → bytes.length ≤ n → P io → P (AsyncIo.pollWrite io bytes).2)
    (fuel : ℕ) (io : T) (bytes : List UInt8) (hne : bytes ≠ []) (hn : bytes.length ≤ n) (h : P io) :
    P (drain fuel io bytes).2.1 := by
  induction fuel generalizing io bytes with
  | zero => exact h
  | succ fuel ih =>
    have hp := hw io bytes hne hn h
    rw [drain]
    split
    · rename_i heq; rw [heq] at hp; exact hp
    · rename_i count _ _ heq
      rw [heq] at hp
      split
      · exact hp
      · rename_i hlt
        exact ih _ _ (by simpa using hlt) (by rw [List.length_drop]; omega) hp
    · rename_i heq; rw [heq] at hp; exact hp
    · rename_i heq; rw [heq] at hp; exact hp

theorem drain_invariant_first (P : T → Prop) (n : ℕ)
    (hw : ∀ io bytes, bytes ≠ [] → bytes.length ≤ n → P io → P (AsyncIo.pollWrite io bytes).2)
    (fuel : ℕ) (io : T) (bytes : List UInt8) (hn : bytes.length ≤ n)
    (h : P (AsyncIo.pollWrite io bytes).2) : P (drain (fuel + 1) io bytes).2.1 := by
  rw [drain]
  split <;> rename_i heq <;> rw [heq] at h
  · exact h
  · split
    · exact h
    · rename_i hlt
      exact drain_invariant P n hw fuel _ _ (by simpa using hlt) (by rw [List.length_drop]; omega) h
  · exact h
  · exact h

/-- What a write poll keeps of the stream and of the bytes it leaves, `drain` keeps. -/
theorem drain_moves (R : T → List UInt8 → Prop)
    (hw : ∀ io bytes, bytes ≠ [] → R io bytes →
      R (AsyncIo.pollWrite io bytes).2 (bytes.drop (writeCount (AsyncIo.pollWrite io bytes).1)))
    (fuel : ℕ) (io : T) (bytes : List UInt8) (hne : bytes ≠ []) (h : R io bytes) :
    R (drain fuel io bytes).2.1 (bytes.drop (drain fuel io bytes).2.2) := by
  induction fuel generalizing io bytes with
  | zero => simpa [drain] using h
  | succ fuel ih =>
    have hwrite := hw io bytes hne h
    rw [drain]
    split <;> rename_i heq <;> rw [heq] at hwrite
    · exact hwrite
    · rename_i count next hcount
      split
      · exact hwrite
      · rename_i hlt
        have hrest := ih next (bytes.drop count) (by simpa using hlt) hwrite
        rw [List.drop_drop] at hrest
        exact hrest
    · exact hwrite
    · exact hwrite

theorem drain_ok (fuel : ℕ) (io : T) (bytes : List UInt8) (h : (drain fuel io bytes).1 = .ready (.ok ())) :
    bytes.length ≤ (drain fuel io bytes).2.2 := by
  induction fuel generalizing io bytes with
  | zero => simp [drain] at h
  | succ fuel ih =>
    rw [drain] at h ⊢
    split at h
    · cases h
    · rename_i count next hcount heq
      split at h
      · rename_i hle
        rw [if_pos hle]
        exact hle
      · rename_i hlt
        rw [if_neg hlt]
        have hrest := ih next (bytes.drop count) h
        rw [List.length_drop] at hrest
        dsimp only
        omega
    · cases h
    · cases h

theorem drain_steady (hs : Steady T) (fuel : ℕ) (io : T) (bytes : List UInt8) (hne : bytes ≠ [])
    (e : IoError) : (drain fuel io bytes).1 ≠ .ready (.error e) := by
  induction fuel generalizing io bytes with
  | zero => simp [drain]
  | succ fuel ih =>
    have hw := hs.write io bytes hne
    rw [drain]
    split <;> rename_i heq <;> rw [heq] at hw
    · simp at hw
    · split
      · simp
      · rename_i hlt
        exact ih _ _ (by simpa using hlt)
    · simp at hw
    · simp

theorem fill_invariant (P : T → Prop) (hr : ∀ io n, P io → P (AsyncIo.pollRead io n).2)
    (fuel : ℕ) (io : T) (want : ℕ) (h : P io) : P (fill fuel io want).2.1 := by
  induction fuel generalizing io want with
  | zero => cases want <;> exact h
  | succ fuel ih =>
    cases want with
    | zero => exact h
    | succ want =>
      have hp := hr io (want + 1) h
      rw [fill]
      split
      · rename_i heq; rw [heq] at hp; exact hp
      · rename_i heq; rw [heq] at hp; exact ih _ _ hp
      · rename_i heq; rw [heq] at hp; exact hp
      · rename_i heq; rw [heq] at hp; exact hp

structure Stocked (Stock : T → List UInt8 → Prop) (ended : Bool) : Prop where
  more : ∀ io bytes room, Stock io bytes → bytes ≠ [] → room ≠ 0 →
    ∃ k, 0 < k ∧ k ≤ room ∧ (AsyncIo.pollRead io room).1 = .ready (.ok (bytes.take k)) ∧
      Stock (AsyncIo.pollRead io room).2 (bytes.drop k)
  last : ended = true → ∀ io room, Stock io [] → room ≠ 0 →
    (AsyncIo.pollRead io room).1 = .ready (.ok []) ∧ Stock (AsyncIo.pollRead io room).2 []

theorem Stocked.fill {Stock : T → List UInt8 → Prop} {ended : Bool} (h : Stocked Stock ended)
    (fuel : ℕ) (io : T) (want : ℕ) {bytes : List UInt8} (hs : Stock io bytes) (hf : want < fuel) :
    (want ≤ bytes.length → (PollIo.fill fuel io want).1 = .full ∧
      (PollIo.fill fuel io want).2.2 = bytes.take want ∧
      Stock (PollIo.fill fuel io want).2.1 (bytes.drop want)) ∧
    (bytes.length < want → ended = true → (PollIo.fill fuel io want).1 = .ended) := by
  induction fuel generalizing io want bytes with
  | zero => omega
  | succ fuel ih =>
    cases want with
    | zero => exact ⟨fun _ => ⟨rfl, rfl, hs⟩, fun hlt => absurd hlt (Nat.not_lt_zero _)⟩
    | succ want =>
      rw [PollIo.fill]
      by_cases hne : bytes = []
      · subst hne
        refine ⟨fun hle => absurd hle (by simp), fun _ hended => ?_⟩
        obtain ⟨hres, -⟩ := h.last hended io (want + 1) hs (by omega)
        have heq : AsyncIo.pollRead io (want + 1) = (.ready (.ok []), (AsyncIo.pollRead io (want + 1)).2) :=
          Prod.ext hres rfl
        rw [heq]
      · obtain ⟨k, hk, hroom, hres, hnext⟩ := h.more io bytes (want + 1) hs hne (by omega)
        have htake : bytes.take k ≠ [] := by
          rw [Ne, List.take_eq_nil_iff]
          exact fun hx => hx.elim (by omega) hne
        split <;> rename_i heq <;> rw [heq] at hres hnext
        · simp only [Poll.ready.injEq, Except.ok.injEq] at hres
          exact absurd hres.symm htake
        · rename_i got next _
          simp only [Poll.ready.injEq, Except.ok.injEq] at hres
          subst hres
          have hpos : 0 < (bytes.take k).length := List.length_pos_iff.mpr htake
          have hlen : (bytes.take k).length = min k bytes.length := List.length_take
          have hdrop : (bytes.drop k).length = bytes.length - k := List.length_drop
          obtain ⟨hfull, hshort⟩ := ih next (want + 1 - (bytes.take k).length) hnext (by omega)
          refine ⟨fun hle => ?_, fun hlt => hshort (by omega)⟩
          obtain ⟨h₁, h₂, h₃⟩ := hfull (by omega)
          have hsum : k + (want + 1 - (bytes.take k).length) = want + 1 := by omega
          refine ⟨h₁, ?_, ?_⟩
          · dsimp only
            rw [h₂, ← List.take_add, hsum]
          · rw [List.drop_drop, hsum] at h₃
            exact h₃
        · simp at hres
        · simp at hres

end Loops

section Traced
variable {T : Type} [TracedIo T]
open AsyncIo TracedIo

/-- What a drain leaves behind: an accepted front of the buffer, all of it
    exactly when the drain succeeds. -/
theorem drain_spec (fuel : ℕ) (io : T) (bytes : List UInt8) (hf : bytes.length < fuel)
    (hne : bytes ≠ []) :
    (drain fuel io bytes).2.2 ≤ bytes.length ∧
    written (drain fuel io bytes).2.1 = written io ++ bytes.take (drain fuel io bytes).2.2 ∧
    received (drain fuel io bytes).2.1 = received io ∧
    ((drain fuel io bytes).1 = .ready (.ok ()) ↔ (drain fuel io bytes).2.2 = bytes.length) := by
  have hpos : 0 < bytes.length := List.length_pos_iff.mpr hne
  induction fuel generalizing io bytes with
  | zero => omega
  | succ fuel ih =>
    have hb := write_bound io bytes
    have hw := write_written io bytes
    have hr := write_received io bytes
    rw [drain]
    split <;> rename_i heq <;> simp only [heq] at hb hw hr
    · simpa [hw, hr] using Nat.ne_of_lt hpos
    · rename_i count next hc
      simp only [writeCount_ok] at hb hw
      split
      · have hcl : count = bytes.length := by omega
        simp [hw, hr, hcl]
      · rename_i hlt
        have hd : (bytes.drop count).length = bytes.length - count := List.length_drop
        have hc0 : count ≠ 0 := fun h => hc h
        obtain ⟨h1, h2, h3, h4⟩ := ih next (bytes.drop count) (by omega)
          (by simpa using hlt) (by omega)
        refine ⟨by dsimp only; omega, ?_, by rw [h3, hr], ?_⟩
        · dsimp only
          rw [h2, hw, List.append_assoc, List.take_add]
        · dsimp only
          rw [h4]; omega
    · simpa [hw, hr] using Nat.ne_of_lt hpos
    · simpa [hw, hr] using Nat.ne_of_lt hpos

theorem fill_spec (fuel : ℕ) (io : T) (want : ℕ) (hf : want < fuel) :
    (fill fuel io want).2.2.length ≤ want ∧
    received (fill fuel io want).2.1 = received io ++ (fill fuel io want).2.2 ∧
    written (fill fuel io want).2.1 = written io ∧
    ((fill fuel io want).1 = .full ↔ (fill fuel io want).2.2.length = want) := by
  induction fuel generalizing io want with
  | zero => omega
  | succ fuel ih =>
    cases want with
    | zero => simp [fill]
    | succ want =>
      have hb := read_bound io (want + 1)
      have hr := read_received io (want + 1)
      have hw := read_written io (want + 1)
      rw [fill]
      split <;> rename_i heq <;> simp only [heq] at hb hw hr
      · simp [hw, hr]
      · rename_i bytes next hne
        simp only [readBytes_ok] at hb hr
        have hpos : 0 < bytes.length := List.length_pos_iff.mpr hne
        obtain ⟨h1, h2, h3, h4⟩ := ih next (want + 1 - bytes.length) (by omega)
        refine ⟨by simp only [List.length_append]; omega, ?_, by rw [h3, hw], ?_⟩
        · rw [h2, hr, List.append_assoc]
        · simp only [List.length_append]
          rw [h4]; omega
      · simp [hw, hr]
      · simp [hw, hr]

end Traced
end Snolc.PollIo
