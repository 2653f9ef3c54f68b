import Snolc.PollIo

set_option autoImplicit false

/-!
# Resumable tasks on one byte stream

An asynchronous function that only writes buffers, flushes and reads exact
amounts on one stream is a `Task`: the tree of what it still has to do. Polling
a task runs it until the stream reports pending, and returns the remaining
tree, which is what a compiled future stores between two polls.
-/
namespace Snolc.AsyncTask
open PollIo

inductive Task (ε α : Type) where
  | done (result : Except ε α)
  | writeAll (bytes : List UInt8) (next : Task ε α)
  | flush (next : Task ε α)
  | readExact (missing : ℕ) (got : List UInt8) (next : List UInt8 → Task ε α)

namespace Task
variable {ε α β : Type}

def read (count : ℕ) (next : List UInt8 → Task ε α) : Task ε α := .readExact count [] next

def bind : Task ε α → (α → Task ε β) → Task ε β
  | .done (.ok a), f => f a
  | .done (.error e), _ => .done (.error e)
  | .writeAll bytes next, f => .writeAll bytes (next.bind f)
  | .flush next, f => .flush (next.bind f)
  | .readExact missing got next, f => .readExact missing got (fun bytes => (next bytes).bind f)

def Writes (n : ℕ) : Task ε α → Prop
  | .done _ => True
  | .writeAll bytes next => bytes.length ≤ n ∧ next.Writes n
  | .flush next => next.Writes n
  | .readExact _ _ next => ∀ bytes, (next bytes).Writes n

def ErrorsIn (P : ε → Prop) : Task ε α → Prop
  | .done (.ok _) => True
  | .done (.error e) => P e
  | .writeAll _ next => next.ErrorsIn P
  | .flush next => next.ErrorsIn P
  | .readExact _ _ next => ∀ bytes, (next bytes).ErrorsIn P

/-- The result of a task that only has to read, when bytes in stock decide it. -/
def onStock (ended : Bool) (eof : ε) : Task ε α → List UInt8 → Option (Except ε α)
  | .done result, _ => some result
  | .writeAll _ _, _ => none
  | .flush _, _ => none
  | .readExact missing got next, bytes =>
    if missing ≤ bytes.length then (next (got ++ bytes.take missing)).onStock ended eof (bytes.drop missing)
    else if ended then some (.error eof)
    else none

section Poll
variable {S : Type} [AsyncIo S] (lift : IoError → ε)

/-- Run a task until it ends or the stream has to be polled again. A failed
    task is replaced by its result. -/
def poll : Task ε α → S → Poll (Except ε α) × Task ε α × S
  | .done result, s => (.ready result, .done result, s)
  | .writeAll bytes next, s =>
    if bytes = [] then next.poll s
    else
      match drain (bytes.length + 1) s bytes with
      | (.ready (.ok ()), s, _) => next.poll s
      | (.ready (.error e), s, _) => (.ready (.error (lift e)), .done (.error (lift e)), s)
      | (.pending, s, sent) => (.pending, .writeAll (bytes.drop sent) next, s)
  | .flush next, s =>
    match AsyncIo.pollFlush s with
    | (.ready (.ok ()), s) => next.poll s
    | (.ready (.error e), s) => (.ready (.error (lift e)), .done (.error (lift e)), s)
    | (.pending, s) => (.pending, .flush next, s)
  | .readExact missing got next, s =>
    match fill (missing + 1) s missing with
    | (.full, s, bytes) => (next (got ++ bytes)).poll s
    | (.ended, s, _) =>
      (.ready (.error (lift ⟨.unexpectedEof, ""⟩)), .done (.error (lift ⟨.unexpectedEof, ""⟩)), s)
    | (.failed e, s, _) => (.ready (.error (lift e)), .done (.error (lift e)), s)
    | (.pending, s, bytes) => (.pending, .readExact (missing - bytes.length) (got ++ bytes) next, s)

theorem poll_writeAll (P : S → Prop) (n : ℕ) {bytes : List UInt8} {next : Task ε α} {s : S}
    (hne : bytes ≠ []) (hn : bytes.length ≤ n) (hnext : next.Writes n)
    (hd : P (drain (bytes.length + 1) s bytes).2.1)
    (h : ∀ s, P s → P (next.poll lift s).2.2 ∧ (next.poll lift s).2.1.Writes n) :
    P ((writeAll bytes next).poll lift s).2.2 ∧ ((writeAll bytes next).poll lift s).2.1.Writes n := by
  rw [poll, if_neg hne]
  split <;> rename_i heq <;> rw [heq] at hd
  · exact h _ hd
  · exact ⟨hd, trivial⟩
  · refine ⟨hd, ?_, hnext⟩
    rw [List.length_drop]
    exact Nat.le_trans (Nat.sub_le _ _) hn

theorem poll_writeAll_error {bytes : List UInt8} {next : Task ε α} {s s' : S} {e : IoError}
    (hne : bytes ≠ []) (h : AsyncIo.pollWrite s bytes = (.ready (.error e), s')) :
    (writeAll bytes next).poll lift s = (.ready (.error (lift e)), .done (.error (lift e)), s') := by
  rw [poll, if_neg hne, drain, h]

/-- What every stream operation keeps, a poll of a task keeps. -/
theorem poll_invariant (P : S → Prop) (n : ℕ)
    (hw : ∀ s bytes, bytes ≠ [] → bytes.length ≤ n → P s → P (AsyncIo.pollWrite s bytes).2)
    (hf : ∀ s, P s → P (AsyncIo.pollFlush s).2)
    (hr : ∀ s n, P s → P (AsyncIo.pollRead s n).2)
    (t : Task ε α) (s : S) (ht : t.Writes n) (h : P s) :
    P (t.poll lift s).2.2 ∧ (t.poll lift s).2.1.Writes n := by
  induction t generalizing s with
  | done result => exact ⟨h, trivial⟩
  | writeAll bytes next ih =>
    by_cases hne : bytes = []
    · rw [poll, if_pos hne]
      exact ih s ht.2 h
    · have hd := drain_invariant P n hw (bytes.length + 1) s bytes hne ht.1 h
      exact poll_writeAll lift P n hne ht.1 ht.2 hd (fun s => ih s ht.2)
  | flush next ih =>
    have hp := hf s h
    rw [poll]
    split <;> rename_i heq <;> rw [heq] at hp
    · exact ih _ ht hp
    · exact ⟨hp, trivial⟩
    · exact ⟨hp, ht⟩
  | readExact missing got next ih =>
    have hp := fill_invariant P hr (missing + 1) s missing h
    rw [poll]
    split <;> rename_i heq <;> rw [heq] at hp
    · exact ih _ _ (ht _) hp
    · exact ⟨hp, trivial⟩
    · exact ⟨hp, trivial⟩
    · exact ⟨hp, ht⟩

theorem poll_invariant_first (P : S → Prop) (n : ℕ)
    (hw : ∀ s bytes, bytes ≠ [] → bytes.length ≤ n → P s → P (AsyncIo.pollWrite s bytes).2)
    (hf : ∀ s, P s → P (AsyncIo.pollFlush s).2)
    (hr : ∀ s n, P s → P (AsyncIo.pollRead s n).2)
    {bytes : List UInt8} {next : Task ε α} {s : S} (hne : bytes ≠ []) (hn : bytes.length ≤ n)
    (hnext : next.Writes n) (h : P (AsyncIo.pollWrite s bytes).2) :
    P ((writeAll bytes next).poll lift s).2.2 ∧ ((writeAll bytes next).poll lift s).2.1.Writes n :=
  poll_writeAll lift P n hne hn hnext
    (drain_invariant_first P n hw bytes.length s bytes hn h)
    (fun s => poll_invariant lift P n hw hf hr next s hnext)

theorem poll_errorsIn {P : ε → Prop} (hlift : ∀ e, P (lift e)) (t : Task ε α) (s : S) (h : t.ErrorsIn P) :
    (∀ e, (t.poll lift s).1 = .ready (.error e) → P e) ∧ (t.poll lift s).2.1.ErrorsIn P := by
  have hfailed (e : IoError) (s' : S) :
      (∀ e', ((.ready (.error (lift e)), .done (.error (lift e)), s') :
        Poll (Except ε α) × Task ε α × S).1 = .ready (.error e') → P e') ∧
      (Task.done (.error (lift e)) : Task ε α).ErrorsIn P :=
    ⟨fun e' he => by cases he; exact hlift e, hlift e⟩
  induction t generalizing s with
  | done result =>
    rw [poll]
    cases result with
    | ok a => exact ⟨by simp, h⟩
    | error e => exact ⟨fun e' he => by cases he; exact h, h⟩
  | writeAll bytes next ih =>
    rw [poll]
    split
    · exact ih s h
    · split
      · exact ih _ h
      · exact hfailed _ _
      · exact ⟨by simp, h⟩
  | flush next ih =>
    rw [poll]
    split
    · exact ih _ h
    · exact hfailed _ _
    · exact ⟨by simp, h⟩
  | readExact missing got next ih =>
    rw [poll]
    split
    · exact ih _ _ (h _)
    · exact hfailed _ _
    · exact hfailed _ _
    · exact ⟨by simp, h⟩

theorem poll_onStock {Stock : S → List UInt8 → Prop} {ended : Bool} (h : Stocked Stock ended)
    (t : Task ε α) (s : S) {bytes : List UInt8} {result : Except ε α} (hs : Stock s bytes)
    (ht : t.onStock ended (lift ⟨.unexpectedEof, ""⟩) bytes = some result) :
    (t.poll lift s).1 = .ready result := by
  induction t generalizing s bytes with
  | done r =>
    cases ht
    rfl
  | writeAll input next ih => cases ht
  | flush next ih => cases ht
  | readExact missing got next ih =>
    obtain ⟨hfull, hshort⟩ := h.fill (missing + 1) s missing hs (Nat.lt_succ_self _)
    rw [onStock] at ht
    rw [poll]
    split at ht
    · rename_i hle
      obtain ⟨h₁, h₂, h₃⟩ := hfull hle
      have heq : fill (missing + 1) s missing = (.full, (fill (missing + 1) s missing).2.1, bytes.take missing) :=
        Prod.ext h₁ (Prod.ext rfl h₂)
      rw [heq]
      exact ih _ _ h₃ ht
    · rename_i hlt
      split at ht
      · rename_i hended
        have heq : fill (missing + 1) s missing = (.ended, (fill (missing + 1) s missing).2) :=
          Prod.ext (hshort (by omega) hended) rfl
        rw [heq]
        cases ht
        rfl
      · cases ht

end Poll
end Task
end Snolc.AsyncTask
