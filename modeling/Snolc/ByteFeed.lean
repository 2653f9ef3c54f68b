import Snolc.AsyncTask
import Snolc.ScriptedIo

set_option autoImplicit false

/-!
# Reading tasks over a stream that feeds a byte sequence

The stream hands out what is in stock in pieces of any size, answers pending in
between, and reports its end at most when nothing is left. What a task that only
reads returns, and what it leaves in stock, does not depend on the pieces: it is
the function `consume` of the bytes.
-/
namespace Snolc.ByteFeed
open PollIo AsyncTask ScriptedIo

section Feed
variable {S : Type} [AsyncIo S]

/-- `stalls` bounds the pending answers while bytes are in stock. -/
structure Feeds (stock : S → List UInt8) (stalls : S → ℕ) : Prop where
  read : ∀ io room, room ≠ 0 →
    ((AsyncIo.pollRead io room).1 = .pending ∧ stock (AsyncIo.pollRead io room).2 = stock io ∧
      (stock io ≠ [] → stalls (AsyncIo.pollRead io room).2 < stalls io)) ∨
    ∃ piece, (AsyncIo.pollRead io room).1 = .ready (.ok piece) ∧ piece.length ≤ room ∧
      stock io = piece ++ stock (AsyncIo.pollRead io room).2 ∧ (piece = [] → stock io = []) ∧
      stalls (AsyncIo.pollRead io room).2 ≤ stalls io

variable {stock : S → List UInt8} {stalls : S → ℕ}

structure Filled (stock : S → List UInt8) (stalls : S → ℕ) (io : S) (want : ℕ) (r : Fill × S × List UInt8) :
    Prop where
  split : stock io = r.2.2 ++ stock r.2.1
  short : r.2.2.length ≤ want
  full : r.1 = .full → r.2.2.length = want ∧ stalls r.2.1 ≤ stalls io
  ended : r.1 = .ended → (stock io).length < want
  pending : r.1 = .pending → want ≤ (stock io).length → stalls r.2.1 < stalls io
  sound : ∀ e, r.1 ≠ .failed e

theorem Feeds.fill (h : Feeds stock stalls) (fuel : ℕ) (io : S) (want : ℕ) (hf : want < fuel) :
    Filled stock stalls io want (PollIo.fill fuel io want) := by
  induction fuel generalizing io want with
  | zero => omega
  | succ fuel ih =>
    cases want with
    | zero =>
      exact ⟨rfl, Nat.le_refl _, fun _ => ⟨rfl, Nat.le_refl _⟩, by simp [PollIo.fill], by simp [PollIo.fill],
        by simp [PollIo.fill]⟩
    | succ want =>
      have hread := h.read io (want + 1) (by omega)
      rw [PollIo.fill]
      split <;> rename_i heq <;> simp only [heq, reduceCtorEq, false_and, false_or, true_and, exists_const,
        Poll.ready.injEq, Except.ok.injEq, exists_eq_left', or_false] at hread
      · obtain ⟨-, hstock, hnil, -⟩ := hread
        have hempty := hnil trivial
        exact ⟨hstock, by simp, by simp, by simp [hempty], by simp, by simp⟩
      · rename_i piece next hne
        obtain ⟨hroom, hstock, -, hstalls⟩ := hread
        have hpos : 0 < piece.length := List.length_pos_iff.mpr hne
        have hrest := ih next (want + 1 - piece.length) (by omega)
        have hshort := hrest.short
        refine ⟨?_, ?_, fun hx => ?_, fun hx => ?_, fun hx hle => ?_, hrest.sound⟩
        · rw [hstock, hrest.split, List.append_assoc]
        · rw [List.length_append]
          omega
        · obtain ⟨hlen, hle⟩ := hrest.full hx
          rw [List.length_append]
          exact ⟨by omega, Nat.le_trans hle hstalls⟩
        · have hlt := hrest.ended hx
          rw [hstock, List.length_append]
          omega
        · rw [hstock, List.length_append] at hle
          exact Nat.lt_of_lt_of_le (hrest.pending hx (by omega)) hstalls
      · exact ⟨by rw [hread.1]; rfl, by simp, by simp, by simp, fun _ hle => hread.2 (by rintro hx; simp [hx] at hle),
          by simp⟩

theorem Feeds.fill_unfilled (h : Feeds stock stalls) (fuel : ℕ) (io : S) (want : ℕ) (hf : want < fuel)
    (hne : (PollIo.fill fuel io want).1 ≠ .full) :
    (PollIo.fill fuel io want).2.2.length < want ∧
      ((PollIo.fill fuel io want).1 = .ended → stock (PollIo.fill fuel io want).2.1 = []) := by
  induction fuel generalizing io want with
  | zero => omega
  | succ fuel ih =>
    cases want with
    | zero => exact absurd rfl hne
    | succ want =>
      have hread := h.read io (want + 1) (by omega)
      rw [PollIo.fill] at hne ⊢
      split at hne <;> rename_i heq <;> rw [heq] at hread
      · obtain ⟨hx, -⟩ | ⟨piece, hpiece, -, hstock, hnil, -⟩ := hread
        · cases hx
        · cases hpiece
          rw [hnil rfl] at hstock
          exact ⟨Nat.succ_pos want, fun _ => hstock.symm⟩
      · rename_i bytes next hbytes
        have hpos : 0 < bytes.length := List.length_pos_iff.mpr hbytes
        have hroom : bytes.length ≤ want + 1 := by
          obtain ⟨hx, -⟩ | ⟨piece, hpiece, hroom, -⟩ := hread
          · cases hx
          · cases hpiece
            exact hroom
        obtain ⟨hshort, hended⟩ := ih next (want + 1 - bytes.length) (by omega) hne
        refine ⟨?_, hended⟩
        rw [List.length_append]
        omega
      · exact ⟨Nat.succ_pos want, fun hx => by cases hx⟩
      · exact ⟨Nat.succ_pos want, fun hx => by cases hx⟩

end Feed

section Tasks
variable {ε α : Type}

def ReadsOnly : Task ε α → Prop
  | .done _ => True
  | .writeAll _ _ => False
  | .flush _ => False
  | .readExact _ _ next => ∀ bytes, ReadsOnly (next bytes)

/-- The result of a reading task on a byte sequence and what it leaves of it. -/
def consume : Task ε α → List UInt8 → Option (Except ε α × List UInt8)
  | .done result, bytes => some (result, bytes)
  | .writeAll _ _, _ => none
  | .flush _, _ => none
  | .readExact missing got next, bytes =>
    if missing ≤ bytes.length then consume (next (got ++ bytes.take missing)) (bytes.drop missing) else none

theorem consume_read {count : ℕ} {next : List UInt8 → Task ε α} {bytes : List UInt8}
    {r : Except ε α × List UInt8} :
    consume (.read count next) bytes = some r ↔
      ∃ piece rest, bytes = piece ++ rest ∧ piece.length = count ∧ consume (next piece) rest = some r := by
  rw [Task.read, consume]
  constructor
  · intro h
    split at h
    · rename_i hle
      refine ⟨bytes.take count, bytes.drop count, (List.take_append_drop _ _).symm, ?_, h⟩
      rw [List.length_take]
      omega
    · cases h
  · rintro ⟨piece, rest, rfl, rfl, h⟩
    rw [if_pos (by simp), List.take_left, List.drop_left]
    exact h

variable {S : Type} [AsyncIo S] (lift : IoError → ε)

def pollUntilReady : ℕ → Task ε α → S → Poll (Except ε α) × S
  | 0, _, s => (.pending, s)
  | n + 1, task, s =>
    match task.poll lift s with
    | (.ready result, _, s) => (.ready result, s)
    | (.pending, task, s) => pollUntilReady n task s

variable {stock : S → List UInt8} {stalls : S → ℕ}

/-- One poll of a reading task: it ends as `consume` says, or for want of bytes, or it
    waits and the rest of it has the same outcome. -/
theorem Feeds.poll (h : Feeds stock stalls) (task : Task ε α) (s : S) (ht : ReadsOnly task) :
    (∀ result, (task.poll lift s).1 = .ready result →
      consume task (stock s) = some (result, stock (task.poll lift s).2.2) ∨
      (consume task (stock s) = none ∧ result = .error (lift ⟨.unexpectedEof, ""⟩))) ∧
    ((task.poll lift s).1 = .pending → ReadsOnly (task.poll lift s).2.1 ∧
      consume (task.poll lift s).2.1 (stock (task.poll lift s).2.2) = consume task (stock s) ∧
      (consume task (stock s) ≠ none → stalls (task.poll lift s).2.2 < stalls s)) := by
  induction task generalizing s with
  | done result => exact ⟨fun r hr => .inl (by cases hr; rfl), by simp [Task.poll]⟩
  | writeAll bytes next ih => exact ht.elim
  | flush next ih => exact ht.elim
  | readExact missing got next ih =>
    have hfill := h.fill (missing + 1) s missing (Nat.lt_succ_self _)
    rw [Task.poll, consume]
    split <;> rename_i s' bytes heq <;> rw [heq] at hfill
    · obtain ⟨rfl, hstalls⟩ := hfill.full rfl
      have hsplit : stock s = bytes ++ stock s' := hfill.split
      rw [hsplit, if_pos (by simp), List.take_left, List.drop_left]
      obtain ⟨hready, hpending⟩ := ih (got ++ bytes) s' (ht _)
      refine ⟨hready, fun hp => ?_⟩
      obtain ⟨hreads, hsame, hless⟩ := hpending hp
      exact ⟨hreads, hsame, fun hx => Nat.lt_of_lt_of_le (hless hx) hstalls⟩
    · rw [if_neg (Nat.not_le.mpr (hfill.ended rfl))]
      refine ⟨fun result hr => .inr ⟨rfl, ?_⟩, by simp⟩
      cases hr
      rfl
    · rename_i e
      exact absurd rfl (hfill.sound e)
    · have hsplit : stock s = bytes ++ stock s' := hfill.split
      have hshort : bytes.length ≤ missing := hfill.short
      refine ⟨by simp, fun _ => ⟨ht, ?_, fun hx => hfill.pending rfl ?_⟩⟩
      · rw [consume, hsplit, List.length_append]
        have htake : (bytes ++ stock s').take missing = bytes ++ (stock s').take (missing - bytes.length) := by
          rw [List.take_append, List.take_of_length_le hshort]
        have hdrop : (bytes ++ stock s').drop missing = (stock s').drop (missing - bytes.length) := by
          rw [List.drop_append, List.drop_of_length_le hshort, List.nil_append]
        rw [htake, hdrop, List.append_assoc]
        dsimp only
        exact if_congr (by omega) rfl rfl
      · by_contra hlt
        rw [if_neg hlt] at hx
        exact hx rfl

theorem Feeds.pollUntilReady (h : Feeds stock stalls) {task : Task ε α} (s : S) (ht : ReadsOnly task) (a : α)
    (rest : List UInt8) :
    (∃ n, (ByteFeed.pollUntilReady lift n task s).1 = .ready (.ok a) ∧
      stock (ByteFeed.pollUntilReady lift n task s).2 = rest) ↔ consume task (stock s) = some (.ok a, rest) := by
  constructor
  · rintro ⟨n, hready, hrest⟩
    induction n generalizing task s with
    | zero => simp [ByteFeed.pollUntilReady] at hready
    | succ n ih =>
      obtain ⟨hdone, hwait⟩ := h.poll lift task s ht
      rw [ByteFeed.pollUntilReady] at hready hrest
      split at hready <;> rename_i heq <;> rw [heq] at hdone hwait hrest
      · cases hready
        rcases hdone _ rfl with hc | ⟨-, hx⟩
        · rw [hc, ← hrest]
        · cases hx
      · obtain ⟨hreads, hsame, -⟩ := hwait rfl
        rw [← hsame]
        exact ih _ hreads hready hrest
  · intro hc
    induction hk : stalls s using Nat.strongRecOn generalizing task s with
    | ind k ih =>
      obtain ⟨hdone, hwait⟩ := h.poll lift task s ht
      rcases heq : task.poll lift s with ⟨result | _, task', s'⟩ <;> rw [heq] at hdone hwait
      · refine ⟨1, ?_⟩
        rw [ByteFeed.pollUntilReady, heq]
        rcases hdone _ rfl with hc' | ⟨hc', -⟩ <;> rw [hc] at hc'
        · cases hc'
          exact ⟨rfl, rfl⟩
        · cases hc'
      · obtain ⟨hreads, hsame, hless⟩ := hwait rfl
        subst hk
        obtain ⟨n, hn⟩ := ih _ (hless (by simp [hc])) s' hreads (hsame.trans hc) rfl
        refine ⟨n + 1, ?_⟩
        rw [ByteFeed.pollUntilReady, heq]
        exact hn

end Tasks

theorem script_feeds : Feeds Script.incoming (fun io => io.reads.count 0) where
  read io room hroom := by
    have hdef : AsyncIo.pollRead io room = Script.pollRead io room := rfl
    rw [hdef]
    unfold Script.pollRead
    dsimp only
    split
    · rename_i hzero
      refine .inl ⟨rfl, rfl, fun _ => ?_⟩
      cases hreads : io.reads with
      | nil => simp [hreads] at hzero
      | cons n reads =>
        obtain rfl : n = 0 := by simpa [hreads] using hzero
        simp
    · rename_i hmove
      have htail : io.reads.tail.count 0 ≤ io.reads.count 0 := List.Sublist.count_le 0 (List.tail_sublist _)
      split
      · rename_i hnil
        cases io.ended with
        | true => exact .inr ⟨[], rfl, by simp, by simp [hnil], fun _ => hnil, htail⟩
        | false => exact .inl ⟨rfl, rfl, fun hx => absurd hnil hx⟩
      · rename_i hne
        have hpositive : Script.allowance io.reads room ≠ 0 := by
          unfold Script.allowance
          split
          · exact hroom
          · rename_i n reads hreads
            rw [hreads] at hmove
            simp at hmove
            omega
        have hle := Script.allowance_le io.reads room
        refine .inr ⟨_, rfl, ?_, ?_, fun hx => ?_, htail⟩
        · rw [List.length_take]
          omega
        · exact (List.prefix_iff_eq_append.mp (List.take_prefix _ _)).symm
        · rw [List.take_eq_nil_iff] at hx
          exact (hx.resolve_left hpositive)

end Snolc.ByteFeed
