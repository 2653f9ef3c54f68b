import Mathlib.Algebra.GroupWithZero.Nat
import Mathlib.Data.List.Induction
import Mathlib.Data.Nat.Notation
import Mathlib.Tactic.Common

set_option autoImplicit false

namespace Snolc.ByteOrder

/-- The `w` low bytes of `n`, most significant first. -/
def toBytes : ℕ → ℕ → List UInt8
  | 0, _ => []
  | w + 1, n => toBytes w (n / 256) ++ [UInt8.ofNat n]

def ofBytes (bytes : List UInt8) : ℕ := bytes.foldl (fun n b => n * 256 + b.toNat) 0

@[simp] theorem toBytes_length (w n : ℕ) : (toBytes w n).length = w := by
  induction w generalizing n with
  | zero => rfl
  | succ w ih => simp [toBytes, ih]

theorem ofBytes_snoc (bytes : List UInt8) (b : UInt8) :
    ofBytes (bytes ++ [b]) = ofBytes bytes * 256 + b.toNat := by
  simp [ofBytes]

theorem ofBytes_toBytes (w n : ℕ) : ofBytes (toBytes w n) = n % 256 ^ w := by
  induction w generalizing n with
  | zero => simp [toBytes, ofBytes, Nat.mod_one]
  | succ w ih =>
    have low : (UInt8.ofNat n).toNat = n % 256 := UInt8.toNat_ofNat'
    rw [toBytes, ofBytes_snoc, ih, low, Nat.pow_succ', Nat.mod_mul]
    omega

theorem ofBytes_toBytes_of_lt {w n : ℕ} (h : n < 256 ^ w) : ofBytes (toBytes w n) = n := by
  rw [ofBytes_toBytes, Nat.mod_eq_of_lt h]

theorem ofBytes_lt (bytes : List UInt8) : ofBytes bytes < 256 ^ bytes.length := by
  induction bytes using List.reverseRecOn with
  | nil => simp [ofBytes]
  | append_singleton bytes b ih =>
    have hb := b.toNat_lt
    rw [ofBytes_snoc, List.length_append, List.length_singleton, Nat.pow_succ]
    omega

theorem toBytes_ofBytes (bytes : List UInt8) : toBytes bytes.length (ofBytes bytes) = bytes := by
  induction bytes using List.reverseRecOn with
  | nil => rfl
  | append_singleton bytes b ih =>
    have hb := b.toNat_lt
    rw [ofBytes_snoc, List.length_append, List.length_singleton, toBytes,
      show (ofBytes bytes * 256 + b.toNat) / 256 = ofBytes bytes by omega, ih]
    congr 2
    apply UInt8.toNat.inj
    rw [UInt8.toNat_ofNat']
    change (ofBytes bytes * 256 + b.toNat) % 256 = b.toNat
    omega

theorem ofBytes_eq_iff {bytes : List UInt8} {n : ℕ} (h : n < 256 ^ bytes.length) :
    ofBytes bytes = n ↔ bytes = toBytes bytes.length n := by
  constructor
  · rintro rfl
    exact (toBytes_ofBytes bytes).symm
  · intro hb
    rw [hb, ofBytes_toBytes_of_lt h]

end Snolc.ByteOrder
