import Mathlib.Algebra.Order.Floor.Semifield
import Mathlib.Data.List.Induction
import Mathlib.Data.Rat.Floor
import Mathlib.Tactic.Common
import Mathlib.Tactic.Ring

set_option autoImplicit false

namespace Snolc.Decimals

def value (digits : List Char) : ℕ := digits.foldl (fun n digit => 10 * n + (digit.toNat - '0'.toNat)) 0

theorem value_snoc (digits : List Char) (c : Char) : value (digits ++ [c]) = 10 * value digits + (c.toNat - 48) := by
  simp [value]

theorem digit_le {c : Char} (h : c.isDigit = true) : c.toNat - 48 ≤ 9 := by
  simp only [Char.isDigit, Bool.and_eq_true, decide_eq_true_eq] at h
  have hle : c.toNat ≤ 57 := h.2
  omega

theorem value_lt {digits : List Char} (h : ∀ c ∈ digits, c.isDigit = true) : value digits < 10 ^ digits.length := by
  induction digits using List.reverseRecOn with
  | nil => simp [value]
  | append_singleton digits c ih =>
    have hc := digit_le (h c (by simp))
    have hlt := ih fun d hd => h d (by simp [hd])
    rw [value_snoc, List.length_append, List.length_singleton, Nat.pow_succ]
    omega

structure Decimal where
  integer : List Char
  fraction : Option (List Char)
  integer_ne : integer ≠ []
  integer_digits : ∀ c ∈ integer, c.isDigit = true
  fraction_ne : fraction ≠ some []
  fraction_digits : ∀ digits ∈ fraction, ∀ c ∈ digits, c.isDigit = true

def numeral (c : Char) : Bool := c.isDigit || c == '.'

theorem dot_not_mem {digits : List Char} (h : ∀ c ∈ digits, c.isDigit = true) : '.' ∉ digits :=
  fun hdot => absurd (h '.' hdot) (by decide)

namespace Decimal

def text (d : Decimal) : List Char := d.integer ++ d.fraction.elim [] ('.' :: ·)

def decimals (d : Decimal) : List Char := d.fraction.getD []

def number (d : Decimal) : ℚ := value d.integer + value d.decimals / 10 ^ d.decimals.length

theorem numeral_of_mem_text (d : Decimal) {c : Char} (h : c ∈ d.text) : numeral c = true := by
  unfold numeral
  rcases List.mem_append.mp h with hint | hfrac
  · rw [d.integer_digits c hint, Bool.true_or]
  · have hdigits := d.fraction_digits
    cases hf : d.fraction with
    | none => simp [hf] at hfrac
    | some digits =>
      simp only [hf, Option.elim_some, List.mem_cons] at hfrac
      rcases hfrac with rfl | hmem
      · rfl
      · rw [hdigits digits hf c hmem, Bool.true_or]

theorem decimals_digits (d : Decimal) : ∀ c ∈ d.decimals, c.isDigit = true := by
  have hdigits := d.fraction_digits
  unfold decimals
  cases hf : d.fraction with
  | none => simp
  | some digits => exact hdigits digits hf

theorem splitOn_text (d : Decimal) : d.text.splitOn '.' = d.integer :: d.fraction.toList := by
  have hint := dot_not_mem d.integer_digits
  have hdigits := d.fraction_digits
  cases hf : d.fraction with
  | none => simp [text, hf, List.splitOn_eq_singleton hint]
  | some digits =>
    rw [text, hf, Option.elim_some, List.splitOn_append_cons_self_of_not_mem hint,
      List.splitOn_eq_singleton (dot_not_mem (hdigits digits hf))]
    rfl

theorem floor_mul (d : Decimal) (m : ℕ) :
    ⌊d.number * m⌋₊ = value d.integer * m + value d.decimals * m / 10 ^ d.decimals.length := by
  have hsplit : d.number * m =
      ((value d.decimals * m : ℕ) : ℚ) / ((10 ^ d.decimals.length : ℕ) : ℚ) + ((value d.integer * m : ℕ) : ℚ) := by
    rw [number]
    push_cast
    ring
  rw [hsplit, Nat.floor_add_natCast (by positivity), Nat.floor_div_eq_div, Nat.add_comm]

end Decimal

theorem splitOn_digits {text piece : List Char} (h : ∀ c ∈ text, numeral c = true)
    (hpiece : piece ∈ text.splitOn '.') : ∀ c ∈ piece, c.isDigit = true := by
  induction text generalizing piece with
  | nil => simp_all
  | cons c text ih =>
    have htail : ∀ d ∈ text, numeral d = true := fun d hd => h d (List.mem_cons_of_mem _ hd)
    rw [List.splitOn_cons_eq_if_modifyHead] at hpiece
    split at hpiece
    · rcases List.mem_cons.mp hpiece with rfl | hmem
      · simp
      · exact ih htail hmem
    · next hdot =>
      have hc : c.isDigit = true := by simpa [numeral, hdot] using h c List.mem_cons_self
      cases hs : text.splitOn '.' with
      | nil => exact absurd hs (List.splitOn_ne_nil _ _)
      | cons first rest =>
        rw [hs] at hpiece ih
        rcases List.mem_cons.mp hpiece with rfl | hmem
        · intro d hd
          rcases List.mem_cons.mp hd with rfl | hrest
          · exact hc
          · exact ih htail List.mem_cons_self d hrest
        · exact ih htail (List.mem_cons_of_mem _ hmem)

/-- Nonempty pieces, at most two of them, make a written number. -/
theorem exists_decimal {text integer : List Char} {fraction : Option (List Char)}
    (h : ∀ c ∈ text, numeral c = true) (hsplit : text.splitOn '.' = integer :: fraction.toList)
    (hint : integer ≠ []) (hfrac : fraction ≠ some []) :
    ∃ d : Decimal, d.integer = integer ∧ d.fraction = fraction ∧ d.text = text := by
  refine ⟨⟨integer, fraction, hint, ?_, hfrac, ?_⟩, rfl, rfl, ?_⟩
  · exact splitOn_digits h (by simp [hsplit])
  · intro digits hdigits
    exact splitOn_digits h (by simp [hsplit, Option.mem_def.mp hdigits])
  · have hjoin : ['.'].intercalate (text.splitOn '.') = text := List.intercalate_splitOn '.'
    rw [hsplit] at hjoin
    cases fraction <;> simpa [Decimal.text] using hjoin

end Snolc.Decimals
