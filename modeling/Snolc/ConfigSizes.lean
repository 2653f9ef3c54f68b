import Snolc.Configuration
import Snolc.Decimals
import Mathlib.Data.List.TakeWhile

set_option autoImplicit false

namespace Snolc.Configuration
open CheckedSlice WireFormat
open Decimals

def sizeUnits : List (List Char × ℕ) :=
  [(['b'], 1), (['k', 'b'], 1000), (['m', 'b'], 1000000), (['g', 'b'], 1000000000),
    (['k', 'i', 'b'], 1024), (['m', 'i', 'b'], 1048576), (['g', 'i', 'b'], 1073741824)]

structure SizeText where
  decimal : Decimal
  unit : List Char
  multiplier : ℕ
  unit_known : (unit.map Char.toLower, multiplier) ∈ sizeUnits

namespace SizeText

def text (t : SizeText) : List Char := t.decimal.text ++ t.unit

def string (t : SizeText) : String := String.ofList t.text

def bytes (t : SizeText) : ℕ := ⌊t.decimal.number * t.multiplier⌋₊

/-- Every power, product and sum the parser forms fits a word. -/
structure Unwrapped (t : SizeText) : Prop where
  integer : value t.decimal.integer ≤ wordMax
  whole : value t.decimal.integer * t.multiplier ≤ wordMax
  denominator : 10 ^ t.decimal.decimals.length ≤ wordMax
  numerator : value t.decimal.decimals ≤ wordMax
  product : value t.decimal.decimals * t.multiplier ≤ wordMax
  sum : t.bytes ≤ wordMax

/-- The fraction has at most nineteen digits, and they still fit a word when scaled. -/
def FractionFits (t : SizeText) : Prop :=
  t.decimal.decimals.length ≤ 19 ∧ value t.decimal.decimals * t.multiplier ≤ wordMax

theorem string_toList (t : SizeText) : t.string.toList = t.text := String.toList_ofList

theorem bytes_eq (t : SizeText) :
    t.bytes = value t.decimal.integer * t.multiplier +
      value t.decimal.decimals * t.multiplier / 10 ^ t.decimal.decimals.length :=
  t.decimal.floor_mul t.multiplier

end SizeText

theorem sizeUnit_eq_some {unit : List Char} {multiplier : ℕ} :
    sizeUnit unit = some multiplier ↔ (unit, multiplier) ∈ sizeUnits := by
  constructor
  · intro h
    unfold sizeUnit at h
    split_ifs at h <;> cases h <;> subst_vars <;> decide
  · intro h
    simp only [sizeUnits, List.mem_cons, Prod.mk.injEq, List.not_mem_nil, or_false] at h
    rcases h with ⟨rfl, rfl⟩ | ⟨rfl, rfl⟩ | ⟨rfl, rfl⟩ | ⟨rfl, rfl⟩ | ⟨rfl, rfl⟩ | ⟨rfl, rfl⟩ | ⟨rfl, rfl⟩ <;> decide

theorem numeral_toLower {c : Char} (h : numeral c = true) : numeral c.toLower = true := by
  have hlow : c.toLower = c := by
    unfold Char.toLower
    apply dif_neg
    rintro ⟨hge, -⟩
    rcases Bool.or_eq_true _ _ ▸ h with hdigit | hdot
    · simp only [Char.isDigit, Bool.and_eq_true, decide_eq_true_eq] at hdigit
      exact absurd (UInt32.le_trans hge hdigit.2) (by decide)
    · rw [beq_iff_eq.mp hdot] at hge
      exact absurd hge (by decide)
  rw [hlow]
  exact h

theorem unit_shape {unit : List Char} {multiplier : ℕ} (h : (unit.map Char.toLower, multiplier) ∈ sizeUnits) :
    0 < multiplier ∧ ∃ c rest, unit = c :: rest ∧ numeral c = false := by
  have hshape : 0 < multiplier ∧ ∃ c rest, unit.map Char.toLower = c :: rest ∧ numeral c = false := by
    simp only [sizeUnits, List.mem_cons, Prod.mk.injEq, List.not_mem_nil, or_false] at h
    rcases h with ⟨hu, rfl⟩ | ⟨hu, rfl⟩ | ⟨hu, rfl⟩ | ⟨hu, rfl⟩ | ⟨hu, rfl⟩ | ⟨hu, rfl⟩ | ⟨hu, rfl⟩ <;>
      exact ⟨by omega, _, _, hu, by decide⟩
  obtain ⟨hpos, c, rest, hmap, hc⟩ := hshape
  obtain ⟨c', rest', rfl, rfl, -⟩ := List.map_eq_cons_iff.mp hmap
  refine ⟨hpos, c', rest', rfl, ?_⟩
  rw [← Bool.not_eq_true]
  intro hnum
  rw [numeral_toLower hnum] at hc
  cases hc

theorem parseDigits_eq_ok {digits : List Char} {n : ℕ} :
    parseDigits digits = .ok n ↔ digits ≠ [] ∧ value digits ≤ wordMax ∧ n = value digits := by
  change (if digits = [] ∨ wordMax < value digits then _ else _) = _ ↔ _
  rw [check_eq_ok, not_or, Nat.not_lt, Except.ok.injEq, and_assoc, eq_comm (a := n)]
  rfl

theorem parseSize_text (t : SizeText) {input : String} (h : input.toList = t.text) :
    parseSize input = (do
      let digits ← parseDigits t.decimal.integer
      let whole ← orOverflow (checkedMul digits t.multiplier)
      parseFraction whole t.multiplier t.decimal.fraction.toList) := by
  obtain ⟨-, c, rest, hunit, hc⟩ := unit_shape t.unit_known
  have hnumber : (input.toList.takeWhile fun character => character.isDigit || character == '.') =
      t.decimal.text := by
    change input.toList.takeWhile numeral = _
    rw [h, SizeText.text, List.takeWhile_append_of_pos fun _ => t.decimal.numeral_of_mem_text, hunit,
      List.takeWhile_cons_of_neg (by simp [hc]), List.append_nil]
  have hrest : input.toList.drop t.decimal.text.length = t.unit := by
    rw [h, SizeText.text, List.drop_left]
  have hne : t.unit ≠ [] := by simp [hunit]
  simp only [parseSize, hnumber, hrest, if_neg hne, sizeUnit_eq_some.mpr t.unit_known, t.decimal.splitOn_text]

theorem checkedAdd_iff {a b n : ℕ} : checkedAdd a b = some n ↔ a + b ≤ wordMax ∧ n = a + b := by
  unfold checkedAdd
  split <;> simp_all [eq_comm]

theorem pow_le_word {n : ℕ} (h : 10 ^ n ≤ wordMax) : n ≤ 19 := by
  by_contra hlt
  have hle : 10 ^ 20 ≤ 10 ^ n := Nat.pow_le_pow_right (by omega) (by omega)
  simp only [wordMax] at h
  omega

theorem parseFraction_eq_ok {whole multiplier v : ℕ} {fraction : Option (List Char)}
    (hwhole : whole ≤ wordMax) (hne : fraction ≠ some []) :
    parseFraction whole multiplier fraction.toList = .ok v ↔
      10 ^ (fraction.getD []).length ≤ wordMax ∧ value (fraction.getD []) ≤ wordMax ∧
        value (fraction.getD []) * multiplier ≤ wordMax ∧
        whole + value (fraction.getD []) * multiplier / 10 ^ (fraction.getD []).length ≤ wordMax ∧
        v = whole + value (fraction.getD []) * multiplier / 10 ^ (fraction.getD []).length := by
  cases fraction with
  | none =>
    simp only [Option.toList_none, parseFraction, Except.ok.injEq, Option.getD_none, value, List.foldl_nil,
      List.length_nil, Nat.pow_zero, Nat.zero_mul, Nat.zero_div, Nat.add_zero]
    constructor
    · rintro rfl
      exact ⟨by decide, Nat.zero_le _, Nat.zero_le _, hwhole, rfl⟩
    · rintro ⟨-, -, -, -, rfl⟩
      rfl
  | some digits =>
    have hdigits : digits ≠ [] := fun h => hne (by rw [h])
    simp only [Option.toList_some, parseFraction, throw_eq, error_bind, check_eq_ok, bind_eq_ok, orOverflow_eq_ok,
      parseDigits_eq_ok, checkedMul_eq_some, checkedAdd_iff, Option.getD_some, hdigits, not_false_eq_true, true_and]
    constructor
    · rintro ⟨-, _, hden, _, ⟨-, hnum, rfl⟩, _, ⟨hprod, rfl⟩, hsum, rfl⟩
      obtain ⟨hpow, hden⟩ := Option.ite_none_right_eq_some.mp hden
      cases hden
      exact ⟨hpow, hnum, hprod, hsum, rfl⟩
    · rintro ⟨hpow, hnum, hprod, hsum, rfl⟩
      have hlen := pow_le_word hpow
      exact ⟨by omega, _, if_pos hpow, _, ⟨hdigits, hnum, rfl⟩, _, ⟨hprod, rfl⟩, hsum, rfl⟩

theorem parseSize_eq_ok (t : SizeText) {input : String} (h : input.toList = t.text) {v : ℕ} :
    parseSize input = .ok v ↔ t.Unwrapped ∧ v = t.bytes := by
  have hbytes := t.bytes_eq
  rw [parseSize_text t h]
  simp only [bind_eq_ok, parseDigits_eq_ok, orOverflow_eq_ok, checkedMul_eq_some]
  constructor
  · rintro ⟨_, ⟨-, hint, rfl⟩, _, ⟨hwhole, rfl⟩, hfrac⟩
    obtain ⟨hden, hnum, hprod, hsum, rfl⟩ := (parseFraction_eq_ok hwhole t.decimal.fraction_ne).mp hfrac
    exact ⟨⟨hint, hwhole, hden, hnum, hprod, hbytes ▸ hsum⟩, hbytes.symm⟩
  · rintro ⟨hu, rfl⟩
    have hsum := hu.sum
    rw [hbytes] at hsum ⊢
    exact ⟨_, ⟨t.decimal.integer_ne, hu.integer, rfl⟩, _, ⟨hu.whole, rfl⟩,
      (parseFraction_eq_ok hu.whole t.decimal.fraction_ne).mpr ⟨hu.denominator, hu.numerator, hu.product, hsum, rfl⟩⟩

theorem pieces_of_parseFraction {whole multiplier v : ℕ} {pieces : List (List Char)}
    (h : parseFraction whole multiplier pieces = .ok v) :
    ∃ fraction : Option (List Char), pieces = fraction.toList ∧ fraction ≠ some [] := by
  rcases pieces with _ | ⟨digits, _ | ⟨extra, pieces⟩⟩
  · exact ⟨none, rfl, by simp⟩
  · simp only [parseFraction, throw_eq, error_bind, check_eq_ok] at h
    exact ⟨some digits, rfl, fun hnil => h.1 (Option.some.inj hnil)⟩
  · cases h

theorem drop_of_append {α : Type} {xs front rest : List α} (h : front ++ rest = xs) :
    xs.drop front.length = rest := by
  rw [← h, List.drop_left]

theorem exists_text {input : String} {v : ℕ} (h : parseSize input = .ok v) : ∃ t : SizeText, input.toList = t.text := by
  have hnumeral : ∀ c ∈ input.toList.takeWhile numeral, numeral c = true := fun c hc => List.mem_takeWhile_imp hc
  obtain ⟨rest, hrest⟩ := List.takeWhile_prefix numeral (l := input.toList)
  have hdrop := drop_of_append hrest
  unfold parseSize at h
  change (if input.toList.drop (input.toList.takeWhile numeral).length = [] then _ else _) = _ at h
  rw [check_eq_ok] at h
  obtain ⟨-, h⟩ := h
  split at h
  · cases h
  · next multiplier hunit =>
    split at h
    · cases h
    · next integer pieces hsplit =>
      simp only [bind_eq_ok, parseDigits_eq_ok] at h
      obtain ⟨_, ⟨hint, -, -⟩, _, -, hfrac⟩ := h
      obtain ⟨fraction, rfl, hne⟩ := pieces_of_parseFraction hfrac
      obtain ⟨d, rfl, rfl, htext⟩ := exists_decimal hnumeral hsplit hint hne
      refine ⟨⟨d, rest, multiplier, ?_⟩, ?_⟩
      · rw [← hdrop]
        exact sizeUnit_eq_some.mp hunit
      · rw [SizeText.text, htext, hrest]

/-- Where the parser returns a value the text is a number and a unit, the value is the whole part of their
product, and nothing on the way wrapped. -/
theorem parseSize_exact {input : String} {v : ℕ} (h : parseSize input = .ok v) :
    ∃ t : SizeText, input.toList = t.text ∧ t.Unwrapped ∧ v = ⌊t.decimal.number * t.multiplier⌋₊ := by
  obtain ⟨t, htext⟩ := exists_text h
  exact ⟨t, htext, (parseSize_eq_ok t htext).mp h⟩

def sampleSize : SizeText :=
  ⟨⟨['1'], some ['1'], by simp, by simp, by simp, by simp⟩, ['K', 'i', 'B'], 1024, by decide⟩

theorem sample_size_exact :
    ∃ t : SizeText, sampleSize.string.toList = t.text ∧ t.Unwrapped ∧ 1126 = ⌊t.decimal.number * t.multiplier⌋₊ := by
  apply parseSize_exact
  rw [parseSize_text sampleSize sampleSize.string_toList]
  decide +kernel

theorem SizeText.FractionFits.unwrapped {t : SizeText} (h : t.FractionFits) (hb : t.bytes ≤ wordMax) :
    t.Unwrapped := by
  obtain ⟨hpos, -⟩ := unit_shape t.unit_known
  have hwhole : value t.decimal.integer * t.multiplier ≤ t.bytes := by
    rw [t.bytes_eq]
    exact Nat.le_add_right _ _
  have hint : value t.decimal.integer ≤ value t.decimal.integer * t.multiplier := Nat.le_mul_of_pos_right _ hpos
  have hpow : 10 ^ t.decimal.decimals.length ≤ wordMax :=
    le_trans (Nat.pow_le_pow_right (by omega) h.1) (by decide)
  have hnum : value t.decimal.decimals < 10 ^ t.decimal.decimals.length := value_lt t.decimal.decimals_digits
  exact ⟨by omega, by omega, hpow, by omega, h.2, hb⟩

/-- A size that fits a word is taken, and never called an overflow, exactly when its fraction fits. -/
theorem parseSize_accepts_iff (t : SizeText) :
    ((t.bytes ≤ wordMax → parseSize t.string = .ok t.bytes) ∧
        (parseSize t.string = .error .overflow → wordMax < t.bytes)) ↔
      (t.bytes ≤ wordMax → t.FractionFits) := by
  have hparse {v : ℕ} := parseSize_eq_ok t t.string_toList (v := v)
  constructor
  · intro h hb
    obtain ⟨hu, -⟩ := hparse.mp (h.1 hb)
    exact ⟨pow_le_word hu.denominator, hu.product⟩
  · intro h
    have htaken (hb : t.bytes ≤ wordMax) : parseSize t.string = .ok t.bytes := hparse.mpr ⟨(h hb).unwrapped hb, rfl⟩
    refine ⟨htaken, fun hover => ?_⟩
    by_contra hb
    rw [htaken (by omega)] at hover
    cases hover

def almostTwoGib : SizeText :=
  ⟨⟨['1'], some ['9', '9', '9', '9', '9', '9', '9', '9', '9', '9', '9'], by simp, by simp, by simp, by simp⟩,
    ['g', 'i', 'b'], 1073741824, by decide⟩

theorem scaled_fraction_overflows :
    almostTwoGib.string = "1.99999999999gib" ∧ almostTwoGib.bytes = 2147483647 ∧
      parseSize almostTwoGib.string = .error .overflow := by
  refine ⟨by decide, ?_, ?_⟩
  · rw [SizeText.bytes_eq]
    decide +kernel
  · rw [parseSize_text almostTwoGib almostTwoGib.string_toList]
    decide +kernel

end Snolc.Configuration
