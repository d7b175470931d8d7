import DebugLayout.Text.Numeral
import Mathlib.Data.List.Basic
import Mathlib.Data.List.TakeWhile

/-!
# DebugLayout — reading decimal notation back

A number that is written in decimal notation is read as that number, unless it has more digits than
a numeral may have.

The limit on the number of digits is one of numerals of any script, and it applies to leading zeros
as well. Whoever reads numbers from names or paths inherits it.

* `numeralBound`: the first number that has too many digits;
* `digitValue?_of_isDigit`: the digits of decimal notation are decimal digits;
* `readNatural_of_isDecimalDigit`: a numeral of decimal digits of any script is read, unless it is
  too long;
* `readNatural_of_isDigit`: the same for the digits of decimal notation;
* `digitsValue_toDigits`, `length_toDigits_le`: the notation denotes the number, and has as many
  digits as a numeral may have.
-/

namespace DebugLayout.Text

theorem isDigit_iff {c : Char} : c.isDigit = true ↔ 48 ≤ c.toNat ∧ c.toNat ≤ 57 := by
  rw [Char.isDigit, Bool.and_eq_true, decide_eq_true_eq, decide_eq_true_eq]
  exact Iff.rfl

theorem digitValue?_of_isDigit {c : Char} (h : c.isDigit = true) :
    digitValue? c = some (c.toNat - '0'.toNat) := by
  obtain ⟨hlow, hhigh⟩ := isDigit_iff.1 h
  have hfirst : zeroCodes = 0x30 :: zeroCodes.tail := rfl
  have hrun : (decide (0x30 ≤ c.toNat) && decide (c.toNat < 0x30 + 10)) = true := by
    rw [Bool.and_eq_true, decide_eq_true_eq, decide_eq_true_eq]
    omega
  rw [digitValue?, hfirst, List.find?_cons, hrun]
  rfl

theorem isDecimalDigit_of_isDigit {c : Char} (h : c.isDigit = true) : isDecimalDigit c = true := by
  rw [isDecimalDigit, digitValue?_of_isDigit h]
  rfl

theorem not_isDecimalDigit_of_mem {c : Char} (h : c ∈ ['_', '.', '[', ']']) :
    isDecimalDigit c = false := by
  simp only [List.mem_cons, List.not_mem_nil, or_false] at h
  rcases h with rfl | rfl | rfl | rfl
  all_goals decide

section Digits

variable {cs : List Char} (h : ∀ c ∈ cs, isDecimalDigit c = true)
include h

theorem wellGrouped_of_isDecimalDigit (afterDigit : Bool) :
    wellGrouped afterDigit cs = (afterDigit || cs ≠ []) := by
  induction cs generalizing afterDigit with
  | nil => simp [wellGrouped]
  | cons c cs ih =>
    have hc : isDecimalDigit c = true := h c List.mem_cons_self
    have hne : c ≠ '_' := by
      rintro rfl
      exact absurd hc (by decide)
    have ih := ih (fun d hd => h d (List.mem_cons_of_mem c hd)) true
    rw [wellGrouped, if_neg hne, hc, ih]
    simp

/-- Every digit has a value. -/
theorem length_filterMap_digitValue? : (cs.filterMap digitValue?).length = cs.length := by
  induction cs with
  | nil => rfl
  | cons c cs ih =>
    obtain ⟨d, hd⟩ := Option.isSome_iff_exists.1 (h c List.mem_cons_self)
    rw [List.filterMap_cons_some hd, List.length_cons, List.length_cons,
      ih fun c' hc' => h c' (List.mem_cons_of_mem c hc')]

/-- A numeral of digits alone is read unless it has too many of them. -/
theorem readNatural_of_isDecimalDigit (hne : cs ≠ []) (text : String) :
    readNatural text cs =
      if maxDigits < cs.length then .error (.tooManyDigits cs.length)
      else .ok (digitsValue (cs.filterMap digitValue?)) := by
  have hchars : ∀ c ∈ cs, isNumeralChar c = true := by
    intro c hc
    rw [isNumeralChar, h c hc]
    rfl
  have htake : cs.takeWhile isNumeralChar = cs := List.takeWhile_eq_self_iff.2 hchars
  have hdrop : cs.dropWhile isNumeralChar = [] := List.dropWhile_eq_nil_iff.2 hchars
  have hgrouped : wellGrouped false cs = true := by
    rw [wellGrouped_of_isDecimalDigit h]
    simp [hne]
  rw [readNatural, htake, hdrop, hgrouped, length_filterMap_digitValue? h]
  simp

end Digits

/-- The value of digits of decimal notation. -/
theorem digitsValue_of_isDigit {cs : List Char} (h : ∀ c ∈ cs, c.isDigit = true) :
    digitsValue (cs.filterMap digitValue?) = Nat.ofDigitChars 10 cs 0 := by
  have hvalues : cs.filterMap digitValue? = cs.map fun c => c.toNat - '0'.toNat := by
    rw [← List.filterMap_eq_map]
    exact List.filterMap_congr fun c hc => digitValue?_of_isDigit (h c hc)
  rw [hvalues, digitsValue, List.foldl_map, Nat.ofDigitChars_eq_foldl]
  simp only [Nat.mul_comm]

/-- A numeral of such digits alone is read unless it has too many of them. -/
theorem readNatural_of_isDigit {cs : List Char} (h : ∀ c ∈ cs, c.isDigit = true) (hne : cs ≠ [])
    (text : String) :
    readNatural text cs =
      if maxDigits < cs.length then .error (.tooManyDigits cs.length)
      else .ok (Nat.ofDigitChars 10 cs 0) := by
  rw [readNatural_of_isDecimalDigit (fun c hc => isDecimalDigit_of_isDigit (h c hc)) hne,
    digitsValue_of_isDigit h]

theorem isDecimalDigit_of_mem_toDigits {n : Nat} :
    ∀ c ∈ Nat.toDigits 10 n, isDecimalDigit c = true :=
  fun _ hc => isDecimalDigit_of_isDigit (Nat.isDigit_of_mem_toDigits (by decide) (by decide) hc)

/-- The digits of a number have its value. -/
theorem digitsValue_toDigits (n : Nat) :
    digitsValue ((Nat.toDigits 10 n).filterMap digitValue?) = n := by
  rw [digitsValue_of_isDigit fun c hc => Nat.isDigit_of_mem_toDigits (by decide) (by decide) hc,
    Nat.ofDigitChars_ten_toDigits]

/-- The first number that has more digits than a numeral may have. -/
def numeralBound : Nat := Nat.pow 10 maxDigits

theorem ten_le_numeralBound : 10 ≤ numeralBound := by
  have hne : maxDigits ≠ 0 := by decide
  unfold numeralBound
  generalize maxDigits = digits at hne ⊢
  exact Nat.le_self_pow hne 10

/-- Numbers below the bound have no more digits than a numeral may have. -/
theorem length_toDigits_le {n : Nat} (h : n < numeralBound) :
    (Nat.toDigits 10 n).length ≤ maxDigits := by
  have hpos : 0 < maxDigits := by decide
  unfold numeralBound at h
  generalize maxDigits = digits at h hpos ⊢
  exact (Nat.length_toDigits_le_iff (by decide) hpos).2 h

end DebugLayout.Text
