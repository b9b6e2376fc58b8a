import LuaGlobals.Text.Blank
import LuaGlobals.Text.Digit

/-! # Numbers in digits

The digits that the core library prints are read back as the number.

* `exists_digitChar` says which characters a printed number has.
* **`natOfDigits_toDigits`**: the number that its decimal digits spell. -/

namespace LuaGlobals.Text

/-- No blank is a digit. -/
theorem isDecimal_of_isBlank {c : Char} (h : isBlank c = true) : isDecimal c = false := by
  -- The blanks beyond the first block lie in two of the wide gaps between the scripts.
  have hzeros : ∀ first ∈ digitZeros, first = 0x30 ∨ (0x660 ≤ first ∧ first ≤ 0x1090)
      ∨ (0x17E0 ≤ first ∧ first ≤ 0x1C50) ∨ 0xA620 ≤ first := by decide
  have hnone : digitZeros.find? (fun first => first ≤ c.toNat && c.toNat < first + 10) = none := by
    rw [List.find?_eq_none]
    intro first hfirst
    have hzero := hzeros first hfirst
    simp only [isBlank, isSpace, Bool.or_eq_true, Bool.and_eq_true, decide_eq_true_eq,
      beq_iff_eq] at h ⊢
    omega
  rw [isDecimal, digitValue?, hnone]
  rfl

/-- A printed number consists of the digits of its base. -/
theorem exists_digitChar {base number : Nat} {c : Char} (hbase : 1 < base)
    (h : c ∈ Nat.toDigits base number) : ∃ digit < base, c = Nat.digitChar digit := by
  induction number using Nat.base_induction base hbase with
  | single number hnumber =>
      rw [Nat.toDigits_of_lt_base hnumber, List.mem_singleton] at h
      exact ⟨number, hnumber, h⟩
  | digit number digit hdigit hnumber ih =>
      rw [← Nat.toDigits_append_toDigits hbase hnumber hdigit, List.mem_append] at h
      rcases h with h | h
      · exact ih h
      · rw [Nat.toDigits_of_lt_base hdigit, List.mem_singleton] at h
        exact ⟨digit, hdigit, h⟩

/-- A printed decimal number consists of decimal digits. -/
theorem isDecimal_of_mem_toDigits {number : Nat} {c : Char} (h : c ∈ Nat.toDigits 10 number) :
    isDecimal c = true :=
  isDecimal_of_isDigit (Nat.isDigit_of_mem_toDigits (by decide) (by decide) h)

/-- The value of a printed decimal digit. -/
theorem digitValue?_digitChar {digit : Nat} (h : digit < 10) :
    digitValue? (Nat.digitChar digit) = some digit := by
  revert h
  revert digit
  decide

/-- **Printed decimal digits spell their number.** -/
theorem natOfDigits_toDigits (number : Nat) : natOfDigits (Nat.toDigits 10 number) = number := by
  induction number using Nat.base_induction 10 (by decide) with
  | single digit hdigit =>
      simp [Nat.toDigits_of_lt_base hdigit, natOfDigits, digitValue?_digitChar hdigit]
  | digit number digit hdigit hnumber ih =>
      rw [natOfDigits] at ih
      rw [← Nat.toDigits_append_toDigits (by decide) hnumber hdigit, natOfDigits, List.foldl_append,
        ih, Nat.toDigits_of_lt_base hdigit]
      simp [digitValue?_digitChar hdigit]

end LuaGlobals.Text
