import ExportTables.Text.Hex
import Mathlib.Algebra.Group.Nat.Defs

/-!
# Reading digits back

A digit of either case has its value, and the digits of a number make up the number as long as
there are enough of them. The code point of a character is that of no other character.
-/

namespace ExportTables.Text

theorem hexValue?_hexDigit {n : Nat} (h : n < 16) : hexValue? (hexDigit n) = some n := by
  revert n
  decide

theorem hexValue?_upperHexDigit {n : Nat} (h : n < 16) : hexValue? (upperHexDigit n) = some n := by
  revert n
  decide

theorem hexNumber?_hexDigits {width n : Nat} (h : n < 16 ^ width) :
    hexNumber? (hexDigits width n) = some n := by
  induction width generalizing n with
  | zero =>
    obtain rfl : n = 0 := by simpa using h
    rfl
  | succ width ih =>
    have hlead : n / 16 < 16 ^ width := by
      rw [Nat.div_lt_iff_lt_mul (by decide), ← Nat.pow_succ]
      exact h
    have hlast : n % 16 < 16 := Nat.mod_lt n (by decide)
    have hnumber := ih hlead
    rw [hexNumber?] at hnumber
    rw [hexDigits, hexNumber?, List.foldlM_append, hnumber]
    simp [hexValue?_hexDigit hlast, Nat.div_add_mod]

theorem charOfCode?_toNat (c : Char) : charOfCode? c.toNat = some c := by
  have hvalid : c.toNat.isValidChar := c.valid
  rw [charOfCode?, if_pos hvalid, Char.ofNat_toNat]

end ExportTables.Text
