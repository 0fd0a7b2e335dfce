import ExportTables.Json.Literal
import ExportTables.Proofs.Text.Hex

/-!
# A literal reads as its text

Reading a literal takes two steps, and so does the proof. Each character is written by a few
characters that are read as its code point alone, whatever follows them, so the units of a literal
are the code points of its text (`readUnits_flatMap_escape`). None of them is half of a pair of
surrogates, so no two of them are joined (`joinUnits_toNat`).

Because what follows the closing quote is arbitrary, no text can end its literal early.
-/

namespace ExportTables.Json

open Text

/-- Puts a unit in front of the units that have been read. -/
def consUnit (unit : Nat) (read : Option (List Nat × List Char)) : Option (List Nat × List Char) :=
  read.map fun (units, behind) => (unit :: units, behind)

theorem readUnits_simpleEscape {e c : Char} (he : simpleEscape? e = some c) (rest : List Char) :
    readUnits ('\\' :: e :: rest) = consUnit c.toNat (readUnits rest) := by
  have hu : e ≠ 'u' := by
    rintro rfl
    cases he
  rw [readUnits]
  · rw [he]
    cases readUnits rest <;> rfl
  · rintro a b c' d rest' rfl
    exact absurd rfl hu

theorem readUnits_codeEscape {n : Nat} (h : n < 16 ^ 4) (rest : List Char) :
    readUnits ('\\' :: 'u' :: (hexDigits 4 n ++ rest)) = consUnit n (readUnits rest) := by
  have hdigits := hexNumber?_hexDigits h
  simp only [hexDigits, List.nil_append, List.cons_append] at hdigits ⊢
  rw [readUnits, hdigits]
  cases readUnits rest <;> rfl

theorem readUnits_plain {c : Char} (hquote : c ≠ '"') (hbackslash : c ≠ '\\')
    (hcontrol : ¬c.toNat < 0x20) (rest : List Char) :
    readUnits (c :: rest) = consUnit c.toNat (readUnits rest) := by
  rw [readUnits]
  · rw [if_neg (not_or.mpr ⟨hcontrol, hbackslash⟩)]
    cases readUnits rest <;> rfl
  · exact hquote
  · exact fun _ _ _ _ _ h => absurd h hbackslash
  · exact fun _ _ h => absurd h hbackslash

/-- What is written for a character is read as this character, whatever follows. -/
theorem readUnits_escape (c : Char) (rest : List Char) :
    readUnits (escape c ++ rest) = consUnit c.toNat (readUnits rest) := by
  rw [escape]
  split
  · rename_i hc
    subst hc
    exact readUnits_simpleEscape rfl rest
  rename_i hquote
  split
  · rename_i hc
    subst hc
    exact readUnits_simpleEscape rfl rest
  rename_i hbackslash
  split
  · rename_i hc
    subst hc
    exact readUnits_simpleEscape rfl rest
  split
  · rename_i hc
    subst hc
    exact readUnits_simpleEscape rfl rest
  split
  · rename_i hc
    subst hc
    exact readUnits_simpleEscape rfl rest
  split
  · rename_i hc
    obtain rfl : c = '\x08' := Char.toNat_inj.mp hc
    exact readUnits_simpleEscape rfl rest
  split
  · rename_i hc
    obtain rfl : c = '\x0c' := Char.toNat_inj.mp hc
    exact readUnits_simpleEscape rfl rest
  split
  · rename_i hcontrol
    exact readUnits_codeEscape (by omega) rest
  · rename_i hcontrol
    exact readUnits_plain hquote hbackslash hcontrol rest

theorem readUnits_flatMap_escape (text rest : List Char) :
    readUnits (text.flatMap escape ++ '"' :: rest) = some (text.map Char.toNat, rest) := by
  induction text with
  | nil => rfl
  | cons c text ih =>
    rw [List.flatMap_cons, List.append_assoc, readUnits_escape, ih]
    rfl

theorem isHighSurrogate_toNat (c : Char) : isHighSurrogate c.toNat = false := by
  have hvalid : c.toNat < 0xD800 ∨ 0xDFFF < c.toNat ∧ c.toNat < 0x110000 := c.valid
  rw [isHighSurrogate, Bool.and_eq_false_iff]
  simp only [decide_eq_false_iff_not]
  omega

theorem joinUnits_toNat (text : List Char) : joinUnits (text.map Char.toNat) = some text := by
  induction text with
  | nil => rfl
  | cons c rest ih =>
    cases rest with
    | nil =>
      change (charOfCode? c.toNat).map ([·]) = _
      rw [charOfCode?_toNat]
      rfl
    | cons d rest =>
      have hhigh : ¬(isHighSurrogate c.toNat = true ∧ isLowSurrogate d.toNat = true) := by
        simp [isHighSurrogate_toNat]
      change joinUnits (c.toNat :: d.toNat :: rest.map Char.toNat) = _
      rw [joinUnits, if_neg hhigh, charOfCode?_toNat]
      change (joinUnits ((d :: rest).map Char.toNat)).map (c :: ·) = _
      rw [ih]
      rfl

end ExportTables.Json
