import ExportTables.Json.NameList
import ExportTables.Proofs.Json.Literal

/-!
# A list of names reads as its names

The file of a list of names is a row of tokens in which strings and commas take turns, and a string
token has the text of the name that it was written for. Hence a list can be told from its file.
-/

namespace ExportTables.Json

/-- The token of a name. -/
def nameToken (name : String) : Token := .string (name.toList.map Char.toNat)

/-- The tokens of the lines of names. -/
def nameTokens (names : List String) : List Token := (names.map nameToken).intersperse .comma

theorem text?_nameToken (name : String) : (nameToken name).text? = some name := by
  rw [nameToken, Token.text?, joinUnits_toNat]
  simp

theorem moreStrings?_nameTokens {names : List String} (h : names ≠ []) (behind : List Token) :
    moreStrings? (nameTokens names ++ .closeArray :: behind) = some (names, behind) := by
  induction names with
  | nil => exact absurd rfl h
  | cons name rest ih =>
    cases rest with
    | nil =>
      change (nameToken name).text?.map _ = _
      rw [text?_nameToken]
      rfl
    | cons other rest =>
      change moreStrings? (nameToken name :: .comma :: (nameTokens (other :: rest) ++ _)) = _
      rw [moreStrings?, text?_nameToken, ih (List.cons_ne_nil other rest)]
      rfl

/-! ## The tokens of a file -/

theorem tokensUpTo_of_nextToken? {text behind : List Char} {c : Char} {rest : List Char}
    {token : Token} (hblank : text.dropWhile isBlank = c :: rest)
    (htoken : nextToken? (c :: rest) = some (token, behind)) (fuel : Nat) :
    tokensUpTo (fuel + 1) text = (tokensUpTo fuel behind).map (token :: ·) := by
  rw [tokensUpTo, hblank]
  dsimp only
  rw [htoken]
  rfl

theorem nextToken?_literal (text rest : List Char) :
    nextToken? (literal text ++ rest) = some (.string (text.map Char.toNat), rest) := by
  rw [literal, List.cons_append, List.append_assoc, List.singleton_append, nextToken?,
    readUnits_flatMap_escape]
  rfl

/-- The line of a name is one string token. -/
theorem tokensUpTo_literal (name : String) (rest : List Char) (fuel : Nat) :
    tokensUpTo (fuel + 1) (' ' :: ' ' :: literal name.toList ++ rest) =
      (tokensUpTo fuel rest).map (nameToken name :: ·) :=
  tokensUpTo_of_nextToken? rfl (nextToken?_literal name.toList rest) fuel

theorem tokensUpTo_comma (rest : List Char) (fuel : Nat) :
    tokensUpTo (fuel + 1) (',' :: rest) = (tokensUpTo fuel rest).map (.comma :: ·) :=
  tokensUpTo_of_nextToken? rfl rfl fuel

theorem tokensUpTo_newline (text : List Char) (fuel : Nat) :
    tokensUpTo fuel ('\n' :: text) = tokensUpTo fuel text := by
  cases fuel <;> rfl

/-- The lines of the names and the last line of the file hold the tokens of the names and the
closing bracket. -/
theorem tokensUpTo_nameLines {names : List String} (h : names ≠ []) {fuel : Nat}
    (hfuel : 2 * names.length < fuel) :
    tokensUpTo fuel (nameLines names ++ [']', '\n']) =
      some (nameTokens names ++ [.closeArray]) := by
  induction names generalizing fuel with
  | nil => exact absurd rfl h
  | cons name rest ih =>
    rw [List.length_cons] at hfuel
    cases rest with
    | nil =>
      obtain ⟨fuel, rfl⟩ : ∃ k, fuel = k + 3 := ⟨fuel - 3, by simp at hfuel; omega⟩
      rw [nameLines, List.append_assoc, tokensUpTo_literal]
      rfl
    | cons other rest =>
      obtain ⟨fuel, rfl⟩ : ∃ k, fuel = k + 2 := ⟨fuel - 2, by omega⟩
      have htail : tokensUpTo fuel _ = _ := ih (List.cons_ne_nil other rest) (by omega)
      rw [nameLines, List.append_assoc, tokensUpTo_literal, List.cons_append, List.cons_append,
        tokensUpTo_comma, tokensUpTo_newline, htail]
      · rfl
      · exact List.cons_ne_nil other rest

theorem length_le_length_nameLines (names : List String) :
    2 * names.length ≤ (nameLines names).length := by
  induction names with
  | nil => exact Nat.le_refl 0
  | cons name rest ih =>
    cases rest with
    | nil => simp [nameLines]
    | cons other rest =>
      rw [nameLines]
      · simp only [List.length_append, List.length_cons] at ih ⊢
        omega
      · exact List.cons_ne_nil other rest

theorem names?_nameList (names : List String) : names? (nameList names) = some names := by
  cases names with
  | nil => rfl
  | cons name rest =>
    have hne : name :: rest ≠ [] := List.cons_ne_nil name rest
    have hfuel : 2 * (name :: rest).length <
        ('\n' :: nameLines (name :: rest) ++ [']', '\n']).length + 1 := by
      have hlength := length_le_length_nameLines (name :: rest)
      simp only [List.length_append, List.length_cons] at hlength ⊢
      omega
    have htokens : tokens? (nameList (name :: rest)) =
        some (.openArray :: (nameTokens (name :: rest) ++ [.closeArray])) := by
      change tokensUpTo (_ + 1) ('[' :: '\n' :: (nameLines (name :: rest) ++ _)) = _
      rw [tokensUpTo_of_nextToken? rfl rfl, tokensUpTo_newline, tokensUpTo_nameLines hne]
      · rfl
      · exact hfuel
    have hstrings : strings? (.openArray :: (nameTokens (name :: rest) ++ [.closeArray])) =
        some (name :: rest, []) := by
      rw [strings?]
      · exact moreStrings?_nameTokens hne []
      · cases rest <;> simp [nameTokens, nameToken]
    rw [names?, htokens, Option.bind_some, hstrings]

end ExportTables.Json
