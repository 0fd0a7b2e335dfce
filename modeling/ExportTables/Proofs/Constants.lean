import ExportTables.Artifact
import ExportTables.Proofs.Json.NameList

/-!
# The module of constants says what the lists say

`read?` reads a module of constants without knowing how it was laid out. Behind the comment lines at
the top and an empty line it sees lexemes, with any white space between them, and these have to make
up declarations of constant arrays. An array ends at the first bracket that is no part of a string,
and a string at the first quote that is not escaped, so a reading that succeeds is the only one.

Rendering is undone by reading. The proof cuts the rendering into pieces that have their lexemes
whatever follows (`LexesAs`), and joins the pieces.
-/

namespace ExportTables.Constants

/-- The smallest part of a declaration. -/
inductive Lexeme where
  | word (text : String)
  | mark (c : Char)
  | literal (text : String)
  deriving DecidableEq, Repr

/-- Whether a character is a lexeme of its own. -/
def isMark (c : Char) : Bool := ['=', '[', ']', ',', ';'].contains c

/-- Whether a character may stand in a word. -/
def isWordChar (c : Char) : Bool := c.isAlphanum || c == '_' || c == '$'

/-- The first lexeme of a text that does not start with white space, and the text behind it. -/
def nextLexeme? : List Char → Option (Lexeme × List Char)
  | '"' :: rest => do
    let (units, behind) ← Json.readUnits rest
    let text ← Json.joinUnits units
    some (.literal (String.ofList text), behind)
  | c :: rest =>
    if isMark c then some (.mark c, rest)
    else if isWordChar c then
      some (.word (String.ofList ((c :: rest).takeWhile isWordChar)),
        (c :: rest).dropWhile isWordChar)
    else none
  | [] => none

/-- The lexemes of a text, of which at most `fuel` are read. -/
def lexemesUpTo : (fuel : Nat) → List Char → Option (List Lexeme)
  | 0, _ => none
  | fuel + 1, text =>
    match text.dropWhile Json.isBlank with
    | [] => some []
    | c :: rest => do
      let (lexeme, behind) ← nextLexeme? (c :: rest)
      (lexemesUpTo fuel behind).map (lexeme :: ·)

/-- The lexemes of a text. A lexeme takes at least one character. -/
def lexemes? (text : List Char) : Option (List Lexeme) := lexemesUpTo (text.length + 1) text

/-- The strings of an array behind its opening bracket, of which the last may have a comma behind
it, and the lexemes behind the closing bracket. -/
def values? : List Lexeme → Option (List String × List Lexeme)
  | .mark ']' :: rest => some ([], rest)
  | .literal text :: .mark ',' :: rest => do
    let (texts, behind) ← values? rest
    some (text :: texts, behind)
  | .literal text :: .mark ']' :: rest => some ([text], rest)
  | _ => none

/-- A constant and the strings of its array. -/
structure Declaration where
  identifier : String
  values : List String
  deriving DecidableEq, Repr

/-- The declaration at the head of a row of lexemes, and the lexemes behind it. -/
def declaration? : List Lexeme → Option (Declaration × List Lexeme)
  | .word "export" :: .word "const" :: .word identifier :: .mark '=' :: .mark '[' :: rest => do
    match ← values? rest with
    | (values, .word "as" :: .word "const" :: .mark ';' :: behind) =>
      some (⟨identifier, values⟩, behind)
    | _ => none
  | _ => none

/-- The declarations that a row of lexemes makes up, at most `fuel` of them. -/
def declarationsUpTo : (fuel : Nat) → List Lexeme → Option (List Declaration)
  | _, [] => some []
  | 0, _ => none
  | fuel + 1, lexemes => do
    let (declaration, behind) ← declaration? lexemes
    (declarationsUpTo fuel behind).map (declaration :: ·)

/-- The declarations that a row of lexemes makes up. -/
def declarations? (lexemes : List Lexeme) : Option (List Declaration) :=
  declarationsUpTo lexemes.length lexemes

/-- The comment that makes up the first line of a text, and the text behind this line. -/
def commentLine? : List Char → Option (String × List Char)
  | '/' :: '/' :: rest =>
    match rest.dropWhile (· != '\n') with
    | '\n' :: behind => some (String.ofList (rest.takeWhile (· != '\n')), behind)
    | _ => none
  | _ => none

/-- What a module of constants holds. -/
structure Contents where
  /-- The two comments at the top. -/
  banner : String × String
  declarations : List Declaration
  deriving DecidableEq, Repr

/-- What a text holds as a module of constants. -/
def read? (text : List Char) : Option Contents := do
  let (first, rest) ← commentLine? text
  let (second, rest) ← commentLine? rest
  match rest with
  | '\n' :: rest =>
    let declarations ← (lexemes? rest).bind declarations?
    some ⟨(first, second), declarations⟩
  | _ => none

/-! ## Lexemes piece by piece -/

/-- A piece of a text has these lexemes where it stands in front of `rest`. -/
structure LexesAs (piece : List Char) (lexemes : List Lexeme) (rest : List Char) : Prop where
  length_le : lexemes.length ≤ piece.length
  run : ∀ fuel, lexemesUpTo (fuel + lexemes.length) (piece ++ rest) =
    (lexemesUpTo fuel rest).map (lexemes ++ ·)

variable {piece piece' rest : List Char} {lexemes lexemes' : List Lexeme}

theorem LexesAs.append (h : LexesAs piece lexemes (piece' ++ rest))
    (h' : LexesAs piece' lexemes' rest) :
    LexesAs (piece ++ piece') (lexemes ++ lexemes') rest where
  length_le := by
    rw [List.length_append, List.length_append]
    exact Nat.add_le_add h.length_le h'.length_le
  run fuel := by
    rw [List.length_append, Nat.add_comm lexemes.length, ← Nat.add_assoc, List.append_assoc, h.run,
      h'.run]
    cases lexemesUpTo fuel rest <;> simp

theorem LexesAs.flatMap {α : Type} {items : List α} {text : α → List Char} {parts : α → List Lexeme}
    (h : ∀ item rest, LexesAs (text item) (parts item) rest) :
    LexesAs (items.flatMap text) (items.flatMap parts) rest := by
  induction items with
  | nil =>
    refine ⟨Nat.le_refl 0, fun fuel => ?_⟩
    change lexemesUpTo fuel rest = _
    cases lexemesUpTo fuel rest <;> rfl
  | cons item items ih => exact (h item _).append ih

theorem LexesAs.lexemes?_eq (h : LexesAs piece lexemes []) : lexemes? piece = some lexemes := by
  obtain ⟨fuel, hfuel⟩ := Nat.exists_eq_add_of_le h.length_le
  have hrun := h.run (fuel + 1)
  rw [List.append_nil, Nat.add_right_comm, Nat.add_comm fuel, ← hfuel] at hrun
  rw [lexemes?, hrun]
  exact congrArg some (List.append_nil lexemes)

theorem lexemesUpTo_of_nextLexeme? {text behind : List Char} {c : Char} {lexeme : Lexeme}
    (hblank : text.dropWhile Json.isBlank = c :: rest)
    (hlexeme : nextLexeme? (c :: rest) = some (lexeme, behind)) (fuel : Nat) :
    lexemesUpTo (fuel + 1) text = (lexemesUpTo fuel behind).map (lexeme :: ·) := by
  rw [lexemesUpTo, hblank]
  dsimp only
  rw [hlexeme]
  rfl

theorem lexemesUpTo_blank {c : Char} (h : Json.isBlank c = true) (fuel : Nat) (text : List Char) :
    lexemesUpTo fuel (c :: text) = lexemesUpTo fuel text := by
  cases fuel with
  | zero => rfl
  | succ fuel => rw [lexemesUpTo, lexemesUpTo, List.dropWhile_cons_of_pos h]

theorem LexesAs.blank {c : Char} (hc : Json.isBlank c = true) (h : LexesAs piece lexemes rest) :
    LexesAs (c :: piece) lexemes rest where
  length_le := Nat.le_succ_of_le h.length_le
  run fuel := by
    rw [List.cons_append, lexemesUpTo_blank hc]
    exact h.run fuel

/-! ## The lexemes of a declaration -/

theorem nextLexeme?_literal (name : String) (rest : List Char) :
    nextLexeme? (Json.literal name.toList ++ rest) = some (.literal name, rest) := by
  rw [Json.literal, List.cons_append, List.append_assoc, List.singleton_append, nextLexeme?,
    Json.readUnits_flatMap_escape]
  simp [Json.joinUnits_toNat]

theorem lexesAs_element (name : String) (rest : List Char) :
    LexesAs (element name) [.literal name, .mark ','] rest where
  length_le := by simp [element]
  run fuel := by
    rw [element, List.append_assoc]
    change lexemesUpTo (fuel + 1 + 1)
      (' ' :: ' ' :: Json.literal name.toList ++ ',' :: '\n' :: rest) = _
    rw [lexemesUpTo_of_nextLexeme? rfl (nextLexeme?_literal name _),
      lexemesUpTo_of_nextLexeme? rfl rfl, lexemesUpTo_blank rfl]
    cases lexemesUpTo fuel rest <;> rfl

/-- A text that is read as one word. -/
def IsWord (word : String) : Prop := word ≠ "" ∧ word.toList.all isWordChar = true

instance (word : String) : Decidable (IsWord word) :=
  inferInstanceAs (Decidable (word ≠ "" ∧ word.toList.all isWordChar = true))

theorem of_isWordChar {c : Char} (h : isWordChar c = true) :
    c ≠ '"' ∧ isMark c = false ∧ Json.isBlank c = false := by
  have hothers : ['"', '=', '[', ']', ',', ';', ' ', '\t', '\n', '\r'].all
      (fun d => !isWordChar d) = true := rfl
  have hne : c ∉ ['"', '=', '[', ']', ',', ';', ' ', '\t', '\n', '\r'] := by
    intro hmem
    have hother := List.all_eq_true.mp hothers c hmem
    rw [h] at hother
    cases hother
  simp only [List.mem_cons, List.not_mem_nil, or_false, not_or] at hne
  simp [isMark, Json.isBlank, hne]

theorem nextLexeme?_word {c : Char} {word : List Char} (h : ∀ d ∈ c :: word, isWordChar d = true)
    (rest : List Char) :
    nextLexeme? (c :: word ++ ' ' :: rest) =
      some (.word (String.ofList (c :: word)), ' ' :: rest) := by
  have hc := h c (List.mem_cons_self ..)
  obtain ⟨hquote, hmark, -⟩ := of_isWordChar hc
  have hspace : isWordChar ' ' = false := rfl
  rw [List.cons_append, nextLexeme?, hmark, if_neg Bool.false_ne_true, if_pos hc,
    ← List.cons_append, List.takeWhile_append_of_pos h, List.dropWhile_append_of_pos h]
  · simp [hspace]
  · exact hquote

theorem lexesAs_word {word : String} (h : IsWord word) (rest : List Char) :
    LexesAs (word.toList ++ [' ']) [.word word] rest where
  length_le := by simp
  run fuel := by
    obtain ⟨hne, hall⟩ := h
    obtain ⟨c, cs, hword⟩ := List.exists_cons_of_ne_nil (mt String.toList_eq_nil_iff.mp hne)
    rw [hword, List.all_eq_true] at hall
    obtain ⟨-, -, hblank⟩ := of_isWordChar (hall c (List.mem_cons_self ..))
    have hstart : (c :: cs ++ ' ' :: rest).dropWhile Json.isBlank = c :: (cs ++ ' ' :: rest) :=
      List.dropWhile_cons_of_neg (by simp [hblank])
    rw [List.append_assoc, List.singleton_append, hword]
    change lexemesUpTo (fuel + 1) _ = _
    rw [lexemesUpTo_of_nextLexeme? hstart (nextLexeme?_word hall rest), lexemesUpTo_blank rfl,
      ← hword, String.ofList_toList]
    rfl

/-- The lexemes of a declaration. -/
def declarationLexemes (identifier : String) (names : List String) : List Lexeme :=
  [.word "export", .word "const", .word identifier, .mark '=', .mark '['] ++
    names.flatMap (fun name => [.literal name, .mark ',']) ++
    [.mark ']', .word "as", .word "const", .mark ';']

theorem lexesAs_constant {identifier : String} (h : IsWord identifier) (names : List String)
    (rest : List Char) :
    LexesAs (constant identifier names) (declarationLexemes identifier names) rest := by
  have hwords : ∀ rest, LexesAs ("export const " ++ identifier ++ " ").toList
      [.word "export", .word "const", .word identifier] rest := by
    intro rest
    have hpieces : ("export const " ++ identifier ++ " ").toList =
        ("export".toList ++ [' ']) ++
          (("const".toList ++ [' ']) ++ (identifier.toList ++ [' '])) := by
      simp
    rw [hpieces]
    exact (lexesAs_word (by decide) _).append
      ((lexesAs_word (by decide) _).append (lexesAs_word h _))
  have hopen : ∀ rest, LexesAs "= [".toList [.mark '=', .mark '['] rest := by
    intro rest
    refine ⟨by decide, fun fuel => ?_⟩
    change lexemesUpTo (fuel + 1 + 1) ('=' :: ' ' :: '[' :: rest) = _
    rw [lexemesUpTo_of_nextLexeme? rfl rfl, lexemesUpTo_of_nextLexeme? rfl rfl]
    cases lexemesUpTo fuel rest <;> rfl
  have hclose : ∀ rest, LexesAs "] as const;\n".toList
      [.mark ']', .word "as", .word "const", .mark ';'] rest := by
    intro rest
    refine ⟨by decide, fun fuel => ?_⟩
    change lexemesUpTo (fuel + 1 + 1 + 1 + 1) (']' :: ' ' :: 'a' :: 's' :: ' ' ::
      'c' :: 'o' :: 'n' :: 's' :: 't' :: ';' :: '\n' :: rest) = _
    rw [lexemesUpTo_of_nextLexeme? rfl rfl, lexemesUpTo_of_nextLexeme? rfl rfl,
      lexemesUpTo_of_nextLexeme? rfl rfl, lexemesUpTo_of_nextLexeme? rfl rfl,
      lexemesUpTo_blank rfl]
    cases lexemesUpTo fuel rest <;> rfl
  cases names with
  | nil =>
    have hpieces : constant identifier [] =
        ("export const " ++ identifier ++ " ").toList ++
          ("= [".toList ++ "] as const;\n".toList) := by
      simp [constant]
    rw [hpieces]
    exact (hwords _).append ((hopen _).append (hclose _))
  | cons name names =>
    have hpieces : constant identifier (name :: names) =
        ("export const " ++ identifier ++ " ").toList ++
          ("= [".toList ++
            '\n' :: ((name :: names).flatMap element ++ "] as const;\n".toList)) := by
      simp [constant]
    have hvalues : ∀ rest, LexesAs ((name :: names).flatMap element)
        ((name :: names).flatMap fun name => [.literal name, .mark ',']) rest :=
      fun _ => .flatMap lexesAs_element
    rw [hpieces, declarationLexemes, List.append_assoc]
    exact (hwords _).append ((hopen _).append (((hvalues _).append (hclose _)).blank rfl))

/-! ## Declarations -/

theorem values?_flatMap (names : List String) (behind : List Lexeme) :
    values? (names.flatMap (fun name => [.literal name, .mark ',']) ++ .mark ']' :: behind) =
      some (names, behind) := by
  induction names with
  | nil => rfl
  | cons name names ih =>
    rw [List.flatMap_cons, List.append_assoc, List.cons_append, List.singleton_append, values?, ih]
    rfl

theorem declaration?_declarationLexemes (identifier : String) (names : List String)
    (behind : List Lexeme) :
    declaration? (declarationLexemes identifier names ++ behind) =
      some (⟨identifier, names⟩, behind) := by
  have hvalues := values?_flatMap names (.word "as" :: .word "const" :: .mark ';' :: behind)
  rw [declarationLexemes]
  simp only [List.append_assoc, List.cons_append, List.nil_append]
  rw [declaration?, hvalues]
  rfl

theorem declarationsUpTo_of_declaration? {lexemes behind : List Lexeme} {declaration : Declaration}
    (h : declaration? lexemes = some (declaration, behind)) (fuel : Nat) :
    declarationsUpTo (fuel + 1) lexemes =
      (declarationsUpTo fuel behind).map (declaration :: ·) := by
  rw [declarationsUpTo, h]
  · rfl
  · rintro rfl
    cases h

theorem declarations?_declarationLexemes (first second : Declaration) :
    declarations? (declarationLexemes first.identifier first.values ++
      declarationLexemes second.identifier second.values) = some [first, second] := by
  obtain ⟨fuel, hfuel⟩ : ∃ fuel, (declarationLexemes first.identifier first.values ++
      declarationLexemes second.identifier second.values).length = fuel + 2 := by
    simp [declarationLexemes]
  have hsecond := declaration?_declarationLexemes second.identifier second.values []
  rw [List.append_nil] at hsecond
  rw [declarations?, hfuel,
    declarationsUpTo_of_declaration? (declaration?_declarationLexemes ..),
    declarationsUpTo_of_declaration? hsecond, declarationsUpTo]
  rfl

/-! ## The module -/

theorem commentLine?_append {comment : List Char} (h : '\n' ∉ comment) (rest : List Char) :
    commentLine? ('/' :: '/' :: (comment ++ '\n' :: rest)) =
      some (String.ofList comment, rest) := by
  have hline : ∀ c ∈ comment, (c != '\n') = true := fun c hc => by
    simpa using ne_of_mem_of_not_mem hc h
  rw [commentLine?, List.dropWhile_append_of_pos hline, List.takeWhile_append_of_pos hline]
  simp

/-- The comments at the top of every module of constants. -/
def bannerComments : String × String :=
  (" This file is generated by qpdf-exports. Do not edit it by hand.",
    " Regenerate it by running the export generator against qpdf-c.h.")

theorem read?_banner (rest : List Char) :
    read? (banner.toList ++ rest) =
      ((lexemes? rest).bind declarations?).map (⟨bannerComments, ·⟩) := by
  have htext : banner = "//" ++ bannerComments.1 ++ "\n//" ++ bannerComments.2 ++ "\n\n" := by
    decide +kernel
  have hbanner : banner.toList ++ rest = '/' :: '/' :: (bannerComments.1.toList ++ '\n' ::
      '/' :: '/' :: (bannerComments.2.toList ++ '\n' :: '\n' :: rest)) := by
    rw [htext]
    simp only [String.toList_append, List.append_assoc]
    rfl
  rw [hbanner, read?, commentLine?_append (by decide), Option.bind_eq_bind, Option.bind_some]
  dsimp only
  rw [commentLine?_append (by decide), Option.bind_some]
  simp only [String.ofList_toList]
  cases (lexemes? rest).bind declarations? <;> rfl

theorem read?_render (m : Manifest) :
    read? (render m) = some ⟨bannerComments, [⟨"EXPORTED_FUNCTIONS", m.exports⟩,
      ⟨"EXPORTED_RUNTIME_METHODS", m.runtimeMethods⟩]⟩ := by
  have hlexemes : LexesAs (constant "EXPORTED_FUNCTIONS" m.exports ++
      '\n' :: constant "EXPORTED_RUNTIME_METHODS" m.runtimeMethods) _ [] :=
    (lexesAs_constant (by decide) _ _).append ((lexesAs_constant (by decide) _ _).blank rfl)
  rw [render, List.append_assoc, read?_banner, hlexemes.lexemes?_eq, Option.bind_some,
    declarations?_declarationLexemes ⟨_, _⟩ ⟨_, _⟩]
  rfl

end ExportTables.Constants
