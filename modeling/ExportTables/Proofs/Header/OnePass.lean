import ExportTables.Proofs.Header.Passes

/-!
# One pass instead of two

A compiler reads a text once, from left to right, and where it stands decides what a comment
marker means. `lex` reads that way: it cuts a text into block comments, line comments and other
characters. A block comment that is never closed is none, and its `/` is an ordinary character.

The two passes know less, since the first of them sees block comments inside line comments too.
Where no line comment holds `/*` the two readings agree. The proof follows the scanner: behind a
block comment and behind a line comment both readings start afresh.
-/

namespace ExportTables.Header

/-- A piece of a text as one scan from left to right reads it. -/
inductive Lexeme where
  /-- What stands between `/*` and the nearest `*/` behind it. -/
  | blockComment (body : List Char)
  /-- What stands between `//` and the end of the line. -/
  | lineComment (body : List Char)
  | other (c : Char)
  deriving DecidableEq, Repr

namespace Lexeme

/-- The characters that a lexeme is made of. -/
def text : Lexeme → List Char
  | blockComment body => '/' :: '*' :: body ++ ['*', '/']
  | lineComment body => '/' :: '/' :: body
  | other c => [c]

/-- What is left of a lexeme in a text without comments. -/
def kept : Lexeme → List Char
  | blockComment _ => [' ']
  | lineComment _ => []
  | other c => [c]

/-- Whether a lexeme is a line comment. -/
def isLineComment : Lexeme → Bool
  | lineComment _ => true
  | _ => false

end Lexeme

/-- What stands in front of the nearest `*/` of a text, and what stands behind it. -/
def splitBlock? : List Char → Option (List Char × List Char)
  | '*' :: '/' :: after => some ([], after)
  | c :: rest => (splitBlock? rest).map fun (body, after) => (c :: body, after)
  | [] => none

theorem eq_append_of_splitBlock? {text body after : List Char}
    (h : splitBlock? text = some (body, after)) : text = body ++ '*' :: '/' :: after := by
  fun_induction splitBlock? text generalizing body with
  | case1 rest =>
    obtain ⟨rfl, rfl⟩ := Prod.mk.inj (Option.some.inj h)
    rfl
  | case2 c rest _ ih =>
    obtain ⟨⟨inner, behind⟩, hsplit, heq⟩ := Option.map_eq_some_iff.mp h
    obtain ⟨rfl, rfl⟩ := Prod.mk.inj heq
    rw [List.cons_append, ← ih hsplit]
  | case3 => cases h

theorem splitBlock?_eq_none {text : List Char} :
    splitBlock? text = none ↔ closesBlock text = false := by
  fun_induction splitBlock? text with
  | case1 rest => simp [closesBlock]
  | case2 c rest hne ih =>
    rw [Option.map_eq_none_iff, ih, closesBlock]
    exact hne
  | case3 => simp [closesBlock]

/-- A body is split off whole, whatever it begins and ends with, if it holds no `*/` itself. -/
theorem splitBlock?_append {body : List Char} (h : closesBlock body = false) (after : List Char) :
    splitBlock? (body ++ '*' :: '/' :: after) = some (body, after) := by
  induction body with
  | nil => rfl
  | cons c rest ih =>
    rw [List.cons_append, splitBlock?, ih (closesBlock_of_cons h)]
    · rfl
    · rintro tail rfl hrest
      cases rest with
      | nil => exact absurd (List.cons.inj hrest).1 (by decide)
      | cons d rest =>
        obtain ⟨rfl, -⟩ := List.cons.inj hrest
        simp [closesBlock] at h

theorem stripBlocks_of_splitBlock? {text body after : List Char}
    (h : splitBlock? text = some (body, after)) :
    stripBlocks true text = stripBlocks false after := by
  fun_induction splitBlock? text generalizing body with
  | case1 rest =>
    obtain ⟨-, rfl⟩ := Prod.mk.inj (Option.some.inj h)
    rw [stripBlocks]
  | case2 c rest hne ih =>
    obtain ⟨⟨inner, behind⟩, hsplit, heq⟩ := Option.map_eq_some_iff.mp h
    obtain ⟨-, rfl⟩ := Prod.mk.inj heq
    rw [stripBlocks, ih hsplit]
    exact hne
  | case3 => cases h

/-- The lexemes of a text, from left to right. -/
def lex (text : List Char) : List Lexeme :=
  match text with
  | '/' :: '*' :: rest =>
    match _hsplit : splitBlock? rest with
    | some (body, after) => .blockComment body :: lex after
    | none => .other '/' :: lex ('*' :: rest)
  | '/' :: '/' :: rest =>
    .lineComment (rest.takeWhile (· != '\n')) :: lex (rest.dropWhile (· != '\n'))
  | c :: rest => .other c :: lex rest
  | [] => []
termination_by text.length
decreasing_by
  · have hlength := congrArg List.length (eq_append_of_splitBlock? _hsplit)
    simp only [List.length_append, List.length_cons] at hlength ⊢
    omega
  · simp
  · have hsuffix : rest.dropWhile (· != '\n') <:+ rest := List.dropWhile_suffix _
    have hlength := hsuffix.length_le
    simp only [List.length_cons]
    omega
  · simp

/-- The text without its comments, as one scan from left to right reads it. -/
def onePass (text : List Char) : List Char := (lex text).flatMap Lexeme.kept

/-- The lexemes of a text make up the text. -/
theorem flatMap_text_lex (text : List Char) : (lex text).flatMap Lexeme.text = text := by
  fun_induction lex text with
  | case1 rest body after hsplit ih =>
    rw [List.flatMap_cons, ih, eq_append_of_splitBlock? hsplit]
    simp [Lexeme.text]
  | case2 rest _ ih => rw [List.flatMap_cons, ih]; rfl
  | case3 rest ih =>
    rw [List.flatMap_cons, ih]
    simp [Lexeme.text, List.takeWhile_append_dropWhile]
  | case4 c rest _ _ ih => rw [List.flatMap_cons, ih]; rfl
  | case5 => rfl

theorem dropWhile_line (rest : List Char) :
    rest.dropWhile (· != '\n') = [] ∨ ∃ tail, rest.dropWhile (· != '\n') = '\n' :: tail := by
  cases h : rest.dropWhile (· != '\n') with
  | nil => exact Or.inl rfl
  | cons c tail =>
    have hnot := List.head?_dropWhile_not (· != '\n') rest
    rw [h] at hnot
    obtain rfl : c = '\n' := by simpa using hnot
    exact Or.inr ⟨tail, rfl⟩

/-! ## The two passes, lexeme by lexeme -/

/-- Behind a block comment the first pass starts afresh. -/
theorem stripBlocks_blockComment {rest body after : List Char}
    (h : splitBlock? rest = some (body, after)) :
    stripBlocks false ('/' :: '*' :: rest) = ' ' :: stripBlocks false after := by
  have hcloses : closesBlock rest = true := by
    rw [← Bool.not_eq_false, ← splitBlock?_eq_none, h]
    simp
  rw [stripBlocks, if_pos hcloses, stripBlocks_of_splitBlock? h]

/-- Behind a block comment both passes start afresh. -/
theorem stripComments_blockComment {rest body after : List Char}
    (h : splitBlock? rest = some (body, after)) :
    stripComments ('/' :: '*' :: rest) = ' ' :: stripComments after := by
  rw [stripComments, stripBlocks_blockComment h, stripLines_cons fun hc => absurd hc (by decide)]
  rfl

/-- The first pass stops at a block comment that is never closed, and the second one goes on. -/
theorem stripComments_openBlock {rest : List Char} (h : splitBlock? rest = none) :
    stripComments ('/' :: '*' :: rest) = '/' :: stripComments ('*' :: rest) := by
  have hcloses := splitBlock?_eq_none.mp h
  rw [stripComments, stripBlocks, if_neg (by simp [hcloses]), stripLines_cons (by simp),
    stripComments, stripBlocks_cons fun hc => absurd hc (by decide),
    stripBlocks_of_not_closesBlock hcloses]

/-- Behind a line comment that holds no `/*` both passes start afresh. -/
theorem stripComments_lineComment {body tail : List Char} (hbody : '\n' ∉ body)
    (hopen : ¬['/', '*'] <:+: '/' :: '/' :: body)
    (htail : tail = [] ∨ ∃ rest, tail = '\n' :: rest) :
    stripComments ('/' :: '/' :: body ++ tail) = stripComments tail := by
  have happart : Apart ('/' :: '/' :: body) tail := by
    apply Apart.of_head?_ne
    rcases htail with rfl | ⟨rest, rfl⟩ <;> simp
  have hcomment : stripLines false ('/' :: '/' :: body) = [] := by
    rw [stripLines, stripLines_inside hbody]
  rw [stripComments, stripBlocks_append (Or.inl (.of_no_opening hopen)) happart,
    stripBlocks_of_no_opening hopen]
  rcases htail with rfl | ⟨rest, rfl⟩
  · simpa [stripComments, stripBlocks, stripLines] using hcomment
  · rw [stripBlocks_newline, stripLines_append_newline, hcomment, stripComments,
      stripBlocks_newline, stripLines_cons fun hc => absurd hc (by decide)]
    rfl

/-- Both passes keep a character that begins no comment. -/
theorem stripComments_cons {c : Char} {rest : List Char} (hblock : c = '/' → rest.head? ≠ some '*')
    (hline : c = '/' → rest.head? ≠ some '/') :
    stripComments (c :: rest) = c :: stripComments rest := by
  rw [stripComments, stripBlocks_cons hblock, stripLines_cons]
  · rfl
  · intro hc hhead
    rcases head?_stripBlocks hhead with hspace | hslash
    · exact absurd hspace (by decide)
    · exact hline hc hslash

theorem stripComments_eq_flatMap_kept (text : List Char)
    (h : ∀ l ∈ lex text, l.isLineComment → ¬['/', '*'] <:+: l.text) :
    stripComments text = (lex text).flatMap Lexeme.kept := by
  fun_induction lex text with
  | case1 rest body after hsplit ih =>
    rw [stripComments_blockComment hsplit, ih fun l hl => h l (List.mem_cons_of_mem _ hl)]
    rfl
  | case2 rest hsplit ih =>
    rw [stripComments_openBlock hsplit, ih fun l hl => h l (List.mem_cons_of_mem _ hl)]
    rfl
  | case3 rest ih =>
    have hbody : '\n' ∉ rest.takeWhile (· != '\n') :=
      fun hmem => by simpa using List.all_eq_true.mp List.all_takeWhile _ hmem
    calc stripComments ('/' :: '/' :: rest)
        = stripComments
            ('/' :: '/' :: rest.takeWhile (· != '\n') ++ rest.dropWhile (· != '\n')) := by
          rw [List.cons_append, List.cons_append, List.takeWhile_append_dropWhile]
      _ = stripComments (rest.dropWhile (· != '\n')) :=
          stripComments_lineComment hbody (h _ (List.mem_cons_self ..) rfl) (dropWhile_line rest)
      _ = (lex (rest.dropWhile (· != '\n'))).flatMap Lexeme.kept :=
          ih fun l hl => h l (List.mem_cons_of_mem _ hl)
  | case4 c rest hblock hline ih =>
    rw [stripComments_cons, ih fun l hl => h l (List.mem_cons_of_mem _ hl)]
    · rfl
    · rintro rfl hhead
      obtain ⟨tail, rfl⟩ := List.head?_eq_some_iff.mp hhead
      exact hblock tail rfl rfl
    · rintro rfl hhead
      obtain ⟨tail, rfl⟩ := List.head?_eq_some_iff.mp hhead
      exact hline tail rfl rfl
  | case5 => simp [stripComments, stripBlocks, stripLines]

/-- Removing comments in two passes is reading them in one scan, for every text in which no line
comment that the scan skips holds `/*`. Nothing is asked of the block comments. The scan reads the
whole text: its lexemes make it up. -/
theorem stripComments_eq_onePass (text : List Char)
    (h : ∀ l ∈ lex text, l.isLineComment → ¬['/', '*'] <:+: l.text) :
    (lex text).flatMap Lexeme.text = text ∧ stripComments text = onePass text :=
  ⟨flatMap_text_lex text, stripComments_eq_flatMap_kept text h⟩

/-- Comments that touch, a block comment that begins like a closed one and holds `//`, and one that
is never closed. -/
theorem stripComments_eq_onePass_touching :
    let text := "a/*/ // x **/b/**// y\nc/* open // z".toList
    (∀ l ∈ lex text, l.isLineComment → ¬['/', '*'] <:+: l.text) ∧
      stripComments text = onePass text :=
  have h := by decide +kernel
  ⟨h, (stripComments_eq_onePass _ h).2⟩

/-- A line comment that holds `/*` sets the two readings apart. -/
example : stripComments "// /*\nx /* */".toList ≠ onePass "// /*\nx /* */".toList := by
  decide +kernel

end ExportTables.Header
