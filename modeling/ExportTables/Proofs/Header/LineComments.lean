import ExportTables.Header
import ExportTables.Proofs.Header.Passes

/-!
# What a line comment hides

A line comment takes itself away and nothing else, unless a block comment gets in the way: the
first pass does not know about line comments, so it finds block comments that begin in one and end
in the lines behind. A line comment keeps to its line when that does not happen. Then the text in
front of it, the comment and the lines behind it are rid of their comments apart from each other.
-/

namespace ExportTables.Header

/-- No block comment gets in the way of a line comment with these lines behind it. None begins at
the comment's second slash, because a star follows there only if no `*/` comes after it; and
none begins in the comment and ends behind it. -/
structure KeepsToItsLine (comment behind : List Char) : Prop where
  atSlash : comment.head? = some '*' → closesBlock (comment.tail ++ '\n' :: behind) = false
  inside : BlocksClosed comment ∨ closesBlock behind = false

theorem newline_not_mem_stripBlocks {inBlock : Bool} {line : List Char} (h : '\n' ∉ line) :
    '\n' ∉ stripBlocks inBlock line := by
  fun_induction stripBlocks inBlock line <;> simp_all

theorem closesNothing_newline {behind : List Char} (h : closesBlock behind = false) :
    ClosesNothing ('\n' :: behind) :=
  ⟨by rwa [closesBlock]; simp, by simp⟩

/-- The first pass leaves the slashes of a line comment that keeps to its line, and goes over the
lines behind it as if they stood alone. -/
theorem stripBlocks_lineComment {comment behind : List Char} (hline : '\n' ∉ comment)
    (h : KeepsToItsLine comment behind) :
    ∃ line, '\n' ∉ line ∧ stripBlocks false ('/' :: '/' :: comment ++ '\n' :: behind) =
      '/' :: '/' :: line ++ '\n' :: stripBlocks false behind := by
  by_cases hstar : comment.head? = some '*'
  · obtain ⟨rest, rfl⟩ := List.head?_eq_some_iff.mp hstar
    have hnone : closesBlock (rest ++ '\n' :: behind) = false := h.atSlash hstar
    have hbehind : closesBlock behind = false := by
      rw [Bool.eq_false_iff, ne_eq, closesBlock_iff] at hnone ⊢
      exact fun hinner => hnone
        (hinner.trans ((List.suffix_cons '\n' behind).trans (List.suffix_append rest _)).isInfix)
    refine ⟨'*' :: rest, hline, ?_⟩
    rw [stripBlocks_of_not_closesBlock hbehind, List.cons_append, List.cons_append,
      stripBlocks_cons (by simp), List.cons_append, stripBlocks, if_neg (by simp [hnone])]
  · have hhead : (comment ++ '\n' :: behind).head? ≠ some '*' := by
      cases comment with
      | nil => simp
      | cons c rest => simpa using hstar
    refine ⟨stripBlocks false comment, newline_not_mem_stripBlocks hline, ?_⟩
    rw [List.cons_append, List.cons_append, stripBlocks_cons (by simp),
      stripBlocks_cons fun _ => hhead,
      stripBlocks_append (h.inside.imp_right closesNothing_newline) (.of_head?_ne (by simp)),
      stripBlocks_newline]
    rfl

theorem stripComments_append_lineComment {before comment behind : List Char}
    (hbefore : BlocksClosed before) (hslash : before.getLast? ≠ some '/')
    (hline : '\n' ∉ comment) (h : KeepsToItsLine comment behind) :
    stripComments (before ++ '/' :: '/' :: comment ++ '\n' :: behind) =
      stripComments (before ++ '\n' :: behind) := by
  obtain ⟨line, hnewline, hcomment⟩ := stripBlocks_lineComment hline h
  have hlast : (stripBlocks false before).getLast? ≠ some '/' := fun hlast =>
    (getLast?_stripBlocks hlast).elim (fun hspace => absurd hspace (by decide)) hslash
  have happart : ∀ right, Apart before right := fun _ => .of_getLast?_ne hslash
  rw [stripComments, stripComments, List.append_assoc,
    stripBlocks_append (Or.inl hbefore) (happart _),
    stripBlocks_append (Or.inl hbefore) (happart _), hcomment, stripBlocks_newline,
    ← List.append_assoc, stripLines_append_newline, stripLines_append_newline,
    stripLines_append_lineComment hlast hnewline]

/-- Without a condition on the comment the lines behind it are not safe: the first pass takes a
`/*` in a line comment for the start of a block comment and removes the declarations up to the
next `*/`. -/
theorem lineComment_can_hide_lines :
    ¬∀ (rule : ExportRule) (source before comment behind : String),
      BlocksClosed before.toList → before.toList.getLast? ≠ some '/' → '\n' ∉ comment.toList →
      (ofText rule source (before ++ "//" ++ comment ++ "\n" ++ behind)).symbols =
        (ofText rule source (before ++ "\n" ++ behind)).symbols := by
  intro h
  have hrun := h ⟨"MARKER", "prefix_"⟩ "test.h" "" " see /* below"
    "MARKER int prefix_a(void);\n/* done */\n" (by decide) (by decide) (by decide)
  revert hrun
  decide +kernel

/-- A line comment that begins with a star can also show what it should hide. -/
example : (ofText ⟨"MARKER", "prefix_"⟩ "test.h" "//* x */MARKER int prefix_a(void);").symbols =
    ["prefix_a"] := by
  decide +kernel

/-- A line comment that keeps to its line hides nothing beyond it: without the comment, the header
exports the same names. -/
theorem symbols_ofText_lineComment (rule : ExportRule) (source before comment behind : String)
    (hbefore : BlocksClosed before.toList) (hslash : before.toList.getLast? ≠ some '/')
    (hline : '\n' ∉ comment.toList) (h : KeepsToItsLine comment.toList behind.toList) :
    (ofText rule source (before ++ "//" ++ comment ++ "\n" ++ behind)).symbols =
      (ofText rule source (before ++ "\n" ++ behind)).symbols := by
  have hstrip := stripComments_append_lineComment hbefore hslash hline h
  simp only [ofText, String.toList_append]
  rw [show "//".toList = ['/', '/'] from rfl, show "\n".toList = ['\n'] from rfl]
  simpa using congrArg (exportedNames rule) hstrip

/-- A comment full of stars and slashes behind a closed block comment, with declarations before,
in and behind it. -/
theorem symbols_ofText_lineComment_between :
    let before := "/* x */MARKER int prefix_a(void); *"
    let comment := "/ MARKER int prefix_b(void); /* y **/ *//"
    let behind := "MARKER int prefix_c(void); */"
    BlocksClosed before.toList ∧ before.toList.getLast? ≠ some '/' ∧ '\n' ∉ comment.toList ∧
      KeepsToItsLine comment.toList behind.toList ∧
      (ofText ⟨"MARKER", "prefix_"⟩ "test.h"
          (before ++ "//" ++ comment ++ "\n" ++ behind)).symbols =
        (ofText ⟨"MARKER", "prefix_"⟩ "test.h" (before ++ "\n" ++ behind)).symbols :=
  have hkeeps := ⟨by decide, by decide⟩
  ⟨by decide, by decide, by decide, hkeeps,
    symbols_ofText_lineComment _ _ _ _ _ (by decide) (by decide) (by decide) hkeeps⟩

end ExportTables.Header
