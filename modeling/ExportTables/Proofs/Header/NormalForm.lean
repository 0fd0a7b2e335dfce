import ExportTables.Proofs.Header.Passes

/-!
# Texts without comments

What is left of a text holds no comment, and a text that holds none is left as it is. So comments
are gone after one call, and another call finds nothing to remove.

The first pass removes block comments and leaves a space for each, so the characters around one do
not meet. The second pass removes line comments and leaves nothing, but only up to a newline or the
end of the text. So in what it leaves, two neighbours that are no newline were neighbours before,
and it can neither open nor close a block comment.
-/

namespace ExportTables.Header

/-- The text holds no comment: it reads `//` nowhere, and no `/*` is closed. -/
structure CommentFree (text : List Char) : Prop where
  noLine : ¬['/', '/'] <:+: text
  noBlock : ¬HoldsBlock text

theorem CommentFree.of_no_slash {text : List Char} (h : '/' ∉ text) : CommentFree text where
  noLine hline := h (hline.subset (by simp))
  noBlock hblock := h (hblock.opens.subset (by simp))

theorem pair_infix_cons {a b c : Char} {rest : List Char} :
    [a, b] <:+: c :: rest ↔ (c = a ∧ rest.head? = some b) ∨ [a, b] <:+: rest := by
  rw [List.infix_cons_iff, List.cons_prefix_cons, List.singleton_prefix_iff_head?_eq_some,
    eq_comm (a := a)]

/-! ## The first pass -/

theorem not_holdsBlock_stripBlocks (inBlock : Bool) (text : List Char) :
    ¬HoldsBlock (stripBlocks inBlock text) := by
  fun_induction stripBlocks inBlock text with
  | case1 rest ih => exact ih
  | case2 head rest _ ih => exact ih
  | case3 rest _ ih => simpa [holdsBlock_cons] using ih
  | case4 rest hopen =>
    have hrest : ¬HoldsBlock rest := fun h => hopen h.closes
    simpa [holdsBlock_cons, hopen] using hrest
  | case5 c rest hne ih =>
    rw [holdsBlock_cons]
    rintro (⟨rfl, inner, hinner, -⟩ | hrest)
    · -- A star that follows is no space, so it followed in the text.
      rcases head?_stripBlocks (by rw [hinner]; rfl) with hspace | hstar
      · exact absurd hspace (by decide)
      · obtain ⟨tail, rfl⟩ := List.head?_eq_some_iff.mp hstar
        exact hne tail rfl rfl
    · exact ih hrest
  | case6 => exact not_holdsBlock_nil

/-! ## The second pass -/

theorem head?_stripLines_inside {text : List Char} {c : Char}
    (h : (stripLines true text).head? = some c) : c = '\n' := by
  induction text with
  | nil => simp [stripLines] at h
  | cons d rest ih =>
    by_cases hd : d = '\n'
    · subst hd
      exact (Option.some.inj h).symm
    · rw [stripLines] at h
      · exact ih h
      · exact hd

/-- What the second pass leaves begins with a newline or as the text began. -/
theorem head?_stripLines {text : List Char} {c : Char}
    (h : (stripLines false text).head? = some c) : c = '\n' ∨ text.head? = some c := by
  cases text with
  | nil => simp [stripLines] at h
  | cons d rest =>
    by_cases hopen : d = '/' ∧ rest.head? = some '/'
    · obtain ⟨rfl, hhead⟩ := hopen
      obtain ⟨tail, rfl⟩ := List.head?_eq_some_iff.mp hhead
      exact Or.inl (head?_stripLines_inside h)
    · rw [stripLines_cons fun hc hhead => hopen ⟨hc, hhead⟩] at h
      exact Or.inr h

theorem no_lineComment_stripLines (inLine : Bool) (text : List Char) :
    ¬['/', '/'] <:+: stripLines inLine text := by
  fun_induction stripLines inLine text with
  | case1 rest ih => simpa [pair_infix_cons] using ih
  | case2 head rest _ ih => exact ih
  | case3 rest ih => exact ih
  | case4 c rest hne ih =>
    intro h
    rcases pair_infix_cons.mp h with ⟨rfl, hhead⟩ | hrest
    · rcases head?_stripLines hhead with hnewline | hslash
      · exact absurd hnewline (by decide)
      · obtain ⟨behind, rfl⟩ := List.head?_eq_some_iff.mp hslash
        exact hne behind rfl rfl
    · exact ih hrest
  | case5 => simp

/-- Two neighbours in what the second pass leaves, of which the second one is no newline, are
neighbours in the text. -/
theorem pair_of_stripLines {a b : Char} (hb : b ≠ '\n') {inLine : Bool} {text : List Char}
    (h : [a, b] <:+: stripLines inLine text) : [a, b] <:+: text := by
  have hkept : ∀ {c : Char} {rest : List Char},
      ([a, b] <:+: stripLines false rest → [a, b] <:+: rest) →
      [a, b] <:+: c :: stripLines false rest → [a, b] <:+: c :: rest := by
    intro c rest ih h
    rw [pair_infix_cons] at h ⊢
    refine h.imp (fun hhere => ⟨hhere.1, ?_⟩) ih
    exact (head?_stripLines hhere.2).resolve_left hb
  fun_induction stripLines inLine text with
  | case1 rest ih => exact hkept ih h
  | case2 head rest _ ih => exact List.infix_cons (ih h)
  | case3 rest ih => exact List.infix_cons (List.infix_cons (ih h))
  | case4 c rest _ ih => exact hkept ih h
  | case5 => exact h

/-- The second pass makes no block comment. -/
theorem holdsBlock_of_stripLines {inLine : Bool} {text : List Char}
    (h : HoldsBlock (stripLines inLine text)) : HoldsBlock text := by
  fun_induction stripLines inLine text with
  | case1 rest ih =>
    rcases holdsBlock_cons.mp h with ⟨hslash, -⟩ | hrest
    · exact absurd hslash (by decide)
    · exact holdsBlock_cons.mpr (Or.inr (ih hrest))
  | case2 head rest _ ih => exact holdsBlock_cons.mpr (Or.inr (ih h))
  | case3 rest ih =>
    exact holdsBlock_cons.mpr (Or.inr (holdsBlock_cons.mpr (Or.inr (ih h))))
  | case4 c rest _ ih =>
    rcases holdsBlock_cons.mp h with ⟨rfl, inner, hinner, hcloses⟩ | hrest
    · have hhead : rest.head? = some '*' :=
        (head?_stripLines (by rw [hinner]; rfl)).resolve_left (by decide)
      obtain ⟨behind, rfl⟩ := List.head?_eq_some_iff.mp hhead
      rw [stripLines_cons fun hc => absurd hc (by decide)] at hinner
      obtain rfl : stripLines false behind = inner := (List.cons.inj hinner).2
      have hbehind := pair_of_stripLines (by decide) (closesBlock_iff.mp hcloses)
      exact holdsBlock_cons.mpr (Or.inl ⟨rfl, behind, rfl, closesBlock_iff.mpr hbehind⟩)
    · exact holdsBlock_cons.mpr (Or.inr (ih hrest))
  | case5 => exact h

/-- The second pass leaves a text as it is if there is nothing to remove. -/
theorem stripLines_of_no_lineComment {text : List Char} (h : ¬['/', '/'] <:+: text) :
    stripLines false text = text := by
  induction text with
  | nil => rfl
  | cons c rest ih =>
    obtain ⟨hhere, hrest⟩ := not_or.mp (mt pair_infix_cons.mpr h)
    rw [stripLines_cons fun hc hhead => hhere ⟨hc, hhead⟩, ih hrest]

/-! ## Both passes -/

theorem commentFree_stripComments (text : List Char) : CommentFree (stripComments text) where
  noLine := no_lineComment_stripLines false _
  noBlock := mt holdsBlock_of_stripLines (not_holdsBlock_stripBlocks false text)

theorem CommentFree.stripComments_eq {text : List Char} (h : CommentFree text) :
    stripComments text = text := by
  rw [stripComments, stripBlocks_of_not_holdsBlock h.noBlock, stripLines_of_no_lineComment h.noLine]

/-- Removing comments leaves a text without comments, changes a text exactly if it holds one, and so
has nothing left to do when it is repeated. -/
theorem stripComments_normal_form (text : List Char) :
    CommentFree (stripComments text) ∧ (stripComments text = text ↔ CommentFree text) ∧
      stripComments (stripComments text) = stripComments text := by
  have hfree := commentFree_stripComments text
  refine ⟨hfree, ⟨fun heq => ?_, CommentFree.stripComments_eq⟩, hfree.stripComments_eq⟩
  rwa [heq] at hfree

/-- A slash and a star with a block comment between them do not meet, and neither do the slashes
of the last line. -/
example : stripComments "//**/* x */\n/// y\n/*z*///".toList = "/ * x */\n\n ".toList := by
  decide

end ExportTables.Header
