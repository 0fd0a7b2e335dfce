import ExportTables.Header.Comments
import Mathlib.Data.List.Infix

/-!
# The two passes over pieces of a text

A text that is put together from pieces is rid of its comments piece by piece, provided that no
comment crosses a seam. For the first pass this takes a piece that leaves no block comment open and
a seam that does not itself read `/*`. For the second pass it takes a newline at the seam, which
ends every line comment.

Both passes are scanners with one bit of state, so each fact is proved for both states at once, by
the recursion of the scanner.
-/

namespace ExportTables.Header

/-- The text leaves no block comment open: once its block comments are removed, no `/*` is left. -/
def BlocksClosed (text : List Char) : Prop := ¬['/', '*'] <:+: stripBlocks false text

instance (text : List Char) : Decidable (BlocksClosed text) :=
  inferInstanceAs (Decidable (¬['/', '*'] <:+: stripBlocks false text))

/-- Two pieces of text stand apart if `/*` is not made by the last character of the one and the
first of the other. -/
def Apart (left right : List Char) : Prop := left.getLast? = some '/' → right.head? ≠ some '*'

theorem Apart.of_cons {c : Char} {left right : List Char} (h : Apart (c :: left) right) :
    Apart left right := by
  intro hlast
  apply h
  rw [List.getLast?_cons, hlast]
  rfl

theorem Apart.of_getLast?_ne {left right : List Char} (h : left.getLast? ≠ some '/') :
    Apart left right :=
  fun hlast => absurd hlast h

theorem Apart.of_head?_ne {left right : List Char} (h : right.head? ≠ some '*') :
    Apart left right :=
  fun _ => h

/-- A text closes nothing that is left open in front of it: it holds no `*/` and does not make one
with a star in front of it. -/
def ClosesNothing (text : List Char) : Prop := closesBlock text = false ∧ text.head? ≠ some '/'

/-- Somewhere in the text a block comment is opened and closed: behind a `/*` stands a `*/` that
has no character in common with it. -/
def HoldsBlock (text : List Char) : Prop :=
  ∃ before body after, text = before ++ '/' :: '*' :: body ++ '*' :: '/' :: after

/-! ## The pass over block comments -/

theorem closesBlock_iff {text : List Char} : closesBlock text = true ↔ ['*', '/'] <:+: text := by
  fun_induction closesBlock text with
  | case1 rest => simpa using (List.prefix_append ['*', '/'] rest).isInfix
  | case2 head rest hne ih =>
    rw [ih, List.infix_cons_iff]
    refine ⟨Or.inr, fun h => h.resolve_left fun hpre => ?_⟩
    obtain ⟨tail, htail⟩ := hpre
    simp only [List.cons_append, List.nil_append, List.cons.injEq] at htail
    exact hne tail htail.1.symm htail.2.symm
  | case3 => simp

theorem closesBlock_append {left : List Char} (right : List Char)
    (h : closesBlock left = true) : closesBlock (left ++ right) = true := by
  rw [closesBlock_iff] at h ⊢
  exact h.trans (List.prefix_append left right).isInfix

theorem ClosesNothing.closesBlock_append {left right : List Char} (hright : ClosesNothing right)
    (h : closesBlock left = false) : closesBlock (left ++ right) = false := by
  fun_induction closesBlock left with
  | case1 rest => cases h
  | case2 head rest hne ih =>
    rw [List.cons_append, closesBlock]
    · exact ih h
    · intro tail hhead htail
      cases rest with
      | nil => exact hright.2 (by rw [← List.nil_append right, htail]; rfl)
      | cons d rest =>
        obtain ⟨rfl, -⟩ := List.cons.inj htail
        exact hne rest hhead rfl
  | case3 => exact hright.1

theorem closesBlock_of_cons {c : Char} {rest : List Char}
    (h : closesBlock (c :: rest) = false) : closesBlock rest = false := by
  rw [Bool.eq_false_iff, ne_eq, closesBlock_iff] at h ⊢
  exact fun hrest => h (List.infix_cons hrest)

theorem stripBlocks_cons {c : Char} {rest : List Char} (h : c = '/' → rest.head? ≠ some '*') :
    stripBlocks false (c :: rest) = c :: stripBlocks false rest := by
  rw [stripBlocks]
  intro tail hc hrest
  exact h hc (by rw [hrest]; rfl)

theorem stripBlocks_newline (rest : List Char) :
    stripBlocks false ('\n' :: rest) = '\n' :: stripBlocks false rest :=
  stripBlocks_cons fun h => absurd h (by decide)

theorem holdsBlock_cons {c : Char} {rest : List Char} : HoldsBlock (c :: rest) ↔
    (c = '/' ∧ ∃ inner, rest = '*' :: inner ∧ closesBlock inner = true) ∨ HoldsBlock rest := by
  constructor
  · intro h
    obtain ⟨before, body, after, heq⟩ := h
    cases before with
    | nil =>
      obtain ⟨rfl, rfl⟩ := List.cons.inj heq
      exact Or.inl ⟨rfl, _, rfl, closesBlock_iff.mpr ⟨body, after, by simp⟩⟩
    | cons d before =>
      obtain ⟨-, rfl⟩ := List.cons.inj heq
      exact Or.inr ⟨before, body, after, rfl⟩
  · intro h
    rcases h with ⟨rfl, inner, rfl, hcloses⟩ | ⟨before, body, after, rfl⟩
    · obtain ⟨body, after, rfl⟩ := closesBlock_iff.mp hcloses
      exact ⟨[], body, after, by simp⟩
    · exact ⟨c :: before, body, after, rfl⟩

theorem not_holdsBlock_nil : ¬HoldsBlock [] := by
  intro h
  obtain ⟨before, body, after, hnil⟩ := h
  simp at hnil

theorem HoldsBlock.opens {text : List Char} (h : HoldsBlock text) : ['/', '*'] <:+: text := by
  obtain ⟨before, body, after, rfl⟩ := h
  exact ⟨before, body ++ '*' :: '/' :: after, by simp⟩

theorem HoldsBlock.closes {text : List Char} (h : HoldsBlock text) : closesBlock text = true := by
  obtain ⟨before, body, after, rfl⟩ := h
  exact closesBlock_iff.mpr ⟨before ++ '/' :: '*' :: body, after, by simp⟩

/-- The first pass leaves a text as it is if there is nothing to remove. -/
theorem stripBlocks_of_not_holdsBlock {text : List Char} (h : ¬HoldsBlock text) :
    stripBlocks false text = text := by
  induction text with
  | nil => rfl
  | cons c rest ih =>
    obtain ⟨hhere, hrest⟩ := not_or.mp (mt holdsBlock_cons.mpr h)
    by_cases hopen : c = '/' ∧ rest.head? = some '*'
    · obtain ⟨rfl, hhead⟩ := hopen
      obtain ⟨inner, rfl⟩ := List.head?_eq_some_iff.mp hhead
      rw [stripBlocks, if_neg fun hcloses => hhere ⟨rfl, inner, rfl, hcloses⟩]
    · rw [stripBlocks_cons fun hc hhead => hopen ⟨hc, hhead⟩, ih hrest]

theorem stripBlocks_of_not_closesBlock {text : List Char} (h : closesBlock text = false) :
    stripBlocks false text = text :=
  stripBlocks_of_not_holdsBlock fun hholds => by simp [hholds.closes] at h

theorem stripBlocks_of_no_opening {text : List Char} (h : ¬['/', '*'] <:+: text) :
    stripBlocks false text = text :=
  stripBlocks_of_not_holdsBlock (mt HoldsBlock.opens h)

theorem BlocksClosed.of_no_opening {text : List Char} (h : ¬['/', '*'] <:+: text) :
    BlocksClosed text := by
  rwa [BlocksClosed, stripBlocks_of_no_opening h]

theorem stripBlocks_ne_nil {text : List Char} (h : text ≠ []) : stripBlocks false text ≠ [] := by
  cases text with
  | nil => exact absurd rfl h
  | cons c rest =>
    by_cases hopen : c = '/' ∧ rest.head? = some '*'
    · obtain ⟨rfl, hhead⟩ := hopen
      obtain ⟨tail, rfl⟩ := List.head?_eq_some_iff.mp hhead
      rw [stripBlocks]
      split <;> simp
    · rw [stripBlocks_cons fun hc hhead => hopen ⟨hc, hhead⟩]
      simp

/-- What the first pass leaves begins with a space or as the text began. -/
theorem head?_stripBlocks {text : List Char} {c : Char}
    (h : (stripBlocks false text).head? = some c) : c = ' ' ∨ text.head? = some c := by
  cases text with
  | nil => simp [stripBlocks] at h
  | cons d rest =>
    by_cases hopen : d = '/' ∧ rest.head? = some '*'
    · obtain ⟨rfl, hhead⟩ := hopen
      obtain ⟨tail, rfl⟩ := List.head?_eq_some_iff.mp hhead
      rw [stripBlocks] at h
      split at h
      · exact Or.inl (Option.some.inj h).symm
      · exact Or.inr h
    · rw [stripBlocks_cons fun hc hhead => hopen ⟨hc, hhead⟩] at h
      exact Or.inr h

theorem getLast?_cons_eq_some {c d : Char} {rest : List Char} :
    (c :: rest).getLast? = some d ↔ (rest = [] ∧ c = d) ∨ rest.getLast? = some d := by
  cases rest <;> simp [List.getLast?_cons]

/-- What the first pass leaves ends in a space or as the text ended. -/
theorem getLast?_stripBlocks {inBlock : Bool} {text : List Char} {c : Char}
    (h : (stripBlocks inBlock text).getLast? = some c) : c = ' ' ∨ text.getLast? = some c := by
  fun_induction stripBlocks inBlock text with
  | case1 rest ih =>
    refine (ih h).imp_right fun hrest => ?_
    simp [List.getLast?_cons, hrest]
  | case2 head rest _ ih =>
    refine (ih h).imp_right fun hrest => ?_
    simp [List.getLast?_cons, hrest]
  | case3 rest _ ih =>
    rcases getLast?_cons_eq_some.mp h with ⟨-, rfl⟩ | hlast
    · exact Or.inl rfl
    · refine (ih hlast).imp_right fun hrest => ?_
      simp [List.getLast?_cons, hrest]
  | case4 rest _ => exact Or.inr h
  | case5 d rest _ ih =>
    rcases getLast?_cons_eq_some.mp h with ⟨hnil, rfl⟩ | hlast
    · have hrest : rest = [] := by_contra fun hne => stripBlocks_ne_nil hne hnil
      exact Or.inr (getLast?_cons_eq_some.mpr (Or.inl ⟨hrest, rfl⟩))
    · exact (ih hlast).imp_right fun hrest => getLast?_cons_eq_some.mpr (Or.inr hrest)
  | case6 => simp at h

/-- The first pass over a text in two pieces, started in either state. The first piece has to end
outside of block comments, and what it leaves open has to stay open. -/
theorem stripBlocks_append_of_state {inBlock : Bool} {left right : List Char}
    (hends : inBlock = true → closesBlock left = true)
    (hopen : ['/', '*'] <:+: stripBlocks inBlock left → ClosesNothing right)
    (hapart : Apart left right) :
    stripBlocks inBlock (left ++ right) =
      stripBlocks inBlock left ++ stripBlocks false right := by
  fun_induction stripBlocks inBlock left with
  | case1 rest ih =>
    rw [List.cons_append, List.cons_append, stripBlocks]
    exact ih (by simp) hopen hapart.of_cons.of_cons
  | case2 head rest hne ih =>
    have hcloses := hends rfl
    rw [closesBlock] at hcloses
    · rw [List.cons_append, stripBlocks]
      · exact ih (fun _ => hcloses) hopen hapart.of_cons
      · intro tail hhead htail
        cases rest with
        | nil => simp [closesBlock] at hcloses
        | cons d rest =>
          obtain ⟨rfl, -⟩ := List.cons.inj htail
          exact hne rest hhead rfl
    · exact hne
  | case3 rest hcloses ih =>
    rw [List.cons_append, List.cons_append, stripBlocks, if_pos (closesBlock_append right hcloses),
      ih (fun _ => hcloses) (fun h => hopen (List.infix_cons h)) hapart.of_cons.of_cons]
    rfl
  | case4 rest hcloses =>
    have hright := hopen (List.prefix_append ['/', '*'] rest).isInfix
    have hrest := hright.closesBlock_append (Bool.not_eq_true _ ▸ hcloses)
    rw [List.cons_append, List.cons_append, stripBlocks, if_neg (by simp [hrest]),
      stripBlocks_of_not_closesBlock hright.1]
    rfl
  | case5 c rest hne ih =>
    rw [List.cons_append, stripBlocks_cons,
      ih (by simp) (fun h => hopen (List.infix_cons h)) hapart.of_cons]
    · rfl
    · rintro rfl hhead
      cases rest with
      | nil => exact hapart rfl hhead
      | cons d rest =>
        obtain rfl : d = '*' := by simpa using hhead
        exact hne rest rfl rfl
  | case6 state =>
    cases state with
    | true => simp [closesBlock] at hends
    | false => rfl

/-- The first pass treats two pieces of a text apart if the first leaves no block comment open or
the second closes nothing. -/
theorem stripBlocks_append {left right : List Char}
    (h : BlocksClosed left ∨ ClosesNothing right) (hapart : Apart left right) :
    stripBlocks false (left ++ right) = stripBlocks false left ++ stripBlocks false right :=
  stripBlocks_append_of_state (by simp) (fun hopen => h.resolve_left fun hleft => hleft hopen)
    hapart

/-! ## The pass over line comments -/

theorem stripLines_cons {c : Char} {rest : List Char} (h : c = '/' → rest.head? ≠ some '/') :
    stripLines false (c :: rest) = c :: stripLines false rest := by
  rw [stripLines]
  intro tail hc hrest
  exact h hc (by rw [hrest]; rfl)

/-- A newline ends every line comment, so the second pass treats what is in front of it and what
is behind it apart. -/
theorem stripLines_append_newline (inLine : Bool) (left right : List Char) :
    stripLines inLine (left ++ '\n' :: right) =
      stripLines inLine left ++ '\n' :: stripLines false right := by
  fun_induction stripLines inLine left with
  | case1 rest ih => simp [stripLines, ih]
  | case2 head rest hne ih =>
    rw [List.cons_append, stripLines, ih]
    exact hne
  | case3 rest ih => simp [stripLines, ih]
  | case4 c rest hne ih =>
    rw [List.cons_append, stripLines_cons, ih]
    · rfl
    · rintro rfl hhead
      cases rest with
      | nil => simp at hhead
      | cons d rest =>
        obtain rfl : d = '/' := by simpa using hhead
        exact hne rest rfl rfl
  | case5 state => cases state <;> simp [stripLines]

theorem stripLines_inside {line : List Char} (h : '\n' ∉ line) : stripLines true line = [] := by
  induction line with
  | nil => rfl
  | cons c rest ih =>
    rw [stripLines, ih fun hrest => h (List.mem_cons_of_mem c hrest)]
    rintro rfl
    exact h (List.mem_cons_self ..)

/-- A line comment at the end of a text is removed with its slashes, unless a slash in front of
it makes it begin earlier. -/
theorem stripLines_append_lineComment {inLine : Bool} {left line : List Char}
    (hleft : left.getLast? ≠ some '/') (hline : '\n' ∉ line) :
    stripLines inLine (left ++ '/' :: '/' :: line) = stripLines inLine left := by
  have htail : ∀ {c : Char} {rest : List Char}, (c :: rest).getLast? ≠ some '/' →
      rest.getLast? ≠ some '/' :=
    fun h hrest => h (getLast?_cons_eq_some.mpr (Or.inr hrest))
  fun_induction stripLines inLine left with
  | case1 rest ih => rw [List.cons_append, stripLines, ih (htail hleft)]
  | case2 head rest hne ih =>
    rw [List.cons_append, stripLines, ih (htail hleft)]
    exact hne
  | case3 rest ih => rw [List.cons_append, List.cons_append, stripLines, ih (htail (htail hleft))]
  | case4 c rest hne ih =>
    rw [List.cons_append, stripLines_cons, ih (htail hleft)]
    rintro rfl hhead
    cases rest with
    | nil => exact hleft rfl
    | cons d rest =>
      obtain rfl : d = '/' := by simpa using hhead
      exact hne rest rfl rfl
  | case5 state =>
    cases state with
    | true => exact stripLines_inside (by simpa using hline)
    | false => exact stripLines_inside hline

end ExportTables.Header
