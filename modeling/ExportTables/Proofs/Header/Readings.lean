import ExportTables.Header.Declarations
import ExportTables.Proofs.Text.CharClass

/-!
# What an outlook knows

If the prefix of the names holds word characters only, all readings from one place of a text agree:
they end at the first parenthesis behind the place, and the name is the whole word in front of it.
So a field of an outlook only tells whether there is a reading at all, and that depends on what
stands between the place and the name.

`readIf` is such a field. The steps of the search are Boolean equations between conditions, one for
each kind of place.
-/

namespace ExportTables.Header

open Text

/-- The reading of a text in front of a parenthesis whose name is the last word of the text. -/
def wholeWord (front : List Char) : Reading :=
  ⟨(beforeLastWord front).length, (lastWord front).length⟩

/-- The reading with the whole last word as its name, on a condition. -/
def readIf (allowed : Bool) (front : List Char) : Option Reading :=
  if allowed then some (wholeWord front) else none

/-- Whether a text consists of characters that a declaration can hold between marker and name and
ends as a part of a return type does. -/
def endsPart : List Char → Bool
  | [] => false
  | c :: rest => (isTypeChar c || isSpace c) && ((rest.isEmpty && isTypeEnd c) || endsPart rest)

/-- Whether a text can stand between the first white space behind the marker and the name. -/
def opensType : List Char → Bool
  | [] => false
  | c :: rest => (isSpace c && opensType rest) || (isTypeChar c && endsPart rest)

theorem endsPart_of_stars {stars : List Char} (h : stars.all (· == '*') = true) :
    stars.isEmpty = true ∨ endsPart stars = true := by
  induction stars with
  | nil => exact Or.inl rfl
  | cons c rest ih =>
    rw [List.all_cons, Bool.and_eq_true, beq_iff_eq] at h
    obtain ⟨rfl, hrest⟩ := h
    have hrest := ih hrest
    right
    simpa [endsPart, isTypeChar, isTypeEnd] using hrest

theorem readIf_or (a b : Bool) (front : List Char) :
    (readIf a front).or (readIf b front) = readIf (a || b) front := by
  cases a <;> cases b <;> rfl

theorem wholeWord_cons {c : Char} {front : List Char}
    (h : ¬(isWord c = true ∧ beforeLastWord front = [])) :
    wholeWord (c :: front) = (wholeWord front).shift 1 := by
  rw [wholeWord, beforeLastWord_cons h, lastWord_cons h, wholeWord, Reading.shift, List.length_cons,
    Nat.add_comm]

/-- A search goes on by one character in front of the last word. -/
theorem step_readIf {c : Char} {front : List Char}
    (h : ¬(isWord c = true ∧ beforeLastWord front = [])) (allowed a : Bool) :
    Outlook.step allowed (readIf a front) = readIf (allowed && a) (c :: front) := by
  cases allowed <;> cases a <;> simp [Outlook.step, readIf, wholeWord_cons h]

theorem step_none (allowed : Bool) : Outlook.step allowed none = none := by
  cases allowed <;> rfl

/-! ## The outlook at the start of a text -/

variable {namePrefix : List Char}

/-- The outlook at the start of a text. -/
def lookAt (namePrefix text : List Char) : Outlook := (outlooks namePrefix text).head?.getD {}

theorem outlooks_drop (text : List Char) (count : Nat) :
    (outlooks namePrefix text).drop count = outlooks namePrefix (text.drop count) := by
  induction text generalizing count with
  | nil => simp [outlooks]
  | cons c rest ih =>
    cases count with
    | zero => rfl
    | succ count => exact ih count

theorem call_lookAt (text : List Char) :
    (outlooks namePrefix text).head?.bind (·.call) = (lookAt namePrefix text).call := by
  cases text <;> rfl

/-- The reading that begins with the name, at the start of a text. -/
def nameHere (namePrefix text : List Char) : Option Reading :=
  nameAt namePrefix text (lookAt namePrefix (text.drop namePrefix.length)).call

theorem nameHere_eq_none {text : List Char}
    (h : (lookAt namePrefix (text.drop namePrefix.length)).call = none) :
    nameHere namePrefix text = none := by
  rw [nameHere, nameAt, h]
  split <;> rfl

/-- The steps of the search from one place of a text to the next. -/
theorem lookAt_cons (c : Char) (rest : List Char) :
    lookAt namePrefix (c :: rest) =
      let next := lookAt namePrefix rest
      let stars := (Outlook.step (c == '*') next.stars).or (nameHere namePrefix (c :: rest))
      let part := Outlook.step (isTypeChar c) next.typeChars
      let ending := Outlook.step (isTypeEnd c) next.typeEnd
      { call := if c = '(' then some 0 else if isWord c then next.call.map (· + 1) else none
        stars := stars
        typeEnd := (ending.or stars).or part
        typeChars := part.or ending
        gap := (Outlook.step (isSpace c) next.gap).or part } := by
  cases namePrefix with
  | nil => rfl
  | cons d others =>
    rw [nameHere, List.length_cons, List.drop_succ_cons, ← call_lookAt, ← outlooks_drop]
    rfl

theorem call_lookAt_cons {c : Char} (hc : c ≠ '(') (rest : List Char) :
    (lookAt namePrefix (c :: rest)).call =
      if isWord c then (lookAt namePrefix rest).call.map (· + 1) else none := by
  rw [lookAt_cons]
  exact if_neg hc

theorem lookAt_of_no_paren {text : List Char} (h : '(' ∉ text) (count : Nat) :
    lookAt namePrefix (text.drop count) = {} := by
  induction text generalizing count with
  | nil => simp [lookAt, outlooks]
  | cons c rest ih =>
    have hc : c ≠ '(' := fun heq => h (heq ▸ List.mem_cons_self ..)
    have hrest := ih fun hmem => h (List.mem_cons_of_mem c hmem)
    cases count with
    | succ count => exact hrest count
    | zero =>
      have hnext : lookAt namePrefix rest = {} := hrest 0
      have hname : nameHere namePrefix (c :: rest) = none := by
        have hcall : (lookAt namePrefix ((c :: rest).drop namePrefix.length)).call = none := by
          cases namePrefix with
          | nil => simp [lookAt_cons, hnext, hc]
          | cons d others => rw [List.length_cons, List.drop_succ_cons, hrest]
        exact nameHere_eq_none hcall
      rw [List.drop_zero, lookAt_cons, hnext, hname]
      simp [step_none, hc]

/-! ## The outlook in front of a parenthesis -/

/-- Whether the last word of a text begins with the prefix. -/
def named (namePrefix front : List Char) : Bool := namePrefix.isPrefixOf (lastWord front)

/-- The fields of the outlook at the start of a text whose first parenthesis stands behind
`front`. -/
structure Describes (namePrefix front : List Char) (look : Outlook) : Prop where
  call : look.call = if beforeLastWord front = [] then some front.length else none
  stars : look.stars =
    readIf (named namePrefix front && (beforeLastWord front).all (· == '*')) front
  typeEnd : look.typeEnd = readIf
    (named namePrefix front && ((beforeLastWord front).isEmpty || endsPart (beforeLastWord front)))
    front
  typeChars : look.typeChars =
    readIf (named namePrefix front && endsPart (beforeLastWord front)) front
  gap : look.gap = readIf (named namePrefix front && opensType (beforeLastWord front)) front

theorem prefix_append_cons {c : Char} {left : List Char} (h : c ∉ left) (front rest : List Char) :
    left <+: front ++ c :: rest ↔ left <+: front := by
  refine ⟨fun hpre => ?_, fun hpre => hpre.trans (List.prefix_append ..)⟩
  have hfront : front ++ [c] <+: front ++ c :: rest := ⟨rest, by simp⟩
  rcases List.prefix_or_prefix_of_prefix hpre hfront with hleft | hc
  · rcases List.prefix_concat_iff.mp hleft with rfl | hleft
    · simp at h
    · exact hleft
  · exact absurd (hc.subset (by simp)) h

theorem paren_not_mem_of_word {word : List Char} (h : ∀ c ∈ word, isWord c = true) :
    '(' ∉ word :=
  fun hmem => by simpa using h '(' hmem

/-- The call field knows whether a word stands in front of the parenthesis. -/
theorem call_lookAt_paren {front : List Char} (hfront : '(' ∉ front) (rest : List Char) :
    (lookAt namePrefix (front ++ '(' :: rest)).call =
      if beforeLastWord front = [] then some front.length else none := by
  induction front with
  | nil => simp [lookAt_cons]
  | cons c front ih =>
    have hc : c ≠ '(' := fun heq => hfront (heq ▸ List.mem_cons_self ..)
    rw [List.cons_append, call_lookAt_cons hc, ih fun hmem => hfront (List.mem_cons_of_mem c hmem)]
    by_cases hword : isWord c = true ∧ beforeLastWord front = []
    · rw [if_pos hword.1, if_pos hword.2, beforeLastWord_cons_of_word hword.1 hword.2, if_pos rfl]
      rfl
    · rw [beforeLastWord_cons hword, if_neg (List.cons_ne_nil _ _)]
      by_cases hcword : isWord c = true
      · rw [if_pos hcword, if_neg fun hnil => hword ⟨hcword, hnil⟩]
        rfl
      · rw [if_neg hcword]

/-- A reading that begins with the name takes the whole word in front of the parenthesis. -/
theorem nameHere_paren (hwords : ∀ c ∈ namePrefix, isWord c = true) {front : List Char}
    (hfront : '(' ∉ front) (rest : List Char) :
    nameHere namePrefix (front ++ '(' :: rest) =
      readIf (named namePrefix front && (beforeLastWord front).isEmpty) front := by
  have hparen := paren_not_mem_of_word hwords
  by_cases hpre : namePrefix <+: front
  · obtain ⟨word, rfl⟩ := hpre
    have hword : '(' ∉ word := fun hmem => hfront (List.mem_append_right _ hmem)
    have hlead : beforeLastWord (namePrefix ++ word) = [] ↔ beforeLastWord word = [] := by
      simp only [beforeLastWord_eq_nil, List.mem_append]
      exact ⟨fun h c hc => h c (Or.inr hc), fun h c hc => hc.elim (hwords c) (h c)⟩
    rw [nameHere, nameAt, if_pos (by simp), List.append_assoc, List.drop_left,
      call_lookAt_paren hword]
    by_cases hnil : beforeLastWord word = []
    · have hself := lastWord_eq_self (hlead.mpr hnil)
      rw [if_pos hnil, readIf, hlead.mpr hnil, named, hself, wholeWord, hlead.mpr hnil, hself]
      simp
    · rw [if_neg hnil, readIf, if_neg]
      · rfl
      · simpa using fun _ => mt hlead.mp hnil
  · have hnot : ¬namePrefix <+: front ++ '(' :: rest := by
      rwa [prefix_append_cons hparen]
    rw [nameHere, nameAt, if_neg (by simpa using hnot), readIf, if_neg]
    intro hnamed
    rw [Bool.and_eq_true, List.isEmpty_iff, named] at hnamed
    rw [lastWord_eq_self hnamed.2] at hnamed
    exact hpre (List.isPrefixOf_iff_prefix.mp hnamed.1)

theorem isTypeEnd_of_word {c : Char} (h : isWord c = true) : isTypeEnd c = false := by
  have hstar : c ≠ '*' := by
    rintro rfl
    simp at h
  simp [isTypeEnd, isSpace_of_isWord h, hstar]

/-- One character that does not belong to the last word is one step of the search. -/
theorem Describes.cons {c : Char} {front rest : List Char}
    (h : Describes namePrefix front (lookAt namePrefix rest))
    (hcall : (lookAt namePrefix (c :: rest)).call = none)
    (hname : nameHere namePrefix (c :: rest) = none)
    (hword : ¬(isWord c = true ∧ beforeLastWord front = [])) :
    Describes namePrefix (c :: front) (lookAt namePrefix (c :: rest)) := by
  have hlead := beforeLastWord_cons hword
  have hnamed : named namePrefix (c :: front) = named namePrefix front := by
    rw [named, named, lastWord_cons hword]
  have hempty : (beforeLastWord front).isEmpty = true →
      endsPart (beforeLastWord front) = false := by
    rw [List.isEmpty_iff]
    intro hnil
    rw [hnil]
    rfl
  have hstars := @endsPart_of_stars (beforeLastWord front)
  refine ⟨by rw [hcall, hlead, if_neg (List.cons_ne_nil _ _)], ?_, ?_, ?_, ?_⟩ <;>
    rw [lookAt_cons, hlead, hnamed] <;> dsimp only <;>
    simp only [h.stars, h.typeEnd, h.typeChars, h.gap, hname, Option.or_none, step_readIf hword,
      readIf_or] <;>
    refine congrArg (readIf · _) ?_
  · simp only [List.all_cons]
    grind
  · simp only [endsPart, isTypeEnd, isTypeChar, List.isEmpty_cons]
    grind
  · simp only [endsPart, isTypeEnd, isTypeChar]
    grind
  · simp only [opensType]
    grind

/-- In front of a parenthesis an outlook is what `Describes` says. -/
theorem describes_lookAt (hwords : ∀ c ∈ namePrefix, isWord c = true) {front : List Char}
    (hfront : '(' ∉ front) (rest : List Char) :
    Describes namePrefix front (lookAt namePrefix (front ++ '(' :: rest)) := by
  have hcall := @call_lookAt_paren namePrefix front hfront rest
  have hname := nameHere_paren hwords hfront rest
  induction front with
  | nil =>
    rw [List.nil_append] at hcall hname ⊢
    have htype : isTypeChar '(' = false := by decide
    have hend : isTypeEnd '(' = false := by decide
    refine ⟨hcall, ?_, ?_, ?_, ?_⟩ <;> rw [lookAt_cons] <;>
      simp [Outlook.step, hname, htype, hend, endsPart, opensType, readIf]
  | cons c front ih =>
    have hrest : '(' ∉ front := fun hmem => hfront (List.mem_cons_of_mem c hmem)
    have hnext := ih hrest (call_lookAt_paren hrest rest) (nameHere_paren hwords hrest rest)
    rw [List.cons_append] at hcall hname ⊢
    by_cases hword : isWord c = true ∧ beforeLastWord front = []
    · have hlead := beforeLastWord_cons_of_word hword.1 hword.2
      have hend := isTypeEnd_of_word hword.1
      have hspace : isSpace c = false := by simp_all [isTypeEnd]
      have hstar : (c == '*') = false := by simp_all [isTypeEnd]
      refine ⟨hcall, ?_, ?_, ?_, ?_⟩ <;> rw [lookAt_cons] <;>
        simp [Outlook.step, hname, hend, hspace, hstar, hlead, hnext.typeChars, hword.2, endsPart,
          opensType, readIf]
    · have hlead := beforeLastWord_cons hword
      apply hnext.cons _ _ hword
      · rw [hcall, hlead, if_neg (List.cons_ne_nil _ _)]
      · rw [hname, hlead, List.isEmpty_cons, Bool.and_false]
        rfl

end ExportTables.Header
