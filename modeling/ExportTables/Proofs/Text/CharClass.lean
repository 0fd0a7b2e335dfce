import ExportTables.Text.CharClass
import Mathlib.Data.List.DropRight

/-!
# Characters and runs of characters

The classes of characters as the declaration scan needs them: white space and word characters do
not meet, and what separates the parts of a declaration is no word character. A text splits before
the run of word characters that it ends in.
-/

namespace ExportTables.Text

theorem exists_range_of_inRanges {n : Nat} {ranges : List (Nat × Nat)}
    (h : inRanges n ranges = true) : ∃ range ∈ ranges, range.1 ≤ n ∧ n ≤ range.2 := by
  induction ranges with
  | nil => cases h
  | cons range rest ih =>
    rw [inRanges] at h
    split at h
    · cases h
    · split at h
      · exact ⟨range, List.mem_cons_self .., by omega, by omega⟩
      · obtain ⟨other, hmem, hn⟩ := ih h
        exact ⟨other, List.mem_cons_of_mem _ hmem, hn⟩

theorem spaceRanges_apart_wordRanges :
    ∀ space ∈ spaceRanges, ∀ word ∈ wordRanges, space.2 < word.1 ∨ word.2 < space.1 := by
  decide +kernel

theorem isWord_of_isSpace {c : Char} (h : isSpace c = true) : isWord c = false := by
  by_contra hword
  rw [Bool.not_eq_false] at hword
  obtain ⟨space, hspace, hlow, hhigh⟩ := exists_range_of_inRanges h
  obtain ⟨word, hword, hlow', hhigh'⟩ := exists_range_of_inRanges hword
  have hapart := spaceRanges_apart_wordRanges space hspace word hword
  omega

theorem isSpace_of_isWord {c : Char} (h : isWord c = true) : isSpace c = false := by
  by_contra hspace
  rw [isWord_of_isSpace (Bool.not_eq_false _ |>.mp hspace)] at h
  cases h

/-- Whether a text has white space can be evaluated. -/
theorem forall_isSpace_eq_false {text : List Char} :
    (∀ c ∈ text, isSpace c = false) ↔ text.any isSpace = false := by
  simp only [List.any_eq_false, Bool.not_eq_true]

@[simp] theorem isWord_paren : isWord '(' = false := by decide

@[simp] theorem isWord_star : isWord '*' = false := by decide

@[simp] theorem isSpace_paren : isSpace '(' = false := by decide

@[simp] theorem isSpace_star : isSpace '*' = false := by decide

/-! ## The word that a text ends in -/

/-- The longest run of word characters at the end of a text. -/
def lastWord (front : List Char) : List Char := front.rtakeWhile isWord

/-- What stands in front of the word that a text ends in. -/
def beforeLastWord (front : List Char) : List Char := front.rdropWhile isWord

@[simp] theorem lastWord_nil : lastWord [] = [] := List.rtakeWhile_nil _

@[simp] theorem beforeLastWord_nil : beforeLastWord [] = [] := List.rdropWhile_nil _

theorem isWord_of_mem_lastWord {front : List Char} {c : Char} (h : c ∈ lastWord front) :
    isWord c = true := List.mem_rtakeWhile_imp h

theorem beforeLastWord_append_lastWord (front : List Char) :
    beforeLastWord front ++ lastWord front = front := List.rdropWhile_append_rtakeWhile

theorem mem_beforeLastWord {front : List Char} {c : Char} (h : c ∈ front) (hc : isWord c = false) :
    c ∈ beforeLastWord front := by
  rw [← beforeLastWord_append_lastWord front, List.mem_append] at h
  refine h.resolve_right fun hword => ?_
  rw [isWord_of_mem_lastWord hword] at hc
  cases hc

theorem beforeLastWord_eq_nil {front : List Char} :
    beforeLastWord front = [] ↔ ∀ c ∈ front, isWord c = true := List.rdropWhile_eq_nil_iff

theorem lastWord_eq_self {front : List Char} (h : beforeLastWord front = []) :
    lastWord front = front := by
  simpa [h] using beforeLastWord_append_lastWord front

/-- A word character grows the last word only if nothing else stands in between. -/
theorem beforeLastWord_cons_of_word {c : Char} {front : List Char} (hc : isWord c = true)
    (hfront : beforeLastWord front = []) : beforeLastWord (c :: front) = [] := by
  rw [beforeLastWord_eq_nil] at hfront ⊢
  simpa [hc] using hfront

theorem beforeLastWord_cons {c : Char} {front : List Char}
    (h : ¬(isWord c = true ∧ beforeLastWord front = [])) :
    beforeLastWord (c :: front) = c :: beforeLastWord front := by
  simp only [beforeLastWord, List.rdropWhile, List.reverse_cons, List.dropWhile_append] at h ⊢
  split
  · rename_i hempty
    have hword : isWord c = false := by
      simpa [List.isEmpty_iff.mp hempty] using h
    simp [hword, List.isEmpty_iff.mp hempty]
  · simp

theorem lastWord_cons {c : Char} {front : List Char}
    (h : ¬(isWord c = true ∧ beforeLastWord front = [])) :
    lastWord (c :: front) = lastWord front := by
  have hsplit := beforeLastWord_append_lastWord (c :: front)
  rw [beforeLastWord_cons h, List.cons_append] at hsplit
  have hfront := (List.cons.inj hsplit).2
  exact List.append_cancel_left (hfront.trans (beforeLastWord_append_lastWord front).symm)

/-- A word that does not fill its text stays the last one, whatever stands in front of the text. -/
theorem beforeLastWord_append_left (lead : List Char) {front : List Char}
    (h : beforeLastWord front ≠ []) :
    beforeLastWord (lead ++ front) = lead ++ beforeLastWord front := by
  induction lead with
  | nil => rfl
  | cons c lead ih =>
    have hne : ¬(isWord c = true ∧ beforeLastWord (lead ++ front) = []) := by
      rw [ih]
      simp [h]
    rw [List.cons_append, beforeLastWord_cons hne, ih, List.cons_append]

theorem lastWord_append_left (lead : List Char) {front : List Char}
    (h : beforeLastWord front ≠ []) : lastWord (lead ++ front) = lastWord front := by
  have hsplit := beforeLastWord_append_lastWord (lead ++ front)
  rw [beforeLastWord_append_left lead h, List.append_assoc] at hsplit
  have hfront := List.append_cancel_left hsplit
  exact List.append_cancel_left (hfront.trans (beforeLastWord_append_lastWord front).symm)

/-- A piece that ends in no word character and a word make a text whose last word is that word. -/
theorem beforeLastWord_append {lead word : List Char}
    (hlead : ∀ c, lead.getLast? = some c → isWord c = false)
    (hword : ∀ c ∈ word, isWord c = true) : beforeLastWord (lead ++ word) = lead := by
  induction lead with
  | nil => exact beforeLastWord_eq_nil.mpr hword
  | cons c lead ih =>
    cases lead with
    | nil =>
      have hc := hlead c rfl
      rw [List.singleton_append, beforeLastWord_cons (by simp [hc]),
        beforeLastWord_eq_nil.mpr hword]
    | cons d lead =>
      have hrest := ih fun e he => hlead e (by rw [List.getLast?_cons_cons]; exact he)
      have hne : ¬(isWord c = true ∧ beforeLastWord (d :: lead ++ word) = []) := by
        rw [hrest]
        simp
      rw [List.cons_append, beforeLastWord_cons hne, hrest]

theorem lastWord_append {lead word : List Char}
    (hlead : ∀ c, lead.getLast? = some c → isWord c = false)
    (hword : ∀ c ∈ word, isWord c = true) : lastWord (lead ++ word) = word := by
  have hsplit := beforeLastWord_append_lastWord (lead ++ word)
  rw [beforeLastWord_append hlead hword] at hsplit
  exact List.append_cancel_left hsplit

end ExportTables.Text
