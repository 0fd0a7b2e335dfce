import ExportTables.Proofs.Json.NameList

/-!
# The lines of a list of names

The file of a list is read by people and by tools that compare texts line by line, so it matters
that every name has a line of its own. A literal writes no character below U+0020 as it is, so the
newlines of the file are those of its layout, whatever the names hold.
-/

namespace ExportTables.Json

open Text

/-- The lines of the names, without the newlines that end them. -/
def elementLines : List String → List (List Char)
  | [] => []
  | [name] => [' ' :: ' ' :: literal name.toList]
  | name :: rest => (' ' :: ' ' :: literal name.toList ++ [',']) :: elementLines rest

theorem length_elementLines (names : List String) : (elementLines names).length = names.length := by
  fun_induction elementLines names with
  | case1 => rfl
  | case2 => rfl
  | case3 name rest _ ih => rw [List.length_cons, ih, List.length_cons]

theorem nameLines_eq_flatMap (names : List String) :
    nameLines names = (elementLines names).flatMap (· ++ ['\n']) := by
  fun_induction elementLines names with
  | case1 => rfl
  | case2 name => simp [nameLines]
  | case3 name rest hrest ih =>
    rw [nameLines, ih]
    · simp
    · exact hrest

/-! ## What a literal is written with -/

theorem le_toNat_of_mem_hexDigits {width n : Nat} {c : Char} (h : c ∈ hexDigits width n) :
    0x20 ≤ c.toNat := by
  have hdigit : ∀ k < 16, 0x20 ≤ (hexDigit k).toNat := by decide
  induction width generalizing n with
  | zero => cases h
  | succ width ih =>
    rw [hexDigits, List.mem_append, List.mem_singleton] at h
    rcases h with hlead | rfl
    · exact ih hlead
    · exact hdigit _ (Nat.mod_lt n (by decide))

theorem le_toNat_of_mem_escape {c d : Char} (h : d ∈ escape c) : 0x20 ≤ d.toNat := by
  have hpair : ∀ e : Char, 0x20 ≤ e.toNat → d ∈ ['\\', e] → 0x20 ≤ d.toNat := by
    intro e he hd
    simp only [List.mem_cons, List.not_mem_nil, or_false] at hd
    rcases hd with rfl | rfl
    · decide
    · exact he
  rw [escape] at h
  split at h
  · exact hpair '"' (by decide) h
  split at h
  · exact hpair '\\' (by decide) h
  split at h
  · exact hpair 'n' (by decide) h
  split at h
  · exact hpair 'r' (by decide) h
  split at h
  · exact hpair 't' (by decide) h
  split at h
  · exact hpair 'b' (by decide) h
  split at h
  · exact hpair 'f' (by decide) h
  split at h
  · rcases List.mem_append.mp h with hlead | hdigits
    · exact hpair 'u' (by decide) hlead
    · exact le_toNat_of_mem_hexDigits hdigits
  · rename_i hplain
    obtain rfl := List.mem_singleton.mp h
    exact Nat.le_of_not_lt hplain

theorem le_toNat_of_mem_literal {text : List Char} {d : Char} (h : d ∈ literal text) :
    0x20 ≤ d.toNat := by
  rw [literal, List.mem_cons, List.mem_append, List.mem_flatMap, List.mem_singleton] at h
  rcases h with rfl | ⟨c, -, hd⟩ | rfl
  · decide
  · exact le_toNat_of_mem_escape hd
  · decide

theorem le_toNat_of_mem_elementLines {names : List String} :
    ∀ line ∈ elementLines names, ∀ d ∈ line, 0x20 ≤ d.toNat := by
  have hindented : ∀ text : List Char, ∀ d ∈ ' ' :: ' ' :: literal text, 0x20 ≤ d.toNat := by
    intro text
    rw [List.forall_mem_cons, List.forall_mem_cons]
    exact ⟨by decide, by decide, fun d => le_toNat_of_mem_literal⟩
  fun_induction elementLines names with
  | case1 => simp
  | case2 name => exact List.forall_mem_singleton.mpr (hindented name.toList)
  | case3 name rest _ ih =>
    refine List.forall_mem_cons.mpr ⟨?_, ih⟩
    rw [List.forall_mem_append, List.forall_mem_singleton]
    exact ⟨hindented name.toList, by decide⟩

/-! ## The whole file -/

theorem nameList_of_ne_nil {names : List String} (h : names ≠ []) :
    nameList names = '[' :: '\n' :: (elementLines names).flatMap (· ++ ['\n']) ++ [']', '\n'] := by
  rw [nameList, nameLines_eq_flatMap]
  exact h

theorem splitOn_flatMap_newline {lines : List (List Char)} (h : ∀ line ∈ lines, '\n' ∉ line)
    (rest : List Char) :
    (lines.flatMap (· ++ ['\n']) ++ rest).splitOn '\n' = lines ++ rest.splitOn '\n' := by
  induction lines with
  | nil => rfl
  | cons line lines ih =>
    obtain ⟨hline, hlines⟩ := List.forall_mem_cons.mp h
    rw [List.flatMap_cons, List.append_assoc, List.append_assoc, List.singleton_append,
      List.splitOn_append_cons_self_of_not_mem hline, ih hlines, List.cons_append]

/-- A list of names reads back as the names, in order and as often. It holds no control character
but the newlines that end its lines, and the lines are the two brackets with the line of each name
between them, or a single one if there is no name. -/
theorem names?_nameList_by_lines (names : List String) :
    names? (nameList names) = some names ∧
      (∀ c ∈ nameList names, c.toNat < 0x20 → c = '\n') ∧
      (∃ text, nameList names = text ++ [']', '\n']) ∧
      (elementLines names).length = names.length ∧
      (nameList names).splitOn '\n' =
        if names = [] then [['[', ']'], []] else ['['] :: elementLines names ++ [[']'], []] := by
  refine ⟨names?_nameList names, ?_⟩
  by_cases hnil : names = []
  · subst hnil
    refine ⟨?_, ⟨['['], rfl⟩, rfl, by rfl⟩
    intro c hc hcontrol
    change c ∈ ['[', ']', '\n'] at hc
    simp only [List.mem_cons, List.not_mem_nil, or_false] at hc
    rcases hc with rfl | rfl | rfl
    · exact absurd hcontrol (by decide)
    · exact absurd hcontrol (by decide)
    · rfl
  rw [nameList_of_ne_nil hnil, if_neg hnil]
  have hlines := @le_toNat_of_mem_elementLines names
  refine ⟨?_, ⟨_, rfl⟩, length_elementLines names, ?_⟩
  · intro c hc hcontrol
    simp only [List.mem_append, List.mem_cons, List.mem_flatMap, List.not_mem_nil, or_false] at hc
    rcases hc with (rfl | rfl | ⟨line, hline, hmem | rfl⟩) | rfl | rfl
    · exact absurd hcontrol (by decide)
    · rfl
    · exact absurd hcontrol (Nat.not_lt.mpr (hlines line hline c hmem))
    · rfl
    · exact absurd hcontrol (by decide)
    · rfl
  · have hnewline : ∀ line ∈ elementLines names, '\n' ∉ line := by
      intro line hline hmem
      exact absurd (hlines line hline '\n' hmem) (by decide)
    have hfirst := List.splitOn_append_cons_self_of_not_mem (show '\n' ∉ ['['] by decide)
      ((elementLines names).flatMap (· ++ ['\n']) ++ [']', '\n'])
    rw [splitOn_flatMap_newline hnewline] at hfirst
    exact hfirst

/-- Names that hold a quote, a newline, a control character and a character beyond the basic
plane. -/
example : String.ofList (nameList ["a\"\n", "", "\x01😀/"]) =
    "[\n  \"a\\\"\\n\",\n  \"\",\n  \"\\u0001😀/\"\n]\n" := by
  decide +kernel

end ExportTables.Json
