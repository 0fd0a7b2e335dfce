import ExportTables.Proofs.Toml.Quoted
import ExportTables.Toml.Document

/-!
# Documents read line by line

A document of plain keys is read in pieces: each piece is read as its key, value or statement
whatever stands behind it, so what has been written piece by piece is read piece by piece
(`WritesValue`, `WritesStatement`). A bound on the number of pieces is all that the readers with
fuel need.
-/

namespace ExportTables.Toml

/-! ## Keys -/

/-- A key that is written without quotes. -/
def IsBareKey (key : String) : Prop := key.toList ≠ [] ∧ key.toList.all isBare = true

instance (key : String) : Decidable (IsBareKey key) :=
  inferInstanceAs (Decidable (key.toList ≠ [] ∧ key.toList.all isBare = true))

variable {key : String}

theorem ne_of_isBare {c d : Char} (hc : isBare c = true) (hd : isBare d = false) : c ≠ d := by
  rintro rfl
  rw [hc] at hd
  cases hd

theorem isBlank_of_isBare {c : Char} (hc : isBare c = true) : isBlank c = false := by
  have hspace : c ≠ ' ' := ne_of_isBare hc (by decide)
  have htab : c ≠ '\t' := ne_of_isBare hc (by decide)
  simp [isBlank, hspace, htab]

theorem IsBareKey.eq_cons (h : IsBareKey key) :
    ∃ c more, key.toList = c :: more ∧ isBare c = true := by
  obtain ⟨hne, hbare⟩ := h
  obtain ⟨c, more, hkey⟩ := List.exists_cons_of_ne_nil hne
  exact ⟨c, more, hkey, List.all_eq_true.mp hbare c (hkey ▸ List.mem_cons_self ..)⟩

theorem keyPart?_bare (h : IsBareKey key) {behind : List Char}
    (hbehind : ∀ c ∈ behind.head?, isBare c = false) :
    keyPart? (key.toList ++ behind) = some (key, behind) := by
  obtain ⟨c, more, hkey, hc⟩ := h.eq_cons
  have hquoted : quotedLine? (key.toList ++ behind) = none := by
    rw [hkey, List.cons_append, quotedLine?]
    · rintro rest heq
      exact ne_of_isBare hc (by decide) (List.cons.inj heq).1
    · rintro rest heq
      exact ne_of_isBare hc (by decide) (List.cons.inj heq).1
  have hstop : behind.takeWhile isBare = [] ∧ behind.dropWhile isBare = behind := by
    cases behind with
    | nil => exact ⟨rfl, rfl⟩
    | cons d behind =>
      have hd := hbehind d rfl
      simp [hd]
  have hbare := List.all_eq_true.mp h.2
  simp only [keyPart?, hquoted, List.takeWhile_append_of_pos hbare,
    List.dropWhile_append_of_pos hbare, hstop, List.append_nil]
  rw [if_neg h.1, String.ofList_toList]

theorem skipBlanks_of_head? {text : List Char} (h : ∀ c ∈ text.head?, isBlank c = false) :
    skipBlanks text = text := by
  cases text with
  | nil => rfl
  | cons c rest => simp [skipBlanks, h c rfl]

theorem key?_bare (h : IsBareKey key) {behind : List Char}
    (hbehind : ∀ c ∈ behind.head?, isBare c = false) (hdot : (skipBlanks behind).head? ≠ some '.') :
    key? (key.toList ++ behind) = some ([key], skipBlanks behind) := by
  obtain ⟨c, more, hkey, hc⟩ := h.eq_cons
  have hskip : skipBlanks (key.toList ++ behind) = key.toList ++ behind := by
    apply skipBlanks_of_head?
    rw [hkey]
    simpa using isBlank_of_isBare hc
  rw [key?, maxDepth, dottedKey?, hskip, keyPart?_bare h hbehind]
  simp only [bind, Option.bind]
  split
  · rename_i rest heq
    rw [heq] at hdot
    exact absurd rfl hdot
  · rfl

theorem assignedKey?_bare (h : IsBareKey key) (value : List Char) :
    assignedKey? (key.toList ++ ' ' :: '=' :: ' ' :: value) = some ([key], skipBlanks value) := by
  have hbehind : ∀ c ∈ (' ' :: '=' :: ' ' :: value).head?, isBare c = false := by
    intro c hc
    obtain rfl := Option.some.inj hc
    decide
  rw [assignedKey?, key?_bare h hbehind (by simp [skipBlanks, isBlank])]
  rfl

/-! ## Values -/

theorem valueWithin?_quote (depth : Nat) (text : String) {rest : List Char} (hrest : NoMark rest) :
    valueWithin? depth (quote text.toList ++ rest) = some (.string text, rest) := by
  obtain ⟨mark, behind, hquote, hmark⟩ := quote_eq_cons text.toList
  have hbracket : mark ≠ '[' ∧ mark ≠ '\x7b' := by rcases hmark with rfl | rfl <;> decide
  rw [valueWithin?, quoted?_quote _ hrest]
  · simp only [String.ofList_toList]
  · rintro _ more - heq
    rw [hquote] at heq
    exact hbracket.1 (List.cons.inj heq).1
  · rintro _ more - heq
    rw [hquote] at heq
    exact hbracket.2 (List.cons.inj heq).1

section Items

variable {item? : List Char → Option (Value × List Char)} {fuel : Nat}
  {text start behind rest : List Char} {item : Value}

theorem itemsUpTo_close (hstart : skipFiller false text = ']' :: rest) :
    itemsUpTo item? (fuel + 1) text = some ([], rest) := by
  rw [itemsUpTo, hstart]
  rfl

theorem itemsUpTo_last (hstart : skipFiller false text = start) (hclose : start.head? ≠ some ']')
    (hitem : item? start = some (item, behind)) (hend : skipFiller false behind = ']' :: rest) :
    itemsUpTo item? (fuel + 1) text = some ([item], rest) := by
  rw [itemsUpTo, hstart]
  split
  · exact absurd rfl hclose
  · simp only [bind, Option.bind, hitem, hend]

theorem itemsUpTo_cons (hstart : skipFiller false text = start) (hclose : start.head? ≠ some ']')
    (hitem : item? start = some (item, behind)) (hcomma : skipFiller false behind = ',' :: rest) :
    itemsUpTo item? (fuel + 1) text =
      (itemsUpTo item? fuel rest).map fun (items, behind) => (item :: items, behind) := by
  rw [itemsUpTo, hstart]
  split
  · exact absurd rfl hclose
  · simp only [bind, Option.bind, hitem, hcomma]
    cases itemsUpTo item? fuel rest <;> rfl

end Items

/-- A text is read as a value where a line ends with it. -/
structure WritesValue (text : List Char) (value : Value) : Prop where
  start : ∃ c more, text = c :: more ∧ isBlank c = false
  read : ∀ rest, value? (text ++ '\n' :: rest) = some (value, '\n' :: rest)

theorem writesValue_quote (text : String) : WritesValue (quote text.toList) (.string text) := by
  obtain ⟨mark, behind, hquote, hmark⟩ := quote_eq_cons text.toList
  refine ⟨⟨mark, behind, hquote, ?_⟩, fun rest => valueWithin?_quote _ text ⟨by simp, by simp⟩⟩
  rcases hmark with rfl | rfl <;> rfl

/-! ## Statements -/

/-- A text is read as a statement, whatever follows it. -/
structure WritesStatement (line : List Char) (statement : Statement) : Prop where
  start : ∀ rest, skipFiller false (line ++ rest) = line ++ rest
  ne_nil : line ≠ []
  read : ∀ rest, statement? (line ++ rest) = some (statement, rest)

theorem statementsUpTo_line {line : List Char} {statement : Statement}
    (h : WritesStatement line statement) (fuel : Nat) (rest : List Char) :
    statementsUpTo (fuel + 1) (line ++ rest) =
      (statementsUpTo fuel rest).map (statement :: ·) := by
  rw [statementsUpTo, h.start]
  split
  · rename_i heq
    exact absurd (List.append_eq_nil_iff.mp heq).1 h.ne_nil
  · simp only [bind, Option.bind, h.read]

theorem statementsUpTo_lines {lines : List (List Char × Statement)}
    (h : ∀ line ∈ lines, WritesStatement line.1 line.2) (fuel : Nat) (rest : List Char) :
    statementsUpTo (fuel + lines.length) (lines.flatMap Prod.fst ++ rest) =
      (statementsUpTo fuel rest).map (lines.map Prod.snd ++ ·) := by
  induction lines with
  | nil => simp
  | cons line lines ih =>
    obtain ⟨hline, hlines⟩ := List.forall_mem_cons.mp h
    rw [List.flatMap_cons, List.append_assoc, List.length_cons, ← Nat.add_assoc,
      statementsUpTo_line hline, ih hlines, Option.map_map]
    rfl

theorem statementsUpTo_newline (fuel : Nat) (rest : List Char) :
    statementsUpTo (fuel + 1) ('\n' :: rest) = statementsUpTo (fuel + 1) rest := rfl

theorem skipFiller_of_isBare {c : Char} (hc : isBare c = true) (rest : List Char) :
    skipFiller false (c :: rest) = c :: rest := by
  have hblank := isBlank_of_isBare hc
  have hnewline : c ≠ '\n' := ne_of_isBare hc (by decide)
  have hcomment : c ≠ '#' := ne_of_isBare hc (by decide)
  simp [skipFiller, hblank, hnewline, hcomment]

theorem writesStatement_table (h : IsBareKey key) :
    WritesStatement ('[' :: key.toList ++ [']', '\n']) (.table [key]) := by
  obtain ⟨c, more, hkey, hc⟩ := h.eq_cons
  refine ⟨fun rest => rfl, by simp, fun rest => ?_⟩
  have hbehind : ∀ d ∈ (']' :: '\n' :: rest).head?, isBare d = false := by
    intro d hd
    obtain rfl := Option.some.inj hd
    decide
  have htext : ('[' :: key.toList ++ [']', '\n']) ++ rest =
      '[' :: (key.toList ++ ']' :: '\n' :: rest) := by simp
  rw [htext, statement?, key?_bare h hbehind (by simp [skipBlanks, isBlank])]
  · rfl
  · rintro rest' heq
    rw [hkey] at heq
    exact ne_of_isBare hc (by decide) (List.cons.inj heq).1

theorem writesStatement_entry (h : IsBareKey key) {text : List Char} {value : Value}
    (hvalue : WritesValue text value) :
    WritesStatement (key.toList ++ [' ', '=', ' '] ++ text ++ ['\n']) (.entry [key] value) := by
  obtain ⟨c, more, hkey, hc⟩ := h.eq_cons
  refine ⟨fun rest => ?_, by simp, fun rest => ?_⟩
  · rw [hkey]
    exact skipFiller_of_isBare hc _
  have hbracket : c ≠ '[' := ne_of_isBare hc (by decide)
  have htext : (key.toList ++ [' ', '=', ' '] ++ text ++ ['\n']) ++ rest =
      key.toList ++ ' ' :: '=' :: ' ' :: (text ++ '\n' :: rest) := by simp
  have hskip : skipBlanks (text ++ '\n' :: rest) = text ++ '\n' :: rest := by
    obtain ⟨d, behind, rfl, hd⟩ := hvalue.start
    apply skipBlanks_of_head?
    simpa using hd
  have hassigned := assignedKey?_bare h (text ++ '\n' :: rest)
  rw [htext, statement?, hassigned, hskip]
  · simp only [bind, Option.bind, hvalue.read]
    rfl
  · rintro rest' heq
    rw [hkey] at heq
    exact hbracket (List.cons.inj heq).1
  · rintro rest' heq
    rw [hkey] at heq
    exact hbracket (List.cons.inj heq).1

theorem joinNewlines_of_not_mem {text : List Char} (h : '\r' ∉ text) :
    joinNewlines text = text := by
  induction text with
  | nil => rfl
  | cons c rest ih =>
    rw [joinNewlines, ih fun hmem => h (List.mem_cons_of_mem c hmem)]
    rintro rest' rfl
    exact absurd (List.mem_cons_self ..) h

end ExportTables.Toml
