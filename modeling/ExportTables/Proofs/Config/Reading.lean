import ExportTables.Config.Reading
import ExportTables.Config.Writing
import ExportTables.Proofs.Toml.Document

/-!
# A configuration that has been written is read

The document of a configuration is a row of lines, of which each is read as one statement whatever
its texts are. The statements build a table that has every key, so no default takes the place of
what has been written.
-/

namespace ExportTables.Config

open Toml

/-! ## Lists -/

theorem skipFiller_margin (rest : List Char) :
    skipFiller false ('\n' :: ([' ', ' ', ' ', ' '] ++ rest)) = skipFiller false rest := rfl

theorem skipFiller_quote (text : List Char) (rest : List Char) :
    skipFiller false (quote text ++ rest) = quote text ++ rest := by
  obtain ⟨mark, behind, hquote, hmark⟩ := quote_eq_cons text
  rw [hquote]
  rcases hmark with rfl | rfl <;> rfl

theorem head?_quote (text : List Char) (rest : List Char) :
    (quote text ++ rest).head? ≠ some ']' := by
  obtain ⟨mark, behind, hquote, hmark⟩ := quote_eq_cons text
  rw [hquote]
  rcases hmark with rfl | rfl <;> simp

/-- The lines between the brackets are read as the texts. -/
theorem itemsUpTo_elementLines (depth : Nat) {texts : List String} {fuel : Nat}
    (h : texts.length < fuel) (rest : List Char) :
    itemsUpTo (valueWithin? depth) fuel ('\n' :: (texts.flatMap elementLine ++ ']' :: rest)) =
      some (texts.map .string, rest) := by
  induction texts generalizing fuel with
  | nil =>
    obtain ⟨fuel, rfl⟩ := Nat.exists_eq_add_one_of_ne_zero (Nat.ne_of_gt h)
    exact itemsUpTo_close rfl
  | cons text texts ih =>
    obtain ⟨fuel, rfl⟩ := Nat.exists_eq_add_one_of_ne_zero (Nat.ne_of_gt (Nat.zero_lt_of_lt h))
    let behind := '\n' :: (texts.flatMap elementLine ++ ']' :: rest)
    have hstart : skipFiller false
        ('\n' :: ((text :: texts).flatMap elementLine ++ ']' :: rest)) =
          quote text.toList ++ ',' :: behind := by
      have hline : (text :: texts).flatMap elementLine ++ ']' :: rest =
          [' ', ' ', ' ', ' '] ++ (quote text.toList ++ ',' :: behind) := by
        simp [elementLine, behind]
      rw [hline, skipFiller_margin, skipFiller_quote]
    have hitem := valueWithin?_quote depth text (show NoMark (',' :: behind) by simp [NoMark])
    rw [itemsUpTo_cons hstart (head?_quote _ _) hitem rfl, ih (Nat.lt_of_succ_lt_succ h)]
    rfl

theorem length_le_flatMap_elementLine (texts : List String) :
    texts.length ≤ (texts.flatMap elementLine).length := by
  induction texts with
  | nil => exact Nat.le_refl 0
  | cons text texts ih =>
    simp only [List.flatMap_cons, List.length_append, List.length_cons, elementLine]
    omega

/-- A list is read as its texts, also an empty one and one on a single line. -/
theorem writesValue_listText (texts : List String) :
    WritesValue (listText texts) (.array (texts.map .string)) := by
  cases texts with
  | nil => exact ⟨⟨'[', [']'], rfl, rfl⟩, fun rest => rfl⟩
  | cons text texts =>
  cases texts with
  | nil =>
    refine ⟨⟨'[', quote text.toList ++ [']'], rfl, rfl⟩, fun rest => ?_⟩
    have htext : listText [text] ++ '\n' :: rest =
        '[' :: (quote text.toList ++ ']' :: '\n' :: rest) := by simp [listText]
    have hitem := valueWithin?_quote 78 text (show NoMark (']' :: '\n' :: rest) by simp [NoMark])
    rw [htext, value?, maxDepth, valueWithin?,
      itemsUpTo_last (skipFiller_quote ..) (head?_quote _ _) hitem rfl]
    rfl
  | cons text' texts =>
    refine ⟨⟨'[', _, rfl, rfl⟩, fun rest => ?_⟩
    have htext : listText (text :: text' :: texts) ++ '\n' :: rest =
        '[' :: '\n' :: ((text :: text' :: texts).flatMap elementLine ++ ']' :: '\n' :: rest) := by
      simp [listText]
    have hlength := length_le_flatMap_elementLine (text :: text' :: texts)
    rw [htext, value?, maxDepth, valueWithin?, itemsUpTo_elementLines]
    · rfl
    · simp only [List.length_cons, List.length_append] at hlength ⊢
      omega

/-! ## The document -/

/-- The lines of the section on the header, with what they state. -/
def headerLines (c : HeaderConfig) : List (List Char × Statement) := [
  (headerLine "header", .table ["header"]),
  (textEntry "marker" c.marker, .entry ["marker"] (.string c.marker)),
  (textEntry "prefix" c.namePrefix, .entry ["prefix"] (.string c.namePrefix)),
  (textEntry "file" c.file, .entry ["file"] (.string c.file)),
  (textEntry "include_dir" c.includeDir, .entry ["include_dir"] (.string c.includeDir))]

/-- The lines of the section on the export list, with what they state. -/
def exportsLines (c : ExportsConfig) : List (List Char × Statement) := [
  (headerLine "exports", .table ["exports"]),
  (listEntry "manual" c.manual, .entry ["manual"] (.array (c.manual.map .string))),
  (listEntry "exclude" c.exclude, .entry ["exclude"] (.array (c.exclude.map .string))),
  (textEntry "linkage_prefix" c.linkagePrefix,
    .entry ["linkage_prefix"] (.string c.linkagePrefix))]

/-- The lines of the section on the runtime, with what they state. -/
def runtimeLines (c : RuntimeConfig) : List (List Char × Statement) := [
  (headerLine "runtime", .table ["runtime"]),
  (listEntry "methods" c.methods, .entry ["methods"] (.array (c.methods.map .string))),
  (listEntry "incoming" c.incoming, .entry ["incoming"] (.array (c.incoming.map .string)))]

/-- What the document of a configuration states. -/
def statements (c : Config) : List Statement :=
  (headerLines c.header ++ exportsLines c.exports ++ runtimeLines c.runtime).map Prod.snd

theorem writesStatement_textEntry {key : String} (h : IsBareKey key) (text : String) :
    WritesStatement (textEntry key text) (.entry [key] (.string text)) :=
  writesStatement_entry h (writesValue_quote text)

theorem writesStatement_listEntry {key : String} (h : IsBareKey key) (texts : List String) :
    WritesStatement (listEntry key texts) (.entry [key] (.array (texts.map .string))) :=
  writesStatement_entry h (writesValue_listText texts)

theorem writesStatement_headerLines (c : HeaderConfig) :
    ∀ line ∈ headerLines c, WritesStatement line.1 line.2 := by
  simp only [headerLines, List.forall_mem_cons, List.not_mem_nil, false_implies, implies_true,
    and_true]
  exact ⟨writesStatement_table (by decide +kernel),
    writesStatement_textEntry (by decide +kernel) _,
    writesStatement_textEntry (by decide +kernel) _,
    writesStatement_textEntry (by decide +kernel) _,
    writesStatement_textEntry (by decide +kernel) _⟩

theorem writesStatement_exportsLines (c : ExportsConfig) :
    ∀ line ∈ exportsLines c, WritesStatement line.1 line.2 := by
  simp only [exportsLines, List.forall_mem_cons, List.not_mem_nil, false_implies, implies_true,
    and_true]
  exact ⟨writesStatement_table (by decide +kernel),
    writesStatement_listEntry (by decide +kernel) _,
    writesStatement_listEntry (by decide +kernel) _,
    writesStatement_textEntry (by decide +kernel) _⟩

theorem writesStatement_runtimeLines (c : RuntimeConfig) :
    ∀ line ∈ runtimeLines c, WritesStatement line.1 line.2 := by
  simp only [runtimeLines, List.forall_mem_cons, List.not_mem_nil, false_implies, implies_true,
    and_true]
  exact ⟨writesStatement_table (by decide +kernel),
    writesStatement_listEntry (by decide +kernel) _,
    writesStatement_listEntry (by decide +kernel) _⟩

/-- The document is its lines, with an empty line between two sections. -/
theorem toList_toText (c : Config) :
    c.toText.toList = (headerLines c.header).flatMap Prod.fst ++ '\n' ::
      ((exportsLines c.exports).flatMap Prod.fst ++ '\n' ::
        (runtimeLines c.runtime).flatMap Prod.fst) := by
  simp [toText, headerText, exportsText, runtimeText, headerLines, exportsLines, runtimeLines]

theorem statements?_toText (c : Config) : statements? c.toText.toList = some (statements c) := by
  have hlength : 12 ≤ c.toText.toList.length := by
    rw [toList_toText]
    simp [headerLines, exportsLines, headerLine]
    omega
  obtain ⟨fuel, hfuel⟩ : ∃ fuel, c.toText.toList.length + 1 = fuel + 1 + 3 + 4 + 5 :=
    ⟨c.toText.toList.length - 12, by omega⟩
  have hruntime := statementsUpTo_lines (writesStatement_runtimeLines c.runtime) (fuel + 1) []
  have hexports := statementsUpTo_lines (writesStatement_exportsLines c.exports) (fuel + 1 + 3)
    ('\n' :: (runtimeLines c.runtime).flatMap Prod.fst)
  have hheader := statementsUpTo_lines (writesStatement_headerLines c.header) (fuel + 1 + 3 + 4)
    ('\n' :: ((exportsLines c.exports).flatMap Prod.fst ++
      '\n' :: (runtimeLines c.runtime).flatMap Prod.fst))
  rw [show (runtimeLines c.runtime).length = 3 from rfl, List.append_nil,
    show statementsUpTo (fuel + 1) [] = some [] from rfl] at hruntime
  rw [show (exportsLines c.exports).length = 4 from rfl, statementsUpTo_newline, hruntime]
    at hexports
  rw [show (headerLines c.header).length = 5 from rfl, statementsUpTo_newline, hexports] at hheader
  rw [statements?, hfuel, toList_toText, hheader]
  simp [statements]

/-- The table that the statements build, each key behind those that were added after it. -/
def table (c : Config) : Table := [
  ("runtime", .table .headed [
    ("incoming", .array (c.runtime.incoming.map .string)),
    ("methods", .array (c.runtime.methods.map .string))]),
  ("exports", .table .headed [
    ("linkage_prefix", .string c.exports.linkagePrefix),
    ("exclude", .array (c.exports.exclude.map .string)),
    ("manual", .array (c.exports.manual.map .string))]),
  ("header", .table .headed [
    ("include_dir", .string c.header.includeDir),
    ("file", .string c.header.file),
    ("prefix", .string c.header.namePrefix),
    ("marker", .string c.header.marker)])]

theorem build?_statements (c : Config) : build? [] [] (statements c) = some (table c) := rfl

theorem texts?_map (texts : List String) : texts? (.array (texts.map .string)) = some texts := by
  rw [texts?]
  induction texts with
  | nil => rfl
  | cons text texts ih => simp [ih, text?]

theorem ofTable?_table (c : Config) : ofTable? (table c) = some c := by
  have hheader : (fields? headerKeys ((table c).get? "header")).bind headerOf? =
      some c.header := rfl
  have hexports : (fields? exportsKeys ((table c).get? "exports")).bind exportsOf? =
      some c.exports := by
    change (do
      let manual ← texts? (.array (c.exports.manual.map .string))
      let exclude ← texts? (.array (c.exports.exclude.map .string))
      some (ExportsConfig.mk manual exclude c.exports.linkagePrefix)) = _
    rw [texts?_map, texts?_map]
    rfl
  have hruntime : (fields? runtimeKeys ((table c).get? "runtime")).bind runtimeOf? =
      some c.runtime := by
    change (do
      let methods ← texts? (.array (c.runtime.methods.map .string))
      let incoming ← texts? (.array (c.runtime.incoming.map .string))
      some (RuntimeConfig.mk methods incoming)) = _
    rw [texts?_map, texts?_map]
    rfl
  rw [ofTable?, hheader, hexports, hruntime]
  rfl

theorem not_mem_listText (texts : List String) : '\r' ∉ listText texts := by
  have hline : ∀ text, '\r' ∉ elementLine text := by
    intro text
    simp [elementLine, not_mem_quote]
  cases texts with
  | nil => decide
  | cons text texts =>
  cases texts with
  | nil => simp [listText, not_mem_quote]
  | cons text' texts =>
    rw [listText]
    · simp [hline]
    · simp
    · simp

theorem not_mem_toText (c : Config) : '\r' ∉ c.toText.toList := by
  rw [toText, String.toList_ofList]
  simp [headerText, exportsText, runtimeText, headerLine, textEntry, listEntry, entryText,
    not_mem_quote, not_mem_listText]

/-- The document of a configuration is read as this configuration. -/
theorem ofText?_toText (c : Config) : ofText? c.toText = some c := by
  have hmark : skipByteOrderMark c.toText.toList = c.toText.toList := by
    rw [toList_toText]
    rfl
  rw [ofText?, Table.ofText?, hmark, joinNewlines_of_not_mem (not_mem_toText c),
    statements?_toText, Option.bind_some, build?_statements, Option.bind_some, ofTable?_table]

end ExportTables.Config
