import ExportTables.Header
import ExportTables.Proofs.Header.NormalForm
import ExportTables.Proofs.Header.Scan

/-!
# Declarations line by line

A header with one declaration on each line exports the names of the lines, whatever the marker is
spelled like, as long as it begins with a word character. It may hold parentheses, stars and
semicolons, it may be a word that recurs in the lines, and it may be the end of one.

At the start of a line a marker that begins with any other character stands behind no word boundary,
so none of the lines is found then. Such a marker counts only where a word touches it.

The scan is followed from one run of characters without white space to the next. A declaration
begins in such a run only if the run ends in the marker, since the marker has no white space either
but must have some behind it.
-/

namespace ExportTables.Header

open Text

/-- The marker is one run of characters without white space and slashes, and the prefix is part of
a word. -/
structure ExportRule.IsPlain (rule : ExportRule) : Prop where
  marker_ne : rule.marker ≠ ""
  no_space : ∀ c ∈ rule.marker.toList, isSpace c = false
  no_slash : '/' ∉ rule.marker.toList
  lead_ne : rule.namePrefix ≠ ""
  words : ∀ c ∈ rule.namePrefix.toList, isWord c = true

instance (rule : ExportRule) : Decidable rule.IsPlain :=
  decidable_of_iff
    (rule.marker ≠ "" ∧ rule.marker.toList.any isSpace = false ∧ '/' ∉ rule.marker.toList ∧
      rule.namePrefix ≠ "" ∧ rule.namePrefix.toList.all isWord = true)
    ⟨fun ⟨hmarker, hspace, hslash, hlead, hwords⟩ =>
      ⟨hmarker, forall_isSpace_eq_false.mpr hspace, hslash, hlead, List.all_eq_true.mp hwords⟩,
    fun h => ⟨h.marker_ne, forall_isSpace_eq_false.mp h.no_space, h.no_slash, h.lead_ne,
      List.all_eq_true.mpr h.words⟩⟩

theorem ExportRule.IsPlain.toList_ne_nil {rule : ExportRule} (h : rule.IsPlain) :
    rule.marker.toList ≠ [] := mt String.toList_eq_nil_iff.mp h.marker_ne

/-- The declaration of a function without arguments on a line of its own. -/
def declarationLine (rule : ExportRule) (suffix : String) : String :=
  rule.marker ++ " int " ++ rule.namePrefix ++ suffix ++ "(void);\n"

/-- A header that declares one function on each line. -/
def declarationLines (rule : ExportRule) (suffixes : List String) : String :=
  String.join (suffixes.map (declarationLine rule))

/-- The characters of a line that declares a name, with a text behind it. -/
def lineBefore (rule : ExportRule) (name next : List Char) : List Char :=
  rule.marker.toList ++ ' ' :: ("int ".toList ++ name ++ '(' :: ("void);".toList ++ '\n' :: next))

theorem toList_declarationLines_cons (rule : ExportRule) (suffix : String)
    (suffixes : List String) :
    (declarationLines rule (suffix :: suffixes)).toList =
      lineBefore rule (rule.namePrefix ++ suffix).toList
        (declarationLines rule suffixes).toList := by
  simp [declarationLines, declarationLine, lineBefore, String.join_cons]

variable {rule : ExportRule} {before : Option Char} {name next : List Char}

/-! ## From one run to the next -/

/-- In front of a run a declaration begins only if the run is the marker and a reading goes on
behind it. -/
theorem declarationAt_run (hrule : rule.IsPlain) {run : List Char} {space : Char}
    (hrun : ∀ c ∈ run, isSpace c = false) (hspace : isSpace space = true)
    (hmarker : run = rule.marker.toList → isBoundary before run.head? = true →
      (lookAt rule.namePrefix.toList next).gap = none) :
    declarationAt rule before (run ++ space :: next)
      (outlooks rule.namePrefix.toList (run ++ space :: next)) = none := by
  have hnot : space ∉ rule.marker.toList := by
    intro hmem
    rw [hrule.no_space space hmem] at hspace
    cases hspace
  by_cases hpre : rule.marker.toList <+: run
  swap
  · exact declarationAt_of_no_marker (mt (prefix_append_cons hnot run next).mp hpre) before _
  obtain ⟨more, rfl⟩ := hpre
  cases more with
  | nil =>
    have hhead : (rule.marker.toList ++ [space]).head? = rule.marker.toList.head? :=
      head?_append_of_ne_nil hrule.toList_ne_nil
    rw [List.append_nil] at hmarker ⊢
    rw [declarationAt_marker, hhead, hspace, Bool.and_true]
    split
    · rename_i hboundary
      rw [hmarker rfl hboundary]
      rfl
    · rfl
  | cons c more =>
    have hc : isSpace c = false := hrun c (by simp)
    rw [List.append_assoc, List.cons_append, declarationAt_marker, hc, Bool.and_false]
    rfl

/-- A scan passes over a run in which no declaration begins. -/
theorem scan_run (hrule : rule.IsPlain) {run : List Char} {space : Char}
    (hrun : ∀ c ∈ run, isSpace c = false) (hspace : isSpace space = true)
    (hmarker : ∀ done, run = done ++ rule.marker.toList →
      isBoundary (done.getLast?.or before) rule.marker.toList.head? = true →
      (lookAt rule.namePrefix.toList next).gap = none) :
    scan rule 0 before (run ++ space :: next)
        (outlooks rule.namePrefix.toList (run ++ space :: next)) =
      scan rule 0 (some space) next (outlooks rule.namePrefix.toList next) := by
  have hhere : ∀ {before : Option Char} {run : List Char}, (∀ c ∈ run, isSpace c = false) →
      (∀ done, run = done ++ rule.marker.toList →
        isBoundary (done.getLast?.or before) rule.marker.toList.head? = true →
        (lookAt rule.namePrefix.toList next).gap = none) →
      declarationAt rule before (run ++ space :: next)
        (outlooks rule.namePrefix.toList (run ++ space :: next)) = none := by
    intro before run hrun hmarker
    apply declarationAt_run hrule hrun hspace
    intro heq hboundary
    exact hmarker [] heq (heq ▸ hboundary)
  induction run generalizing before with
  | nil => exact scan_of_not_found (hhere hrun hmarker)
  | cons c run ih =>
    have hscan := scan_of_not_found (hhere hrun hmarker)
    rw [List.cons_append]
    refine hscan.trans (ih (fun d hd => hrun d (List.mem_cons_of_mem c hd)) ?_)
    intro done hdone hboundary
    refine hmarker (c :: done) (by rw [hdone]; rfl) ?_
    rw [List.getLast?_cons]
    cases hlast : done.getLast? <;> simpa [hlast] using hboundary

/-! ## What stands behind a marker -/

/-- A reading from the white space behind a marker on leads to a parenthesis over nothing but the
characters of a return type and a name. -/
theorem opensType_of_gap (hwords : ∀ c ∈ rule.namePrefix.toList, isWord c = true) {text : List Char}
    (h : (lookAt rule.namePrefix.toList text).gap ≠ none) :
    ∃ front rest, text = front ++ '(' :: rest ∧ '(' ∉ front ∧
      opensType (beforeLastWord front) = true := by
  by_cases hmem : '(' ∈ text
  · obtain ⟨front, rest, rfl, hfront⟩ := List.eq_append_cons_of_mem hmem
    refine ⟨front, rest, rfl, hfront, ?_⟩
    by_contra hopens
    apply h
    rw [(describes_lookAt hwords hfront rest).gap, Bool.not_eq_true _ |>.mp hopens, Bool.and_false]
    rfl
  · have hlook := @lookAt_of_no_paren rule.namePrefix.toList _ hmem 0
    rw [List.drop_zero] at hlook
    exact absurd (by rw [hlook]) h

/-- No reading begins with a word that a parenthesis follows, since a return type is missing. -/
theorem gap_of_word_paren (hwords : ∀ c ∈ rule.namePrefix.toList, isWord c = true)
    {word : List Char} (hword : ∀ c ∈ word, isWord c = true) (rest : List Char) :
    (lookAt rule.namePrefix.toList (word ++ '(' :: rest)).gap = none := by
  rw [(describes_lookAt hwords (paren_not_mem_of_word hword) rest).gap,
    beforeLastWord_eq_nil.mpr hword, opensType, Bool.and_false]
  rfl

/-- No reading goes over a semicolon. -/
theorem gap_of_semicolon (hwords : ∀ c ∈ rule.namePrefix.toList, isWord c = true)
    {front : List Char} (hparen : '(' ∉ front) (hsemicolon : ';' ∈ front) (more : List Char) :
    (lookAt rule.namePrefix.toList (front ++ more)).gap = none := by
  by_contra hgap
  obtain ⟨longer, rest, htext, -, hopens⟩ := opensType_of_gap hwords hgap
  have hpre : front <+: longer := (prefix_append_cons hparen longer rest).mp ⟨more, htext⟩
  have hmem := mem_beforeLastWord (hpre.subset hsemicolon) (by decide)
  obtain ⟨gap, stretch, hsplit, hspaces, hstretch⟩ := opensType_iff.mp hopens
  rw [hsplit, List.mem_append] at hmem
  rcases hmem with hmem | hmem
  · exact absurd (hspaces _ hmem) (by decide)
  · exact absurd (hstretch.chars _ hmem) (by decide)

/-- Where a line ends in the marker, no reading goes on into the next line, since that line begins
with the marker too: a parenthesis behind no more than a word comes first, or else a semicolon. -/
theorem gap_behind_line (hrule : rule.IsPlain) (hname : ∀ c ∈ name, isWord c = true)
    (hends : rule.marker.toList <:+ name ++ "(void);".toList) (more : List Char) :
    (lookAt rule.namePrefix.toList (rule.marker.toList ++ more)).gap = none := by
  obtain ⟨done, hdone⟩ := hends
  have hparen : ∀ word, (∀ c ∈ word, isWord c = true) →
      rule.marker.toList = word ++ '(' :: "void);".toList →
      (lookAt rule.namePrefix.toList (rule.marker.toList ++ more)).gap = none := by
    intro word hword hmarker
    rw [hmarker, List.append_assoc]
    exact gap_of_word_paren hrule.words hword _
  rcases List.append_eq_append_iff.mp hdone.symm with ⟨lead, -, hlead⟩ | ⟨word, rfl, hmarker⟩
  · cases lead with
    | nil => exact hparen [] (by simp) hlead.symm
    | cons c lead =>
      have hrest : "void);".toList = lead ++ rule.marker.toList := (List.cons.inj hlead).2
      apply gap_of_semicolon hrule.words
      · intro hmem
        exact absurd (hrest ▸ List.mem_append_right lead hmem) (by decide : '(' ∉ "void);".toList)
      · have hlast := congrArg List.getLast? hrest
        rw [List.getLast?_append_of_ne_nil _ hrule.toList_ne_nil] at hlast
        exact List.mem_of_getLast? hlast.symm
  · exact hparen word (fun c hc => hname c (List.mem_append_right _ hc)) hmarker

/-! ## One line -/

theorem no_space_in_run (hname : ∀ c ∈ name, isWord c = true) :
    ∀ c ∈ name ++ "(void);".toList, isSpace c = false := by
  have hend : ∀ c ∈ "(void);".toList, isSpace c = false :=
    forall_isSpace_eq_false.mpr (by decide)
  intro c hc
  exact (List.mem_append.mp hc).elim (fun hc => isSpace_of_isWord (hname c hc)) (hend c)

/-- At the start of a line, a declaration begins at a marker that begins with a word character. -/
theorem declarationAt_line (hrule : rule.IsPlain)
    (hfirst : rule.marker.toList.head?.any isWord = true) (hbefore : before.any isWord = false)
    (hname : ∀ c ∈ name, isWord c = true) (hlead : rule.namePrefix.toList <+: name)
    (rest : List Char) :
    declarationAt rule before (rule.marker.toList ++ ' ' :: ("int ".toList ++ name ++ '(' :: rest))
        (outlooks rule.namePrefix.toList
          (rule.marker.toList ++ ' ' :: ("int ".toList ++ name ++ '(' :: rest))) =
      some (wholeWord (rule.marker.toList ++ ' ' :: ("int ".toList ++ name))) := by
  have hboundary : isBoundary before (rule.marker.toList ++ [' ']).head? = true := by
    rw [head?_append_of_ne_nil hrule.toList_ne_nil, isBoundary, hfirst, hbefore]
    rfl
  have hfront : '(' ∉ "int ".toList ++ name := by
    rw [List.mem_append, not_or]
    exact ⟨by decide, paren_not_mem_of_word hname⟩
  have hspace : ∀ c, "int ".toList.getLast? = some c → isWord c = false := by
    intro c hc
    obtain rfl : ' ' = c := Option.some.inj hc
    decide
  have hnamed : named rule.namePrefix.toList ("int ".toList ++ name) = true := by
    rwa [named, lastWord_append hspace hname, List.isPrefixOf_iff_prefix]
  have hopens : opensType (beforeLastWord ("int ".toList ++ name)) = true := by
    rw [beforeLastWord_append hspace hname]
    decide
  have hlength : rule.marker.length + 1 = (rule.marker.toList ++ [' ']).length := by
    rw [List.length_append, String.length_toList, List.length_singleton]
  rw [declarationAt_marker, hboundary, (describes_lookAt hrule.words hfront rest).gap, hnamed,
    hopens, hlength, map_shift_readIf fun _ => beforeLastWord_ne_nil_of_opensType hopens,
    ← List.append_cons]
  rfl

/-- From a marker that begins with a word character on, a scan finds the name of the line. -/
theorem scan_line (hrule : rule.IsPlain) (hfirst : rule.marker.toList.head?.any isWord = true)
    (hbefore : before.any isWord = false) (hname : ∀ c ∈ name, isWord c = true)
    (hlead : rule.namePrefix.toList <+: name)
    (hnext : rule.marker.toList <:+ name ++ "(void);".toList →
      (lookAt rule.namePrefix.toList next).gap = none) :
    scan rule 0 before (lineBefore rule name next)
        (outlooks rule.namePrefix.toList (lineBefore rule name next)) =
      name :: scan rule 0 (some '\n') next (outlooks rule.namePrefix.toList next) := by
  have hfound := declarationAt_line hrule hfirst hbefore hname hlead
    ("void);".toList ++ '\n' :: next)
  have hline : lineBefore rule name next = rule.marker.toList ++ ' ' :: ("int ".toList ++ name) ++
      '(' :: ("void);".toList ++ '\n' :: next) := by
    simp [lineBefore]
  have hlast : lastWord (rule.marker.toList ++ ' ' :: ("int ".toList ++ name)) = name := by
    rw [show rule.marker.toList ++ ' ' :: ("int ".toList ++ name) =
      (rule.marker.toList ++ " int ".toList) ++ name by simp]
    refine lastWord_append (fun c hc => ?_) hname
    rw [List.getLast?_append_of_ne_nil _ (by decide)] at hc
    obtain rfl : ' ' = c := Option.some.inj hc
    decide
  have hrest : ∀ done, "void);".toList = done ++ rule.marker.toList →
      isBoundary (done.getLast?.or (some '(')) rule.marker.toList.head? = true →
      (lookAt rule.namePrefix.toList next).gap = none := by
    intro done hdone _
    refine hnext ⟨name ++ '(' :: done, ?_⟩
    rw [List.append_assoc, List.cons_append, ← hdone]
    rfl
  change declarationAt rule before (lineBefore rule name next)
    (outlooks _ (lineBefore rule name next)) = _ at hfound
  rw [hline] at hfound ⊢
  rw [scan_of_wholeWord hfound, hlast,
    scan_run hrule (forall_isSpace_eq_false.mpr (by decide)) (by decide) hrest]

/-- Over a line whose marker begins with another character a scan passes without finding it. -/
theorem scan_line_of_not_word (hrule : rule.IsPlain)
    (hfirst : rule.marker.toList.head?.any isWord = false)
    (hbefore : before.any isWord = false) (hname : ∀ c ∈ name, isWord c = true)
    (hnext : rule.marker.toList <:+ name ++ "(void);".toList →
      (lookAt rule.namePrefix.toList next).gap = none) :
    scan rule 0 before (lineBefore rule name next)
        (outlooks rule.namePrefix.toList (lineBefore rule name next)) =
      scan rule 0 (some '\n') next (outlooks rule.namePrefix.toList next) := by
  have hmarker : ∀ behind done, rule.marker.toList = done ++ rule.marker.toList →
      isBoundary (done.getLast?.or before) rule.marker.toList.head? = true →
      (lookAt rule.namePrefix.toList behind).gap = none := by
    intro behind done hdone hboundary
    obtain rfl : done = [] := List.append_left_eq_self.mp hdone.symm
    rw [isBoundary, hfirst] at hboundary
    simp [hbefore] at hboundary
  have hint : ∀ done, "int".toList ≠ done ++ rule.marker.toList := by
    intro done hdone
    obtain ⟨c, marker, hmarker⟩ := List.exists_cons_of_ne_nil hrule.toList_ne_nil
    have hword : ∀ c ∈ "int".toList, isWord c = true := List.all_eq_true.mp (by decide)
    rw [hmarker, List.head?_cons, Option.any_some, hword c (by rw [hdone, hmarker]; simp)] at hfirst
    cases hfirst
  have hline : lineBefore rule name next = rule.marker.toList ++ ' ' ::
      ("int".toList ++ ' ' :: ((name ++ "(void);".toList) ++ '\n' :: next)) := by
    simp [lineBefore]
  rw [hline, scan_run hrule hrule.no_space (by decide) (hmarker _),
    scan_run hrule (forall_isSpace_eq_false.mpr (by decide)) (by decide)
      fun done hdone _ => absurd hdone (hint done),
    scan_run hrule (no_space_in_run hname) (by decide) fun done hdone _ => hnext ⟨done, hdone.symm⟩]

/-! ## All lines -/

/-- Nothing is declared from the end of one line into the next. -/
theorem gap_declarationLines (hrule : rule.IsPlain) (hname : ∀ c ∈ name, isWord c = true)
    (hends : rule.marker.toList <:+ name ++ "(void);".toList) (suffixes : List String) :
    (lookAt rule.namePrefix.toList (declarationLines rule suffixes).toList).gap = none := by
  cases suffixes with
  | nil => rfl
  | cons suffix suffixes =>
    rw [toList_declarationLines_cons]
    exact gap_behind_line hrule hname hends _

/-- A scan over the lines finds all names or none. -/
theorem scan_declarationLines (hrule : rule.IsPlain) (before : Option Char)
    (hbefore : before.any isWord = false) {suffixes : List String}
    (hsuffixes : ∀ suffix ∈ suffixes, ∀ c ∈ suffix.toList, isWord c = true) :
    scan rule 0 before (declarationLines rule suffixes).toList
        (outlooks rule.namePrefix.toList (declarationLines rule suffixes).toList) =
      if rule.marker.toList.head?.any isWord then
        suffixes.map fun suffix => (rule.namePrefix ++ suffix).toList
      else [] := by
  induction suffixes generalizing before with
  | nil => exact (ite_self _).symm
  | cons suffix suffixes ih =>
    obtain ⟨hsuffix, hrest⟩ := List.forall_mem_cons.mp hsuffixes
    have hname : ∀ c ∈ (rule.namePrefix ++ suffix).toList, isWord c = true := by
      intro c hc
      rw [String.toList_append, List.mem_append] at hc
      exact hc.elim (hrule.words c) (hsuffix c)
    have hnext : rule.marker.toList <:+ (rule.namePrefix ++ suffix).toList ++ "(void);".toList →
        (lookAt rule.namePrefix.toList (declarationLines rule suffixes).toList).gap = none :=
      fun hends => gap_declarationLines hrule hname hends suffixes
    have hlater := ih (some '\n') (by decide) hrest
    rw [toList_declarationLines_cons]
    cases hfirst : rule.marker.toList.head?.any isWord with
    | true =>
      rw [hfirst] at hlater
      rw [scan_line hrule hfirst hbefore hname (by simp) hnext, hlater]
      rfl
    | false =>
      rw [hfirst] at hlater
      rw [scan_line_of_not_word hrule hfirst hbefore hname hnext, hlater]
      rfl

theorem commentFree_declarationLines (hrule : rule.IsPlain) {suffixes : List String}
    (hsuffixes : ∀ suffix ∈ suffixes, ∀ c ∈ suffix.toList, isWord c = true) :
    CommentFree (declarationLines rule suffixes).toList := by
  have hwords : ∀ text : List Char, (∀ c ∈ text, isWord c = true) → '/' ∉ text :=
    fun text htext hmem => absurd (htext _ hmem) (by decide)
  apply CommentFree.of_no_slash
  rw [declarationLines, String.toList_join, List.mem_flatMap]
  intro h
  obtain ⟨line, hline, hslash⟩ := h
  obtain ⟨suffix, hsuffix, rfl⟩ := List.mem_map.mp hline
  simp only [declarationLine, String.toList_append, List.mem_append] at hslash
  rcases hslash with (((hslash | hslash) | hslash) | hslash) | hslash
  · exact hrule.no_slash hslash
  · exact absurd hslash (by decide)
  · exact hwords _ hrule.words hslash
  · exact hwords _ (hsuffixes suffix hsuffix) hslash
  · exact absurd hslash (by decide)

/-- A header with one declaration on each line exports the names of all lines, in order, if the
marker begins with a word character, and none of them if it begins with another one. -/
theorem symbols_ofText_declarationLines (rule : ExportRule) (source : String)
    (suffixes : List String) (hrule : rule.IsPlain)
    (hsuffixes : ∀ suffix ∈ suffixes, ∀ c ∈ suffix.toList, isWord c = true) :
    (ofText rule source (declarationLines rule suffixes)).symbols =
      if rule.marker.toList.head?.any isWord then suffixes.map (rule.namePrefix ++ ·) else [] := by
  have hstrip := (commentFree_declarationLines hrule hsuffixes).stripComments_eq
  have hscan := scan_declarationLines hrule none rfl hsuffixes
  have hnames : (suffixes.map fun suffix => (rule.namePrefix ++ suffix).toList).filter
      (!·.isEmpty) = suffixes.map fun suffix => (rule.namePrefix ++ suffix).toList := by
    rw [List.filter_eq_self, List.forall_mem_map]
    intro suffix _
    simp [String.toList_append, hrule.lead_ne]
  rw [ofText, exportedNames, hstrip, hscan]
  split
  · rw [hnames, List.map_map]
    simp [Function.comp_def]
  · rfl

/-- A marker that every line ends in, and a prefix that stands in front of every name as a type. -/
theorem symbols_ofText_declarationLines_recurring :
    let rule : ExportRule := ⟨"void);", "int"⟩
    let suffixes := ["", "_a", "void", "_a"]
    rule.IsPlain ∧ (∀ suffix ∈ suffixes, ∀ c ∈ suffix.toList, isWord c = true) ∧
      (ofText rule "test.h" (declarationLines rule suffixes)).symbols =
        ["int", "int_a", "intvoid", "int_a"] := by
  intro rule suffixes
  have hrule : rule.IsPlain := by decide
  have hall : (suffixes.all fun suffix => suffix.toList.all isWord) = true := by decide
  have hsuffixes : ∀ suffix ∈ suffixes, ∀ c ∈ suffix.toList, isWord c = true := by
    simpa only [List.all_eq_true] using hall
  refine ⟨hrule, hsuffixes, ?_⟩
  rw [symbols_ofText_declarationLines rule "test.h" suffixes hrule hsuffixes]
  decide

/-- Not every marker works: at the start of a line no word boundary stands in front of one that
begins with an at sign. -/
theorem declarationLines_missed_at_sign :
    ¬∀ (rule : ExportRule) (source : String) (suffixes : List String), rule.IsPlain →
      (∀ suffix ∈ suffixes, ∀ c ∈ suffix.toList, isWord c = true) →
      (ofText rule source (declarationLines rule suffixes)).symbols =
        suffixes.map (rule.namePrefix ++ ·) := by
  intro h
  have hsuffixes : ∀ suffix ∈ ["a"], ∀ c ∈ suffix.toList, isWord c = true :=
    List.forall_mem_singleton.mpr (List.all_eq_true.mp (by decide))
  have hrun := h ⟨"@API", "p_"⟩ "test.h" ["a"] (by decide) hsuffixes
  revert hrun
  decide +kernel

/-- Such a marker is found where it is glued to a word. -/
example : (ofText ⟨"@API", "p_"⟩ "test.h" "x@API int p_a(void);").symbols = ["p_a"] := by
  decide +kernel

end ExportTables.Header
