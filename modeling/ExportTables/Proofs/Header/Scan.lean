import ExportTables.Proofs.Header.MarkedDeclarations

/-!
# The names that a scan finds

No declaration reaches over a parenthesis, since neither the marker nor anything behind it holds
one. So a declaration that was found, or one that was found without a name, takes nothing away from
the ones behind it, and a scan can be followed from one parenthesis to the next: `scan_paren` is
one such stretch of the way. At its end the scan stands behind the parenthesis, whatever it found.
-/

namespace ExportTables.Header

open Text

variable {rule : ExportRule}

/-! ## One place -/

theorem bind_gap_outlooks (namePrefix text : List Char) (f : Reading → Reading) :
    ((outlooks namePrefix text).head?.bind fun look => look.gap.map f) =
      (lookAt namePrefix text).gap.map f := by
  cases text <;> rfl

theorem map_shift_readIf {allowed : Bool} {lead front : List Char}
    (h : allowed = true → beforeLastWord front ≠ []) :
    (readIf allowed front).map (·.shift lead.length) = readIf allowed (lead ++ front) := by
  cases allowed with
  | false => rfl
  | true =>
    have hfront := h rfl
    simp [readIf, wholeWord, Reading.shift, beforeLastWord_append_left lead hfront,
      lastWord_append_left lead hfront]

theorem beforeLastWord_ne_nil_of_opensType {front : List Char}
    (h : opensType (beforeLastWord front) = true) : beforeLastWord front ≠ [] := by
  intro hnil
  rw [hnil] at h
  exact absurd h (by decide)

/-- No declaration begins where the marker does not stand. -/
theorem declarationAt_of_no_marker {text : List Char} (h : ¬rule.marker.toList <+: text)
    (before : Option Char) (looks : List Outlook) :
    declarationAt rule before text looks = none := by
  rw [declarationAt, isPrefixOf?_eq_none.mpr h]
  exact ite_self _

/-- At a marker, it is the character behind the marker and the outlook behind that one which decide
whether a declaration begins. -/
theorem declarationAt_marker (before : Option Char) (c : Char) (behind : List Char) :
    declarationAt rule before (rule.marker.toList ++ c :: behind)
        (outlooks rule.namePrefix.toList (rule.marker.toList ++ c :: behind)) =
      if isBoundary before (rule.marker.toList ++ [c]).head? && isSpace c then
        (lookAt rule.namePrefix.toList behind).gap.map (·.shift (rule.marker.length + 1))
      else none := by
  have hhead : (rule.marker.toList ++ c :: behind).head? = (rule.marker.toList ++ [c]).head? := by
    rw [List.append_cons, head?_append_of_ne_nil (by simp)]
  have hdrop : (rule.marker.toList ++ c :: behind).drop (rule.marker.length + 1) = behind := by
    rw [← String.length_toList, List.drop_append]
    simp
  rw [declarationAt, isPrefixOf?_eq_some.mpr rfl, hhead]
  dsimp only
  rw [outlooks_drop, hdrop, bind_gap_outlooks]
  cases isBoundary before (rule.marker.toList ++ [c]).head? <;> rfl

/-- A declaration begins at a place in front of a parenthesis if the place is marked and the word
in front of the parenthesis is named as it should be. -/
theorem declarationAt_paren (hmarker : '(' ∉ rule.marker.toList)
    (hwords : ∀ c ∈ rule.namePrefix.toList, isWord c = true) {front : List Char}
    (hfront : '(' ∉ front) (before : Option Char) (rest : List Char) :
    declarationAt rule before (front ++ '(' :: rest)
        (outlooks rule.namePrefix.toList (front ++ '(' :: rest)) =
      readIf (markedHere rule before front && named rule.namePrefix.toList front) front := by
  by_cases hpre : rule.marker.toList <+: front
  swap
  · have hnot : ¬rule.marker.toList <+: front ++ '(' :: rest := by
      rwa [prefix_append_cons hmarker]
    rw [declarationAt_of_no_marker hnot, markedHere, isPrefixOf?_eq_none.mpr hpre, Bool.and_false]
    rfl
  obtain ⟨behind, rfl⟩ := hpre
  rw [List.append_assoc, markedHere, isPrefixOf?_eq_some.mpr rfl]
  cases behind with
  | nil =>
    rw [List.nil_append, declarationAt_marker, isSpace_paren, Bool.and_false, Bool.and_false]
    rfl
  | cons c behind =>
    have hbehind : '(' ∉ behind := by
      intro hmem
      exact hfront (by simp [hmem])
    have hlead : rule.marker.toList ++ c :: behind = (rule.marker.toList ++ [c]) ++ behind :=
      List.append_cons ..
    have hhead : (rule.marker.toList ++ c :: behind).head? = (rule.marker.toList ++ [c]).head? := by
      rw [hlead, head?_append_of_ne_nil (by simp)]
    have hlength : rule.marker.length + 1 = (rule.marker.toList ++ [c]).length := by
      rw [List.length_append, String.length_toList, List.length_singleton]
    dsimp only [List.cons_append]
    rw [declarationAt_marker, (describes_lookAt hwords hbehind rest).gap, hhead]
    by_cases hopens : opensType (beforeLastWord behind) = true
    · have hne := beforeLastWord_ne_nil_of_opensType hopens
      rw [hopens, Bool.and_true, Bool.and_true, hlead, named, named, lastWord_append_left _ hne,
        hlength, map_shift_readIf fun _ => hne]
      cases isBoundary before (rule.marker.toList ++ [c]).head? <;> cases isSpace c <;> rfl
    · rw [Bool.not_eq_true] at hopens
      simp [hopens, readIf]

theorem declarationAt_of_no_paren {text : List Char} (h : '(' ∉ text) (before : Option Char) :
    declarationAt rule before text (outlooks rule.namePrefix.toList text) = none := by
  have hlook : ∀ count, ((outlooks rule.namePrefix.toList text).drop count).head?.bind
      (fun look => look.gap.map (·.shift count)) = none := by
    intro count
    rw [outlooks_drop, bind_gap_outlooks, lookAt_of_no_paren h]
    rfl
  rw [declarationAt]
  split
  · split
    · rw [hlook, ite_self]
    · rfl
  · rfl

/-! ## From one parenthesis to the next -/

/-- Where no declaration begins, a scan goes on by one character. -/
theorem scan_of_not_found {before : Option Char} {c : Char} {rest : List Char}
    (h : declarationAt rule before (c :: rest)
      (outlooks rule.namePrefix.toList (c :: rest)) = none) :
    scan rule 0 before (c :: rest) (outlooks rule.namePrefix.toList (c :: rest)) =
      scan rule 0 (some c) rest (outlooks rule.namePrefix.toList rest) := by
  rw [outlooks] at h ⊢
  rw [scan, h]

/-- The characters of a declaration that was found are passed over. -/
theorem scan_skip (before : Option Char) (found rest : List Char) :
    scan rule found.length before (found ++ rest)
        (outlooks rule.namePrefix.toList (found ++ rest)) =
      scan rule 0 (found.getLast?.or before) rest (outlooks rule.namePrefix.toList rest) := by
  induction found generalizing before with
  | nil => rfl
  | cons c found ih =>
    rw [List.length_cons, List.cons_append, outlooks, scan, ih, List.getLast?_cons]
    cases found.getLast? <;> rfl

theorem beforeLastWord_ne_nil_of_marked {before : Option Char} {front : List Char}
    (h : marked rule before front = true) : beforeLastWord front ≠ [] := by
  obtain ⟨done, text, rfl, hmarked⟩ := marked_iff.mp h
  obtain ⟨-, gap, stretch, htext, hne, hgap, -⟩ := markedHere_iff.mp hmarked
  obtain ⟨c, gap, rfl⟩ := List.exists_cons_of_ne_nil hne
  intro hnil
  have hmem : c ∈ done ++ text := by
    rw [htext]
    simp
  have hword := beforeLastWord_eq_nil.mp hnil c hmem
  rw [isWord_of_isSpace (hgap c (List.mem_cons_self ..))] at hword
  exact absurd hword (by decide)

theorem length_wholeWord (front : List Char) : (wholeWord front).length = front.length + 1 := by
  have hlength := congrArg List.length (beforeLastWord_append_lastWord front)
  rw [List.length_append] at hlength
  rw [Reading.length, wholeWord, hlength]

theorem name_wholeWord (front rest : List Char) :
    (wholeWord front).name (front ++ rest) = lastWord front := by
  have hsplit : front ++ rest = beforeLastWord front ++ (lastWord front ++ rest) := by
    rw [← List.append_assoc, beforeLastWord_append_lastWord]
  rw [Reading.name, wholeWord, hsplit]
  simp

/-- Where a declaration begins, a scan takes its name and goes on behind it. -/
theorem scan_of_found {before : Option Char} {found : Reading} {passed rest : List Char}
    (hlength : found.length = passed.length)
    (h : declarationAt rule before (passed ++ rest)
      (outlooks rule.namePrefix.toList (passed ++ rest)) = some found) :
    scan rule 0 before (passed ++ rest) (outlooks rule.namePrefix.toList (passed ++ rest)) =
      found.name (passed ++ rest) ::
        scan rule 0 passed.getLast? rest (outlooks rule.namePrefix.toList rest) := by
  cases passed with
  | nil => exact absurd hlength (Nat.succ_ne_zero _)
  | cons c passed =>
    rw [List.cons_append, outlooks] at h
    rw [List.cons_append, outlooks, scan, h]
    dsimp only
    rw [hlength, List.length_cons, Nat.add_sub_cancel, scan_skip, List.getLast?_cons]
    cases passed.getLast? <;> rfl

/-- The name may be the word in front of a parenthesis. Then a scan goes on behind that one. -/
theorem scan_of_wholeWord {before : Option Char} {front rest : List Char}
    (h : declarationAt rule before (front ++ '(' :: rest)
      (outlooks rule.namePrefix.toList (front ++ '(' :: rest)) = some (wholeWord front)) :
    scan rule 0 before (front ++ '(' :: rest)
        (outlooks rule.namePrefix.toList (front ++ '(' :: rest)) =
      lastWord front :: scan rule 0 (some '(') rest (outlooks rule.namePrefix.toList rest) := by
  have hname := name_wholeWord front ('(' :: rest)
  rw [List.append_cons] at h hname ⊢
  rw [scan_of_found (by simp [length_wholeWord]) h, hname, List.getLast?_concat]

/-- What a scan finds up to a parenthesis, behind which it goes on in any case. -/
theorem scan_paren (hmarker : '(' ∉ rule.marker.toList)
    (hwords : ∀ c ∈ rule.namePrefix.toList, isWord c = true) {front : List Char}
    (hfront : '(' ∉ front) (before : Option Char) (rest : List Char) :
    scan rule 0 before (front ++ '(' :: rest)
        (outlooks rule.namePrefix.toList (front ++ '(' :: rest)) =
      (if marked rule before front && named rule.namePrefix.toList front then [lastWord front]
        else []) ++
      scan rule 0 (some '(') rest (outlooks rule.namePrefix.toList rest) := by
  induction front generalizing before with
  | nil =>
    have hnone : declarationAt rule before ('(' :: rest)
        (outlooks rule.namePrefix.toList ('(' :: rest)) = none := by
      have hunmarked : markedHere rule before [] = false := by
        cases h : rule.marker.toList with
        | nil => simp [markedHere, h]
        | cons c marker => simp [markedHere, h, List.isPrefixOf?]
      have hhere := declarationAt_paren hmarker hwords hfront before rest
      rw [hunmarked, List.nil_append] at hhere
      exact hhere
    rw [List.nil_append, scan_of_not_found hnone]
    rfl
  | cons c front ih =>
    have hrest : '(' ∉ front := by
      intro hmem
      exact hfront (List.mem_cons_of_mem c hmem)
    have hhere := declarationAt_paren hmarker hwords hfront before rest
    rw [marked]
    by_cases hfound : (markedHere rule before (c :: front) &&
        named rule.namePrefix.toList (c :: front)) = true
    · rw [hfound, readIf, if_pos rfl] at hhere
      rw [Bool.and_eq_true] at hfound
      rw [scan_of_wholeWord hhere, hfound.1, hfound.2, Bool.true_or,
        Bool.and_self, if_pos rfl]
      rfl
    · rw [Bool.not_eq_true] at hfound
      rw [hfound, readIf, if_neg Bool.false_ne_true, List.cons_append] at hhere
      rw [List.cons_append, scan_of_not_found hhere, ih hrest (some c)]
      by_cases hmarked : marked rule (some c) front = true
      · have hword := lastWord_cons (c := c) fun h => beforeLastWord_ne_nil_of_marked hmarked h.2
        rw [hmarked, Bool.or_true, named, named, hword]
      · rw [Bool.not_eq_true] at hmarked
        rw [hmarked, Bool.or_false, hfound, Bool.false_and]
        rfl

theorem scan_of_no_paren {text : List Char} (h : '(' ∉ text) (before : Option Char) :
    scan rule 0 before text (outlooks rule.namePrefix.toList text) = [] := by
  induction text generalizing before with
  | nil => rfl
  | cons c rest ih =>
    have hrest : '(' ∉ rest := by
      intro hmem
      exact h (List.mem_cons_of_mem c hmem)
    rw [scan_of_not_found (declarationAt_of_no_paren h before)]
    exact ih hrest (some c)

/-! ## All parentheses of a text -/

/-- What stands in front of a parenthesis marks nothing behind it. -/
theorem marked_append_paren (hmarker : '(' ∉ rule.marker.toList) (done front : List Char) :
    marked rule none (done ++ '(' :: front) = marked rule (some '(') front := by
  have hno : ∀ {before text}, markedHere rule before text = true → '(' ∉ text := by
    intro before text hmarked
    obtain ⟨-, gap, stretch, htext, -, hgap, hstretch⟩ := markedHere_iff.mp hmarked
    rw [htext]
    simp only [List.mem_append, not_or]
    refine ⟨⟨⟨hmarker, ?_⟩, ?_⟩, paren_not_mem_of_word fun _ => isWord_of_mem_lastWord⟩
    · intro hmem
      simpa using hgap '(' hmem
    · intro hmem
      simpa [isTypeChar] using hstretch.chars '(' hmem
  rw [Bool.eq_iff_iff, marked_iff, marked_iff]
  constructor
  · intro h
    obtain ⟨lead, text, heq, hmarked⟩ := h
    rcases List.append_eq_append_iff.mp heq with ⟨more, rfl, hmore⟩ | ⟨more, -, htext⟩
    · cases more with
      | nil =>
        rw [List.nil_append] at hmore
        exact absurd (hmore ▸ List.mem_cons_self ..) (hno hmarked)
      | cons c more =>
        obtain ⟨rfl, rfl⟩ := List.cons.inj hmore
        refine ⟨more, text, rfl, ?_⟩
        simpa [List.getLast?_append, List.getLast?_cons] using hmarked
    · exact absurd (htext ▸ by simp) (hno hmarked)
  · intro h
    obtain ⟨lead, text, rfl, hmarked⟩ := h
    refine ⟨done ++ '(' :: lead, text, by simp, ?_⟩
    simpa [List.getLast?_append, List.getLast?_cons] using hmarked

theorem lastWord_append_paren (done front : List Char) :
    lastWord (done ++ '(' :: front) = lastWord front := by
  have hparen : ¬(isWord '(' = true ∧ beforeLastWord front = []) := by simp
  rw [lastWord_append_left done, lastWord_cons hparen]
  rw [beforeLastWord_cons hparen]
  exact List.cons_ne_nil _ _

/-- A scan that stands behind `done` knows enough of what it has passed: nothing, or something that
ends in a parenthesis. -/
theorem declares_append (hmarker : '(' ∉ rule.marker.toList) {done : List Char}
    (hdone : done = [] ∨ ∃ lead, done = lead ++ ['(']) (front : List Char) :
    lastWord (done ++ front) = lastWord front ∧
      (Declares rule (done ++ front) ↔ lastWord front ≠ [] ∧
        (marked rule done.getLast? front && named rule.namePrefix.toList front) = true) := by
  rw [declares_iff, named, named, Bool.and_eq_true, and_comm (b := _ = true)]
  rcases hdone with rfl | ⟨lead, rfl⟩
  · exact ⟨rfl, Iff.rfl⟩
  · rw [List.append_assoc, List.singleton_append, marked_append_paren hmarker,
      lastWord_append_paren, List.getLast?_concat]
    exact ⟨rfl, Iff.rfl⟩

theorem range_append_cons (front rest : List Char) (c : Char) :
    List.range (front ++ c :: rest).length =
      List.range front.length ++
        front.length :: (List.range rest.length).map (front.length + 1 + ·) := by
  rw [List.length_append, List.length_cons, List.range_add, List.range_succ_eq_map, List.map_cons,
    List.map_map, Nat.add_zero]
  congr 2
  apply List.map_congr_left
  intro p _
  show front.length + (p + 1) = front.length + 1 + p
  omega

/-- From wherever a scan stands, the names that it goes on to find are those declared in front of
the parentheses to come. -/
theorem filter_scan (hmarker : '(' ∉ rule.marker.toList)
    (hwords : ∀ c ∈ rule.namePrefix.toList, isWord c = true) {done : List Char}
    (hdone : done = [] ∨ ∃ lead, done = lead ++ ['(']) (text : List Char) :
    (scan rule 0 done.getLast? text (outlooks rule.namePrefix.toList text)).filter (!·.isEmpty) =
      ((List.range text.length).filter fun p =>
        text[p]? = some '(' ∧ Declares rule (done ++ text.take p)).map fun p =>
          lastWord (done ++ text.take p) := by
  induction hlength : text.length using Nat.strong_induction_on generalizing done text with
  | _ length ih =>
    subst hlength
    by_cases hmem : '(' ∈ text
    · obtain ⟨front, rest, rfl, hfront⟩ := List.eq_append_cons_of_mem hmem
      have hlast : done ++ front ++ ['('] = [] ∨ ∃ lead, done ++ front ++ ['('] = lead ++ ['('] :=
        Or.inr ⟨_, rfl⟩
      have hshorter : rest.length < (front ++ '(' :: rest).length := by
        simp only [List.length_append, List.length_cons]
        omega
      have hnext := ih rest.length hshorter hlast rest rfl
      rw [List.getLast?_concat] at hnext
      have hbefore : (List.range front.length).filter (fun p =>
          (front ++ '(' :: rest)[p]? = some '(' ∧
          Declares rule (done ++ (front ++ '(' :: rest).take p)) = [] := by
        rw [List.filter_eq_nil_iff]
        intro p hp h
        rw [decide_eq_true_eq, List.getElem?_append_left (List.mem_range.mp hp)] at h
        exact hfront (List.mem_of_getElem? h.1)
      have hget : ∀ p, (front ++ '(' :: rest)[front.length + 1 + p]? = rest[p]? := by
        intro p
        rw [List.getElem?_append_right (by omega),
          show front.length + 1 + p - front.length = p + 1 by omega, List.getElem?_cons_succ]
      have htake : ∀ p, done ++ (front ++ '(' :: rest).take (front.length + 1 + p) =
          done ++ front ++ ['('] ++ rest.take p := by
        intro p
        rw [List.take_append, List.take_of_length_le (by omega),
          show front.length + 1 + p - front.length = p + 1 by omega, List.take_succ_cons]
        simp
      obtain ⟨hword, hdeclares⟩ := declares_append hmarker hdone front
      rw [scan_paren hmarker hwords hfront, List.filter_append, hnext, range_append_cons,
        List.filter_append, hbefore, List.nil_append, List.filter_cons, List.filter_map]
      have hhere : (front ++ '(' :: rest)[front.length]? = some '(' := by simp
      have hfront' : (front ++ '(' :: rest).take front.length = front := by simp
      simp only [Function.comp_def, hget, htake, hhere, hfront', true_and, hdeclares]
      cases hmarked : marked rule done.getLast? front && named rule.namePrefix.toList front with
      | false => simp [htake, Function.comp_def]
      | true =>
        by_cases hnil : lastWord front = []
        · simp [hnil, htake, Function.comp_def]
        · simp [hnil, hword, htake, Function.comp_def]
    · rw [scan_of_no_paren hmem, List.filter_nil, eq_comm, List.map_eq_nil_iff,
        List.filter_eq_nil_iff]
      intro p _ hp
      exact hmem (List.mem_of_getElem? (of_decide_eq_true hp).1)

/-- A scan finds exactly the names declared in front of the parentheses of a text, one for each
parenthesis that ends a declaration and in the order of these parentheses. -/
theorem exportedNames_eq_declared (rule : ExportRule) (text : List Char)
    (hmarker : '(' ∉ rule.marker.toList)
    (hwords : ∀ c ∈ rule.namePrefix.toList, isWord c = true) :
    exportedNames rule text =
      ((List.range text.length).filter fun p =>
        text[p]? = some '(' ∧ Declares rule (text.take p)).map fun p =>
          String.ofList (lastWord (text.take p)) := by
  have hscan := filter_scan hmarker hwords (Or.inl rfl) text
  rw [List.getLast?_nil] at hscan
  simp only [exportedNames, hscan, List.nil_append, List.map_map, Function.comp_def]

/-- A marker that begins two declarations, a parenthesis without a name, and a marker inside a
word. -/
theorem exportedNames_eq_declared_nested :
    let rule : ExportRule := ⟨"QPDF_DLL", "qpdf_"⟩
    let text :=
      "QPDF_DLL QPDF_DLL char **qpdf_a(QPDF_DLL int (xQPDF_DLL int qpdf_b(int) qpdf_c(".toList
    ('(' ∉ rule.marker.toList ∧ ∀ c ∈ rule.namePrefix.toList, isWord c = true) ∧
      exportedNames rule text =
        ((List.range text.length).filter fun p =>
          text[p]? = some '(' ∧ Declares rule (text.take p)).map fun p =>
            String.ofList (lastWord (text.take p)) := by
  intro rule text
  have hmarker : '(' ∉ rule.marker.toList := by decide +kernel
  have hwords : ∀ c ∈ rule.namePrefix.toList, isWord c = true :=
    List.all_eq_true.mp (by decide +kernel)
  exact ⟨⟨hmarker, hwords⟩, exportedNames_eq_declared rule text hmarker hwords⟩

end ExportTables.Header
