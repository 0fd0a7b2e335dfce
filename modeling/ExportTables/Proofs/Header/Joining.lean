import ExportTables.Header
import ExportTables.Proofs.Header.Passes
import ExportTables.Proofs.Header.Scan

/-!
# Headers put together

Two headers with a newline and a semicolon between them export what each of them exports, first the
names of the one and then those of the other. The newline ends a line comment, and the semicolon
ends everything that a declaration is made of, as long as neither marker nor prefix holds one. So no
comment and no declaration crosses the seam, and there is nothing that a broken header could take
away from the one behind it or add to it.

Nothing else is asked of marker and prefix. The prefix may hold a parenthesis or the newline, and
then a declaration has more than one reading; so the argument is about readings, and not about
parentheses as for a prefix of word characters.
-/

namespace ExportTables.Header

open Text

/-! ## Comments -/

theorem stripComments_append_seam {front : List Char} (h : BlocksClosed front) (back : List Char) :
    stripComments (front ++ '\n' :: ';' :: back) =
      stripComments front ++ '\n' :: ';' :: stripComments back := by
  rw [stripComments, stripBlocks_append (Or.inl h) (.of_head?_ne (by simp)), stripBlocks_newline,
    stripBlocks_cons (by simp), stripLines_append_newline, stripLines_cons (by simp)]
  rfl

/-! ## Readings stay within their text -/

/-- No reading of an outlook goes on behind the end of a text. -/
structure Fits (text : List Char) (look : Outlook) : Prop where
  call : ∀ size, look.call = some size → size < text.length
  stars : ∀ r, look.stars = some r → r.length ≤ text.length
  typeEnd : ∀ r, look.typeEnd = some r → r.length ≤ text.length
  typeChars : ∀ r, look.typeChars = some r → r.length ≤ text.length
  gap : ∀ r, look.gap = some r → r.length ≤ text.length

theorem length_shift (r : Reading) (count : Nat) : (r.shift count).length = count + r.length := by
  simp only [Reading.length, Reading.shift]
  omega

variable {namePrefix : List Char}

theorem length_step (allowed : Bool) {next : Option Reading} {bound : Nat}
    (h : ∀ r, next = some r → r.length ≤ bound) :
    ∀ r, Outlook.step allowed next = some r → r.length ≤ bound + 1 := by
  intro r hr
  rw [Outlook.step] at hr
  split at hr
  · obtain ⟨later, hlater, rfl⟩ := Option.map_eq_some_iff.mp hr
    have hbound := h later hlater
    rw [length_shift]
    omega
  · cases hr

theorem length_or {first second : Option Reading} {bound : Nat}
    (hfirst : ∀ r, first = some r → r.length ≤ bound)
    (hsecond : ∀ r, second = some r → r.length ≤ bound) :
    ∀ r, first.or second = some r → r.length ≤ bound := by
  intro r hr
  rcases Option.or_eq_some_iff.mp hr with hr | ⟨-, hr⟩
  · exact hfirst r hr
  · exact hsecond r hr

theorem length_nameHere {text : List Char}
    (h : ∀ size, (lookAt namePrefix (text.drop namePrefix.length)).call = some size →
      size < (text.drop namePrefix.length).length) :
    ∀ r, nameHere namePrefix text = some r → r.length ≤ text.length := by
  intro r hr
  rw [nameHere, nameAt] at hr
  split at hr
  · obtain ⟨size, hsize, rfl⟩ := Option.map_eq_some_iff.mp hr
    have hbound := h size hsize
    rw [List.length_drop] at hbound
    simp only [Reading.length]
    omega
  · cases hr

theorem fits_lookAt (text : List Char) (count : Nat) :
    Fits (text.drop count) (lookAt namePrefix (text.drop count)) := by
  induction text generalizing count with
  | nil =>
    rw [List.drop_nil]
    constructor <;> intro r hr <;> cases hr
  | cons c rest ih =>
    cases count with
    | succ count => exact ih count
    | zero =>
      have hnext : Fits rest (lookAt namePrefix rest) := ih 0
      have hcall : ∀ size, (lookAt namePrefix (c :: rest)).call = some size →
          size < (c :: rest).length := by
        intro size hsize
        rw [lookAt_cons] at hsize
        simp only at hsize
        rw [List.length_cons]
        split at hsize
        · obtain rfl := Option.some.inj hsize
          omega
        · split at hsize
          · obtain ⟨later, hlater, rfl⟩ := Option.map_eq_some_iff.mp hsize
            exact Nat.succ_lt_succ (hnext.call later hlater)
          · cases hsize
      have hname : ∀ r, nameHere namePrefix (c :: rest) = some r →
          r.length ≤ (c :: rest).length := by
        apply length_nameHere
        cases namePrefix with
        | nil => exact hcall
        | cons d others => exact (ih others.length).call
      have hstars := length_or (length_step (c == '*') hnext.stars) hname
      have hpart := length_step (isTypeChar c) hnext.typeChars
      have hending := length_step (isTypeEnd c) hnext.typeEnd
      rw [List.drop_zero]
      rw [lookAt_cons] at hcall ⊢
      exact ⟨hcall, hstars, length_or (length_or hending hstars) hpart, length_or hpart hending,
        length_or (length_step _ hnext.gap) hpart⟩

/-! ## Readings end at the seam -/

theorem lookAt_semicolon (h : ';' ∉ namePrefix) (back : List Char) :
    lookAt namePrefix (';' :: back) = {} := by
  have hname : nameHere namePrefix (';' :: back) = none := by
    cases namePrefix with
    | nil =>
      apply nameHere_eq_none
      exact call_lookAt_cons (by decide) back
    | cons d others =>
      have hd : d ≠ ';' := fun heq => h (heq ▸ List.mem_cons_self ..)
      simp [nameHere, nameAt, hd]
  rw [lookAt_cons, hname]
  simp [Outlook.step, isTypeChar, isTypeEnd, show isWord ';' = false by decide,
    show isSpace ';' = false by decide]

theorem lookAt_seam (h : ';' ∉ namePrefix) (back : List Char) :
    lookAt namePrefix ('\n' :: ';' :: back) = {} := by
  have hnext := lookAt_semicolon h back
  have hcall : (lookAt namePrefix ('\n' :: ';' :: back)).call = none :=
    call_lookAt_cons (by decide) (';' :: back)
  have hname : nameHere namePrefix ('\n' :: ';' :: back) = none := by
    match namePrefix with
    | [] => exact nameHere_eq_none hcall
    | [d] => exact nameHere_eq_none (congrArg Outlook.call hnext)
    | d :: e :: others =>
      have he : e ≠ ';' := by
        rintro rfl
        simp at h
      simp [nameHere, nameAt, he]
  rw [lookAt_cons, hnext, hname]
  simp [step_none]

/-- A prefix that begins in front of the seam and is named there, with all that follows, is one that
lies in front of the seam. -/
theorem nameHere_append_seam (h : ';' ∉ namePrefix) {front back : List Char}
    (hcall : namePrefix <+: front →
      (lookAt namePrefix ((front ++ '\n' :: ';' :: back).drop namePrefix.length)).call =
        (lookAt namePrefix (front.drop namePrefix.length)).call) :
    nameHere namePrefix (front ++ '\n' :: ';' :: back) = nameHere namePrefix front := by
  by_cases hpre : namePrefix <+: front
  · rw [nameHere, nameHere, nameAt, nameAt, hcall hpre,
      if_pos (List.isPrefixOf_iff_prefix.mpr (hpre.trans (List.prefix_append ..))),
      if_pos (List.isPrefixOf_iff_prefix.mpr hpre)]
  · have hnone : nameHere namePrefix front = none := by
      rw [nameHere, nameAt, if_neg (by simpa using hpre)]
    rw [hnone]
    by_cases hlonger : namePrefix <+: front ++ ['\n']
    · obtain rfl := (List.prefix_concat_iff.mp hlonger).resolve_right hpre
      apply nameHere_eq_none
      rw [show front ++ '\n' :: ';' :: back = (front ++ ['\n']) ++ ';' :: back by simp,
        List.drop_left, lookAt_semicolon h]
    · have hnot : ¬namePrefix <+: (front ++ ['\n']) ++ ';' :: back := by
        rwa [prefix_append_cons h]
      rw [List.append_assoc, List.singleton_append] at hnot
      rw [nameHere, nameAt, if_neg (by simpa using hnot)]

/-- In front of the seam every reading is one of the text up to the seam. -/
theorem lookAt_append_seam (h : ';' ∉ namePrefix) (front back : List Char) {count : Nat}
    (hcount : count ≤ front.length) :
    lookAt namePrefix ((front ++ '\n' :: ';' :: back).drop count) =
      lookAt namePrefix (front.drop count) := by
  induction front generalizing count with
  | nil =>
    obtain rfl := Nat.le_zero.mp hcount
    exact lookAt_seam h back
  | cons c front ih =>
    cases count with
    | succ count => exact ih (Nat.le_of_succ_le_succ hcount)
    | zero =>
      have hnext := ih (Nat.zero_le _)
      rw [List.drop_zero, List.drop_zero] at hnext
      have hname : nameHere namePrefix (c :: front ++ '\n' :: ';' :: back) =
          nameHere namePrefix (c :: front) := by
        apply nameHere_append_seam h
        intro hpre
        match namePrefix, hpre.length_le with
        | [], _ =>
          rw [List.length_nil, List.drop_zero, List.drop_zero, List.cons_append, lookAt_cons,
            lookAt_cons, hnext]
        | d :: others, hlength =>
          exact congrArg Outlook.call (ih (Nat.le_of_succ_le_succ hlength))
      rw [List.drop_zero, List.drop_zero, List.cons_append, lookAt_cons, lookAt_cons, hnext]
      rw [List.cons_append] at hname
      rw [hname]

/-! ## The scan starts afresh behind the seam -/

variable {rule : ExportRule}

theorem declarationAt_append_seam (hmarker : ';' ∉ rule.marker.toList)
    (hlead : ';' ∉ rule.namePrefix.toList) (before : Option Char) (front back : List Char) :
    declarationAt rule before (front ++ '\n' :: ';' :: back)
        (outlooks rule.namePrefix.toList (front ++ '\n' :: ';' :: back)) =
      declarationAt rule before front (outlooks rule.namePrefix.toList front) := by
  by_cases hpre : rule.marker.toList <+: front
  · obtain ⟨behind, rfl⟩ := hpre
    rw [List.append_assoc]
    cases behind with
    | nil =>
      rw [List.nil_append, declarationAt_marker, lookAt_semicolon hlead, declarationAt,
        isPrefixOf?_eq_some.mpr rfl]
      exact (ite_self _).trans (ite_self _).symm
    | cons c behind =>
      have hlook := lookAt_append_seam hlead behind back (Nat.zero_le _)
      rw [List.drop_zero, List.drop_zero] at hlook
      rw [List.cons_append, declarationAt_marker, declarationAt_marker, hlook]
  · rw [declarationAt_of_no_marker hpre]
    by_cases hlonger : rule.marker.toList <+: front ++ ['\n']
    · have hmark := (List.prefix_concat_iff.mp hlonger).resolve_right hpre
      rw [List.append_cons, ← hmark, declarationAt_marker, show isSpace ';' = false by decide,
        Bool.and_false]
      rfl
    · have hnot : ¬rule.marker.toList <+: (front ++ ['\n']) ++ ';' :: back := by
        rwa [prefix_append_cons hmarker]
      rw [List.append_cons, declarationAt_of_no_marker hnot]

/-- A declaration that begins at some place of a text ends within the text. -/
theorem length_declarationAt {before : Option Char} {text : List Char} {found : Reading}
    (h : declarationAt rule before text (outlooks rule.namePrefix.toList text) = some found) :
    found.length ≤ text.length := by
  rw [declarationAt] at h
  split at h
  swap
  · cases h
  split at h
  swap
  · cases h
  rename_i c behind hpre
  split at h
  swap
  · cases h
  dsimp only at h
  rw [outlooks_drop, bind_gap_outlooks] at h
  obtain ⟨inner, hinner, rfl⟩ := Option.map_eq_some_iff.mp h
  have hbound := (fits_lookAt text (rule.marker.length + 1)).gap inner hinner
  have hlength := congrArg List.length (isPrefixOf?_eq_some.mp hpre)
  rw [List.length_append, List.length_cons, String.length_toList] at hlength
  rw [List.length_drop] at hbound
  rw [length_shift]
  omega

theorem name_append {r : Reading} {text : List Char} (h : r.length ≤ text.length)
    (more : List Char) : r.name (text ++ more) = r.name text := by
  rw [Reading.length] at h
  rw [Reading.name, Reading.name, List.drop_append_of_le_length (by omega),
    List.take_append_of_le_length (by rw [List.length_drop]; omega)]

/-- A semicolon in front of a text is as good as its beginning. -/
theorem scan_before (text : List Char) :
    scan rule 0 (some ';') text (outlooks rule.namePrefix.toList text) =
      scan rule 0 none text (outlooks rule.namePrefix.toList text) := by
  cases text with
  | nil => rfl
  | cons c rest => rfl

theorem scan_seam (hmarker : ';' ∉ rule.marker.toList) (hlead : ';' ∉ rule.namePrefix.toList)
    (before : Option Char) (back : List Char) :
    scan rule 0 before ('\n' :: ';' :: back)
        (outlooks rule.namePrefix.toList ('\n' :: ';' :: back)) =
      scan rule 0 none back (outlooks rule.namePrefix.toList back) := by
  have hnewline := declarationAt_append_seam hmarker hlead before [] back
  have hsemicolon : declarationAt rule (some '\n') (';' :: back)
      (outlooks rule.namePrefix.toList (';' :: back)) = none := by
    have hboundary : isBoundary (some '\n') (some ';') = false := by decide
    rw [declarationAt, List.head?_cons, hboundary]
    rfl
  have hnone : declarationAt rule before [] (outlooks rule.namePrefix.toList []) = none := by
    rw [declarationAt]
    cases rule.marker.toList <;> exact ite_self _
  rw [hnone] at hnewline
  rw [scan_of_not_found hnewline, scan_of_not_found hsemicolon]
  exact scan_before back

/-- What a scan finds up to the seam is what it finds in the text up to there, and behind the seam
it finds what it would find from a start. -/
theorem scan_append_seam (hmarker : ';' ∉ rule.marker.toList)
    (hlead : ';' ∉ rule.namePrefix.toList) (before : Option Char) (front back : List Char) :
    scan rule 0 before (front ++ '\n' :: ';' :: back)
        (outlooks rule.namePrefix.toList (front ++ '\n' :: ';' :: back)) =
      scan rule 0 before front (outlooks rule.namePrefix.toList front) ++
        scan rule 0 none back (outlooks rule.namePrefix.toList back) := by
  induction hlength : front.length using Nat.strong_induction_on generalizing before front with
  | _ length ih =>
    subst hlength
    cases front with
    | nil => exact scan_seam hmarker hlead before back
    | cons c tail =>
      have hhere := declarationAt_append_seam hmarker hlead before (c :: tail) back
      cases hfound : declarationAt rule before (c :: tail)
          (outlooks rule.namePrefix.toList (c :: tail)) with
      | none =>
        rw [hfound, List.cons_append] at hhere
        rw [List.cons_append, scan_of_not_found hfound, scan_of_not_found hhere]
        exact ih tail.length (by simp) (some c) tail rfl
      | some found =>
        have hfits := length_declarationAt hfound
        have hname := name_append hfits ('\n' :: ';' :: back)
        -- The declaration is passed over on both sides.
        obtain ⟨passed, rest, hsplit, hpassed⟩ : ∃ passed rest, c :: tail = passed ++ rest ∧
            found.length = passed.length :=
          ⟨(c :: tail).take found.length, (c :: tail).drop found.length,
            (List.take_append_drop ..).symm, (List.length_take_of_le hfits).symm⟩
        have hshorter : rest.length < (c :: tail).length := by
          rw [hsplit, List.length_append, ← hpassed, Reading.length]
          omega
        rw [hfound] at hhere
        rw [hsplit] at hfound hhere hname ⊢
        rw [List.append_assoc] at hhere hname ⊢
        rw [scan_of_found hpassed hhere, scan_of_found hpassed hfound, hname,
          ih rest.length hshorter _ rest rfl]
        rfl

theorem exportedNames_append_seam (hmarker : ';' ∉ rule.marker.toList)
    (hlead : ';' ∉ rule.namePrefix.toList) (front back : List Char) :
    exportedNames rule (front ++ '\n' :: ';' :: back) =
      exportedNames rule front ++ exportedNames rule back := by
  simp only [exportedNames, scan_append_seam hmarker hlead, List.filter_append, List.map_append]

/-- Of two headers with a newline and a semicolon between them, every name that one of them exports
is exported, in the order of the headers and as often, and nothing else is. -/
theorem symbols_ofText_append (rule : ExportRule) (source front back : String)
    (hmarker : ';' ∉ rule.marker.toList) (hlead : ';' ∉ rule.namePrefix.toList)
    (hclosed : BlocksClosed front.toList) :
    (ofText rule source (front ++ "\n;" ++ back)).symbols =
      (ofText rule source front).symbols ++ (ofText rule source back).symbols := by
  have hstrip := stripComments_append_seam hclosed back.toList
  have hnames := exportedNames_append_seam hmarker hlead (stripComments front.toList)
    (stripComments back.toList)
  simp only [ofText, String.toList_append]
  rw [show "\n;".toList = ['\n', ';'] from rfl, List.append_assoc, List.cons_append,
    List.singleton_append, hstrip, hnames]

/-- A header that breaks off behind a marker, in front of one that begins like the rest of a
declaration and ends in an open comment. -/
theorem symbols_ofText_append_broken :
    let rule : ExportRule := ⟨"QPDF_DLL", "qpdf_"⟩
    let front := "QPDF_DLL int qpdf_a(void); // QPDF_DLL int qpdf_b(\nQPDF_DLL char *"
    let back := "qpdf_c(void);\nQPDF_DLL int qpdf_a(void); /* QPDF_DLL int qpdf_d("
    (';' ∉ rule.marker.toList ∧ ';' ∉ rule.namePrefix.toList ∧ BlocksClosed front.toList) ∧
      (ofText rule "qpdf-c.h" (front ++ "\n;" ++ back)).symbols =
        ["qpdf_a", "qpdf_a", "qpdf_d"] := by
  intro rule front back
  have hmarker : ';' ∉ rule.marker.toList := by decide
  have hlead : ';' ∉ rule.namePrefix.toList := by decide
  have hclosed : BlocksClosed front.toList := by decide +kernel
  refine ⟨⟨hmarker, hlead, hclosed⟩, ?_⟩
  rw [symbols_ofText_append rule "qpdf-c.h" front back hmarker hlead hclosed]
  decide +kernel

end ExportTables.Header
