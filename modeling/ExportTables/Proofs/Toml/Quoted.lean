import ExportTables.Proofs.Text.Hex
import ExportTables.Toml.Quoted
import Mathlib.Logic.Basic

/-!
# Quoted text reads as the text

The reading machine stands behind a run of marks, and the writing knows how many marks it has left
there unescaped. So what is proved of a body by induction holds behind any run that the form admits
(`readQuoted_escapeBody`, `readQuoted_plainBody`): the run and the body are read as the run and the
text. A body needs nothing but this of its form, so the forms differ in the last step only, where
the marks are put around it.

What follows the text is arbitrary, as long as it does not go on with a mark.
-/

namespace ExportTables.Toml

open Text

variable {form : Quoting} {run : Nat} {c : Char} {text : List Char}

theorem readAs_readAs (front front' : List Char) (behind : Option (List Char × List Char)) :
    readAs front (readAs front' behind) = readAs (front ++ front') behind := by
  cases behind <;> simp [readAs]

/-! ## Steps of the machine -/

/-- The number of marks that may stand in a row without an escape. -/
def Quoting.markLimit (form : Quoting) : Nat := if form.triple then 2 else 0

theorem Quoting.markLimit_lt (form : Quoting) : form.markLimit < 3 := by
  rw [markLimit]
  split <;> decide

theorem readQuoted_mark (htriple : form.triple = true) (hrun : run < 5) (rest : List Char) :
    readQuoted form (.text run) (form.mark :: rest) = readQuoted form (.text (run + 1)) rest := by
  rw [readQuoted]
  simp [QuotedState.settle, htriple, hrun]

theorem readQuoted_plain (hrun : run < 3) (hmark : c ≠ form.mark)
    (hescape : ¬(form.escapes = true ∧ c = '\\'))
    (hplain : isPlain c = true ∨ form.triple = true ∧ c = '\n') (rest : List Char) :
    readQuoted form (.text run) (c :: rest) =
      readAs (List.replicate run form.mark ++ [c]) (readQuoted form (.text 0) rest) := by
  rw [readQuoted]
  simp [QuotedState.settle, hmark, Nat.not_le.mpr hrun, hescape, hplain, readAs_readAs]

theorem readQuoted_backslash (hrun : run < 3) (hmark : form.mark ≠ '\\')
    (hescapes : form.escapes = true) (rest : List Char) :
    readQuoted form (.text run) ('\\' :: rest) =
      readAs (List.replicate run form.mark) (readQuoted form .escape rest) := by
  rw [readQuoted]
  simp [QuotedState.settle, hmark.symm, Nat.not_le.mpr hrun, hescapes]

theorem readQuoted_marks (hrun : run ≤ form.markLimit) {rest : List Char}
    (hrest : rest.head? ≠ some form.mark) :
    readQuoted form (.text run) (form.marks ++ rest) =
      some (List.replicate run form.mark, rest) := by
  rw [Quoting.markLimit] at hrun
  rw [Quoting.marks]
  cases htriple : form.triple with
  | false =>
    obtain rfl : run = 0 := by simpa [htriple] using hrun
    simp [readQuoted, QuotedState.settle, htriple]
  | true =>
    have hrun : run ≤ 2 := by simpa [htriple] using hrun
    simp only [if_true, List.replicate_succ, List.replicate_zero, List.cons_append,
      List.nil_append]
    rw [readQuoted_mark htriple (by omega), readQuoted_mark htriple (by omega),
      readQuoted_mark htriple (by omega)]
    cases rest with
    | nil => simp [readQuoted, htriple]
    | cons d rest =>
      have hd : d ≠ form.mark := by simpa using hrest
      rw [readQuoted]
      simp [QuotedState.settle, hd]

/-! ## Escapes -/

theorem readQuoted_simpleEscape {e : Char} (he : simpleEscape? e = some c) (rest : List Char) :
    readQuoted form .escape (e :: rest) = readAs [c] (readQuoted form (.text 0) rest) := by
  rw [readQuoted]
  simp [QuotedState.settle, he]

theorem readQuoted_digit {digits number digit : Nat} {d : Char} (hd : hexValue? d = some digit)
    (hdigits : 1 < digits) (rest : List Char) :
    readQuoted form (.code digits number) (d :: rest) =
      readQuoted form (.code (digits - 1) (16 * number + digit)) rest := by
  rw [readQuoted]
  simp [QuotedState.settle, hd, hdigits]

theorem readQuoted_lastDigit {number digit : Nat} {d : Char} (hd : hexValue? d = some digit)
    (hc : charOfCode? (16 * number + digit) = some c) (rest : List Char) :
    readQuoted form (.code 1 number) (d :: rest) = readAs [c] (readQuoted form (.text 0) rest) := by
  rw [readQuoted]
  simp [QuotedState.settle, hd, hc]

theorem readQuoted_codeEscape (hc : c.toNat < 0x80) (rest : List Char) :
    readQuoted form .escape ('u' :: '0' :: '0' :: upperHexDigit (c.toNat / 16) ::
      upperHexDigit (c.toNat % 16) :: rest) = readAs [c] (readQuoted form (.text 0) rest) := by
  have hlead : hexValue? (upperHexDigit (c.toNat / 16)) = some (c.toNat / 16) :=
    hexValue?_upperHexDigit (by omega)
  have hlast : hexValue? (upperHexDigit (c.toNat % 16)) = some (c.toNat % 16) :=
    hexValue?_upperHexDigit (by omega)
  have hcode : charOfCode? (16 * (c.toNat / 16) + c.toNat % 16) = some c := by
    rw [Nat.div_add_mod, charOfCode?_toNat]
  have hu : readQuoted form .escape ('u' :: '0' :: '0' :: upperHexDigit (c.toNat / 16) ::
      upperHexDigit (c.toNat % 16) :: rest) = readQuoted form (.code 4 0) ('0' :: '0' ::
        upperHexDigit (c.toNat / 16) :: upperHexDigit (c.toNat % 16) :: rest) := by
    rw [readQuoted]
    simp [QuotedState.settle, simpleEscape?]
  have hzero : hexValue? '0' = some 0 := rfl
  rw [hu, readQuoted_digit hzero (by decide), readQuoted_digit hzero (by decide),
    readQuoted_digit hlead (by decide)]
  simp only [Nat.mul_zero, Nat.add_zero, Nat.zero_add]
  exact readQuoted_lastDigit hlast hcode rest

/-- An escape is a backslash with one character, or with the four digits of a code point. -/
theorem escape?_eq_some {e : List Char} (he : escape? c = some e) :
    (∃ d, simpleEscape? d = some c ∧ e = ['\\', d]) ∨
      c.toNat < 0x80 ∧ e = ['\\', 'u', '0', '0', upperHexDigit (c.toNat / 16),
        upperHexDigit (c.toNat % 16)] := by
  rw [escape?] at he
  split at he
  · rename_i hc
    subst hc
    exact Or.inl ⟨'\\', rfl, (Option.some.inj he).symm⟩
  split at he
  · rename_i hc
    subst hc
    exact Or.inl ⟨'t', rfl, (Option.some.inj he).symm⟩
  split at he
  · rename_i hc
    subst hc
    exact Or.inl ⟨'r', rfl, (Option.some.inj he).symm⟩
  split at he
  · rename_i hc
    obtain rfl : c = '\x08' := Char.toNat_inj.mp hc
    exact Or.inl ⟨'b', rfl, (Option.some.inj he).symm⟩
  split at he
  · rename_i hc
    obtain rfl : c = '\x0c' := Char.toNat_inj.mp hc
    exact Or.inl ⟨'f', rfl, (Option.some.inj he).symm⟩
  split at he
  · rename_i hcontrol
    exact Or.inr ⟨by omega, (Option.some.inj he).symm⟩
  · cases he

/-- What is written for a character that has to be escaped is read as this character. -/
theorem readQuoted_escape? {e : List Char} (he : escape? c = some e) :
    ∃ behind, e = '\\' :: behind ∧ ∀ rest,
      readQuoted form .escape (behind ++ rest) = readAs [c] (readQuoted form (.text 0) rest) := by
  rcases escape?_eq_some he with ⟨d, hd, rfl⟩ | ⟨hcode, rfl⟩
  · exact ⟨[d], rfl, readQuoted_simpleEscape hd⟩
  · exact ⟨_, rfl, readQuoted_codeEscape hcode⟩

/-- What needs no escape may stand raw in basic text, but for the marks and newlines. -/
theorem isPlain_of_escape? (hc : escape? c = none) (hnewline : c ≠ '\n') :
    c ≠ '\\' ∧ isPlain c = true := by
  simp only [escape?] at hc
  split at hc
  · cases hc
  rename_i hbackslash
  split at hc
  · cases hc
  split at hc
  · cases hc
  split at hc
  · cases hc
  split at hc
  · cases hc
  split at hc
  · cases hc
  rename_i hcontrol
  obtain ⟨hlow, hhigh⟩ := not_or.mp hcontrol
  have hle : 0x20 ≤ c.toNat := Nat.le_of_not_lt fun hlt => hlow ⟨hnewline, hlt⟩
  exact ⟨hbackslash, by simp [isPlain, hle, hhigh]⟩

/-! ## Bodies -/

/-- A basic body is read as its text, behind any run of marks that the form admits. -/
theorem readQuoted_escapeBody (hescapes : form.escapes = true) (hmark : form.mark = '"')
    (hrun : run ≤ form.markLimit) {rest : List Char} (hrest : rest.head? ≠ some form.mark) :
    readQuoted form (.text run) (escapeBody form run text ++ (form.marks ++ rest)) =
      some (List.replicate run form.mark ++ text, rest) := by
  have hbound := form.markLimit_lt
  have hbackslash : form.mark ≠ '\\' := by simp [hmark]
  induction text generalizing run with
  | nil =>
    rw [List.append_nil]
    exact readQuoted_marks hrun hrest
  | cons c text ih =>
    have hrun' : run < 3 := by omega
    have hstart : readQuoted form (.text 0) (escapeBody form 0 text ++ (form.marks ++ rest)) =
        some (text, rest) := ih (Nat.zero_le _)
    rw [escapeBody]
    split
    · rename_i hc
      subst hc
      split
      · rename_i hraw
        obtain ⟨htriple, hrun⟩ := hraw
        have hnext : readQuoted form (.text (run + 1)) _ = _ :=
          ih (by simp only [Quoting.markLimit, htriple, if_true]; omega)
        rw [List.cons_append, ← hmark, readQuoted_mark htriple (by omega), hnext,
          List.replicate_succ']
        simp
      · rw [List.cons_append, List.cons_append, readQuoted_backslash hrun' hbackslash hescapes,
          readQuoted_simpleEscape rfl, hstart]
        rfl
    rename_i hquote
    split
    · rename_i hc
      obtain ⟨rfl, -⟩ := hc
      rw [List.cons_append, List.cons_append, readQuoted_backslash hrun' hbackslash hescapes,
        readQuoted_simpleEscape rfl, hstart]
      rfl
    rename_i hnewline
    cases he : escape? c with
    | some e =>
      obtain ⟨behind, rfl, hbehind⟩ := @readQuoted_escape? form c e he
      rw [Option.getD_some, List.append_assoc, List.cons_append,
        readQuoted_backslash hrun' hbackslash hescapes, hbehind, hstart]
      rfl
    | none =>
      have hraw : ¬(form.escapes = true ∧ c = '\\') ∧
          (isPlain c = true ∨ form.triple = true ∧ c = '\n') := by
        by_cases hc : c = '\n'
        · subst hc
          refine ⟨by simp, Or.inr ⟨?_, rfl⟩⟩
          simpa using hnewline
        · obtain ⟨hbackslash', hplain⟩ := isPlain_of_escape? he hc
          exact ⟨fun h => hbackslash' h.2, Or.inl hplain⟩
      rw [Option.getD_none, List.append_assoc, List.singleton_append,
        readQuoted_plain hrun' (hmark ▸ hquote) hraw.1 hraw.2, hstart, readAs]
      simp

theorem le_longestRun (mark : Char) (run : Nat) (text : List Char) :
    run ≤ longestRun mark run text := by
  induction text generalizing run with
  | nil => exact Nat.le_refl run
  | cons c rest ih =>
    rw [longestRun]
    split
    · exact Nat.le_of_succ_le (ih (run + 1))
    · exact Nat.le_max_left ..

/-- A literal body is read as what it is, if no run of marks in it is too long. -/
theorem readQuoted_plainBody (hescapes : form.escapes = false)
    (hplain : ∀ c ∈ text, isPlain c = true ∨ form.triple = true ∧ c = '\n')
    (hlongest : longestRun form.mark run text ≤ form.markLimit) {rest : List Char}
    (hrest : rest.head? ≠ some form.mark) :
    readQuoted form (.text run) (text ++ (form.marks ++ rest)) =
      some (List.replicate run form.mark ++ text, rest) := by
  have hbound := form.markLimit_lt
  induction text generalizing run with
  | nil =>
    rw [List.append_nil]
    exact readQuoted_marks hlongest hrest
  | cons c text ih =>
    obtain ⟨hc, htext⟩ := List.forall_mem_cons.mp hplain
    have hrun := Nat.le_trans (le_longestRun form.mark run (c :: text)) hlongest
    rw [longestRun] at hlongest
    split at hlongest
    · rename_i hmark
      have hnext := Nat.le_trans (le_longestRun form.mark (run + 1) text) hlongest
      have htriple : form.triple = true := by
        cases htriple : form.triple with
        | true => rfl
        | false => simp [Quoting.markLimit, htriple] at hnext
      rw [hmark, List.cons_append, readQuoted_mark htriple (by omega), ih htext hlongest,
        List.replicate_succ']
      simp
    · rename_i hmark
      obtain ⟨-, hlongest⟩ := Nat.max_le.mp hlongest
      rw [List.cons_append, readQuoted_plain (by omega) hmark (by simp [hescapes]) hc,
        ih htext hlongest, readAs]
      simp

/-! ## Forms -/

/-- A body is read as a text, whatever follows the marks behind it. -/
def IsBody (form : Quoting) (body text : List Char) : Prop :=
  ∀ rest : List Char, rest.head? ≠ some form.mark →
    readQuoted form (.text 0) (body ++ (form.marks ++ rest)) = some (text, rest)

theorem quoted?_enclose_line {body rest : List Char} (hform : form = .basic ∨ form = .literal)
    (h : IsBody form body text) (hbody : body.head? ≠ some form.mark)
    (hrest : rest.head? ≠ some form.mark) :
    quoted? (enclose form body ++ rest) = some (text, rest) := by
  -- A third mark would have to come from the body or from what follows.
  have hmarks : ∀ more, body ++ form.mark :: rest ≠ form.mark :: form.mark :: more := by
    intro more heq
    cases body with
    | nil =>
      obtain ⟨-, rfl⟩ := List.cons.inj heq
      exact hrest rfl
    | cons c body => exact hbody (congrArg List.head? (congrArg (List.take 1) heq))
  have hline : form.triple = false := by rcases hform with rfl | rfl <;> rfl
  have htext : enclose form body ++ rest = form.mark :: (body ++ form.mark :: rest) := by
    simp [enclose, Quoting.marks, hline]
  rw [htext, quoted?]
  · rcases hform with rfl | rfl <;> exact h rest hrest
  · rintro more heq
    rcases hform with rfl | rfl
    · exact hmarks more (List.cons.inj heq).2
    · cases (List.cons.inj heq).1
  · rintro more heq
    rcases hform with rfl | rfl
    · cases (List.cons.inj heq).1
    · exact hmarks more (List.cons.inj heq).2

/-- The newline that is read with the opening marks is there if the body has a newline at all. -/
theorem quoted?_enclose_lines {body rest : List Char}
    (hform : form = .basicLines ∨ form = .literalLines) (h : IsBody form body text)
    (hrest : rest.head? ≠ some form.mark) :
    quoted? (enclose form body ++ rest) = some (text, rest) := by
  have htriple : form.triple = true := by rcases hform with rfl | rfl <;> rfl
  have hskip : skipNewline ((if body.contains '\n' then ['\n'] else []) ++
      (body ++ (form.marks ++ rest))) = body ++ (form.marks ++ rest) := by
    split
    · rfl
    · rename_i hnewline
      rw [List.nil_append, skipNewline]
      intro more heq
      cases body with
      | nil => rcases hform with rfl | rfl <;> cases (List.cons.inj heq).1
      | cons c body =>
        obtain ⟨rfl, -⟩ := List.cons.inj heq
        simp at hnewline
  have htext : enclose form body ++ rest =
      form.mark :: form.mark :: form.mark :: ((if body.contains '\n' then ['\n'] else []) ++
        (body ++ (form.marks ++ rest))) := by
    simp [enclose, Quoting.marks, htriple]
  rw [htext]
  rcases hform with rfl | rfl
  · change readQuoted .basicLines (.text 0) (skipNewline _) = _
    rw [hskip]
    exact h rest hrest
  · change readQuoted .literalLines (.text 0) (skipNewline _) = _
    rw [hskip]
    exact h rest hrest

/-- What does not begin with a mark of either kind. -/
def NoMark (text : List Char) : Prop := text.head? ≠ some '"' ∧ text.head? ≠ some '\''

theorem bestForm_cases (text : List Char) :
    bestForm text = .basic ∨ bestForm text = .basicLines ∨
      (bestForm text = .literal ∨ bestForm text = .literalLines) ∧
        fits (bestForm text) text = true := by
  rw [bestForm]
  cases hfound : [Quoting.basic, .literal, .basicLines, .literalLines].find? (fits · text) with
  | none =>
    rw [Option.getD_none]
    split
    · exact Or.inr (Or.inl rfl)
    · exact Or.inl rfl
  | some form =>
    have hfits := List.find?_some hfound
    have hmem := List.mem_of_find?_eq_some hfound
    rw [Option.getD_some]
    simp only [List.mem_cons, List.not_mem_nil, or_false] at hmem
    rcases hmem with rfl | rfl | rfl | rfl
    · exact Or.inl rfl
    · exact Or.inr (Or.inr ⟨Or.inl rfl, hfits⟩)
    · exact Or.inr (Or.inl rfl)
    · exact Or.inr (Or.inr ⟨Or.inr rfl, hfits⟩)

theorem isBody_escapeBody (hform : form = .basic ∨ form = .basicLines) (text : List Char) :
    IsBody form (escapeBody form 0 text) text := by
  intro rest hrest
  rcases hform with rfl | rfl
  · exact readQuoted_escapeBody rfl rfl (Nat.zero_le _) hrest
  · exact readQuoted_escapeBody rfl rfl (Nat.zero_le _) hrest

theorem isBody_of_fits (hform : form = .literal ∨ form = .literalLines)
    (h : fits form text = true) : IsBody form text text := by
  intro rest hrest
  have hescapes : form.escapes = false := by rcases hform with rfl | rfl <;> rfl
  rw [fits, Bool.and_eq_true, Bool.and_eq_true, decide_eq_true_eq, List.all_eq_true] at h
  obtain ⟨⟨hplain, -⟩, hlongest⟩ := h
  refine readQuoted_plainBody hescapes ?_ hlongest hrest
  intro c hc
  simpa using hplain c hc

theorem head?_escapeBody (text : List Char) : (escapeBody .basic 0 text).head? ≠ some '"' := by
  cases text with
  | nil => simp [escapeBody]
  | cons c rest =>
    rw [escapeBody]
    split
    · simp [Quoting.basic]
    rename_i hquote
    split
    · simp
    cases he : escape? c with
    | some e =>
      obtain ⟨behind, rfl, -⟩ := @readQuoted_escape? .basic c e he
      simp
    | none => simpa using hquote

theorem head?_of_fits (h : fits .literal text = true) : text.head? ≠ some '\'' := by
  cases text with
  | nil => simp
  | cons c rest =>
    simp only [fits, Bool.and_eq_true, decide_eq_true_eq] at h
    intro hc
    obtain rfl : c = '\'' := by simpa using hc
    have hrun := Nat.le_trans (le_longestRun '\'' 1 rest) h.2
    exact absurd hrun (by decide)

/-- A text in quotes is read as the text, whatever it holds and whatever follows. -/
theorem quoted?_quote (text : List Char) {rest : List Char} (hrest : NoMark rest) :
    quoted? (quote text ++ rest) = some (text, rest) := by
  rw [quote, quoteIn]
  rcases bestForm_cases text with hform | hform | ⟨hform | hform, hfits⟩
  · rw [hform]
    exact quoted?_enclose_line (Or.inl rfl) (isBody_escapeBody (Or.inl rfl) text)
      (head?_escapeBody text) hrest.1
  · rw [hform]
    exact quoted?_enclose_lines (Or.inl rfl) (isBody_escapeBody (Or.inr rfl) text) hrest.1
  · rw [hform] at hfits ⊢
    exact quoted?_enclose_line (Or.inr rfl) (isBody_of_fits (Or.inl rfl) hfits)
      (head?_of_fits hfits) hrest.2
  · rw [hform] at hfits ⊢
    exact quoted?_enclose_lines (Or.inr rfl) (isBody_of_fits (Or.inr rfl) hfits) hrest.2

theorem quote_eq_cons (text : List Char) :
    ∃ mark behind, quote text = mark :: behind ∧ (mark = '"' ∨ mark = '\'') := by
  have hmark : ∀ form : Quoting, ∃ behind, form.marks = form.mark :: behind := by
    intro form
    rw [Quoting.marks]
    split
    · exact ⟨_, rfl⟩
    · exact ⟨_, rfl⟩
  obtain ⟨behind, hmarks⟩ := hmark (bestForm text)
  rw [quote, quoteIn, enclose, hmarks]
  refine ⟨_, _, rfl, ?_⟩
  rcases bestForm_cases text with hform | hform | ⟨hform | hform, -⟩ <;> rw [hform]
  · exact Or.inl rfl
  · exact Or.inl rfl
  · exact Or.inr rfl
  · exact Or.inr rfl

/-! ## Carriage returns -/

theorem not_mem_escape? {e : List Char} (he : escape? c = some e) : '\r' ∉ e := by
  have hdigit : ∀ n < 16, '\r' ≠ upperHexDigit n := by decide
  rcases escape?_eq_some he with ⟨d, hd, rfl⟩ | ⟨hcode, rfl⟩
  · have hd : '\r' ≠ d := by
      rintro rfl
      cases hd
    simp [hd]
  · simp [hdigit _ (show c.toNat / 16 < 16 by omega), hdigit _ (show c.toNat % 16 < 16 by omega)]

theorem not_mem_escapeBody (form : Quoting) (run : Nat) (text : List Char) :
    '\r' ∉ escapeBody form run text := by
  induction text generalizing run with
  | nil => simp [escapeBody]
  | cons c text ih =>
    rw [escapeBody]
    split
    · split <;> simp [ih]
    split
    · simp [ih]
    cases he : escape? c with
    | some e => simp [not_mem_escape? he, ih]
    | none =>
      have hc : '\r' ≠ c := by
        rintro rfl
        cases he
      simp [hc, ih]

theorem not_mem_of_fits (h : fits form text = true) : '\r' ∉ text := by
  rw [fits, Bool.and_eq_true, Bool.and_eq_true, List.all_eq_true] at h
  intro hmem
  simpa [isPlain] using h.1.1 '\r' hmem

/-- No carriage return is written, so none is lost where newlines are joined. -/
theorem not_mem_quote (text : List Char) : '\r' ∉ quote text := by
  have henclose : ∀ (form : Quoting) (body : List Char), form.mark ≠ '\r' → '\r' ∉ body →
      '\r' ∉ enclose form body := by
    intro form body hmark hbody
    have hmarks : '\r' ∉ form.marks := fun hmem => hmark (List.eq_of_mem_replicate hmem).symm
    rw [enclose]
    split <;> simp [hmarks, hbody]
  rw [quote, quoteIn]
  rcases bestForm_cases text with hform | hform | ⟨hform | hform, hfits⟩
  · rw [hform]
    exact henclose _ _ (by decide) (not_mem_escapeBody _ _ _)
  · rw [hform]
    exact henclose _ _ (by decide) (not_mem_escapeBody _ _ _)
  · rw [hform]
    exact henclose _ _ (by decide) (not_mem_of_fits hfits)
  · rw [hform]
    exact henclose _ _ (by decide) (not_mem_of_fits hfits)

end ExportTables.Toml
