import ExportTables.Proofs.Header.Readings

/-!
# The declarations that a scan finds

Each parenthesis of a text is looked at on its own: `Declares` says when the text in front of it
ends in a declaration, and the name declared is the word right before the parenthesis. A scan finds
exactly these names, in the order of their parentheses.

No declaration reaches over a parenthesis, since neither the marker nor anything behind it holds
one. So a declaration that was found, or one that was found without a name, takes nothing away from
the ones behind it, and the text can be gone through from one parenthesis to the next.
-/

namespace ExportTables.Header

open Text

/-- What can stand between the white space behind a marker and the name: at least two characters,
word characters, stars, brackets or white space, of which the first is no white space and the last
is white space or a star. -/
structure IsStretch (stretch : List Char) : Prop where
  two_le_length : 2 ≤ stretch.length
  chars : ∀ c ∈ stretch, isTypeChar c = true ∨ isSpace c = true
  head : ∀ c, stretch.head? = some c → isSpace c = false
  last : ∀ c, stretch.getLast? = some c → isSpace c = true ∨ c = '*'

/-- The text in front of a parenthesis declares the word that it ends in: the word is there and
begins with the prefix, and somewhere before it the marker stands at a word boundary, with nothing
but white space and a stretch between marker and word. -/
def Declares (rule : ExportRule) (front : List Char) : Prop :=
  lastWord front ≠ [] ∧ rule.namePrefix.toList <+: lastWord front ∧
    ∃ before gap stretch,
      front = before ++ rule.marker.toList ++ gap ++ stretch ++ lastWord front ∧
      isBoundary before.getLast? (rule.marker.toList ++ gap).head? = true ∧
      gap ≠ [] ∧ (∀ c ∈ gap, isSpace c = true) ∧ IsStretch stretch

/-! ## Stretches -/

theorem isTypeEnd_iff {c : Char} : isTypeEnd c = true ↔ isSpace c = true ∨ c = '*' := by
  simp [isTypeEnd]

theorem isSpace_of_isTypeChar {c : Char} (h : isTypeChar c = true) : isSpace c = false := by
  by_contra hspace
  rw [Bool.not_eq_false] at hspace
  have hword := isWord_of_isSpace hspace
  have hnot : c ≠ '*' ∧ c ≠ '[' ∧ c ≠ ']' := by
    refine ⟨?_, ?_, ?_⟩ <;> rintro rfl <;> exact absurd hspace (by decide)
  simp [isTypeChar, hword, hnot] at h

theorem endsPart_iff {part : List Char} : endsPart part = true ↔
    part ≠ [] ∧ (∀ c ∈ part, isTypeChar c = true ∨ isSpace c = true) ∧
      ∀ c, part.getLast? = some c → isTypeEnd c = true := by
  induction part with
  | nil => simp [endsPart]
  | cons c rest ih =>
    rw [endsPart, Bool.and_eq_true, Bool.or_eq_true, Bool.or_eq_true, ih]
    cases rest with
    | nil => simp
    | cons d rest =>
      rw [List.getLast?_cons_cons, List.forall_mem_cons]
      simp [and_assoc]

theorem isStretch_iff {c : Char} {rest : List Char} :
    IsStretch (c :: rest) ↔ isTypeChar c = true ∧ endsPart rest = true := by
  rw [endsPart_iff]
  constructor
  · intro h
    have hrest : rest ≠ [] := by
      rintro rfl
      exact absurd h.two_le_length (by simp)
    refine ⟨(h.chars c (List.mem_cons_self ..)).resolve_right ?_, hrest,
      fun d hd => h.chars d (List.mem_cons_of_mem c hd), fun d hd => ?_⟩
    · simp [h.head c rfl]
    · exact isTypeEnd_iff.mpr (h.last d (by simp [List.getLast?_cons, hd]))
  · intro h
    obtain ⟨hc, hrest, hchars, hlast⟩ := h
    obtain ⟨d, tail, rfl⟩ := List.exists_cons_of_ne_nil hrest
    refine ⟨by simp, List.forall_mem_cons.mpr ⟨Or.inl hc, hchars⟩, ?_, fun e he => ?_⟩
    · intro e he
      obtain rfl : c = e := Option.some.inj he
      exact isSpace_of_isTypeChar hc
    · rw [List.getLast?_cons_cons] at he
      exact isTypeEnd_iff.mp (hlast e he)

theorem IsStretch.ne_nil {stretch : List Char} (h : IsStretch stretch) : stretch ≠ [] := by
  rintro rfl
  exact absurd h.two_le_length (by simp)

theorem opensType_iff {lead : List Char} : opensType lead = true ↔
    ∃ gap stretch, lead = gap ++ stretch ∧ (∀ c ∈ gap, isSpace c = true) ∧ IsStretch stretch := by
  induction lead with
  | nil =>
    simp only [opensType, Bool.false_eq_true, false_iff]
    intro h
    obtain ⟨gap, stretch, hnil, -, hstretch⟩ := h
    exact hstretch.ne_nil (List.append_eq_nil_iff.mp hnil.symm).2
  | cons c rest ih =>
    rw [opensType, Bool.or_eq_true, Bool.and_eq_true, Bool.and_eq_true, ih, ← isStretch_iff]
    constructor
    · intro h
      rcases h with ⟨hc, gap, stretch, rfl, hgap, hstretch⟩ | hstretch
      · exact ⟨c :: gap, stretch, rfl, List.forall_mem_cons.mpr ⟨hc, hgap⟩, hstretch⟩
      · exact ⟨[], c :: rest, rfl, by simp, hstretch⟩
    · intro h
      obtain ⟨gap, stretch, heq, hgap, hstretch⟩ := h
      cases gap with
      | nil =>
        obtain rfl : c :: rest = stretch := heq
        exact Or.inr hstretch
      | cons d gap =>
        obtain ⟨rfl, rfl⟩ := List.cons.inj heq
        obtain ⟨hd, hgap⟩ := List.forall_mem_cons.mp hgap
        exact Or.inl ⟨hd, gap, stretch, rfl, hgap, hstretch⟩

/-! ## Marked places -/

theorem isPrefixOf?_eq_some {left text rest : List Char} :
    left.isPrefixOf? text = some rest ↔ text = left ++ rest := by
  induction left generalizing text with
  | nil => simp [List.isPrefixOf?, eq_comm]
  | cons c left ih =>
    cases text with
    | nil => simp [List.isPrefixOf?]
    | cons d text =>
      by_cases hcd : c = d
      · subst hcd
        simp [List.isPrefixOf?, ih]
      · simp [List.isPrefixOf?, hcd, Ne.symm hcd]

theorem isPrefixOf?_eq_none {left text : List Char} :
    left.isPrefixOf? text = none ↔ ¬left <+: text := by
  rw [Option.eq_none_iff_forall_ne_some]
  constructor
  · rintro hnone ⟨rest, hrest⟩
    exact hnone rest (isPrefixOf?_eq_some.mpr hrest.symm)
  · intro hpre rest hrest
    exact hpre ⟨rest, (isPrefixOf?_eq_some.mp hrest).symm⟩

/-- Whether a declaration without its name begins at the start of a text, as far as the marker and
what lies between marker and name can tell. -/
def markedHere (rule : ExportRule) (before : Option Char) (text : List Char) : Bool :=
  isBoundary before text.head? &&
    match rule.marker.toList.isPrefixOf? text with
    | some (c :: behind) => isSpace c && opensType (beforeLastWord behind)
    | _ => false

/-- Whether a declaration without its name begins at any place of a text. -/
def marked (rule : ExportRule) : (before : Option Char) → List Char → Bool
  | _, [] => false
  | before, c :: rest => markedHere rule before (c :: rest) || marked rule (some c) rest

variable {rule : ExportRule}

theorem not_isWord_getLast? {lead stretch : List Char} (h : IsStretch stretch) (c : Char)
    (hc : (lead ++ stretch).getLast? = some c) : isWord c = false := by
  rw [List.getLast?_append_of_ne_nil _ h.ne_nil] at hc
  rcases h.last c hc with hspace | rfl
  · exact isWord_of_isSpace hspace
  · exact isWord_star

theorem markedHere_iff {before : Option Char} {text : List Char} :
    markedHere rule before text = true ↔ isBoundary before text.head? = true ∧
      ∃ gap stretch, text = rule.marker.toList ++ gap ++ stretch ++ lastWord text ∧
        gap ≠ [] ∧ (∀ c ∈ gap, isSpace c = true) ∧ IsStretch stretch := by
  rw [markedHere, Bool.and_eq_true]
  refine and_congr_right fun _ => ⟨fun h => ?_, ?_⟩
  · split at h
    · rename_i c behind hpre
      rw [Bool.and_eq_true, opensType_iff] at h
      obtain ⟨hc, gap, stretch, hlead, hgap, hstretch⟩ := h
      have htext : text = rule.marker.toList ++ (c :: gap) ++ stretch ++ lastWord behind := by
        have hbehind := beforeLastWord_append_lastWord behind
        rw [hlead] at hbehind
        rw [isPrefixOf?_eq_some.mp hpre, ← hbehind]
        simp [hbehind]
      have hword : lastWord text = lastWord behind := by
        rw [htext]
        exact lastWord_append (not_isWord_getLast? hstretch) fun _ => isWord_of_mem_lastWord
      rw [hword]
      exact ⟨c :: gap, stretch, htext, by simp, List.forall_mem_cons.mpr ⟨hc, hgap⟩, hstretch⟩
    · cases h
  · intro h
    obtain ⟨gap, stretch, htext, hne, hgap, hstretch⟩ := h
    obtain ⟨c, gap, rfl⟩ := List.exists_cons_of_ne_nil hne
    obtain ⟨hc, hgap⟩ := List.forall_mem_cons.mp hgap
    have hpre : rule.marker.toList.isPrefixOf? text =
        some (c :: (gap ++ stretch ++ lastWord text)) := by
      rw [isPrefixOf?_eq_some]
      conv_lhs => rw [htext]
      simp
    rw [hpre]
    dsimp only
    rw [hc, Bool.true_and, opensType_iff,
      beforeLastWord_append (not_isWord_getLast? hstretch) fun _ => isWord_of_mem_lastWord]
    exact ⟨gap, stretch, rfl, hgap, hstretch⟩

theorem marked_iff {before : Option Char} {front : List Char} :
    marked rule before front = true ↔ ∃ done text, front = done ++ text ∧
      markedHere rule (done.getLast?.or before) text = true := by
  induction front generalizing before with
  | nil =>
    simp only [marked, Bool.false_eq_true, false_iff]
    intro h
    obtain ⟨done, text, hnil, hmarked⟩ := h
    obtain ⟨rfl, rfl⟩ := List.append_eq_nil_iff.mp hnil.symm
    obtain ⟨-, gap, stretch, htext, -, -, hstretch⟩ := markedHere_iff.mp hmarked
    have hlength := congrArg List.length htext
    have := hstretch.two_le_length
    simp only [List.length_append, List.length_nil] at hlength
    omega
  | cons c rest ih =>
    rw [marked, Bool.or_eq_true, ih]
    constructor
    · intro h
      rcases h with hmarked | ⟨done, text, rfl, hmarked⟩
      · exact ⟨[], c :: rest, rfl, hmarked⟩
      · refine ⟨c :: done, text, rfl, ?_⟩
        cases done with
        | nil => exact hmarked
        | cons d done => simpa [List.getLast?_cons] using hmarked
    · intro h
      obtain ⟨done, text, heq, hmarked⟩ := h
      cases done with
      | nil =>
        obtain rfl : c :: rest = text := heq
        exact Or.inl hmarked
      | cons d done =>
        obtain ⟨rfl, rfl⟩ := List.cons.inj heq
        refine Or.inr ⟨done, text, rfl, ?_⟩
        cases done with
        | nil => exact hmarked
        | cons e done => simpa [List.getLast?_cons] using hmarked

/-- Behind white space and a stretch the last word of a text is the same wherever the text
begins. -/
theorem lastWord_stretch {text front gap stretch : List Char} (h : IsStretch stretch)
    (htext : text = gap ++ stretch ++ lastWord front) : lastWord text = lastWord front := by
  rw [htext]
  exact lastWord_append (not_isWord_getLast? h) fun _ => isWord_of_mem_lastWord

theorem head?_append_of_ne_nil {lead rest : List Char} (h : lead ≠ []) :
    (lead ++ rest).head? = lead.head? := by
  obtain ⟨c, lead, rfl⟩ := List.exists_cons_of_ne_nil h
  rfl

theorem declares_iff {front : List Char} : Declares rule front ↔
    lastWord front ≠ [] ∧ named rule.namePrefix.toList front = true ∧
      marked rule none front = true := by
  rw [Declares, named, List.isPrefixOf_iff_prefix, marked_iff]
  apply and_congr_right
  intro _
  apply and_congr_right
  intro _
  constructor
  · intro h
    obtain ⟨before, gap, stretch, hfront, hboundary, hne, hgap, hstretch⟩ := h
    have hlead : rule.marker.toList ++ gap ≠ [] := by simp [hne]
    refine ⟨before, rule.marker.toList ++ gap ++ stretch ++ lastWord front, by simpa using hfront,
      markedHere_iff.mpr ⟨?_, gap, stretch, ?_, hne, hgap, hstretch⟩⟩
    · rwa [Option.or_none, List.append_assoc (_ ++ _), head?_append_of_ne_nil hlead]
    · rw [lastWord_stretch hstretch rfl]
  · intro h
    obtain ⟨before, text, hfront, hmarked⟩ := h
    obtain ⟨hboundary, gap, stretch, htext, hne, hgap, hstretch⟩ := markedHere_iff.mp hmarked
    have hlead : rule.marker.toList ++ gap ≠ [] := by simp [hne]
    have hsplit : front = before ++ rule.marker.toList ++ gap ++ stretch ++ lastWord text := by
      rw [hfront]
      conv_lhs => rw [htext]
      simp
    refine ⟨before, gap, stretch, ?_, ?_, hne, hgap, hstretch⟩
    · rwa [lastWord_stretch hstretch hsplit]
    · rwa [Option.or_none, htext, List.append_assoc (_ ++ _), head?_append_of_ne_nil hlead]
        at hboundary

instance decidableDeclares (front : List Char) : Decidable (Declares rule front) :=
  decidable_of_iff _ declares_iff.symm

end ExportTables.Header
