import ExportTables.Proofs.Files.Paths

/-!
# The components of a path

Behind its start a path is read piece by piece. So the components of a joined path are those of its
two parts, and a path put together from components is read as these components, but for the `.` that
counts at the start of a path and nowhere else.
-/

namespace ExportTables.Path

open FileTree

variable {left right path : String} {parts : List Component}

/-! ## Reading -/

/-- The components that the pieces of a text stand for behind the start of a path. -/
def inner (text : List Char) : List Component := (pieces text).filterMap Component.ofPiece?

theorem inner_append_slash (left right : List Char) :
    inner (left ++ '/' :: right) = inner left ++ inner right := by
  rw [inner, pieces_append_slash, List.filterMap_append]
  rfl

theorem inner_join (left : String) (hright : isAbsolute right = false) :
    inner (join left right).toList = inner left.toList ++ inner right.toList := by
  rcases toList_join left hright with ⟨rfl | ⟨lead, hlead⟩, hjoin⟩ | ⟨-, hjoin⟩
  · rw [hjoin]
    rfl
  · rw [hjoin, hlead, List.append_assoc, List.singleton_append, inner_append_slash,
      inner_append_slash]
    exact congrArg (· ++ inner right.toList) (List.append_nil _).symm
  · rw [hjoin, inner_append_slash]

theorem components_of_absolute (h : isAbsolute path = true) :
    components path = .root :: inner path.toList := by
  rw [isAbsolute, beq_iff_eq] at h
  obtain ⟨rest, hpath⟩ : ∃ rest, path.toList = '/' :: rest := List.head?_eq_some_iff.mp h
  rw [components, hpath, inner, pieces, if_pos rfl]
  simp [pieces_ne_nil, Component.ofPiece?]

theorem components_of_relative (h : isAbsolute path = false) :
    components path =
      (if (pieces path.toList).head? = some ['.'] then [.current] else []) ++
        inner path.toList := by
  rw [components, inner]
  cases hpieces : pieces path.toList with
  | nil => exact absurd hpieces (pieces_ne_nil _)
  | cons first rest =>
  have hstart : ¬(first = [] ∧ rest ≠ []) := by
    rintro ⟨rfl, hrest⟩
    cases htext : path.toList with
    | nil =>
      rw [htext] at hpieces
      exact hrest (List.cons.inj hpieces).2.symm
    | cons c more =>
      have hc : c ≠ '/' := by
        rintro rfl
        simp [isAbsolute, htext] at h
      rw [htext, pieces, if_neg hc] at hpieces
      cases hmore : pieces more <;> simp [hmore] at hpieces
  by_cases hdot : first = ['.']
  · simp [hdot, Component.ofPiece?]
  · simp only [hstart, hdot, if_false, List.head?_cons, Option.some.injEq, List.filterMap_cons]
    cases Component.ofPiece? first <;> rfl

/-- The components of a path without a `.` at the start. -/
theorem filter_components (path : String) : (components path).filter (· ≠ .current) =
    (if isAbsolute path then [.root] else []) ++ inner path.toList := by
  have hinner : (inner path.toList).filter (· ≠ .current) = inner path.toList := by
    rw [List.filter_eq_self]
    intro c hc
    obtain ⟨piece, -, hpiece⟩ := List.mem_filterMap.mp hc
    rw [Component.ofPiece?] at hpiece
    grind
  cases h : isAbsolute path with
  | true =>
    rw [components_of_absolute h, List.filter_cons_of_pos (by decide), hinner]
    rfl
  | false =>
    rw [components_of_relative h, List.filter_append, hinner]
    congr 1
    split <;> rfl

theorem filter_components_join (left : String) (hright : isAbsolute right = false) :
    (components (join left right)).filter (· ≠ .current) =
      (components left).filter (· ≠ .current) ++ (components right).filter (· ≠ .current) := by
  rw [filter_components, filter_components, filter_components, isAbsolute_join left hright,
    inner_join left hright, hright, List.append_assoc]
  rfl

/-! ## Putting together -/

/-- A component that can stand behind the start of a path. -/
def Component.IsInner : Component → Prop
  | .parent => True
  | .name text => IsName text
  | _ => False

theorem no_slash_of_mem_pieces {text piece : List Char} (h : piece ∈ pieces text) :
    '/' ∉ piece := by
  induction text generalizing piece with
  | nil =>
    rw [List.mem_singleton.mp h]
    exact List.not_mem_nil
  | cons c rest ih =>
    rw [pieces] at h
    split at h
    · rcases List.mem_cons.mp h with rfl | h
      · exact List.not_mem_nil
      · exact ih h
    · rename_i hc
      cases hrest : pieces rest with
      | nil => exact absurd hrest (pieces_ne_nil rest)
      | cons first more =>
      rw [hrest] at h ih
      rcases List.mem_cons.mp h with rfl | h
      · intro hmem
        rcases List.mem_cons.mp hmem with heq | hmem
        · exact hc heq.symm
        · exact ih (List.mem_cons_self ..) hmem
      · exact ih (List.mem_cons_of_mem _ h)

theorem isInner_of_mem_inner {text : List Char} {c : Component} (h : c ∈ inner text) :
    c.IsInner := by
  obtain ⟨piece, hmem, hpiece⟩ := List.mem_filterMap.mp h
  have hslash := no_slash_of_mem_pieces hmem
  rw [Component.ofPiece?] at hpiece
  split at hpiece
  · cases hpiece
  · rename_i hdrop
    obtain ⟨hne, hdot⟩ := not_or.mp hdrop
    split at hpiece
    · rw [← Option.some.inj hpiece]
      trivial
    · rename_i hup
      rw [← Option.some.inj hpiece]
      have htext : ∀ other : List Char,
          piece ≠ other → String.ofList piece ≠ String.ofList other := by
        intro other hother heq
        exact hother (String.ofList_injective heq)
      exact ⟨htext [] hne, by rwa [String.toList_ofList], htext ['.'] hdot, htext ['.', '.'] hup⟩

theorem isInner_of_relative (h : isAbsolute path = false) :
    ∀ c ∈ components path, c = .current ∨ c.IsInner := by
  intro c hc
  rw [components_of_relative h] at hc
  rcases List.mem_append.mp hc with hc | hc
  · split at hc
    · exact .inl (List.mem_singleton.mp hc)
    · cases hc
  · exact .inr (isInner_of_mem_inner hc)

/-- The text of a component is read as this component, but for a `.`. -/
theorem inner_text {c : Component} (h : c = .current ∨ c.IsInner) :
    inner c.text.toList = [c].filter (· ≠ .current) := by
  cases c with
  | root => rcases h with h | h <;> cases h
  | current => rfl
  | parent => rfl
  | name text =>
    have hname : IsName text := h.resolve_left Component.noConfusion
    have htext : ∀ other : String, text ≠ other → text.toList ≠ other.toList := by
      intro other hother heq
      exact hother (String.toList_inj.mp heq)
    have hdrop : ¬(text.toList = [] ∨ text.toList = ['.']) :=
      not_or.mpr ⟨htext "" hname.ne_empty, htext "." hname.ne_dot⟩
    have hup : text.toList ≠ ['.', '.'] := htext ".." hname.ne_dotdot
    have hpiece : Component.ofPiece? text.toList = some (.name text) := by
      rw [Component.ofPiece?, if_neg hdrop, if_neg hup, String.ofList_toList]
    rw [Component.text, inner, pieces_of_no_slash hname.no_slash, List.filterMap_cons, hpiece]
    rfl

theorem head?_text {c : Component} (h : c = .current ∨ c.IsInner) :
    ∃ first rest, c.text.toList = first :: rest ∧ first ≠ '/' := by
  cases c with
  | root => rcases h with h | h <;> cases h
  | current => exact ⟨'.', [], rfl, by decide⟩
  | parent => exact ⟨'.', ['.'], rfl, by decide⟩
  | name text =>
    have hname : IsName text := h.resolve_left Component.noConfusion
    obtain ⟨first, rest, htext⟩ :=
      List.exists_cons_of_ne_nil (String.toList_eq_nil_iff.not.mpr hname.ne_empty)
    refine ⟨first, rest, htext, ?_⟩
    rintro rfl
    exact hname.no_slash (htext ▸ List.mem_cons_self ..)

theorem ofComponents_of_relative (h : ∀ c ∈ parts, c = .current ∨ c.IsInner) :
    ofComponents parts = "/".intercalate (parts.map Component.text) := by
  cases parts with
  | nil => rfl
  | cons c parts =>
    cases c with
    | root => rcases h .root (List.mem_cons_self ..) with h | h <;> cases h
    | _ => rfl

theorem toList_ofComponents_cons {c : Component} (h : ∀ d ∈ c :: parts, d = .current ∨ d.IsInner) :
    (ofComponents (c :: parts)).toList =
      c.text.toList ++ if parts = [] then [] else '/' :: (ofComponents parts).toList := by
  rw [ofComponents_of_relative h, ofComponents_of_relative (List.forall_mem_cons.mp h).2]
  cases parts with
  | nil => simp
  | cons other parts =>
    rw [List.map_cons, List.map_cons, String.intercalate_cons_cons, String.toList_append,
      String.toList_append, List.append_assoc]
    rfl

theorem isAbsolute_ofComponents (h : ∀ c ∈ parts, c = .current ∨ c.IsInner) :
    isAbsolute (ofComponents parts) = false := by
  cases parts with
  | nil => rfl
  | cons c parts =>
    obtain ⟨first, rest, htext, hslash⟩ := head?_text (h c (List.mem_cons_self ..))
    rw [isAbsolute, toList_ofComponents_cons h, htext]
    simpa using hslash

theorem ofComponents_eq_empty (h : ∀ c ∈ parts, c = .current ∨ c.IsInner) :
    ofComponents parts = "" ↔ parts = [] := by
  cases parts with
  | nil => exact iff_of_true rfl rfl
  | cons c parts =>
    obtain ⟨first, rest, htext, -⟩ := head?_text (h c (List.mem_cons_self ..))
    rw [← String.toList_eq_nil_iff, toList_ofComponents_cons h, htext]
    simp

/-- A path that is put together from components has these components behind its start, but for those
that are a `.`. -/
theorem inner_ofComponents (h : ∀ c ∈ parts, c = .current ∨ c.IsInner) :
    inner (ofComponents parts).toList = parts.filter (· ≠ .current) := by
  induction parts with
  | nil => rfl
  | cons c parts ih =>
    obtain ⟨hc, hparts⟩ := List.forall_mem_cons.mp h
    have hsplit : (c :: parts).filter (· ≠ .current) =
        inner c.text.toList ++ inner (ofComponents parts).toList := by
      rw [inner_text hc, ih hparts, ← List.filter_append]
      rfl
    rw [toList_ofComponents_cons h, hsplit]
    split
    · rename_i hlast
      rw [hlast, List.append_nil]
      exact (List.append_nil _).symm
    · rw [inner_append_slash]

end ExportTables.Path
