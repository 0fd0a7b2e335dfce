import ExportTables.Proofs.Path.Components

/-!
# The way from one path to another

The relative path goes up from its base to where the two paths part, and from there down. That it
leads to the right place is told by the normal form of a path: what has been entered behind the
common components is left again one by one (`foldl_leave`), so a base joined with the way from it
has the normal form of the path.

A path is shown to the user by the way from the working directory, if it leads into it.
-/

namespace ExportTables.Path

variable {base path here : String} {common up rest parts : List Component}

/-! ## Normal forms -/

/-- The places passed so far, last one first, behind one more component. -/
def Component.follow (passed : List Component) (c : Component) : List Component :=
  match c, passed with
  | .current, _ => passed
  | .parent, .name _ :: above => above
  | .parent, .root :: _ => passed
  | _, _ => c :: passed

/-- The components with every `.` dropped, with every `..` taken back together with the name in
front of it, and with no `..` directly below the root. -/
def normal (parts : List Component) : List Component := (parts.foldl Component.follow []).reverse

theorem normal_filter (parts : List Component) :
    normal (parts.filter (· ≠ .current)) = normal parts := by
  have hfollow : (fun passed c => if decide (c ≠ .current) = true then Component.follow passed c
      else passed) = Component.follow := by
    funext passed c
    cases c <;> rfl
  rw [normal, List.foldl_filter, hfollow, normal]

/-- Names that are entered and left again lead nowhere. -/
theorem foldl_leave (h : ∀ c ∈ up, ∃ text, c = .name text) (passed : List Component) :
    (up ++ List.replicate up.length Component.parent).foldl Component.follow passed = passed := by
  induction up generalizing passed with
  | nil => rfl
  | cons c up ih =>
    obtain ⟨⟨text, rfl⟩, hup⟩ := List.forall_mem_cons.mp h
    rw [List.length_cons, List.replicate_succ', ← List.append_assoc, List.cons_append,
      List.cons_append, List.foldl_cons, List.foldl_append, ih hup]
    rfl

theorem normal_leave (h : ∀ c ∈ up, ∃ text, c = .name text) (common rest : List Component) :
    normal (common ++ up ++ (List.replicate up.length .parent ++ rest)) =
      normal (common ++ rest) := by
  rw [normal, normal, ← List.append_assoc, List.append_assoc common, List.foldl_append,
    List.foldl_append, foldl_leave h, ← List.foldl_append]

/-! ## The way -/

theorem wayAfterParting?_eq (h : ∀ c ∈ up, c ≠ .current ∧ c ≠ .parent) (rest : List Component) :
    wayAfterParting? rest up = some (List.replicate up.length .parent ++ rest) := by
  induction up with
  | nil => cases rest <;> rfl
  | cons c up ih =>
    obtain ⟨⟨hcurrent, hparent⟩, hup⟩ := List.forall_mem_cons.mp h
    cases rest with
    | nil =>
      rw [wayAfterParting?, ih hup]
      rfl
    | cons d rest =>
      rw [wayAfterParting?]
      · simp [List.replicate_succ]
      · exact hcurrent
      · exact hparent

/-- The way from a base that goes down only is up to where the two paths part and then down. -/
theorem way?_eq (path : List Component) {base : List Component}
    (h : ∀ c ∈ base, c ≠ .current ∧ c ≠ .parent) :
    ∃ common up rest, base = common ++ up ∧ path = common ++ rest ∧
      (∀ c, up.head? = some c → rest.head? ≠ some c) ∧
      way? path base = some (List.replicate up.length .parent ++ rest) := by
  induction base generalizing path with
  | nil => exact ⟨[], [], path, rfl, rfl, by simp, by cases path <;> rfl⟩
  | cons d base ih =>
    cases path with
    | nil => exact ⟨[], d :: base, [], rfl, rfl, by simp, wayAfterParting?_eq h []⟩
    | cons c path =>
    rw [way?]
    split
    · rename_i heq
      obtain ⟨common, up, rest, rfl, rfl, hparted, hway⟩ := ih path (List.forall_mem_cons.mp h).2
      exact ⟨c :: common, up, rest, by rw [heq]; rfl, rfl, hparted, hway⟩
    · rename_i hne
      refine ⟨[], d :: base, c :: path, rfl, rfl, ?_, wayAfterParting?_eq h _⟩
      simpa using hne

/-- Two rows have nothing in common behind the place where they part. -/
theorem prefix_of_parted {p : List Component} (h : ∀ c, up.head? = some c → rest.head? ≠ some c)
    (hup : p <+: common ++ up) (hrest : p <+: common ++ rest) : p <+: common := by
  induction common generalizing p with
  | nil =>
    cases p with
    | nil => exact List.prefix_rfl
    | cons c p =>
      have hboth : up.head? = some c ∧ rest.head? = some c := by
        obtain ⟨more, rfl⟩ := hup
        obtain ⟨more', rfl⟩ := hrest
        exact ⟨rfl, rfl⟩
      exact absurd hboth.2 (h c hboth.1)
  | cons d common ih =>
    cases p with
    | nil => exact List.nil_prefix
    | cons c p =>
      obtain ⟨rfl, hmore⟩ := List.cons_prefix_cons.mp hup
      exact List.cons_prefix_cons.mpr ⟨rfl, ih hmore (List.cons_prefix_cons.mp hrest).2⟩

/-- Behind the place where two paths part no root is left. -/
theorem isInner_of_parted (hstart : isAbsolute base = isAbsolute path)
    (hbase : components base = common ++ up) (hpath : components path = common ++ rest)
    (hparted : ∀ c, up.head? = some c → rest.head? ≠ some c) :
    (∀ c ∈ up, c = .current ∨ c.IsInner) ∧ (∀ c ∈ rest, c = .current ∨ c.IsInner) := by
  cases habsolute : isAbsolute base with
  | false =>
    have hinner := isInner_of_relative habsolute
    have hinner' := isInner_of_relative (hstart.symm.trans habsolute)
    rw [hbase] at hinner
    rw [hpath] at hinner'
    exact ⟨fun c hc => hinner c (List.mem_append_right _ hc),
      fun c hc => hinner' c (List.mem_append_right _ hc)⟩
  | true =>
    rw [components_of_absolute habsolute] at hbase
    rw [components_of_absolute (hstart.symm.trans habsolute)] at hpath
    cases common with
    | nil =>
      rw [List.nil_append] at hbase hpath
      exact absurd (hpath ▸ rfl) (hparted .root (hbase ▸ rfl))
    | cons d common =>
      have hinner : inner base.toList = common ++ up := (List.cons.inj hbase).2
      have hinner' : inner path.toList = common ++ rest := (List.cons.inj hpath).2
      exact ⟨fun c hc => .inr (isInner_of_mem_inner (hinner ▸ List.mem_append_right _ hc)),
        fun c hc => .inr (isInner_of_mem_inner (hinner' ▸ List.mem_append_right _ hc))⟩

/-- The relative path goes up from the base to where the two paths part, and then down. -/
theorem relative_eq (hstart : isAbsolute base = isAbsolute path)
    (hbase : ∀ c ∈ components base, c ≠ .current ∧ c ≠ .parent) :
    ∃ common up rest, components base = common ++ up ∧ components path = common ++ rest ∧
      (∀ c, up.head? = some c → rest.head? ≠ some c) ∧
      (∀ c ∈ up, ∃ text, c = .name text) ∧ (∀ c ∈ rest, c = .current ∨ c.IsInner) ∧
      relative base path = ofComponents (List.replicate up.length .parent ++ rest) := by
  obtain ⟨common, up, rest, hup, hrest, hparted, hway⟩ := way?_eq (components path) hbase
  obtain ⟨hinner, hinner'⟩ := isInner_of_parted hstart hup hrest hparted
  refine ⟨common, up, rest, hup, hrest, hparted, ?_, hinner', ?_⟩
  · intro c hc
    obtain ⟨hcurrent, hparent⟩ := hbase c (hup ▸ List.mem_append_right _ hc)
    have hinner := (hinner c hc).resolve_left hcurrent
    cases c with
    | name text => exact ⟨text, rfl⟩
    | parent => exact absurd rfl hparent
    | root => cases hinner
    | current => cases hinner
  · rw [relative, hstart, bne_self_eq_false, if_neg Bool.false_ne_true, hway]
    rfl

/-- The relative path leads from the base to the path. It is relative, it goes up once for each
component of the base behind those that the two paths have in common and then takes the other
components of the path, and to follow it from the base is to take the path. -/
theorem relative_leads (base path : String) (hstart : isAbsolute base = isAbsolute path)
    (hbase : ∀ c ∈ components base, c ≠ .current ∧ c ≠ .parent) :
    let r := relative base path
    isAbsolute r = false ∧
      (∃ common, common <+: components base ∧ common <+: components path ∧
        (∀ other, other <+: components base → other <+: components path → other <+: common) ∧
        (components r).filter (· ≠ .current) =
          (List.replicate ((components base).length - common.length) Component.parent ++
            (components path).drop common.length).filter (· ≠ .current)) ∧
      normal (components (join base r)) = normal (components path) := by
  obtain ⟨common, up, rest, hup, hrest, hparted, hnames, hinner, hrelative⟩ :=
    relative_eq hstart hbase
  intro r
  have hway : ∀ c ∈ List.replicate up.length Component.parent ++ rest,
      c = .current ∨ c.IsInner := by
    intro c hc
    rcases List.mem_append.mp hc with hc | hc
    · rw [List.eq_of_mem_replicate hc]
      exact .inr trivial
    · exact hinner c hc
  have hr : isAbsolute r = false := by
    rw [show r = _ from hrelative]
    exact isAbsolute_ofComponents hway
  have hcomponents : (components r).filter (· ≠ .current) =
      (List.replicate up.length Component.parent ++ rest).filter (· ≠ .current) := by
    rw [filter_components, hr, show r = _ from hrelative, inner_ofComponents hway]
    rfl
  refine ⟨hr, ⟨common, ⟨up, hup.symm⟩, ⟨rest, hrest.symm⟩, ?_, ?_⟩, ?_⟩
  · intro other hother hother'
    rw [hup] at hother
    rw [hrest] at hother'
    exact prefix_of_parted hparted hother hother'
  · rw [hcomponents, hup, hrest, List.length_append, Nat.add_sub_cancel_left, List.drop_left]
  · calc normal (components (join base r))
        = normal ((components base ++ components r).filter (· ≠ .current)) := by
          rw [← normal_filter, filter_components_join base hr, List.filter_append]
      _ = normal (common ++ up ++ (List.replicate up.length .parent ++ rest)) := by
          rw [List.filter_append, hcomponents, ← List.filter_append, normal_filter, hup]
      _ = normal (components path) := by rw [normal_leave hnames, hrest]

/-- A way up, down and up again, between paths with slashes and dots that do not count. -/
theorem relative_leads_up_and_down :
    let base := "/a//b/c/"
    let path := "/a/./d/../../e"
    let r := relative base path
    isAbsolute base = isAbsolute path ∧ (∀ c ∈ components base, c ≠ .current ∧ c ≠ .parent) ∧
      r = "../../d/../../e" ∧ normal (components path) = [.root, .name "e"] ∧
      normal (components (join base r)) = normal (components path) := by
  intro base path r
  have hbase : ∀ c ∈ components base, c ≠ .current ∧ c ≠ .parent := by decide +kernel
  have hstart : isAbsolute base = isAbsolute path := by decide +kernel
  obtain ⟨-, -, hnormal⟩ := relative_leads base path hstart hbase
  exact ⟨hstart, hbase, by decide +kernel, by decide +kernel, hnormal⟩

/-! ## Shown paths -/

/-- The way into a directory is what the path has behind it. -/
theorem way?_append (base rest : List Component) : way? (base ++ rest) base = some rest := by
  induction base with
  | nil => cases rest <;> rfl
  | cons c base ih => rw [List.cons_append, way?, if_pos rfl, ih]

theorem display_of_prefix (hhere : isAbsolute here = true) (hpath : isAbsolute path = true)
    (h : components path = components here ++ rest) :
    display (some here) path = ofComponents rest := by
  have hbelow : (components here).isPrefixOf (components path) = true :=
    List.isPrefixOf_iff_prefix.mpr ⟨rest, h.symm⟩
  rw [display, if_pos ⟨hpath, hbelow⟩, relative, hhere, hpath, bne_self_eq_false,
    if_neg Bool.false_ne_true, h, way?_append]
  rfl

theorem display_of_not_prefix
    (h : isAbsolute path = false ∨ ¬components here <+: components path) :
    display (some here) path = path := by
  rw [display, if_neg]
  rintro ⟨habsolute, hbelow⟩
  rcases h with h | h
  · rw [h] at habsolute
    cases habsolute
  · exact h (List.isPrefixOf_iff_prefix.mp hbelow)

theorem head?_components_of_relative (h : isAbsolute path = false) :
    (components path).head? ≠ some .root := by
  intro hroot
  rcases isInner_of_relative h _ (List.mem_of_head? hroot) with h | h <;> cases h

/-- A path that is shown leads from the working directory to where the path leads. It is relative
exactly if the path is, or leads into the working directory, and else it is shown as it is given.
Nothing at all is shown exactly if the path is absolute and leads to the working directory
itself. -/
theorem display_leads (here path : String) (hhere : isAbsolute here = true) (hne : path ≠ "") :
    let shown := display (some here) path
    components (join here shown) = components (join here path) ∧
      (isAbsolute shown = false ↔
        isAbsolute path = false ∨ components here <+: components path) ∧
      (isAbsolute path = false ∨ ¬components here <+: components path → shown = path) ∧
      (shown = "" ↔ components path = components here) := by
  intro shown
  have hroot := components_of_absolute hhere
  cases hpath : isAbsolute path with
  | false =>
    have hshown : shown = path := display_of_not_prefix (.inl hpath)
    refine ⟨by rw [hshown], by simp [hshown, hpath], fun _ => hshown, ?_⟩
    rw [hshown]
    refine iff_of_false hne fun heq => head?_components_of_relative hpath ?_
    rw [heq, hroot]
    rfl
  | true =>
  have hjoin : join here path = path := by rw [join, if_pos hpath]
  by_cases hbelow : components here <+: components path
  · obtain ⟨rest, hrest⟩ := hbelow
    have hinner : inner path.toList = inner here.toList ++ rest := by
      rw [components_of_absolute hpath, hroot] at hrest
      exact (List.cons.inj hrest).2.symm
    have hparts : ∀ c ∈ rest, c.IsInner := fun c hc =>
      isInner_of_mem_inner (hinner ▸ List.mem_append_right _ hc)
    have hparts' : ∀ c ∈ rest, c = .current ∨ c.IsInner := fun c hc => .inr (hparts c hc)
    have hshown : shown = ofComponents rest := display_of_prefix hhere hpath hrest.symm
    have hrelative : isAbsolute shown = false := hshown ▸ isAbsolute_ofComponents hparts'
    have hkept : rest.filter (· ≠ .current) = rest := by
      rw [List.filter_eq_self]
      intro c hc
      cases c with
      | current => cases hparts _ hc
      | _ => rfl
    refine ⟨?_, by simp [hrelative, ← hrest], ?_, ?_⟩
    · rw [components_of_absolute (by rw [isAbsolute_join here hrelative, hhere]),
        inner_join here hrelative, hshown, inner_ofComponents hparts', hkept, hjoin,
        components_of_absolute hpath, hinner]
    · rintro (h | h)
      · cases h
      · exact absurd ⟨rest, hrest⟩ h
    · rw [hshown, ofComponents_eq_empty hparts', ← hrest]
      simp
  · have hshown : shown = path := display_of_not_prefix (.inr hbelow)
    refine ⟨by rw [hshown], by simp [hshown, hpath, hbelow], fun _ => hshown, ?_⟩
    rw [hshown]
    exact iff_of_false hne fun heq => hbelow (heq ▸ List.prefix_rfl)

/-- Into the working directory and out of it again. -/
theorem display_leads_out_again :
    let here := "/a/b"
    let path := "/a//b/./../bc/"
    let shown := display (some here) path
    isAbsolute here = true ∧ path ≠ "" ∧ shown = "../bc" ∧
      components (join here shown) = components (join here path) := by
  intro here path shown
  have hhere : isAbsolute here = true := by decide +kernel
  have hne : path ≠ "" := by decide
  exact ⟨hhere, hne, by decide +kernel, (display_leads here path hhere hne).1⟩

/-- The working directory itself is shown as an empty text, which names no place. -/
theorem display_working_directory_empty :
    let here := "/a/b"
    isAbsolute here = true ∧ (∀ c ∈ components here, c ≠ .current ∧ c ≠ .parent) ∧ here ≠ "" ∧
      display (some here) here = "" := by
  decide +kernel

end ExportTables.Path
