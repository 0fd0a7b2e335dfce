import ExportTables.Proofs.Files.Reading
import Mathlib.Data.List.Induction

/-!
# Making missing directories

A path that is made is tried first as a whole. Where a directory above it is missing, that one is
made before, by the same procedure, and then the path is tried again. So names that are missing
below a directory that is there are made one in the other (`run_ensureDirectory_of_missing`), and
the path then leads to the last of them.

The recursion takes the path apart from its end, so the induction is on the list of the names from
its end too.
-/

namespace ExportTables

namespace Path

open FileTree

/-! ## The path above a name -/

theorem joinPieces_pieces (path : String) : joinPieces (pieces path.toList) = path := by
  have hback : ∀ text, ['/'].intercalate (pieces text) = text := by
    intro text
    induction text with
    | nil => rfl
    | cons c rest ih =>
      obtain ⟨piece, more, hpieces⟩ := List.exists_cons_of_ne_nil (pieces_ne_nil rest)
      rw [pieces]
      rw [hpieces] at ih ⊢
      split
      · rename_i hc
        rw [List.intercalate_cons_cons, ih, hc]
        rfl
      · cases more with
        | nil => simpa using ih
        | cons next more =>
          rw [List.intercalate_cons_cons] at ih ⊢
          rw [List.cons_append, List.cons_append, ih]
  rw [joinPieces, hback, String.ofList_toList]

theorem trimPieces_concat (parts : List (List Char)) {name : String} (hname : IsName name) :
    trimPieces (parts ++ [name.toList]) = parts ++ [name.toList] := by
  have hempty : name.toList ≠ [] := String.toList_eq_nil_iff.not.mpr hname.ne_empty
  have hdot : name.toList ≠ ['.'] := fun h => hname.ne_dot (String.toList_inj.mp h)
  rw [trimPieces, List.reverse_concat, List.dropWhile_cons_of_neg (by simp [hempty, hdot]),
    List.reverse_cons, List.reverse_reverse]

theorem pieces_join (left : String) {name : String} (hname : IsName name) :
    ∃ lead, pieces (join left name).toList = lead ++ [name.toList] := by
  have hpiece := pieces_of_no_slash hname.no_slash
  rcases toList_join left hname.isAbsolute with ⟨rfl | ⟨lead, hlead⟩, hjoin⟩ | ⟨-, hjoin⟩
  · exact ⟨[], by rw [hjoin]; exact hpiece⟩
  · refine ⟨pieces lead, ?_⟩
    rw [hjoin, hlead, List.append_assoc, List.singleton_append, pieces_append_slash, hpiece]
  · exact ⟨pieces left.toList, by rw [hjoin, pieces_append_slash, hpiece]⟩

/-- Above a name that has been joined to a path which ends in a name is this path, as it is
spelled. -/
theorem parent?_join_join (left : String) {name last : String} (hname : IsName name)
    (hlast : IsName last) : parent? (join (join left name) last) = some (join left name) := by
  obtain ⟨lead, hlead⟩ := pieces_join left hname
  have hpieces : pieces (join (join left name) last).toList =
      lead ++ [name.toList] ++ [last.toList] := by
    have hends := hname.endsInSlash_join left
    rcases toList_join (join left name) hlast.isAbsolute with
      ⟨hempty | ⟨front, hfront⟩, -⟩ | ⟨-, hjoin⟩
    · rw [hempty] at hlead
      have hsame := congrArg List.getLast? hlead
      rw [List.getLast?_concat] at hsame
      exact absurd (String.toList_inj.mp (Option.some.inj hsame).symm) hname.ne_empty
    · rw [endsInSlash, hfront, List.getLast?_concat] at hends
      cases hends
    · rw [hjoin, pieces_append_slash, hlead, pieces_of_no_slash hlast.no_slash]
  have hempty : name.toList ≠ [] := String.toList_eq_nil_iff.not.mpr hname.ne_empty
  have hdot : name.toList ≠ ['.'] := fun h => hname.ne_dot (String.toList_inj.mp h)
  have hback := joinPieces_pieces (join left name)
  -- Neither with the last name nor without it is anything trimmed off, however the path starts.
  have hbody : ∀ front, trimPieces (front ++ [name.toList, last.toList]) =
      front ++ [name.toList, last.toList] := by
    intro front
    simpa using trimPieces_concat (front ++ [name.toList]) hlast
  have habove := fun front => trimPieces_concat front hname
  rw [hlead] at hback
  rw [parent?, hpieces, List.append_assoc, List.singleton_append]
  cases lead with
  | nil =>
    have hbody := hbody []
    have habove := habove []
    simp only [List.nil_append] at hback hbody habove ⊢
    simp [hempty, hdot, hbody, habove, hback]
  | cons first rest =>
    have hwhole := hbody (first :: rest)
    have hwholeAbove := habove (first :: rest)
    simp only [List.cons_append] at hback hwhole hwholeAbove ⊢
    by_cases hfirst : first = [] ∨ first = ['.']
    · simp [hfirst, hbody, habove, hback]
    · simp [hfirst, hwhole, hwholeAbove, hback, List.dropLast_cons_of_ne_nil]

theorem names_foldl_join (base : String) {missing : List String}
    (h : ∀ name ∈ missing, IsName name) :
    names (missing.foldl join base) = names base ++ missing := by
  induction missing generalizing base with
  | nil => rw [List.foldl_nil, List.append_nil]
  | cons name missing ih =>
    obtain ⟨hname, hmissing⟩ := List.forall_mem_cons.mp h
    rw [List.foldl_cons, ih _ hmissing, names_join base hname.isAbsolute, hname.names,
      List.append_assoc, List.singleton_append]

theorem isAbsolute_foldl_join (base : String) {missing : List String}
    (h : ∀ name ∈ missing, IsName name) :
    isAbsolute (missing.foldl join base) = isAbsolute base := by
  induction missing generalizing base with
  | nil => rfl
  | cons name missing ih =>
    obtain ⟨hname, hmissing⟩ := List.forall_mem_cons.mp h
    rw [List.foldl_cons, ih _ hmissing, isAbsolute_join base hname.isAbsolute]

theorem length_le_length_foldl_join (base : String) {missing : List String}
    (h : ∀ name ∈ missing, IsName name) : missing.length ≤ (missing.foldl join base).length := by
  have hjoin : ∀ (left name : String), IsName name → left.length + 1 ≤ (join left name).length := by
    intro left name hname
    have hpos : 0 < name.toList.length :=
      List.length_pos_iff.mpr (String.toList_eq_nil_iff.not.mpr hname.ne_empty)
    rw [← String.length_toList, ← String.length_toList]
    rcases toList_join left hname.isAbsolute with ⟨-, htext⟩ | ⟨-, htext⟩
    · rw [htext, List.length_append]
      omega
    · rw [htext, List.length_append, List.length_cons]
      omega
  induction missing using List.reverseRecOn with
  | nil => exact Nat.zero_le _
  | append_singleton missing name ih =>
    obtain ⟨hmissing, hname⟩ := List.forall_mem_append.mp h
    have hlonger := hjoin (missing.foldl join base) name (hname name (List.mem_singleton_self _))
    have hshorter := ih hmissing
    rw [List.foldl_append, List.length_append, List.length_singleton]
    exact Nat.le_trans (Nat.add_le_add_right hshorter 1) hlonger

end Path

namespace FileTree

open ExportTables.Path

variable {t : FileTree} {usable : Location → Prop} {working : WorkingDirectory} {links : Nat}
  {here d : Location} {path base name last : String} {route rest more missing : List String}

/-! ## Ways to what is missing -/

/-- Behind a directory a walk goes on from there, with the links that are left. -/
theorem Leads.walk_append (h : Leads t usable links here route d)
    (hd : ∃ b, t.get? d = some (.directory b)) (more : List String) :
    ∃ fewer, t.walk false links here (route ++ more) = t.walk false fewer d more := by
  induction h with
  | done => exact ⟨_, rfl⟩
  | slash hhere _ ih =>
    obtain ⟨fewer, hwalk⟩ := ih hd
    refine ⟨fewer, ?_⟩
    rw [← hwalk, walk_eq_follow, List.cons_append, follow, checkSlash_eq_ok.mpr hhere]
    rfl
  | current hhere _ ih =>
    obtain ⟨fewer, hwalk⟩ := ih hd
    refine ⟨fewer, ?_⟩
    rw [← hwalk, walk_eq_follow, List.cons_append, follow, checkDirectory_eq_ok.mpr hhere]
    · rfl
    · decide
  | above hhere _ ih =>
    obtain ⟨fewer, hwalk⟩ := ih hd
    refine ⟨fewer, ?_⟩
    rw [← hwalk, walk_eq_follow, List.cons_append, follow, checkDirectory_eq_ok.mpr hhere]
    · rfl
    · decide
  | missing _ _ _ hnone =>
    obtain ⟨b, hd⟩ := hd
    rw [hnone] at hd
    cases hd
  | @enter _ here name rest d entry hhere hdots hname hentry hlink _ ih =>
    obtain ⟨hempty, hdot, hdotdot⟩ := hdots
    obtain ⟨fewer, hwalk⟩ := ih hd
    refine ⟨fewer, ?_⟩
    rw [walk_eq_follow] at hwalk ⊢
    rw [List.cons_append, follow, checkDirectory_eq_ok.mpr hhere, ← hwalk]
    · cases entry with
      | link target => exact absurd rfl (hlink target)
      | directory => simp [hdot, hdotdot, hname, hentry, bind, Except.bind]
      | file => simp [hdot, hdotdot, hname, hentry, bind, Except.bind]
      | null => simp [hdot, hdotdot, hname, hentry, bind, Except.bind]
    · exact hempty
  | link hhere hdots hname hentry _ _ ih =>
    obtain ⟨hempty, hdot, hdotdot⟩ := hdots
    obtain ⟨fewer, hwalk⟩ := ih hd
    refine ⟨fewer, ?_⟩
    rw [List.append_assoc] at hwalk
    rw [walk_eq_follow, List.cons_append, follow, checkDirectory_eq_ok.mpr hhere, ← hwalk]
    · simp [hdot, hdotdot, hname, hentry, bind, Except.bind, onLink]
    · exact hempty

/-- A way that goes on behind a missing name leads nowhere. -/
theorem LeadsFrom.locate_missing {absolute : Bool}
    (h : t.LeadsFrom usable working absolute route d) (hd : t.get? d = some (.directory true))
    (hname : IsName name) (hshort : checkName name = .ok ()) (hnone : t.get? (d ++ [name]) = none)
    (hrest : rest ≠ []) :
    t.locate false working absolute (route ++ name :: rest) = .error .notFound := by
  obtain ⟨start, names, hstart, hleads⟩ := h
  obtain ⟨fewer, hwalk⟩ := hleads.walk_append ⟨true, hd⟩ (name :: rest)
  rw [locate_of_departure (departure_append hstart (name :: rest)), hwalk, walk_eq_follow, follow,
    checkDirectory_eq_ok.mpr hd]
  · simp [hname.ne_dot, hname.ne_dotdot, hshort, hnone, hrest, bind, Except.bind, Except.map]
  · exact hname.ne_empty

/-! ## Making one directory in the other -/

/-- Nothing stands under any of the names, of which each is looked for in the one before it, and all
of them can be names of directories. -/
structure Missing (t : FileTree) (d : Location) (names : List String) : Prop where
  isName : ∀ name ∈ names, IsName name
  short : ∀ name ∈ names, checkName name = .ok ()
  free : ∀ l, l ≠ [] → l <+: names → t.get? (d ++ l) = none

theorem Missing.front (h : Missing t d (missing ++ [last])) : Missing t d missing where
  isName name hname := h.isName name (List.mem_append_left _ hname)
  short name hname := h.short name (List.mem_append_left _ hname)
  free l hl hpre := h.free l hl (hpre.trans (List.prefix_append _ _))

/-- The tree with a directory for each of the names, one in the other. -/
def putDirectories (t : FileTree) (d : Location) : List String → FileTree
  | [] => t
  | name :: rest => (t.put (d ++ [name]) (.directory true)).putDirectories (d ++ [name]) rest

theorem putDirectories_concat (t : FileTree) (d : Location) (names : List String) (last : String) :
    t.putDirectories d (names ++ [last]) =
      (t.putDirectories d names).put (d ++ names ++ [last]) (.directory true) := by
  induction names generalizing t d with
  | nil => simp [putDirectories]
  | cons name rest ih =>
    rw [List.cons_append, putDirectories, ih, putDirectories, List.append_assoc d,
      List.singleton_append]

theorem get?_putDirectories_of_ne {place : Location} {names : List String}
    (h : ∀ l, l ≠ [] → l <+: names → place ≠ d ++ l) :
    (t.putDirectories d names).get? place = t.get? place := by
  induction names generalizing t d with
  | nil => rfl
  | cons name rest ih =>
    rw [putDirectories, ih, get?_put_of_ne]
    · exact h [name] (List.cons_ne_nil _ _) (List.prefix_append [name] rest)
    · intro l hl hpre
      rw [List.append_assoc, List.singleton_append]
      exact h (name :: l) (List.cons_ne_nil _ _) ((List.prefix_cons_inj name).mpr hpre)

/-- The last of the names is as free as before once the others have been made. -/
theorem Missing.free_last (h : Missing t d (missing ++ [last])) :
    (t.putDirectories d missing).get? (d ++ missing ++ [last]) = none := by
  rw [get?_putDirectories_of_ne, List.append_assoc]
  · exact h.free _ (by simp) (List.prefix_refl _)
  · intro l hl hpre heq
    rw [List.append_assoc] at heq
    have hlength := hpre.length_le
    rw [← List.append_cancel_left heq, List.length_append, List.length_singleton] at hlength
    omega

theorem Keeps.put_free {place : Location} (hfree : t.get? place = none) (entry : Entry) :
    Keeps usable t (t.put place entry) where
  directories l b hl := by
    rw [get?_put_of_ne, hl]
    rintro rfl
    rw [hfree] at hl
    cases hl
  links l target _ hl := by
    rw [get?_put_of_ne, hl]
    rintro rfl
    rw [hfree] at hl
    cases hl

theorem checkPath_front (h : ∀ name ∈ missing ++ [last], IsName name) (hne : missing ≠ [])
    (hvalid : checkPath ((missing ++ [last]).foldl join base) = .ok ()) :
    checkPath (missing.foldl join base) = .ok () := by
  obtain ⟨hmissing, hlast⟩ := List.forall_mem_append.mp h
  rw [List.foldl_append] at hvalid
  refine checkPath_of_join (hlast last (List.mem_singleton_self _)) ?_ hvalid
  intro hempty
  have hlength := length_le_length_foldl_join base hmissing
  rw [hempty] at hlength
  exact hne (List.eq_nil_of_length_eq_zero (Nat.le_zero.mp hlength))

/-- The path of the names leads to the last of them once all have been made. -/
theorem pathLeads_putDirectories (hd : t.PathLeads usable working base d)
    (hdirectory : t.get? d = some (.directory true)) (h : Missing t d missing)
    (hvalid : missing ≠ [] → checkPath (missing.foldl join base) = .ok ()) :
    (t.putDirectories d missing).PathLeads usable working (missing.foldl join base)
        (d ++ missing) ∧
      (t.putDirectories d missing).get? (d ++ missing) = some (.directory true) := by
  induction missing using List.reverseRecOn with
  | nil =>
    rw [List.append_nil]
    exact ⟨hd, hdirectory⟩
  | append_singleton missing last ih =>
    have hpath := hvalid (by simp)
    have hlast := h.isName last List.mem_concat_self
    obtain ⟨hleads, hmade⟩ := ih h.front fun hne => checkPath_front h.isName hne hpath
    have hkeeps : Keeps usable (t.putDirectories d missing)
        ((t.putDirectories d missing).put (d ++ missing ++ [last]) (.directory true)) :=
      Keeps.put_free h.free_last _
    have hself := get?_put_self (t.putDirectories d missing)
      (show d ++ missing ++ [last] ≠ [] by simp) (.directory true)
    rw [List.foldl_append] at hpath ⊢
    rw [putDirectories_concat, ← List.append_assoc]
    have hnamed := (namesEntry_join hlast).mpr ⟨hpath, hleads.keep hkeeps ⟨true, hmade⟩,
      hkeeps.directories _ _ hmade, h.short last List.mem_concat_self⟩
    exact ⟨hnamed.leads hself (by simp), hself⟩

/-- The way over missing names ends where the first of them is missing, or fails there. -/
theorem locate_missing (hd : t.PathLeads usable working base d)
    (hdirectory : t.get? d = some (.directory true)) (h : Missing t d missing)
    (hne : missing ≠ []) :
    t.locate false working (isAbsolute base) (names base ++ missing) = .error .notFound ∨
      ∃ place, t.locate false working (isAbsolute base) (names base ++ missing) = .ok (some place) ∧
        t.get? place = none := by
  obtain ⟨name, rest, rfl⟩ := List.exists_cons_of_ne_nil hne
  have hname := h.isName name (List.mem_cons_self ..)
  have hshort := h.short name (List.mem_cons_self ..)
  have hnone := h.free [name] (List.cons_ne_nil _ _) (List.prefix_append _ _)
  cases rest with
  | nil =>
    have hleads : t.LeadsFrom usable working (isAbsolute base) (names base ++ [name])
        (d ++ [name]) := by
      apply LeadsFrom.append hd ⟨true, hdirectory⟩
      intro links
      exact .missing hdirectory ⟨hname.ne_empty, hname.ne_dot, hname.ne_dotdot⟩ hshort hnone
    exact Or.inr ⟨d ++ [name], locate_eq_ok.mpr (hleads.mono fun _ _ => trivial), hnone⟩
  | cons next rest =>
    exact Or.inl (LeadsFrom.locate_missing hd hdirectory hname hshort hnone
      (List.cons_ne_nil next rest))

/-- A path whose way breaks off before its last name names no entry. -/
theorem slot?_missing (hd : t.PathLeads usable working base d)
    (hdirectory : t.get? d = some (.directory true)) (h : Missing t d (missing ++ [last]))
    (hne : missing ≠ []) (hvalid : checkPath ((missing ++ [last]).foldl join base) = .ok ()) :
    t.slot? working ((missing ++ [last]).foldl join base) = .error .notFound := by
  have hnames := names_foldl_join base h.isName
  rw [← List.append_assoc] at hnames
  rw [slot?, hvalid, hnames, List.getLast?_concat, List.dropLast_concat,
    isAbsolute_foldl_join base h.isName]
  rcases locate_missing hd hdirectory h.front hne with hlocated | ⟨place, hlocated, hnone⟩
  · simp [hlocated, bind, Except.bind]
  · simp [hlocated, checkDirectory, hnone, bind, Except.bind]

/-- A path that ends in missing names leads to nothing. -/
theorem lookup_missing (hd : t.PathLeads usable working base d)
    (hdirectory : t.get? d = some (.directory true)) (h : Missing t d (missing ++ [last]))
    (hvalid : checkPath ((missing ++ [last]).foldl join base) = .ok ()) :
    t.lookup working ((missing ++ [last]).foldl join base) = .error .notFound := by
  have hslash : endsInSlash ((missing ++ [last]).foldl join base) = false := by
    rw [List.foldl_append]
    exact (h.isName last List.mem_concat_self).endsInSlash_join _
  rw [FileTree.lookup, resolve, hvalid, FileTree.route, hslash, if_neg Bool.false_ne_true,
    names_foldl_join base h.isName, isAbsolute_foldl_join base h.isName]
  rcases locate_missing hd hdirectory h (by simp) with hlocated | ⟨place, hlocated, hnone⟩
  · simp [hlocated, bind, Except.bind]
  · simp [hlocated, entryAt, hnone, bind, Except.bind]

end FileTree

namespace World

open FileSystem FileTree ExportTables.Path

variable {usable : Location → Prop} {w : World} {base last : String} {d : Location}
  {missing : List String}

theorem run_createDirectory_missing (hd : w.tree.PathLeads usable w.here base d)
    (hdirectory : w.tree.get? d = some (.directory true)) (h : Missing w.tree d (missing ++ [last]))
    (hvalid : checkPath ((missing ++ [last]).foldl join base) = .ok ()) :
    (createDirectory ((missing ++ [last]).foldl join base) : StateM World _).run
        { w with tree := w.tree.putDirectories d missing } =
      (.ok (), { w with tree := w.tree.putDirectories d (missing ++ [last]) }) := by
  obtain ⟨hleads, hmade⟩ := pathLeads_putDirectories hd hdirectory h.front fun hne =>
    checkPath_front h.isName hne hvalid
  rw [List.foldl_append] at hvalid ⊢
  have hnamed := (namesEntry_join (h.isName last List.mem_concat_self)).mpr
    ⟨hvalid, hleads.mono fun _ _ => trivial, hmade, h.short last List.mem_concat_self⟩
  have hcreate : (w.tree.putDirectories d missing).create w.here
      (join (missing.foldl join base) last) (.directory true) =
        .ok (w.tree.putDirectories d (missing ++ [last])) := by
    rw [putDirectories_concat]
    exact create_eq_ok.mpr ⟨_, _, hnamed, h.free_last, fun _ => rfl, rfl⟩
  exact congrArg (World.update _) hcreate

theorem run_createDirectory_of_missing_above (hd : w.tree.PathLeads usable w.here base d)
    (hdirectory : w.tree.get? d = some (.directory true)) (h : Missing w.tree d (missing ++ [last]))
    (hne : missing ≠ []) (hvalid : checkPath ((missing ++ [last]).foldl join base) = .ok ()) :
    (createDirectory ((missing ++ [last]).foldl join base) : StateM World _).run w =
      (.error .notFound, w) := by
  rw [run_createDirectory, create, slot?_missing hd hdirectory h hne hvalid]
  rfl

/-- The names are made one in the other, by going up to the first of them and down again. -/
theorem run_createNestedUpTo_missing (hd : w.tree.PathLeads usable w.here base d)
    (hdirectory : w.tree.get? d = some (.directory true)) (h : Missing w.tree d missing)
    (hne : missing ≠ []) (hvalid : checkPath (missing.foldl join base) = .ok ()) {fuel : Nat}
    (hfuel : missing.length ≤ fuel) :
    (createNestedUpTo fuel (missing.foldl join base) : StateM World _).run w =
      (.ok (), { w with tree := w.tree.putDirectories d missing }) := by
  induction missing using List.reverseRecOn generalizing fuel with
  | nil => exact absurd rfl hne
  | append_singleton missing last ih =>
    have hmake := run_createDirectory_missing hd hdirectory h hvalid
    have habove := run_createDirectory_of_missing_above hd hdirectory h
    have hparent : missing ≠ [] →
        (parent? ((missing ++ [last]).foldl join base)).getD "" = missing.foldl join base := by
      intro hfirst
      obtain ⟨front, name, rfl⟩ := (List.eq_nil_or_concat' missing).resolve_left hfirst
      rw [List.foldl_append, List.foldl_append]
      exact congrArg (Option.getD · "") (parent?_join_join _
        (h.isName name (List.mem_append_left _ List.mem_concat_self))
        (h.isName last List.mem_concat_self))
    have hempty := (checkPath_eq_ok.mp hvalid).2.1
    have hfront := fun hne => checkPath_front h.isName hne hvalid
    rw [List.length_append, List.length_singleton] at hfuel
    obtain ⟨fuel, rfl⟩ := Nat.exists_eq_add_of_le' (Nat.le_of_add_left_le hfuel)
    generalize (missing ++ [last]).foldl join base = path at *
    rw [createNestedUpTo, if_neg hempty, run_bind]
    by_cases hfirst : missing = []
    · subst hfirst
      have hmake : (createDirectory path : StateM World _).run w = _ := hmake
      rw [hmake]
      rfl
    · rw [habove hfirst hvalid]
      dsimp only
      rw [run_bind, hparent hfirst,
        ih h.front hfirst (hfront hfirst) (Nat.le_of_succ_le_succ hfuel)]
      dsimp only
      rw [run_bind, hmake]
      rfl

/-- Names that are missing below a directory are made, one in the other. -/
theorem run_ensureDirectory_of_missing (hd : w.tree.PathLeads usable w.here base d)
    (hdirectory : w.tree.get? d = some (.directory true)) (h : Missing w.tree d missing)
    (hne : missing ≠ []) (hvalid : checkPath (missing.foldl join base) = .ok ()) :
    (Staging.ensureDirectory (missing.foldl join base) : StateM World _).run w =
      (.ok (), { w with tree := w.tree.putDirectories d missing }) := by
  have hnested := run_createNestedUpTo_missing hd hdirectory h hne hvalid
    (Nat.le_succ_of_le (length_le_length_foldl_join base h.isName))
  have hexists : (pathExists (missing.foldl join base) : StateM World Bool).run w = (false, w) := by
    obtain ⟨front, last, rfl⟩ := (List.eq_nil_or_concat' missing).resolve_left hne
    rw [pathExists, run_bind, run_kind, World.kind, lookup_missing hd hdirectory h hvalid]
    rfl
  rw [Staging.ensureDirectory, run_bind, hexists]
  dsimp only
  rw [if_neg Bool.false_ne_true, run_bind, createNested, hnested]
  rfl

theorem withDirectory_of_missing (hd : w.tree.PathLeads usable w.here base d)
    (hdirectory : w.tree.get? d = some (.directory true)) (h : Missing w.tree d missing)
    (hne : missing ≠ []) (hvalid : checkPath (missing.foldl join base) = .ok ()) :
    w.withDirectory (missing.foldl join base) =
      { w with tree := w.tree.putDirectories d missing } := by
  rw [withDirectory, run_ensureDirectory_of_missing hd hdirectory h hne hvalid]

example : (withDirectory {} "gen/js").tree.entries.map Prod.fst = [["gen", "js"], ["gen"]] := by
  decide +kernel

end World

end ExportTables
