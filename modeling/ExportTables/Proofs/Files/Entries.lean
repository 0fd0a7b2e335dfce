import ExportTables.Proofs.Files.Walks

/-!
# Operations on the entry that a path names

A path names an entry of the directory that its names before the last one lead to. `NamesEntry`
keeps apart what this needs of the path and what it needs of the tree, so that it can be carried
over to another tree. The operations that make, remove and move entries are told by it.
-/

namespace ExportTables.FileTree

open ExportTables.Path

variable {t t' : FileTree} {usable : Location → Prop} {working : WorkingDirectory}
  {path name : String} {d : Location}

/-- A path names the entry `name` of the directory at `d`, which need not exist. Links are followed
at usable places only. -/
structure NamesEntry (t : FileTree) (usable : Location → Prop) (working : WorkingDirectory)
    (path : String) (d : Location) (name : String) : Prop where
  valid : checkPath path = .ok ()
  last : (names path).getLast? = some name
  way : t.LeadsFrom usable working (isAbsolute path) (names path).dropLast d
  directory : t.get? d = some (.directory true)
  ne_dots : name ≠ "." ∧ name ≠ ".."
  short : checkName name = .ok ()

theorem slot?_eq_ok : t.slot? working path = .ok (some (d, name)) ↔
    t.NamesEntry (fun _ => True) working path d name := by
  constructor
  · intro h
    obtain ⟨⟨⟩, hvalid, h⟩ := bind_eq_ok.mp h
    split at h
    · cases h
    rename_i last hlast
    obtain ⟨found, hway, h⟩ := bind_eq_ok.mp h
    split at h
    · rename_i place
      obtain ⟨⟨⟩, hdirectory, h⟩ := bind_eq_ok.mp h
      split at h
      · cases h
      rename_i hdots
      obtain ⟨⟨⟩, hshort, h⟩ := bind_eq_ok.mp h
      obtain ⟨rfl, rfl⟩ : place = d ∧ last = name := by simpa using h
      exact ⟨hvalid, hlast, locate_eq_ok.mp hway, checkDirectory_eq_ok.mp hdirectory,
        not_or.mp hdots, hshort⟩
    · split at h <;> cases h
  · intro h
    refine bind_eq_ok.mpr ⟨(), h.valid, ?_⟩
    rw [h.last]
    refine bind_eq_ok.mpr ⟨some d, locate_eq_ok.mpr h.way, ?_⟩
    refine bind_eq_ok.mpr ⟨(), checkDirectory_eq_ok.mpr h.directory, ?_⟩
    rw [if_neg (not_or.mpr h.ne_dots)]
    exact bind_eq_ok.mpr ⟨(), h.short, rfl⟩

theorem NamesEntry.keep (hkeeps : Keeps usable t t') (h : t.NamesEntry usable working path d name) :
    t'.NamesEntry usable working path d name where
  valid := h.valid
  last := h.last
  way := h.way.keep hkeeps ⟨true, h.directory⟩
  directory := hkeeps.directories _ _ h.directory
  ne_dots := h.ne_dots
  short := h.short

theorem NamesEntry.mono {usable' : Location → Prop} (h : t.NamesEntry usable working path d name)
    (husable : ∀ l, usable l → usable' l) : t.NamesEntry usable' working path d name :=
  { h with way := h.way.mono husable }

theorem NamesEntry.name_ne_empty (h : t.NamesEntry usable working path d name) : name ≠ "" := by
  obtain ⟨piece, hpiece, rfl⟩ := List.mem_map.mp (List.mem_of_getLast? h.last)
  rw [List.mem_filter] at hpiece
  intro hempty
  rw [String.ofList_eq_empty_iff] at hempty
  subst hempty
  cases hpiece.2

theorem namesEntry_join {directory : String} (hname : IsName name) :
    t.NamesEntry usable working (join directory name) d name ↔
      checkPath (join directory name) = .ok () ∧ t.PathLeads usable working directory d ∧
        t.get? d = some (.directory true) ∧ checkName name = .ok () := by
  have hroute : names (join directory name) = names directory ++ [name] := by
    rw [names_join directory hname.isAbsolute, hname.names]
  have hway : t.LeadsFrom usable working (isAbsolute (join directory name))
      (names (join directory name)).dropLast d ↔ t.PathLeads usable working directory d := by
    rw [isAbsolute_join directory hname.isAbsolute, hroute, List.dropLast_concat, PathLeads]
  constructor
  · intro h
    exact ⟨h.valid, hway.mp h.way, h.directory, h.short⟩
  · intro h
    obtain ⟨hvalid, hleads, hd, hshort⟩ := h
    exact ⟨hvalid, by rw [hroute, List.getLast?_concat], hway.mpr hleads, hd,
      ⟨hname.ne_dot, hname.ne_dotdot⟩, hshort⟩

theorem NamesEntry.resolveEntry (h : t.NamesEntry usable working path d name)
    (hslash : endsInSlash path = false) :
    t.resolveEntry working path = .ok (some (d ++ [name])) := by
  have hslot := slot?_eq_ok.mpr (h.mono fun _ _ => trivial)
  rw [FileTree.resolveEntry, hslash, hslot]
  rfl

theorem slot?_ne_none (hlast : (names path).getLast? = some name)
    (hdots : ¬(name = "." ∨ name = "..")) : t.slot? working path ≠ .ok none := by
  intro h
  obtain ⟨⟨⟩, -, h⟩ := bind_eq_ok.mp h
  rw [hlast] at h
  obtain ⟨found, -, h⟩ := bind_eq_ok.mp h
  cases found with
  | none =>
    dsimp only at h
    rw [if_neg hdots] at h
    cases h
  | some place =>
    obtain ⟨⟨⟩, -, h⟩ := bind_eq_ok.mp h
    rw [if_neg hdots] at h
    obtain ⟨⟨⟩, -, h⟩ := bind_eq_ok.mp h
    cases h

/-- Of a path without a slash at its end, only the way to the directory is told by the tree. -/
theorem namesEntry_of_resolveEntry {l : Location} (hlast : (names path).getLast? = some name)
    (hdots : ¬(name = "." ∨ name = "..")) (hslash : endsInSlash path = false)
    (h : t.resolveEntry working path = .ok (some l)) :
    ∃ d, t.NamesEntry (fun _ => True) working path d name ∧ d ++ [name] = l := by
  rw [FileTree.resolveEntry, hslash, if_neg Bool.false_ne_true] at h
  obtain ⟨slot, hslot, h⟩ := bind_eq_ok.mp h
  cases slot with
  | none => exact absurd hslot (slot?_ne_none hlast hdots)
  | some slot =>
    obtain ⟨d, name'⟩ := slot
    have hnames := slot?_eq_ok.mp hslot
    obtain rfl : name' = name := Option.some.inj (hnames.last.symm.trans hlast)
    exact ⟨d, hnames, Option.some.inj (Except.ok.inj h)⟩

/-- Where a directory has nothing under a name, the path of the name leads to nothing. -/
theorem lookupEntry_of_free {directory : String} (hname : IsName name)
    (hd : t.PathLeads (fun _ => True) working directory d) (hfree : t.get? (d ++ [name]) = none) :
    ∃ e, t.lookupEntry working (join directory name) = .error e := by
  have hroute : names (join directory name) = names directory ++ [name] := by
    rw [names_join directory hname.isAbsolute, hname.names]
  have hslash : endsInSlash (join directory name) = false := by
    rw [hname.endsInSlash_join]
  rw [lookupEntry]
  cases hslot : t.slot? working (join directory name) with
  | error e => exact ⟨e, by simp [FileTree.resolveEntry, hslash, hslot, bind, Except.bind]⟩
  | ok slot =>
  cases slot with
  | none =>
    have hlast : (names (join directory name)).getLast? = some name := by
      rw [hroute, List.getLast?_concat]
    exact absurd hslot (slot?_ne_none hlast (not_or.mpr ⟨hname.ne_dot, hname.ne_dotdot⟩))
  | some slot =>
    obtain ⟨d', name'⟩ := slot
    have hnamed := slot?_eq_ok.mp hslot
    obtain rfl : name = name' := by
      have hlast := hnamed.last
      rw [hroute, List.getLast?_concat] at hlast
      exact Option.some.inj hlast
    obtain rfl : d' = d := ((namesEntry_join hname).mp hnamed).2.1.unique hd
    refine ⟨.notFound, ?_⟩
    rw [hnamed.resolveEntry hslash]
    change t.entryAt (some (d' ++ [name])) = _
    rw [entryAt, hfree]

/-! ## Operations -/

theorem create_eq_ok {entry : Entry} : t.create working path entry = .ok t' ↔
    ∃ d name, t.NamesEntry (fun _ => True) working path d name ∧ t.get? (d ++ [name]) = none ∧
      (endsInSlash path = true → entry.isDirectory = true) ∧ t.put (d ++ [name]) entry = t' := by
  constructor
  · intro h
    obtain ⟨slot, hslot, h⟩ := bind_eq_ok.mp h
    split at h
    · cases h
    rename_i d name
    split at h
    · cases h
    rename_i hnone
    split at h
    · cases h
    rename_i hslash
    refine ⟨d, name, slot?_eq_ok.mp hslot, hnone, ?_, Except.ok.inj h⟩
    intro hends
    by_contra hentry
    exact hslash ⟨hends, by simp [hentry]⟩
  · intro h
    obtain ⟨d, name, hnames, hnone, hslash, rfl⟩ := h
    refine bind_eq_ok.mpr ⟨some (d, name), slot?_eq_ok.mpr hnames, ?_⟩
    dsimp only
    rw [hnone]
    dsimp only
    rw [if_neg]
    intro h
    obtain ⟨hends, hentry⟩ := h
    simp [hslash hends] at hentry

theorem NamesEntry.remove (h : t.NamesEntry usable working path d name)
    (hslash : endsInSlash path = false) {entry : Entry} (hentry : t.get? (d ++ [name]) = some entry)
    (hfile : entry.isDirectory = false) :
    t.remove working path = .ok (t.erase (d ++ [name])) := by
  rw [FileTree.remove, h.resolveEntry hslash]
  cases entry with
  | directory => cases hfile
  | file => simp [hentry, bind, Except.bind]
  | link => simp [hentry, bind, Except.bind]
  | null => simp [hentry, bind, Except.bind]

section Rename

variable {target name' : String} {d' : Location} {entry : Entry}

/-- Any entry is moved over what stands at its target, as long as that is no directory. -/
theorem rename_eq_ok : t.rename working path target = .ok t' ↔
    ∃ old entry d' name', t.resolveEntry working path = .ok (some old) ∧ t.get? old = some entry ∧
      t.NamesEntry (fun _ => True) working target d' name' ∧ endsInSlash target = false ∧
      (∀ victim, t.get? (d' ++ [name']) = some victim → victim.isDirectory = false) ∧
      (t.erase old).put (d' ++ [name']) entry = t' := by
  constructor
  · intro h
    rw [FileTree.rename] at h
    split at h
    · cases h
    obtain ⟨source, hsource, h⟩ := bind_eq_ok.mp h
    obtain ⟨slot, hslot, h⟩ := bind_eq_ok.mp h
    split at h
    swap
    · cases h
    rename_i old d' name' _
    split at h
    · cases h
    rename_i entry hentry
    split at h
    · cases h
    rename_i hslash
    split at h
    · cases h
    rename_i hvictim
    rw [Bool.not_eq_true] at hslash hvictim
    exact ⟨old, entry, d', name', hsource, hentry, slot?_eq_ok.mp hslot, hslash,
      (Option.any_eq_false _ _).mp hvictim, Except.ok.inj h⟩
  · intro h
    obtain ⟨old, entry, d', name', hsource, hentry, hnames, hslash, hvictim, rfl⟩ := h
    have hslot := slot?_eq_ok.mpr hnames
    have hany := (Option.any_eq_false _ _).mpr hvictim
    simp [FileTree.rename, (checkPath_eq_ok.mp hnames.valid).1, hsource, hslot, hentry, hslash,
      hany, bind, Except.bind]

theorem NamesEntry.rename (h : t.NamesEntry usable working path d name)
    (hslash : endsInSlash path = false) (hentry : t.get? (d ++ [name]) = some entry)
    (htarget : t.NamesEntry usable working target d' name')
    (hslash' : endsInSlash target = false)
    (hvictim : ∀ victim, t.get? (d' ++ [name']) = some victim → victim.isDirectory = false) :
    t.rename working path target = .ok ((t.erase (d ++ [name])).put (d' ++ [name']) entry) :=
  rename_eq_ok.mpr ⟨_, entry, d', name', h.resolveEntry hslash, hentry,
    htarget.mono fun _ _ => trivial, hslash', hvictim, rfl⟩

/-- What cannot be a target is not replaced. -/
theorem rename_ne_ok (h : ∀ d' name', ¬t.NamesEntry (fun _ => True) working target d' name') :
    ∀ t', t.rename working path target ≠ .ok t' := by
  intro t' hok
  obtain ⟨_, _, d', name', _, _, hnames, _⟩ := rename_eq_ok.mp hok
  exact h d' name' hnames

end Rename

end ExportTables.FileTree
