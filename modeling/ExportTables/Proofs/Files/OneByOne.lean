import ExportTables.Proofs.Files.Growing

/-!
# Replacing one by one

However the targets of a write lie to each other, the write replaces them one after the other, each
in the tree that the ones before it have left (`writeFiles_one_by_one`). Two targets may name one
entry, and a target may stand behind a link that an earlier move has replaced, so a move can fail
although all checks have passed. The targets before it stay replaced.

The moves may cut links. `Laid` is `Staged` for a tree in which that may have happened: the ways to
the temporary files are told by the tree at the start, and of the tree as it is we only know that it
has the directories of that tree and no link that is not there. A file that is moved still comes
from its own place, since a way in the tree as it is leads to the same place at the start. When a
move fails, the way to the temporary files has to be whole for them to be found and removed.

All this is about a write whose error has been let go: until then the error of a failed move keeps
one temporary file.
-/

namespace ExportTables

/-- The path that an entry stands for if it is a link. -/
def Entry.linkTarget? : Entry → Option String
  | .link target => some target
  | _ => none

theorem Entry.linkTarget?_eq_some {entry : Entry} {target : String} :
    entry.linkTarget? = some target ↔ entry = .link target := by
  cases entry <;> simp [linkTarget?]

namespace FileTree

open ExportTables.Path

variable {t t' : FileTree} {working : WorkingDirectory} {path text : String}

/-- The tree with a text in place of the file or link that a path names, or as a new file. A
directory is not replaced, and a path that names no entry is refused. -/
def replaceFile? (t : FileTree) (working : WorkingDirectory) (path text : String) :
    Option FileTree :=
  match t.slot? working path with
  | .ok (some (directory, name)) =>
    if endsInSlash path || (t.get? (directory ++ [name])).any Entry.isDirectory then none
    else some (t.put (directory ++ [name]) (.file text.toUTF8 false))
  | _ => none

/-- The tree after changes, each a path and its new text, one after the other. -/
def replaceFiles? (t : FileTree) (working : WorkingDirectory) :
    List (String × String) → Option FileTree
  | [] => some t
  | (path, text) :: rest => do (← t.replaceFile? working path text).replaceFiles? working rest

theorem replaceFile?_eq_some : t.replaceFile? working path text = some t' ↔
    ∃ d name, t.NamesEntry (fun _ => True) working path d name ∧ endsInSlash path = false ∧
      (∀ victim, t.get? (d ++ [name]) = some victim → victim.isDirectory = false) ∧
      t.put (d ++ [name]) (.file text.toUTF8 false) = t' := by
  constructor
  · intro h
    rw [replaceFile?] at h
    split at h
    swap
    · cases h
    rename_i d name hslot
    split at h
    · cases h
    rename_i hrefused
    rw [Bool.or_eq_true, not_or, Bool.not_eq_true, Bool.not_eq_true] at hrefused
    exact ⟨d, name, slot?_eq_ok.mp hslot, hrefused.1, (Option.any_eq_false _ _).mp hrefused.2,
      Option.some.inj h⟩
  · intro h
    obtain ⟨d, name, hnames, hslash, hvictim, rfl⟩ := h
    have hany := (Option.any_eq_false _ _).mpr hvictim
    rw [replaceFile?, slot?_eq_ok.mpr hnames]
    simp [hslash, hany]

end FileTree

namespace World

open FileSystem FileTree

variable {usable : Location → Prop} {start base : FileTree} {files : List Temporary} {w : World}
  {f : Temporary} {target : String}

/-! ## Temporary files whose ways may be cut -/

/-- A world is a base tree with temporary files that were reached by their paths at the start. -/
structure Laid (usable : Location → Prop) (start base : FileTree) (files : List Temporary)
    (w : World) : Prop where
  overlay : Overlay base files w.tree
  named : ∀ f ∈ files, start.NamesEntry usable w.here f.path f.directory f.name
  no_slash : ∀ f ∈ files, endsInSlash f.path = false
  directories : Keeps (fun _ => False) start w.tree
  known : Keeps (fun _ => True) w.tree start

theorem Staged.laid (h : Staged usable base files w) : Laid usable w.tree base files w where
  overlay := h.overlay
  named := h.named
  no_slash := h.no_slash
  directories := ⟨fun _ _ hl => hl, fun _ _ _ hl => hl⟩
  known := ⟨fun _ _ hl => hl, fun _ _ _ hl => hl⟩

/-- As long as the links on the ways are there, the paths still reach the files. -/
theorem Laid.staged (h : Laid usable start base files w)
    (hlinks : ∀ l target, usable l → start.get? l = some (.link target) →
      w.tree.get? l = some (.link target)) : Staged usable base files w := by
  have hkeeps : Keeps usable start w.tree := ⟨h.directories.directories, hlinks⟩
  refine ⟨?_, h.no_slash, h.overlay.free, h.overlay.apart, h.overlay.held, h.overlay.others⟩
  intro f hf
  exact (h.named f hf).keep hkeeps

theorem Laid.source (h : Laid usable start base (f :: files) w) {l : Location}
    (hsource : w.tree.resolveEntry w.here f.path = .ok (some l)) : l = f.place := by
  have hnamed := h.named f (List.mem_cons_self ..)
  obtain ⟨d, hnames, rfl⟩ := namesEntry_of_resolveEntry hnamed.last (not_or.mpr hnamed.ne_dots)
    (h.no_slash f (List.mem_cons_self ..)) hsource
  rw [(hnames.keep h.known).way.unique hnamed.way]
  rfl

/-- A move that succeeds replaces what its target names in the base tree. -/
theorem Laid.move {text : String} {tree : FileTree} (h : Laid usable start base (f :: files) w)
    (htext : f.contents = text.toUTF8) (hfresh : ∀ f ∈ files, (names target).getLast? ≠ some f.name)
    (hrename : w.tree.rename w.here f.path target = .ok tree) :
    ∃ base', base.replaceFile? w.here target text = some base' ∧
      Laid usable start base' files { w with tree := tree } := by
  obtain ⟨old, entry, d, name, hsource, hentry, hnames, hslash, hvictim, rfl⟩ :=
    rename_eq_ok.mp hrename
  obtain rfl := h.source hsource
  obtain rfl : entry = .file text.toUTF8 false := by
    rw [← htext]
    exact Option.some.inj (hentry.symm.trans (h.overlay.held f (List.mem_cons_self ..)))
  have hplace : d ++ [name] ≠ [] := by simp
  have hfree : d ++ [name] ∉ files.map (·.place) := by
    refine not_mem_places ?_ d
    rintro f' hf' rfl
    exact hfresh f' hf' hnames.last
  have hvictim' := (h.overlay.keeps fun _ => True).not_directory hvictim
  have hover := h.overlay.erase.put hplace hfree (.file text.toUTF8 false)
  refine ⟨_, replaceFile?_eq_some.mpr ⟨d, name, hnames.keep (h.overlay.keeps_base _), hslash,
    hvictim', rfl⟩, hover, ?_, ?_, ?_, ?_⟩
  · intro f' hf'
    exact h.named f' (List.mem_cons_of_mem f hf')
  · intro f' hf'
    exact h.no_slash f' (List.mem_cons_of_mem f hf')
  · have hbase := h.directories.trans (h.overlay.keeps_base _)
    exact (hbase.trans (Keeps.put not_false hvictim' _)).trans (hover.keeps _)
  · have hbase := (h.overlay.keeps fun _ => True).trans h.known
    exact (hover.keeps_base _).trans (hbase.of_put_file hplace _ false)

/-- While the file to be moved can be found, a move fails only where the base tree has nothing to
replace. -/
theorem Laid.replaceFile?_eq_none {e : FileError} (h : Laid usable start base (f :: files) w)
    (hlinks : ∀ l target, usable l → start.get? l = some (.link target) →
      w.tree.get? l = some (.link target))
    (hrename : w.tree.rename w.here f.path target = .error e) (text : String) :
    base.replaceFile? w.here target text = none := by
  rw [Option.eq_none_iff_forall_ne_some]
  intro t' hreplaced
  obtain ⟨d, name, hnames, hslash, hvictim, -⟩ := replaceFile?_eq_some.mp hreplaced
  have hvictim' := (h.overlay.keeps_base fun _ => True).not_directory hvictim
  have hnamed := ((h.staged hlinks).named f (List.mem_cons_self ..)).mono fun _ _ => trivial
  have hok := hnamed.rename (h.no_slash f (List.mem_cons_self ..))
    (h.overlay.held f (List.mem_cons_self ..)) (hnames.keep (h.overlay.keeps _)) hslash hvictim'
  rw [hrename] at hok
  cases hok

/-! ## Removing adds nothing -/

theorem get?_of_remove {path : String} {l : Location} {entry : Entry}
    (h : (w.remove path).tree.get? l = some entry) : w.tree.get? l = some entry := by
  rw [World.remove] at h
  split at h
  swap
  · exact h
  rename_i tree hremoved
  obtain ⟨place, -, hremoved⟩ := bind_eq_ok.mp hremoved
  split at hremoved
  · cases hremoved
  rename_i place
  split at hremoved
  · cases hremoved
  · cases hremoved
  obtain rfl := Except.ok.inj hremoved
  by_cases hl : l = place
  · subst hl
    by_cases hroot : l = []
    · subst hroot
      exact h
    · change (w.tree.erase l).get? l = _ at h
      rw [get?_erase_self _ hroot] at h
      cases h
  · change (w.tree.erase place).get? l = _ at h
    rwa [get?_erase_of_ne _ hl] at h

theorem get?_of_discard {paths : List String} {l : Location} {entry : Entry}
    (h : ((Staging.discard paths : StateM World _).run w).2.tree.get? l = some entry) :
    w.tree.get? l = some entry := by
  induction paths generalizing w with
  | nil => exact h
  | cons path rest ih =>
    rw [Staging.discard, run_bind, run_remove] at h
    exact get?_of_remove (ih h)

/-! ## Letting go of an error -/

theorem run_releasing {α : Type} (step : StateM World (Except StagingError α)) (w : World) :
    (Staging.releasing step).run w =
      match step.run w with
      | (.ok a, v) => (.ok a, v)
      | (.error e, v) => (.error e, ((Staging.release e : StateM World Unit).run v).2) := by
  rw [Staging.releasing, run_bind]
  cases step.run w with
  | mk result v => cases result <;> rfl

/-- To let go of an error that comes before the moves changes nothing. -/
theorem run_releasing_of_early {α : Type} {step : StateM World (Except StagingError α)}
    {e : StagingError} (hfails : (step.run w).1 = .error e)
    (hearly : ∀ target temporary cause, e ≠ .targetNotReplaced target temporary cause) :
    (Staging.releasing step).run w = step.run w := by
  rw [run_releasing]
  cases hrun : step.run w with
  | mk result v =>
  rw [hrun] at hfails
  obtain rfl : result = .error e := hfails
  cases e with
  | targetNotReplaced target temporary cause => exact absurd rfl (hearly target temporary cause)
  | directoryNotMade => rfl
  | targetIsDirectory => rfl
  | targetIsReadOnly => rfl
  | temporaryNotMade => rfl
  | temporaryNotWritten => rfl

theorem run_releasing_map {α β : Type} {step : StateM World (Except StagingError β)}
    {last : StateM World (Except StagingError α)} {f : α → β} {v : World}
    (h : step.run w = ((last.run v).1.map f, (last.run v).2)) :
    (Staging.releasing step).run w =
      (((Staging.releasing last).run v).1.map f, ((Staging.releasing last).run v).2) := by
  rw [run_releasing, run_releasing, h]
  cases last.run v with
  | mk result u => cases result <;> rfl

theorem run_discard_concat (paths : List String) (path : String) (w : World) :
    (Staging.discard (paths ++ [path]) : StateM World Unit).run w =
      ((), ((Staging.discard paths : StateM World Unit).run w).2.remove path) := by
  induction paths generalizing w with
  | nil => rfl
  | cons first paths ih =>
    rw [List.cons_append, Staging.discard, run_bind, run_remove, ih]
    rfl

/-- When a move fails and its error is let go, all temporary files that are left are removed. -/
theorem run_releasing_replaceTargets_of_error {path : String} {moves : List (String × String)}
    {e : FileError} (hrename : w.tree.rename w.here path target = .error e) :
    (Staging.releasing (Staging.replaceTargets ((path, target) :: moves)) : StateM World _).run w =
      (.error (.targetNotReplaced target path e),
        ((Staging.discard (moves.map Prod.fst ++ [path]) : StateM World Unit).run w).2) := by
  have hmoved : (Staging.replaceTargets ((path, target) :: moves) : StateM World _).run w =
      (.error (.targetNotReplaced target path e),
        ((Staging.discard (moves.map Prod.fst) : StateM World Unit).run w).2) := by
    rw [Staging.replaceTargets, run_bind, run_rename, hrename]
    rfl
  rw [run_releasing, hmoved, run_discard_concat]
  rfl

theorem run_releasing_replaceTargets_of_ok {path : String} {moves : List (String × String)}
    {tree : FileTree} (hrename : w.tree.rename w.here path target = .ok tree) :
    (Staging.releasing (Staging.replaceTargets ((path, target) :: moves)) : StateM World _).run w =
      (Staging.releasing (Staging.replaceTargets moves) : StateM World _).run
        { w with tree := tree } := by
  rw [run_releasing, run_releasing, Staging.replaceTargets, run_bind, run_rename, hrename]
  rfl

/-! ## The moves -/

/-- The moves make the changes one after the other, all of them or up to the first that cannot be
made. Nothing is left of the temporary files, as long as no link on the ways to them is replaced. -/
theorem Laid.replaceTargets (h : Laid usable start base files w) {changes : List (String × String)}
    (hcontents : files.map (·.contents) = changes.map fun change => change.2.toUTF8)
    (hfresh : ∀ f ∈ files, ∀ change ∈ changes, (names change.1).getLast? ≠ some f.name)
    (hway : ∀ l target, usable l → start.get? l = some (.link target) →
      ((Staging.releasing (Staging.replaceTargets ((files.map (·.path)).zip
        (changes.map Prod.fst))) : StateM World _).run w).2.tree.get? l = some (.link target)) :
    let run := (Staging.releasing (Staging.replaceTargets ((files.map (·.path)).zip
      (changes.map Prod.fst))) : StateM World _).run w
    ∃ k replaced, base.replaceFiles? w.here (changes.take k) = some replaced ∧
      SameEntries { w with tree := replaced } run.2 ∧
      (run.1 = .ok () ∧ k = changes.length ∨
        ∃ change temporary cause, changes[k]? = some change ∧
          run.1 = .error (.targetNotReplaced change.1 temporary cause) ∧
          replaced.replaceFile? w.here change.1 change.2 = none) := by
  -- Each move takes a file off the list and makes one change in the base tree.
  induction changes generalizing base files w with
  | nil =>
    obtain rfl : files = [] := by simpa using hcontents
    exact ⟨0, base, rfl, ⟨rfl, fun l => h.overlay.others l (by simp)⟩, Or.inl ⟨rfl, rfl⟩⟩
  | cons change changes ih =>
    obtain ⟨f, files, rfl⟩ : ∃ f files', files = f :: files' := by
      cases files with
      | nil => cases hcontents
      | cons f files => exact ⟨f, files, rfl⟩
    obtain ⟨htext, hcontents⟩ := List.cons.inj hcontents
    rw [List.map_cons, List.map_cons, List.zip_cons_cons] at hway ⊢
    cases hrename : w.tree.rename w.here f.path change.1 with
    | ok tree =>
      rw [run_releasing_replaceTargets_of_ok hrename] at hway ⊢
      obtain ⟨base', hreplaced, hlaid⟩ := h.move htext
        (fun f' hf' => hfresh f' (List.mem_cons_of_mem f hf') change (List.mem_cons_self ..))
        hrename
      obtain ⟨k, replaced, hrest, hsame, hend⟩ := ih hlaid hcontents
        (fun f' hf' change' hchange' => hfresh f' (List.mem_cons_of_mem f hf') change'
          (List.mem_cons_of_mem change hchange')) hway
      refine ⟨k + 1, replaced, ?_, hsame, ?_⟩
      · rw [List.take_succ_cons, replaceFiles?, hreplaced]
        exact hrest
      · rw [List.length_cons, List.getElem?_cons_succ]
        exact hend.imp (And.imp_right (congrArg Nat.succ)) id
    | error e =>
      have hpaths : ((files.map (·.path)).zip (changes.map Prod.fst)).map Prod.fst ++ [f.path] =
          (files ++ [f]).map (·.path) := by
        have hlength : files.length = changes.length := by
          simpa using congrArg List.length hcontents
        rw [List.map_fst_zip (by simp [hlength]), List.map_append, List.map_singleton]
      rw [run_releasing_replaceTargets_of_error hrename, hpaths] at hway ⊢
      -- Removing files adds no link, so one that is there at the end was there before.
      have hlinks : ∀ l target, usable l → start.get? l = some (.link target) →
          w.tree.get? l = some (.link target) :=
        fun l target hplace hl => get?_of_discard (hway l target hplace hl)
      obtain ⟨hhere, hback⟩ :=
        ((h.staged hlinks).perm (List.perm_append_singleton f files)).discard_all
      exact ⟨0, base, rfl, ⟨hhere, hback⟩, Or.inr ⟨change, f.path, e, rfl, rfl,
        h.replaceFile?_eq_none hlinks hrename change.2⟩⟩

/-- The moves of files that are all there, from what was there before these files were made. -/
theorem replaceTargets_one_by_one {v : World} {changes : List (String × String)}
    (h : Staged usable v.tree files w) (hhere : w.here = v.here)
    (hcontents : files.map (·.contents) = changes.map fun change => change.2.toUTF8)
    (hfresh : ∀ f ∈ files, ∀ change ∈ changes,
      (names f.path).getLast? ≠ (names change.1).getLast?) :
    let run := (Staging.releasing (Staging.replaceTargets ((files.map (·.path)).zip
      (changes.map Prod.fst))) : StateM World _).run w
    (∀ l, usable l → run.2.tree.get? l = v.tree.get? l) →
      ∃ k replaced, v.tree.replaceFiles? v.here (changes.take k) = some replaced ∧
        SameEntries { v with tree := replaced } run.2 ∧
        (run.1 = .ok () ∧ k = changes.length ∨
          ∃ change temporary cause, changes[k]? = some change ∧
            run.1 = .error (.targetNotReplaced change.1 temporary cause) ∧
            replaced.replaceFile? v.here change.1 change.2 = none) := by
  intro run hway
  have hnames : ∀ f ∈ files, ∀ change ∈ changes, (names change.1).getLast? ≠ some f.name := by
    intro f hf change hchange hlast
    exact hfresh f hf change hchange ((h.named f hf).last.trans hlast.symm)
  have hlinks : ∀ l target, usable l → w.tree.get? l = some (.link target) →
      run.2.tree.get? l = some (.link target) := by
    intro l target hplace hl
    exact (hway l hplace).trans ((h.keeps_base fun _ => True).links l target trivial hl)
  have hmoved := h.laid.replaceTargets hcontents hnames hlinks
  rw [hhere] at hmoved
  exact hmoved

/-! ## Whole writes -/

/-- The temporary files of a write get names that no target has. -/
def HasFreshNames (w : World) (directory : String) (files : List (String × String)) : Prop :=
  ∀ paths,
    ((Staging.stage directory [] (Staging.changes directory files) : StateM World _).run w).1 =
      .ok paths →
    ∀ path ∈ paths, ∀ file ∈ files,
      (names path).getLast? ≠ (names (Path.join directory file.1)).getLast?

/-- No link that is followed on the way to a directory is replaced from one world to the other. -/
def KeepsWay (w w' : World) (directory : String) : Prop :=
  ∀ d, w.tree.PathLeads (fun _ => True) w.here directory d →
    w.tree.PathLeads (fun l => w'.tree.get? l = w.tree.get? l) w.here directory d

/-- A write makes the directory and then the first `k` of its changes one after the other, and
nothing else. It makes all of them if it succeeds. If a move fails, the next change is one that
cannot be made, and if it fails before the moves then no change is made. -/
theorem writeFiles_one_by_one (directory : String) (files : List (String × String)) (w : World)
    (hplace : HasPlace w.tree w.here)
    (hfresh : (w.withDirectory directory).HasFreshNames directory files)
    (hway : (w.withDirectory directory).KeepsWay
      ((Staging.writeFiles directory files : StateM World _).run w).2 directory) :
    let ensured := (Staging.ensureDirectory directory : StateM World _).run w
    let made := w.withDirectory directory
    let changes := files.map fun file => (Path.join directory file.1, file.2)
    let staged := (Staging.stage directory [] changes : StateM World _).run made
    let run := (Staging.writeFiles directory files : StateM World _).run w
    AddsDirectories directory w made ∧
    (ensured.1 = .ok () → directory ≠ "" → (made.kind directory).isOk = true) ∧
    ∃ k replaced, made.tree.replaceFiles? made.here (changes.take k) = some replaced ∧
      SameEntries { made with tree := replaced } run.2 ∧
      (∀ written, run.1 = .ok written → written = changes.map Prod.fst ∧ k = changes.length) ∧
      (∀ e, run.1 = .error e → changes ≠ [] → k < changes.length) ∧
      (∀ target temporary cause, run.1 = .error (.targetNotReplaced target temporary cause) →
        ∃ text, changes[k]? = some (target, text) ∧
          replaced.replaceFile? made.here target text = none) ∧
      ((∃ e, ensured.1 = .error e) ∨
        (∃ change ∈ changes, w.entryKind change.1 = .ok .directory ∨
          w.entryKind change.1 = .ok (.file true)) ∨
        (∃ e, staged.1 = .error e) → (∃ e, run.1 = .error e) ∧ k = 0) := by
  intro ensured made changes staged run
  have hadds : AddsDirectories directory w made := addsDirectories_withDirectory w directory
  refine ⟨hadds, fun hok hne => isOk_kind_withDirectory hne hok, ?_⟩
  rcases placeFiles_stopped_or_moved files hplace hway with ⟨e, herror, hsame, hearly⟩ |
    ⟨hensured, hchecked, temporaries, hstaging, hhere, hstaged, hcontents, -, hrun⟩
  · have hrun := run_releasing_of_early herror hearly
    rw [← hrun] at herror hsame
    refine ⟨0, made.tree, rfl, hsame, ?_, ?_, ?_, fun _ => ⟨⟨e, herror⟩, rfl⟩⟩
    · intro written hwritten
      cases herror.symm.trans hwritten
    · intro _ _ hchanges
      exact List.length_pos_iff.mpr hchanges
    · intro target temporary cause hmove
      exact absurd (Except.error.inj (herror.symm.trans hmove)) (hearly target temporary cause)
  · have hrun := run_releasing_map hrun
    change run = _ at hrun
    have hnames : ∀ f ∈ temporaries, ∀ change ∈ changes,
        (names f.path).getLast? ≠ (names change.1).getLast? := by
      intro f hf change hchange
      obtain ⟨file, hfile, rfl⟩ := List.mem_map.mp hchange
      exact hfresh _ hstaging f.path (List.mem_map_of_mem hf) file hfile
    have hkept : ∀ l, run.2.tree.get? l = made.tree.get? l →
        ((Staging.releasing (Staging.replaceTargets ((temporaries.map (·.path)).zip
          (changes.map Prod.fst))) : StateM World _).run staged.2).2.tree.get? l =
            made.tree.get? l := by
      intro l hl
      rwa [hrun] at hl
    obtain ⟨k, replaced, hreplaced, hsame, hend⟩ :=
      replaceTargets_one_by_one hstaged hhere hcontents hnames hkept
    have hclean : ¬((∃ e, ensured.1 = .error e) ∨
        (∃ change ∈ changes, w.entryKind change.1 = .ok .directory ∨
          w.entryKind change.1 = .ok (.file true)) ∨ (∃ e, staged.1 = .error e)) := by
      rintro (⟨e, herror⟩ | ⟨change, hchange, hkind⟩ | ⟨e, herror⟩)
      · cases hensured.symm.trans herror
      · exact checkTargets_of_refused (List.mem_map_of_mem hchange)
          (hkind.imp hadds.entryKind hadds.entryKind) hchecked
      · cases hstaging.symm.trans herror
    rw [hrun]
    refine ⟨k, replaced, hreplaced, hsame, ?_⟩
    rcases hend with ⟨hok, rfl⟩ | ⟨change, temporary, cause, hchange, herror, hnone⟩
    · rw [hok]
      refine ⟨?_, ?_, ?_, fun hearly => absurd hearly hclean⟩
      · intro written hwritten
        exact ⟨(Except.ok.inj hwritten).symm, rfl⟩
      · intro e hfails
        cases hfails
      · intro target temporary cause hfails
        cases hfails
    · rw [herror]
      refine ⟨?_, ?_, ?_, fun hearly => absurd hearly hclean⟩
      · intro written hwritten
        cases hwritten
      · intro _ _ _
        exact (List.getElem?_eq_some_iff.mp hchange).1
      · intro target temporary' cause' hfails
        obtain ⟨rfl, -⟩ : change.1 = target ∧ temporary = temporary' ∧ cause = cause' := by
          simpa [Except.map] using hfails
        exact ⟨change.2, hchange, hnone⟩

/-- A target behind a link that the move before it has replaced. -/
theorem writeFiles_one_by_one_behind_link :
    let w : World := ⟨⟨[(["way"], .link "out"), (["out"], .directory true),
      (["out", "a"], .link "b"), (["out", "b"], .directory true)]⟩, {}⟩
    let files := [("a", "1"), ("a/x", "2"), ("y", "3")]
    let made := w.withDirectory "way"
    let run := (Staging.writeFiles "way" files : StateM World _).run w
    HasPlace w.tree w.here ∧ made.HasFreshNames "way" files ∧ made.KeepsWay run.2 "way" ∧
      run.1 = .error (.targetNotReplaced "way/a/x" "/way/.tmp000001" .notADirectory) ∧
      ∃ replaced, made.tree.replaceFile? made.here "way/a" "1" = some replaced ∧
        SameEntries { made with tree := replaced } run.2 := by
  intro w files made run
  have hplace : HasPlace w.tree w.here := fun _ => trivial
  have hmade : made = w := withDirectory_of_exists (by decide +kernel)
  have hfresh : made.HasFreshNames "way" files := by
    have hstaged : ((Staging.stage "way" [] (Staging.changes "way" files) :
        StateM World _).run w).1 =
        .ok ["/way/.tmp000000", "/way/.tmp000001", "/way/.tmp000002"] := by decide +kernel
    rw [hmade]
    intro paths hpaths
    obtain rfl := Except.ok.inj (hstaged.symm.trans hpaths)
    decide +kernel
  have hlink : run.2.tree.get? ["way"] = some (.link "out") := by
    have htarget : (run.2.tree.get? ["way"]).bind Entry.linkTarget? = some "out" := by
      decide +kernel
    obtain ⟨entry, hentry, hentryTarget⟩ := Option.bind_eq_some_iff.mp htarget
    rw [hentry, Entry.linkTarget?_eq_some.mp hentryTarget]
  have hleads : ∀ usable : Location → Prop, usable ["way"] →
      made.tree.PathLeads usable made.here "way" ["out"] := by
    intro usable hway
    have hroute : FileTree.route "out" ++ [] = ["out"] := by decide +kernel
    rw [hmade]
    refine ⟨[], ["way"], by decide +kernel, .link rfl (by decide) (by decide) rfl hway ?_⟩
    rw [hroute]
    exact .enter rfl (by decide) (by decide) rfl (by simp) .done
  have hkept : made.KeepsWay run.2 "way" := by
    intro d hd
    obtain rfl := hd.unique (hleads (fun _ => True) trivial)
    apply hleads
    rw [hlink, hmade]
    rfl
  have hfails :
      run.1 = .error (.targetNotReplaced "way/a/x" "/way/.tmp000001" .notADirectory) := by
    decide +kernel
  obtain ⟨-, -, k, replaced, hreplaced, hsame, -, -, hnext, -⟩ :=
    writeFiles_one_by_one "way" files w hplace hfresh hkept
  obtain ⟨text, hk, -⟩ := hnext _ _ _ hfails
  have hchanges : files.map (fun file => (Path.join "way" file.1, file.2)) =
      [("way/a", "1"), ("way/a/x", "2"), ("way/y", "3")] := by decide +kernel
  rw [hchanges] at hk hreplaced
  obtain rfl : k = 1 := by
    rcases k with _ | _ | _ | k <;> simp at hk ⊢
  refine ⟨hplace, hfresh, hkept, hfails, replaced, ?_, hsame⟩
  simpa [replaceFiles?] using hreplaced

end World

end ExportTables
