import ExportTables.Proofs.Files.Temporary
import Mathlib.Data.List.Forall2

/-!
# Writing files together

Once all temporary files are there, nothing can stop their moves but a target that its path does not
name, or a directory that stands in its place. The checks have ruled out the directories, and the
targets are named from the same directory as the temporary files. So if the paths of the targets are
accepted whenever that of a temporary file is, then either all targets are replaced or none.

A target may be a link, and a way that follows this link is cut when the link is replaced. Hence the
ways must be clear of the targets.
-/

namespace ExportTables.World

open FileSystem FileTree

variable {usable : Location → Prop} {base : FileTree} {files : List Temporary} {w : World}

/-! ## Checking the targets -/

theorem onlyLooks_checkTarget (target : String) : OnlyLooks (Staging.checkTarget target) := by
  apply OnlyLooks.bind
  · intro w
    rfl
  · intro found
    split <;> exact .pure _

theorem onlyLooks_checkTargets (targets : List String) :
    OnlyLooks (Staging.checkTargets targets) := by
  induction targets with
  | nil => exact .pure _
  | cons target rest ih =>
    apply (onlyLooks_checkTarget target).bind
    intro checked
    split
    · exact ih
    · exact .pure _

/-- A target that has passed its check is no directory. -/
theorem not_directory_of_checkTarget {s : Slot} {victim : Entry}
    (hnames : w.tree.NamesEntry usable w.here s.path s.directory s.name)
    (hslash : endsInSlash s.path = false) (hvictim : w.tree.get? s.place = some victim)
    (h : ((Staging.checkTarget s.path : StateM World _).run w).1 = .ok ()) :
    victim.isDirectory = false := by
  cases victim with
  | directory b =>
    have hkind : w.entryKind s.path = .ok .directory := by
      rw [entryKind, lookupEntry, hnames.resolveEntry hslash]
      change Except.map _ (w.tree.entryAt (some s.place)) = _
      rw [entryAt, hvictim]
      rfl
    rw [Staging.checkTarget, run_bind, run_entryKind, hkind] at h
    cases h
  | file => rfl
  | link => rfl
  | null => rfl

theorem checkTarget_of_checkTargets {targets : List String}
    (h : ((Staging.checkTargets targets : StateM World _).run w).1 = .ok ()) :
    ∀ target ∈ targets, ((Staging.checkTarget target : StateM World _).run w).1 = .ok () := by
  induction targets with
  | nil => simp
  | cons target rest ih =>
    rw [Staging.checkTargets, run_bind, onlyLooks_checkTarget] at h
    cases hchecked : ((Staging.checkTarget target : StateM World _).run w).1 with
    | error e =>
      rw [hchecked] at h
      cases h
    | ok =>
      rw [hchecked] at h
      exact List.forall_mem_cons.mpr ⟨hchecked, ih h⟩

/-- A directory or a read-only file among the targets is refused. -/
theorem checkTargets_of_refused {target : String} {targets : List String}
    (htarget : target ∈ targets)
    (hkind : w.entryKind target = .ok .directory ∨ w.entryKind target = .ok (.file true)) :
    ((Staging.checkTargets targets : StateM World _).run w).1 ≠ .ok () := by
  intro hok
  have hchecked := checkTarget_of_checkTargets hok target htarget
  rw [Staging.checkTarget, run_bind, run_entryKind] at hchecked
  rcases hkind with hkind | hkind <;> rw [hkind] at hchecked <;> cases hchecked

theorem checkTargets_of_forall {targets : List String}
    (h : ∀ target ∈ targets, (Staging.checkTarget target : StateM World _).run w = (.ok (), w)) :
    (Staging.checkTargets targets : StateM World _).run w = (.ok (), w) := by
  induction targets with
  | nil => rfl
  | cons target rest ih =>
    obtain ⟨htarget, hrest⟩ := List.forall_mem_cons.mp h
    rw [Staging.checkTargets, run_bind, htarget]
    exact ih hrest

/-! ## Replacing the targets -/

theorem Staged.put (h : Staged usable base files w) {place : Location} {entry : Entry}
    (hplace : place ≠ []) (hfree : place ∉ files.map (·.place)) (husable : ¬usable place)
    (hvictim : ∀ victim, base.get? place = some victim → victim.isDirectory = false) :
    Staged usable (base.put place entry) files { w with tree := w.tree.put place entry } := by
  have hover := h.overlay.put hplace hfree entry
  have hkeeps : Keeps usable w.tree (w.tree.put place entry) := by
    apply Keeps.put husable
    rwa [h.others place hfree]
  refine ⟨?_, h.no_slash, hover.free, hover.apart, hover.held, hover.others⟩
  intro f hf
  exact (h.named f hf).keep hkeeps

/-- What the targets must be for all moves to succeed: each is named over ways that are clear of
all of them, none is a directory, and no two of them are one. -/
structure Replaceable (usable : Location → Prop) (base : FileTree) (w : World)
    (targets : List Slot) : Prop where
  named : ∀ s ∈ targets, w.tree.NamesEntry usable w.here s.path s.directory s.name
  no_slash : ∀ s ∈ targets, endsInSlash s.path = false
  clear : ∀ s ∈ targets, ¬usable s.place
  victims : ∀ s ∈ targets, ∀ victim, base.get? s.place = some victim → victim.isDirectory = false
  apart : (targets.map Slot.place).Nodup

theorem Replaceable.keeps {targets : List Slot} {t : FileTree}
    (h : Replaceable usable base w targets)
    (hothers : ∀ l, l ∉ targets.map Slot.place → t.get? l = base.get? l) : Keeps usable base t where
  directories l b hl := by
    rw [hothers, hl]
    intro hmem
    obtain ⟨s, hs, rfl⟩ := List.mem_map.mp hmem
    cases h.victims s hs _ hl
  links l target hplace hl := by
    rw [hothers, hl]
    intro hmem
    obtain ⟨s, hs, rfl⟩ := List.mem_map.mp hmem
    exact h.clear s hs hplace

/-- Targets that can be replaced are replaced one after the other, and the moves behind them start
from a base tree that differs in these places only. -/
theorem Staged.replaceTargets {rest : List Temporary} {targets : List Slot}
    (h : Staged usable base (files ++ rest) w) (htargets : Replaceable usable base w targets)
    (hlength : files.length = targets.length)
    (happart : ∀ s ∈ targets, s.place ∉ (files ++ rest).map (·.place))
    (moves : List (String × String)) :
    ∃ base' w',
      (Staging.replaceTargets ((files.map (·.path)).zip (targets.map Slot.path) ++ moves) :
        StateM World _).run w = (Staging.replaceTargets moves : StateM World _).run w' ∧
      w'.here = w.here ∧ Staged usable base' rest w' ∧
      (∀ l, l ∉ targets.map Slot.place → base'.get? l = base.get? l) ∧
      List.Forall₂ (fun s contents => base'.get? s.place = some (.file contents false))
        targets (files.map (·.contents)) := by
  induction targets generalizing base files w with
  | nil =>
    obtain rfl : files = [] := List.eq_nil_of_length_eq_zero hlength
    exact ⟨base, w, rfl, rfl, h, fun _ _ => rfl, .nil⟩
  | cons s targets ih =>
    obtain ⟨f, files, rfl⟩ := List.exists_cons_of_length_eq_add_one hlength
    rw [List.cons_append] at h happart
    have hfree := happart s (List.mem_cons_self ..)
    have hvictim := htargets.victims s (List.mem_cons_self ..)
    have husable := htargets.clear s (List.mem_cons_self ..)
    have hrename := (h.named f (List.mem_cons_self ..)).rename
      (h.no_slash f (List.mem_cons_self ..)) (h.held f (List.mem_cons_self ..))
      (htargets.named s (List.mem_cons_self ..)) (htargets.no_slash s (List.mem_cons_self ..))
      (by rw [show s.directory ++ [s.name] = s.place from rfl, h.others _ hfree]; exact hvictim)
    rw [List.map_cons, List.map_cons, List.zip_cons_cons, List.cons_append,
      Staging.replaceTargets, run_bind, run_rename, hrename]
    have hstaged : Staged usable (base.put s.place (.file f.contents false)) (files ++ rest)
        { w with tree := (w.tree.erase f.place).put s.place (.file f.contents false) } :=
      h.erase.put s.place_ne_nil (fun hmem => hfree (List.mem_cons_of_mem _ hmem)) husable hvictim
    have hkeeps := ((h.keeps_base usable).trans
      (Keeps.put husable hvictim (.file f.contents false))).trans (hstaged.keeps usable)
    have hapart := List.nodup_cons.mp htargets.apart
    have hother : ∀ l, l ≠ s.place →
        (base.put s.place (.file f.contents false)).get? l = base.get? l :=
      fun l hl => get?_put_of_ne _ hl _
    have hrest : Replaceable usable (base.put s.place (.file f.contents false))
        { w with tree := (w.tree.erase f.place).put s.place (.file f.contents false) } targets := by
      refine ⟨?_, ?_, ?_, ?_, hapart.2⟩
      · intro s' hs'
        exact (htargets.named s' (List.mem_cons_of_mem s hs')).keep hkeeps
      · intro s' hs'
        exact htargets.no_slash s' (List.mem_cons_of_mem s hs')
      · intro s' hs'
        exact htargets.clear s' (List.mem_cons_of_mem s hs')
      · intro s' hs'
        rw [hother]
        · exact htargets.victims s' (List.mem_cons_of_mem s hs')
        · intro heq
          exact hapart.1 (List.mem_map.mpr ⟨s', hs', heq⟩)
    obtain ⟨base', w', hrun, hhere, hstaged', hothers, hplaced⟩ := ih hstaged hrest
      (Nat.succ.inj hlength)
      fun s' hs' hmem => happart s' (List.mem_cons_of_mem s hs') (List.mem_cons_of_mem _ hmem)
    refine ⟨base', w', hrun, hhere, hstaged', ?_, .cons ?_ hplaced⟩
    · intro l hl
      rw [List.map_cons, List.mem_cons, not_or] at hl
      exact (hothers l hl.2).trans (hother l hl.1)
    · exact (hothers s.place hapart.1).trans (get?_put_self _ s.place_ne_nil _)

/-- If the first target is not named then nothing is replaced, and of the temporary files only the
first one is left. -/
theorem Staged.replaceTargets_of_not_named {f : Temporary} (h : Staged usable base (f :: files) w)
    (target : String) (targets : List String)
    (hnot : ∀ d name, ¬w.tree.NamesEntry (fun _ => True) w.here target d name)
    (hlength : files.length = targets.length) :
    let run := (Staging.replaceTargets (((f :: files).map (·.path)).zip (target :: targets)) :
      StateM World _).run w
    (∃ e, run.1 = .error e) ∧ run.2.here = w.here ∧ Staged usable base [f] run.2 := by
  rw [List.map_cons, List.zip_cons_cons, Staging.replaceTargets, run_bind, run_rename]
  cases hrename : w.tree.rename w.here f.path target with
  | ok tree => exact absurd hrename (rename_ne_ok hnot tree)
  | error e =>
    have hpaths : ((files.map (·.path)).zip targets).map Prod.fst = files.map (·.path) :=
      List.map_fst_zip (by simp [hlength])
    obtain ⟨hhere, hleft⟩ := (h.perm (List.perm_append_singleton f files)).discard
    refine ⟨⟨_, rfl⟩, ?_⟩
    rw [update]
    dsimp only
    rw [run_bind, hpaths]
    exact ⟨hhere, hleft⟩

/-! ## All or nothing -/

/-- Names that files can be given in a directory: no temporary names and no name twice. -/
structure AreFileNames (names : List String) : Prop where
  isName : ∀ name ∈ names, IsName name
  short : ∀ name ∈ names, checkName name = .ok ()
  not_temporary : ∀ name ∈ names, ∀ n, name ≠ temporaryName n
  apart : names.Nodup

/-- The way to a directory goes over no link that stands in the directory under one of the names. -/
def IsClear (w : World) (directory : String) (names : List String) : Prop :=
  ∀ d, w.tree.PathLeads (fun _ => True) w.here directory d →
    w.tree.PathLeads (fun l => ∀ name ∈ names, l ≠ d ++ [name]) w.here directory d

/-- If the path of a temporary file in the directory is one that the system accepts then so are
those of the files. -/
def FitTogether (w : World) (directory : String) (names : List String) : Prop :=
  ∀ base n, w.temporaryBase directory = .ok base →
    checkPath (Path.join base (temporaryName n)) = .ok () →
    ∀ name ∈ names, checkPath (Path.join directory name) = .ok ()

/-- A world differs from another one by nothing but files in the directory that a path leads to,
and in both worlds their paths name these entries. -/
structure HasFiles (directory : String) (files : List (String × String)) (d : Location)
    (w w' : World) : Prop where
  here : w'.here = w.here
  meant : ∀ file ∈ files,
    w.tree.NamesEntry (fun _ => True) w.here (Path.join directory file.1) d file.1
  named : ∀ file ∈ files,
    w'.tree.NamesEntry (fun _ => True) w'.here (Path.join directory file.1) d file.1
  held : ∀ file ∈ files, w'.tree.get? (d ++ [file.1]) = some (.file file.2.toUTF8 false)
  others : ∀ l, (∀ file ∈ files, l ≠ d ++ [file.1]) → w'.tree.get? l = w.tree.get? l

/-- Two worlds have the same entries. -/
structure SameEntries (w w' : World) : Prop where
  here : w'.here = w.here
  entries : ∀ l, w'.tree.get? l = w.tree.get? l

/-- The entry of a name in the directory that a path leads to. -/
def slotIn (directory : String) (d : Location) (name : String) : Slot :=
  ⟨Path.join directory name, d, name⟩

/-- The places that no way to a directory may go through. -/
def ClearOf (w : World) (directory : String) (names : List String) (l : Location) : Prop :=
  ∀ d, w.tree.PathLeads (fun _ => True) w.here directory d → ∀ name ∈ names, l ≠ d ++ [name]

variable {directory : String} {names : List String} {d : Location}

theorem IsClear.leads (h : w.IsClear directory names)
    (hd : w.tree.PathLeads (fun _ => True) w.here directory d) :
    w.tree.PathLeads (w.ClearOf directory names) w.here directory d := by
  apply (h d hd).mono
  intro l hl d' hd' name hname
  rw [← hd.unique hd']
  exact hl name hname

theorem isClear_of_leads (h : ∀ usable, w.tree.PathLeads usable w.here directory d) :
    w.IsClear directory names := by
  intro d' hd
  obtain rfl := hd.unique (h fun _ => True)
  exact h _

theorem isClear_withDirectory (hexists : (w.kind directory).isOk = true)
    (h : ∀ usable, w.tree.PathLeads usable w.here directory d) :
    (w.withDirectory directory).IsClear directory names := by
  rw [withDirectory_of_exists hexists]
  exact isClear_of_leads h

theorem AreFileNames.place_not_mem (hnames : AreFileNames names) {name : String}
    (hname : name ∈ names) (hmade : ∀ f ∈ files, ∃ n, f.name = temporaryName n) :
    (slotIn directory d name).place ∉ files.map (·.place) := by
  refine not_mem_places ?_ d
  intro f hf heq
  obtain ⟨n, hn⟩ := hmade f hf
  exact hnames.not_temporary name hname n (heq.symm.trans hn)

theorem replaceable_slots (hnames : AreFileNames names) {w' : World} (hhere : w'.here = w.here)
    (hchecked : ((Staging.checkTargets (names.map (Path.join directory)) :
      StateM World _).run w).1 = .ok ())
    (hnamed : ∀ name ∈ names, w.tree.NamesEntry (w.ClearOf directory names) w.here
      (Path.join directory name) d name)
    (hd : w.tree.PathLeads (fun _ => True) w.here directory d)
    (hkeeps : Keeps (w.ClearOf directory names) w.tree w'.tree) :
    Replaceable (w.ClearOf directory names) w.tree w' (names.map (slotIn directory d)) := by
  have hslash : ∀ name ∈ names, endsInSlash (Path.join directory name) = false :=
    fun name hname => (hnames.isName name hname).endsInSlash_join directory
  refine ⟨?_, ?_, ?_, ?_, ?_⟩ <;> simp only [List.forall_mem_map, List.map_map]
  · intro name hname
    rw [hhere]
    exact (hnamed name hname).keep hkeeps
  · exact hslash
  · intro name hname hclear
    exact hclear d hd name hname rfl
  · intro name hname victim hvictim
    have hcheck := checkTarget_of_checkTargets hchecked _ (List.mem_map_of_mem hname)
    exact not_directory_of_checkTarget (s := slotIn directory d name) (hnamed name hname)
      (hslash name hname) hvictim hcheck
  · apply hnames.apart.map
    intro name name' heq
    exact List.singleton_inj.mp (List.append_cancel_left heq)

/-- When all temporary files are there and the paths of all files are accepted, all of them become
the files. -/
theorem Staged.replace_all {files : List (String × String)} {made : List Temporary} {v : World}
    (h : Staged (v.ClearOf directory (files.map Prod.fst)) v.tree made w)
    (hhere : w.here = v.here) (hfiles : files ≠ []) (hnames : AreFileNames (files.map Prod.fst))
    (hvalid : ∀ name ∈ files.map Prod.fst, checkPath (Path.join directory name) = .ok ())
    (hchecked : ((Staging.checkTargets ((files.map Prod.fst).map (Path.join directory)) :
      StateM World _).run v).1 = .ok ())
    (hcontents : made.map (·.contents) = files.map fun file => file.2.toUTF8)
    (hmade : ∀ f ∈ made, (∃ n, f.name = temporaryName n) ∧
      v.tree.get? f.directory = some (.directory true) ∧
      v.tree.PathLeads (v.ClearOf directory (files.map Prod.fst)) v.here directory f.directory) :
    let run := (Staging.replaceTargets ((made.map (·.path)).zip
      ((files.map Prod.fst).map (Path.join directory))) : StateM World _).run w
    run.1 = .ok () ∧ ∃ d, HasFiles directory files d v run.2 := by
  have hlength : made.length = files.length := by
    simpa using congrArg List.length hcontents
  obtain ⟨f, hf⟩ := List.exists_mem_of_length_pos (hlength ▸ List.length_pos_iff.mpr hfiles)
  obtain ⟨-, hdirectory, hleads⟩ := hmade f hf
  have hnamed : ∀ name ∈ files.map Prod.fst, v.tree.NamesEntry
      (v.ClearOf directory (files.map Prod.fst)) v.here (Path.join directory name)
      f.directory name := by
    intro name hname
    exact (namesEntry_join (hnames.isName name hname)).mpr
      ⟨hvalid name hname, hleads, hdirectory, hnames.short name hname⟩
  have hslots := replaceable_slots hnames hhere hchecked hnamed
    (hleads.mono fun _ _ => trivial) (h.keeps _)
  have happart : ∀ s ∈ (files.map Prod.fst).map (slotIn directory f.directory),
      s.place ∉ made.map (·.place) := by
    rw [List.forall_mem_map]
    intro name hname
    exact hnames.place_not_mem hname fun f' hf' => (hmade f' hf').1
  rw [← List.append_nil made] at h happart
  obtain ⟨base', w', hrun, hhere', hstaged, hothers, hplaced⟩ :=
    h.replaceTargets hslots (by simpa using hlength) happart []
  have hpaths : ((files.map Prod.fst).map (slotIn directory f.directory)).map Slot.path =
      (files.map Prod.fst).map (Path.join directory) := by
    rw [List.map_map]
    rfl
  have hback : ∀ l, w'.tree.get? l = base'.get? l := fun l => hstaged.others l (by simp)
  have hkeeps : Keeps (v.ClearOf directory (files.map Prod.fst)) v.tree w'.tree :=
    hslots.keeps fun l hl => (hback l).trans (hothers l hl)
  rw [hpaths, List.append_nil] at hrun
  rw [hrun]
  refine ⟨rfl, f.directory, hhere'.trans hhere, ?_, ?_, ?_, ?_⟩
  · intro file hfile
    exact (hnamed _ (List.mem_map_of_mem hfile)).mono fun _ _ => trivial
  · intro file hfile
    change w'.tree.NamesEntry _ w'.here _ _ _
    rw [hhere', hhere]
    exact ((hnamed _ (List.mem_map_of_mem hfile)).keep hkeeps).mono fun _ _ => trivial
  · rw [hcontents, List.forall₂_map_left_iff, List.forall₂_map_left_iff,
      List.forall₂_map_right_iff, List.forall₂_same] at hplaced
    intro file hfile
    exact (hback _).trans (hplaced file hfile)
  · intro l hl
    refine (hback l).trans (hothers l ?_)
    simp only [List.map_map, List.mem_map, not_exists, not_and]
    intro file hfile heq
    exact hl file hfile heq.symm

theorem AddsDirectories.of_sameEntries {path : String} {v v' : World}
    (h : AddsDirectories path w v) (hsame : SameEntries v v') : AddsDirectories path w v' where
  here := hsame.here.trans h.here
  kept l entry hentry := (hsame.entries l).trans (h.kept l entry hentry)
  added l entry hnone hentry := by
    rw [hsame.entries l] at hentry
    obtain ⟨hdirectory, p, d, name, habove, hnames, hl⟩ := h.added l entry hnone hentry
    refine ⟨hdirectory, p, d, name, habove, ?_, hl⟩
    rw [hsame.here]
    exact hnames.keep
      ⟨fun l b => (hsame.entries l).trans, fun l target _ => (hsame.entries l).trans⟩

theorem map_fst_changes (directory : String) (files : List (String × String)) :
    (Staging.changes directory files).map Prod.fst =
      (files.map Prod.fst).map (Path.join directory) := by
  simp [Staging.changes]

theorem map_contents_changes (directory : String) (files : List (String × String)) :
    (Staging.changes directory files).map (fun change => change.2.toUTF8) =
      files.map fun file => file.2.toUTF8 := by
  rw [Staging.changes, List.map_map]
  rfl

/-- Once everything is staged, the writing ends as the moves do. -/
theorem run_placeFiles {files : List (String × String)} {paths : List String} {v u : World}
    (hmade : (Staging.ensureDirectory directory : StateM World _).run w = (.ok (), v))
    (hchecked : ((Staging.checkTargets ((Staging.changes directory files).map Prod.fst) :
      StateM World _).run v).1 = .ok ())
    (hstaging : (Staging.stage directory [] (Staging.changes directory files) :
      StateM World _).run v = (.ok paths, u)) :
    let targets := (Staging.changes directory files).map Prod.fst
    let moved := (Staging.replaceTargets (paths.zip targets) : StateM World _).run u
    (Staging.placeFiles directory files : StateM World _).run w =
      (moved.1.map fun _ => targets, moved.2) := by
  intro targets moved
  simp only [Staging.placeFiles, run_bind, hmade, onlyLooks_checkTargets _ v, hchecked, hstaging]
  rw [show (Staging.replaceTargets (paths.zip targets) : StateM World _).run u = moved from rfl]
  cases moved with
  | mk result w' => cases result <;> rfl

/-! ## Why writes fail -/

theorem error_of_ensureDirectory {path : String} {e : StagingError}
    (h : ((Staging.ensureDirectory path : StateM World _).run w).1 = .error e) :
    ∃ cause, e = .directoryNotMade path cause := by
  rw [Staging.ensureDirectory, run_bind] at h
  split at h
  · cases h
  rw [run_bind] at h
  split at h
  · cases h
  · exact ⟨_, (Except.error.inj h).symm⟩

theorem error_of_checkTargets {targets : List String} {e : StagingError}
    (h : ((Staging.checkTargets targets : StateM World _).run w).1 = .error e) :
    ∃ target ∈ targets, e = .targetIsDirectory target ∨ e = .targetIsReadOnly target := by
  induction targets with
  | nil => cases h
  | cons target rest ih =>
    rw [Staging.checkTargets, run_bind, onlyLooks_checkTarget] at h
    split at h
    · obtain ⟨other, hother, he⟩ := ih h
      exact ⟨other, List.mem_cons_of_mem target hother, he⟩
    rename_i e' hchecked
    obtain rfl : e' = e := Except.error.inj h
    rw [Staging.checkTarget, run_bind] at hchecked
    refine ⟨target, List.mem_cons_self .., ?_⟩
    split at hchecked
    · exact Or.inl (Except.error.inj hchecked).symm
    · exact Or.inr (Except.error.inj hchecked).symm
    · cases hchecked

theorem error_of_stage {directory : String} {paths : List String} {changes : List (String × String)}
    {e : StagingError}
    (h : ((Staging.stage directory paths changes : StateM World _).run w).1 = .error e) :
    ∃ target reason, e = .ofTemporary directory target reason := by
  induction changes generalizing paths w with
  | nil => cases h
  | cons change changes ih =>
    rw [Staging.stage, run_bind] at h
    split at h
    · exact ih h
    · exact ⟨_, _, (Except.error.inj h).symm⟩

/-! ## The course of a write -/

/-- A write fails at one of its steps, or ends as the moves do. -/
theorem placeFiles_cases (directory : String) (files : List (String × String)) (w : World) :
    let targets := (Staging.changes directory files).map Prod.fst
    let made := w.withDirectory directory
    let run := (Staging.placeFiles directory files : StateM World _).run w
    (∃ e, (Staging.ensureDirectory directory : StateM World _).run w = (.error e, made) ∧
        run = (.error e, made)) ∨
      (Staging.ensureDirectory directory : StateM World _).run w = (.ok (), made) ∧
      ((∃ e, ((Staging.checkTargets targets : StateM World _).run made).1 = .error e ∧
          run = (.error e, made)) ∨
        ((Staging.checkTargets targets : StateM World _).run made).1 = .ok () ∧
        ((∃ e u, (Staging.stage directory [] (Staging.changes directory files) :
            StateM World _).run made = (.error e, u) ∧ run = (.error e, u)) ∨
          ∃ paths u, (Staging.stage directory [] (Staging.changes directory files) :
            StateM World _).run made = (.ok paths, u) ∧
            let moved := (Staging.replaceTargets (paths.zip targets) : StateM World _).run u
            run = (moved.1.map fun _ => targets, moved.2))) := by
  intro targets made run
  cases hensured : (Staging.ensureDirectory directory : StateM World _).run w with
  | mk result v =>
  obtain rfl : made = v := by
    rw [show made = w.withDirectory directory from rfl, withDirectory, hensured]
  cases result with
  | error e =>
    refine Or.inl ⟨e, rfl, ?_⟩
    simp only [run, Staging.placeFiles, run_bind, hensured, run_pure]
  | ok =>
  refine Or.inr ⟨rfl, ?_⟩
  cases hchecked : ((Staging.checkTargets targets : StateM World _).run made).1 with
  | error e =>
    refine Or.inl ⟨e, rfl, ?_⟩
    simp only [run, Staging.placeFiles, run_bind, hensured, onlyLooks_checkTargets _ made, targets,
      hchecked, run_pure]
  | ok =>
  refine Or.inr ⟨rfl, ?_⟩
  cases hstaging : (Staging.stage directory [] (Staging.changes directory files) :
      StateM World _).run made with
  | mk result u =>
  cases result with
  | error e =>
    refine Or.inl ⟨e, u, rfl, ?_⟩
    simp only [run, Staging.placeFiles, run_bind, hensured, onlyLooks_checkTargets _ made, targets,
      hchecked, hstaging, run_pure]
  | ok paths => exact Or.inr ⟨paths, u, rfl, run_placeFiles hensured hchecked hstaging⟩

/-- A write stops before the moves with the directory made and nothing else, or all temporary files
are there and it ends as the moves do. -/
theorem placeFiles_stopped_or_moved (files : List (String × String))
    (hplace : HasPlace w.tree w.here)
    (hclear : ∀ d, (w.withDirectory directory).tree.PathLeads (fun _ => True)
        (w.withDirectory directory).here directory d →
      (w.withDirectory directory).tree.PathLeads usable (w.withDirectory directory).here
        directory d) :
    let changes := Staging.changes directory files
    let targets := changes.map Prod.fst
    let v := w.withDirectory directory
    let staged := (Staging.stage directory [] changes : StateM World _).run v
    let run := (Staging.placeFiles directory files : StateM World _).run w
    (∃ e, run.1 = .error e ∧ SameEntries v run.2 ∧
        ∀ target temporary cause, e ≠ .targetNotReplaced target temporary cause) ∨
      ((Staging.ensureDirectory directory : StateM World _).run w).1 = .ok () ∧
      ((Staging.checkTargets targets : StateM World _).run v).1 = .ok () ∧
      ∃ made, staged.1 = .ok (made.map (·.path)) ∧ staged.2.here = v.here ∧
        Staged usable v.tree made staged.2 ∧
        made.map (·.contents) = changes.map (fun change => change.2.toUTF8) ∧
        (∀ f ∈ made, (∃ n, f.name = temporaryName n) ∧
          v.tree.get? f.directory = some (.directory true) ∧
          v.tree.PathLeads usable v.here directory f.directory) ∧
        let moved := (Staging.replaceTargets ((made.map (·.path)).zip targets) :
          StateM World _).run staged.2
        run = (moved.1.map fun _ => targets, moved.2) := by
  intro changes targets v staged run
  have hadds : AddsDirectories directory w v := addsDirectories_withDirectory w directory
  have hplace' : HasPlace v.tree v.here := by
    rw [hadds.here]
    exact hplace.keep (hadds.keeps fun _ => True)
  obtain ⟨hhere, hstage⟩ := (Staged.none usable v).stage hplace' hclear changes
  simp only [List.map_nil, List.nil_append] at hhere hstage
  rcases placeFiles_cases directory files w with ⟨e, hensured, hrun⟩ |
    ⟨hensured, ⟨e, hchecked, hrun⟩ |
      ⟨hchecked, ⟨e, u, hstaging, hrun⟩ | ⟨paths, u, hstaging, hrun⟩⟩⟩
  · obtain ⟨cause, rfl⟩ := error_of_ensureDirectory (congrArg Prod.fst hensured)
    refine Or.inl ⟨_, congrArg Prod.fst hrun, ?_, by simp⟩
    rw [show run.2 = v from congrArg Prod.snd hrun]
    exact ⟨rfl, fun _ => rfl⟩
  · obtain ⟨target, -, he⟩ := error_of_checkTargets hchecked
    refine Or.inl ⟨e, congrArg Prod.fst hrun, ?_, ?_⟩
    · rw [show run.2 = v from congrArg Prod.snd hrun]
      exact ⟨rfl, fun _ => rfl⟩
    · rcases he with rfl | rfl <;> simp
  · obtain ⟨target, reason, rfl⟩ := error_of_stage (congrArg Prod.fst hstaging)
    refine Or.inl ⟨_, congrArg Prod.fst hrun, ?_, ?_⟩
    · rw [show run.2 = u from congrArg Prod.snd hrun]
      rw [hstaging] at hhere hstage
      rcases hstage with ⟨_, -, hback⟩ | ⟨made, hok, -⟩
      · exact ⟨hhere, hback⟩
      · cases hok
    · cases reason <;> simp [StagingError.ofTemporary]
  · rw [show staged = (.ok paths, u) from hstaging]
    rw [hstaging] at hhere hstage
    rcases hstage with ⟨_, herror, -⟩ | ⟨made, hok, hstaged, hcontents, hmade⟩
    · cases herror
    obtain rfl : paths = made.map (·.path) := Except.ok.inj hok
    exact Or.inr ⟨congrArg Prod.fst hensured, hchecked, made, rfl, hhere, hstaged, hcontents, hmade,
      hrun⟩

/-- Files are written into a directory all together or not at all. -/
theorem placeFiles_all_or_nothing {files : List (String × String)}
    (hfiles : files ≠ []) (hnames : AreFileNames (files.map Prod.fst))
    (hplace : HasPlace w.tree w.here)
    (hclear : (w.withDirectory directory).IsClear directory (files.map Prod.fst))
    (hfit : w.FitTogether directory (files.map Prod.fst)) :
    let run := (Staging.placeFiles directory files : StateM World _).run w
    (run.1 = .ok ((Staging.changes directory files).map Prod.fst) ∧
        ∃ d, HasFiles directory files d (w.withDirectory directory) run.2) ∨
      ∃ e, run.1 = .error e ∧ SameEntries (w.withDirectory directory) run.2 := by
  intro run
  rcases placeFiles_stopped_or_moved files hplace fun d hd => hclear.leads hd with
    ⟨e, herror, hsame, -⟩ | ⟨-, hchecked, made, hstaging, hhere, hstaged, hcontents, hmade, hrun⟩
  · exact Or.inr ⟨e, herror, hsame⟩
  have htexts := hcontents.trans (map_contents_changes directory files)
  have hvalid : ∀ name ∈ files.map Prod.fst, checkPath (Path.join directory name) = .ok () := by
    have hlength : made.length = files.length := by simpa using congrArg List.length htexts
    obtain ⟨f, hf⟩ := List.exists_mem_of_length_pos (hlength ▸ List.length_pos_iff.mpr hfiles)
    rcases path_of_stage hstaging f.path (List.mem_map_of_mem hf) with
      hmem | ⟨base, n, hbase, hpath, hvalid⟩
    · cases hmem
    · rw [temporaryBase_congr (addsDirectories_withDirectory w directory).here] at hbase
      exact hfit base n hbase (hpath ▸ hvalid)
  change run = _ at hrun
  rw [map_fst_changes] at hchecked hrun ⊢
  obtain ⟨hok, hheld⟩ :=
    hstaged.replace_all hhere hfiles hnames hvalid hchecked htexts hmade
  rw [hrun]
  exact Or.inl ⟨congrArg (Except.map _) hok, hheld⟩

/-! ## Torn writing -/

theorem checkTargets_of_free (hnames : ∀ name ∈ names, IsName name)
    (hd : w.tree.PathLeads (fun _ => True) w.here directory d)
    (hfree : ∀ name ∈ names, w.tree.get? (d ++ [name]) = none) :
    (Staging.checkTargets (names.map (Path.join directory)) : StateM World _).run w =
      (.ok (), w) := by
  apply checkTargets_of_forall
  rw [List.forall_mem_map]
  intro name hname
  obtain ⟨e, hlookup⟩ := lookupEntry_of_free (hnames name hname) hd (hfree name hname)
  rw [Staging.checkTarget, run_bind, run_entryKind, entryKind, hlookup]
  rfl

/-- A name under which nothing stands in the directory can be given to a file. -/
theorem replaceable_of_free (hnames : AreFileNames names) {name : String} (hmem : name ∈ names)
    {w' : World} (hhere : w'.here = w.here)
    (hvalid : checkPath (Path.join directory name) = .ok ()) (hclear : w.IsClear directory names)
    (hd : w.tree.PathLeads (fun _ => True) w.here directory d)
    (hdirectory : w.tree.get? d = some (.directory true))
    (hfree : w.tree.get? (d ++ [name]) = none)
    (hkeeps : Keeps (w.ClearOf directory names) w.tree w'.tree) :
    Replaceable (w.ClearOf directory names) w.tree w' [slotIn directory d name] := by
  have hnamed : w.tree.NamesEntry (w.ClearOf directory names) w.here (Path.join directory name) d
      name :=
    (namesEntry_join (hnames.isName _ hmem)).mpr
      ⟨hvalid, hclear.leads hd, hdirectory, hnames.short _ hmem⟩
  refine ⟨?_, ?_, ?_, ?_, List.nodup_singleton _⟩ <;> rw [List.forall_mem_singleton]
  · rw [hhere]
    exact hnamed.keep hkeeps
  · exact (hnames.isName _ hmem).endsInSlash_join directory
  · intro hplace
    exact hplace d hd _ hmem rfl
  · intro victim hvictim
    rw [show (slotIn directory d name).place = d ++ [name] from rfl, hfree] at hvictim
    cases hvictim

/-- When the second target is not named, the first one has been replaced all the same. -/
theorem Staged.replaceTargets_torn {f f' : Temporary} {rest : List Temporary} {s : Slot}
    (h : Staged usable base (f :: f' :: rest) w) (hslot : Replaceable usable base w [s])
    (happart : s.place ∉ (f :: f' :: rest).map (·.place)) {target : String}
    (hinvalid : checkPath target ≠ .ok ()) (targets : List String)
    (hlength : rest.length = targets.length) :
    let run := (Staging.replaceTargets (((f :: f' :: rest).map (·.path)).zip
      (s.path :: target :: targets)) : StateM World _).run w
    (∃ e, run.1 = .error e) ∧ run.2.tree.get? s.place = some (.file f.contents false) := by
  intro run
  have hfirst : Staged usable base ([f] ++ (f' :: rest)) w := h
  obtain ⟨base', w', hrun, -, hstaged, -, hplaced⟩ :=
    hfirst.replaceTargets hslot rfl (List.forall_mem_singleton.mpr happart)
      (((f' :: rest).map (·.path)).zip (target :: targets))
  have hnot : ∀ d name, ¬w'.tree.NamesEntry (fun _ => True) w'.here target d name :=
    fun d name hnamed => hinvalid hnamed.valid
  obtain ⟨herror, -, hleft⟩ := hstaged.replaceTargets_of_not_named target targets hnot hlength
  have hother : s.place ∉ [f'].map (·.place) := by
    intro hmem
    exact happart (List.mem_cons_of_mem _ (List.mem_cons.mpr (Or.inl (List.mem_singleton.mp hmem))))
  change run = _ at hrun
  rw [hrun]
  refine ⟨herror, (hleft.others _ hother).trans ?_⟩
  cases hplaced with
  | cons hplaced _ => exact hplaced

/-- When the path of the first file is accepted and that of the second is not, the first file is
there although the writing fails. -/
theorem placeFiles_torn {files : List (String × String)} {first second : String × String}
    {others : List (String × String)} (hfiles : files = first :: second :: others)
    (hnames : AreFileNames (files.map Prod.fst)) (hplace : HasPlace w.tree w.here)
    (habsolute : Path.isAbsolute directory = true) (hexists : (w.kind directory).isOk = true)
    (hclear : w.IsClear directory (files.map Prod.fst))
    (hd : w.tree.PathLeads (fun _ => True) w.here directory d)
    (hdirectory : w.tree.get? d = some (.directory true))
    (hfree : ∀ name ∈ files.map Prod.fst, w.tree.get? (d ++ [name]) = none)
    (hroom : ∀ n ≤ w.tree.entries.length + files.length,
      checkPath (Path.join directory (temporaryName n)) = .ok () ∧
        checkName (temporaryName n) = .ok ())
    (hfirst : checkPath (Path.join directory first.1) = .ok ())
    (hsecond : checkPath (Path.join directory second.1) ≠ .ok ()) :
    let run := (Staging.placeFiles directory files : StateM World _).run w
    (∃ e, run.1 = .error e) ∧
      run.2.tree.get? (d ++ [first.1]) = some (.file first.2.toUTF8 false) := by
  intro run
  have hchecked : ((Staging.checkTargets ((Staging.changes directory files).map Prod.fst) :
      StateM World _).run w).1 = .ok () := by
    rw [map_fst_changes, checkTargets_of_free hnames.isName hd hfree]
  obtain ⟨hhere, hstaged⟩ := (Staged.none (w.ClearOf directory _) w).stage hplace
    (fun d hd => hclear.leads hd) (Staging.changes directory files)
  obtain ⟨paths, hpaths⟩ := (Staged.none (fun _ => True) w).stage_ok habsolute hd hdirectory
    (Staging.changes directory files) (by simpa [Staging.changes] using hroom)
  simp only [List.map_nil, List.nil_append] at hhere hstaged hpaths
  cases hstaging : (Staging.stage directory [] (Staging.changes directory files) :
      StateM World _).run w with
  | mk result u =>
  rw [hstaging] at hhere hstaged hpaths
  change u.here = w.here at hhere
  obtain rfl : result = .ok paths := hpaths
  obtain ⟨e, herror, -⟩ | ⟨made, hmade, hstaged, hcontents, hall⟩ := hstaged
  · cases herror
  obtain rfl : paths = made.map (·.path) := Except.ok.inj hmade
  rw [map_contents_changes] at hcontents
  have hlength : made.length = others.length + 2 := by
    simpa [hfiles] using congrArg List.length hcontents
  obtain ⟨f, made, rfl⟩ := List.exists_cons_of_length_eq_add_one hlength
  obtain ⟨f', made, rfl⟩ := List.exists_cons_of_length_eq_add_one (Nat.succ.inj hlength)
  have hmem : first.1 ∈ files.map Prod.fst := hfiles ▸ List.mem_cons_self ..
  have hslot := replaceable_of_free hnames hmem hhere hfirst hclear hd hdirectory
    (hfree _ hmem) (hstaged.keeps _)
  obtain ⟨⟨e, herror⟩, hheld⟩ := hstaged.replaceTargets_torn hslot
    (hnames.place_not_mem hmem fun f hf => (hall f hf).1) hsecond
    ((Staging.changes directory others).map Prod.fst) (by simpa [Staging.changes] using hlength)
  have hrun := run_placeFiles (run_ensureDirectory_of_exists hexists) hchecked hstaging
  change run = _ at hrun
  have hcontents' : f.contents = first.2.toUTF8 := by
    rw [hfiles] at hcontents
    exact (List.cons.inj hcontents).1
  rw [hcontents'] at hheld
  rw [hrun, hfiles]
  exact ⟨⟨e, congrArg (Except.map _) herror⟩, hheld⟩

end ExportTables.World
