import ExportTables.Proofs.Files.Reading

/-!
# Writing files once more

A write that succeeds leaves a world in which the same write succeeds again. The directory is there
and the targets are plain files. No target has a temporary name, so the same temporary names are
free as before, and the second write takes the steps of the first one. What it puts in place is what
is there already.
-/

namespace ExportTables

namespace FileTree

open ExportTables.Path

variable {t t' : FileTree}

/-! ## Temporary names that are taken -/

/-- Some entry has the temporary name with this number. -/
def Takes (t : FileTree) (n : Nat) : Prop :=
  ∃ d, t.get? (d ++ [temporaryName n]) ≠ none

theorem takes_iff {n : Nat} :
    t.Takes n ↔ ∃ entry ∈ t.entries, entry.1.getLast? = some (temporaryName n) := by
  have hget : ∀ d, t.get? (d ++ [temporaryName n]) ≠ none ↔
      ∃ entry ∈ t.entries, d ++ [temporaryName n] = entry.1 := by
    intro d
    rw [get?, if_neg (by simp), ne_eq, List.lookup_eq_none_iff]
    simp
  constructor
  · intro h
    obtain ⟨d, hd⟩ := h
    obtain ⟨entry, hentry, heq⟩ := (hget d).mp hd
    exact ⟨entry, hentry, by rw [← heq, List.getLast?_concat]⟩
  · intro h
    obtain ⟨entry, hentry, hlast⟩ := h
    obtain ⟨d, heq⟩ := List.getLast?_eq_some_iff.mp hlast
    exact ⟨d, (hget d).mpr ⟨entry, hentry, heq.symm⟩⟩

/-- The new name is the first one that is not taken. -/
theorem freshName_least (t : FileTree) :
    ∃ n, t.freshName = temporaryName n ∧ ¬t.Takes n ∧ ∀ m < n, t.Takes m := by
  obtain ⟨n, -, hfresh, hfree⟩ := t.exists_freshName
  refine ⟨n, hfresh, ?_, ?_⟩
  · rw [takes_iff, ← hfresh]
    rintro ⟨entry, hentry, hlast⟩
    exact hfree entry hentry hlast
  · rw [freshName, List.find?_map] at hfresh
    cases hfound : (List.range (t.entries.length + 1)).find?
        ((fun name => t.entries.all (·.1.getLast? != some name)) ∘ temporaryName) with
    | none =>
      simp only [hfound] at hfresh
      exact absurd hfresh.symm (isName_temporaryName n).ne_empty
    | some k =>
      simp only [hfound] at hfresh
      obtain rfl : k = n := temporaryName_injective hfresh
      obtain ⟨-, -, hbefore⟩ := List.find?_range_eq_some.mp hfound
      intro m hm
      have htaken := hbefore m hm
      rw [takes_iff]
      simpa using htaken

/-- Two trees have the same temporary names free in every directory. -/
def SameTemporaries (t t' : FileTree) : Prop :=
  ∀ d n, t'.get? (d ++ [temporaryName n]) = none ↔ t.get? (d ++ [temporaryName n]) = none

theorem SameTemporaries.freshName (h : SameTemporaries t t') : t'.freshName = t.freshName := by
  have htakes : ∀ n, t'.Takes n ↔ t.Takes n := fun n => exists_congr fun d => (h d n).not
  obtain ⟨n, hfresh, hfree, hleast⟩ := t.freshName_least
  obtain ⟨n', hfresh', hfree', hleast'⟩ := t'.freshName_least
  rw [hfresh, hfresh']
  rcases Nat.lt_trichotomy n' n with hlt | rfl | hlt
  · exact absurd ((htakes n').mpr (hleast n' hlt)) hfree'
  · rfl
  · exact absurd ((htakes n).mp (hleast' n hlt)) hfree

theorem SameTemporaries.put (h : SameTemporaries t t') (place : Location) (entry entry' : Entry) :
    SameTemporaries (t.put place entry) (t'.put place entry') := by
  intro d n
  by_cases hplace : d ++ [temporaryName n] = place
  · have hne : place ≠ [] := by simp [← hplace]
    rw [hplace, get?_put_self _ hne, get?_put_self _ hne]
    simp
  · rw [get?_put_of_ne _ hplace, get?_put_of_ne _ hplace]
    exact h d n

end FileTree

namespace World

open FileSystem FileTree ExportTables.Path

variable {usable : Location → Prop} {base : FileTree} {files : List Temporary} {w w' : World}
  {directory : String} {d : Location}

/-! ## Temporary files once more -/

/-- A temporary file that could be made in one world can be made in another one that has the
directory too. -/
theorem createTemporary_again {contents : ByteArray} {f : Temporary} {route : List String}
    (hmakes : Makes w route contents f)
    (hmade : w.createTemporary directory contents = (.ok f.path, w.withTemporary f))
    (hnamed : w'.tree.NamesEntry usable w'.here f.path f.directory f.name)
    (hhere : w'.here = w.here) (htemporaries : SameTemporaries w.tree w'.tree) :
    w'.createTemporary directory contents = (.ok f.path, w'.withTemporary f) := by
  obtain ⟨n, hn⟩ := hmakes.name
  have hfree : w'.tree.get? (f.directory ++ [f.name]) = none := by
    rw [hn, htemporaries, ← hn]
    exact hmakes.free
  have hcreate : w'.createTemporaryAt f.path contents = (.ok f.path, w'.withTemporary f) := by
    have hput : w'.tree.create w'.here f.path (.file contents false) =
        .ok (w'.tree.put f.place (.file f.contents false)) := by
      refine create_eq_ok.mpr ⟨f.directory, f.name, hnamed.mono fun _ _ => trivial, hfree, ?_, ?_⟩
      · intro hslash
        rw [hmakes.no_slash] at hslash
        cases hslash
      · rw [hmakes.contents]
        rfl
    rw [createTemporaryAt, hput]
    rfl
  have hpath : ∀ path, w.createTemporaryAt path contents = (.ok f.path, w.withTemporary f) →
      path = f.path := by
    intro path hat
    rw [createTemporaryAt] at hat
    split at hat
    · exact Except.ok.inj (Prod.mk.inj hat).1
    · cases (Prod.mk.inj hat).1
  rw [createTemporary] at hmade ⊢
  rw [temporaryBase_congr hhere, htemporaries.freshName]
  split at hmade
  · rw [hpath _ hmade, hcreate]
  · cases (Prod.mk.inj hmade).1

/-- Where contents could be staged they can be staged again, by the same paths, as long as the
directories are there and the same temporary names are free. -/
theorem Staged.stage_again (h : Staged usable base files w) (hplace : HasPlace base w.here)
    (hclear : ∀ d, base.PathLeads (fun _ => True) w.here directory d →
      base.PathLeads usable w.here directory d)
    (hhere : w'.here = w.here) (hkeeps : Keeps usable w.tree w'.tree)
    (htemporaries : SameTemporaries w.tree w'.tree) {made paths : List String}
    {changes : List (String × String)}
    (hstaged : ((Staging.stage directory made changes : StateM World _).run w).1 = .ok paths) :
    ((Staging.stage directory made changes : StateM World _).run w').1 = .ok paths := by
  induction changes generalizing files w w' made with
  | nil => exact hstaged
  | cons change changes ih =>
    have hplace' : HasPlace w.tree w.here := hplace.keep (h.keeps usable)
    rw [Staging.stage, run_bind, run_createTemporary] at hstaged ⊢
    rcases createTemporary_cases hplace' directory change.2.toUTF8 with
      ⟨e, hmade⟩ | ⟨f, route, hmakes, hmade, hway⟩
    · rw [hmade] at hstaged
      cases hstaged
    · rw [hmade] at hstaged
      have hdirectory : base.get? f.directory = some (.directory true) :=
        (h.keeps_base usable).directories _ _ hmakes.directory
      have hleads : base.PathLeads usable w.here directory f.directory :=
        hclear _ (((hway _).mpr hmakes.way).keep (h.keeps_base _) ⟨true, hmakes.directory⟩)
      have husable := (hway usable).mp (hleads.keep (h.keeps _) ⟨true, hdirectory⟩)
      have hnamed : w'.tree.NamesEntry usable w'.here f.path f.directory f.name := by
        rw [hhere]
        exact (hmakes.named usable husable).keep hkeeps
      have hhere' : (w'.withTemporary f).here = (w.withTemporary f).here := hhere
      rw [createTemporary_again hmakes hmade hnamed hhere htemporaries]
      exact ih (h.add hmakes husable) hplace hclear hhere'
        (hkeeps.put_file f.place_ne_nil f.contents false) (htemporaries.put _ _ _) hstaged

/-! ## The directory and the targets once more -/

/-- A directory that is there is not made, and the empty path asks for none. -/
theorem run_ensureDirectory_again {name : String} {b : Bool} (hname : IsName name)
    (hvalid : checkPath (join directory name) = .ok ())
    (hd : w.tree.PathLeads usable w.here directory d)
    (hdirectory : w.tree.get? d = some (.directory b)) :
    (Staging.ensureDirectory directory : StateM World _).run w = (.ok (), w) := by
  by_cases hempty : directory = ""
  · rw [hempty]
    rfl
  · apply run_ensureDirectory_of_exists
    rw [World.kind, PathLeads.lookup hd (checkPath_of_join hname hempty hvalid) hdirectory]
    rfl

theorem checkTarget_of_file {path name : String} {contents : ByteArray}
    (hnamed : w.tree.NamesEntry usable w.here path d name) (hslash : endsInSlash path = false)
    (hfile : w.tree.get? (d ++ [name]) = some (.file contents false)) :
    (Staging.checkTarget path : StateM World _).run w = (.ok (), w) := by
  have hkind : w.entryKind path = .ok (.file false) := by
    rw [entryKind, lookupEntry, hnamed.resolveEntry hslash]
    change Except.map _ (w.tree.entryAt (some (d ++ [name]))) = _
    rw [entryAt, hfile]
    rfl
  rw [Staging.checkTarget, run_bind, run_entryKind, hkind]
  rfl

/-! ## What a write that succeeds has done -/

theorem length_of_stage {made paths : List String} {changes : List (String × String)}
    (h : ((Staging.stage directory made changes : StateM World _).run w).1 = .ok paths) :
    paths.length = made.length + changes.length := by
  induction changes generalizing made w with
  | nil =>
    obtain rfl : made = paths := Except.ok.inj h
    rfl
  | cons change changes ih =>
    rw [Staging.stage, run_bind] at h
    split at h
    · rw [ih h, List.length_append, List.length_cons, List.length_cons, List.length_nil]
      omega
    · cases h

/-- Nothing is moved to a path that is not accepted. -/
theorem checkPath_of_replaceTargets {moves : List (String × String)}
    (h : ((Staging.replaceTargets moves : StateM World _).run w).1 = .ok ()) :
    ∀ move ∈ moves, checkPath move.2 = .ok () := by
  induction moves generalizing w with
  | nil => simp
  | cons move moves ih =>
    rw [Staging.replaceTargets, run_bind, run_rename] at h
    cases hrename : w.tree.rename w.here move.1 move.2 with
    | error e =>
      rw [hrename] at h
      cases h
    | ok tree =>
      rw [hrename] at h
      refine List.forall_mem_cons.mpr ⟨?_, ih h⟩
      by_contra hinvalid
      exact rename_ne_ok (fun d name hnamed => hinvalid hnamed.valid) tree hrename

/-- The steps of a write that succeeds. -/
theorem steps_of_placeFiles {files : List (String × String)} {written : List String}
    (h : (Staging.placeFiles directory files : StateM World _).run w = (.ok written, w')) :
    let targets := (Staging.changes directory files).map Prod.fst
    ∃ paths u, ((Staging.checkTargets targets : StateM World _).run
        (w.withDirectory directory)).1 = .ok () ∧
      (Staging.stage directory [] (Staging.changes directory files) : StateM World _).run
        (w.withDirectory directory) = (.ok paths, u) ∧
      (Staging.replaceTargets (paths.zip targets) : StateM World _).run u = (.ok (), w') ∧
      written = targets := by
  intro targets
  rcases placeFiles_cases directory files w with
    ⟨e, -, hrun⟩ | ⟨-, ⟨e, -, hrun⟩ | ⟨hchecked, ⟨e, u, -, hrun⟩ | ⟨paths, u, hstaging, hrun⟩⟩⟩
  · cases (Prod.mk.inj (h.symm.trans hrun)).1
  · cases (Prod.mk.inj (h.symm.trans hrun)).1
  · cases (Prod.mk.inj (h.symm.trans hrun)).1
  · obtain ⟨hwritten, hend⟩ := Prod.mk.inj (h.symm.trans hrun)
    cases hmoved : (Staging.replaceTargets (paths.zip targets) : StateM World _).run u with
    | mk result u' =>
    rw [hmoved] at hwritten hend
    cases result with
    | error e => cases hwritten
    | ok => exact ⟨paths, u, hchecked, hstaging, by rw [hmoved, hend], Except.ok.inj hwritten⟩

/-- A write that succeeds leaves the files in the directory and nothing else new. -/
theorem hasFiles_of_placeFiles {files : List (String × String)} {written : List String}
    (hfiles : files ≠ []) (hnames : AreFileNames (files.map Prod.fst))
    (hplace : HasPlace w.tree w.here)
    (hclear : (w.withDirectory directory).IsClear directory (files.map Prod.fst))
    (h : (Staging.placeFiles directory files : StateM World _).run w = (.ok written, w')) :
    ∃ d, HasFiles directory files d (w.withDirectory directory) w' := by
  obtain ⟨paths, u, -, hstaging, hreplaced, -⟩ := steps_of_placeFiles h
  have hlength : paths.length = files.length := by
    simpa [Staging.changes] using length_of_stage (congrArg Prod.fst hstaging)
  have hmoved := checkPath_of_replaceTargets (congrArg Prod.fst hreplaced)
  have hzip : (paths.zip ((Staging.changes directory files).map Prod.fst)).map Prod.snd =
      (files.map Prod.fst).map (join directory) := by
    rw [List.map_snd_zip (by simp [hlength, Staging.changes]), map_fst_changes]
  have hfit : w.FitTogether directory (files.map Prod.fst) := by
    intro _ _ _ _ name hname
    have htarget := List.mem_map_of_mem (f := join directory) hname
    rw [← hzip] at htarget
    obtain ⟨move, hmove, heq⟩ := List.mem_map.mp htarget
    rw [← heq]
    exact hmoved move hmove
  have hwritten := placeFiles_all_or_nothing hfiles hnames hplace hclear hfit
  rw [h] at hwritten
  rcases hwritten with ⟨-, hheld⟩ | ⟨e, herror, -⟩
  · exact hheld
  · cases herror

/-! ## The same write once more -/

namespace HasFiles

variable {files : List (String × String)} {v : World}

/-- The path of the directory leads to it before and after. -/
theorem leads (h : HasFiles directory files d v w') (hfiles : files ≠ [])
    (hnames : AreFileNames (files.map Prod.fst)) :
    (v.tree.PathLeads (fun _ => True) v.here directory d ∧
      v.tree.get? d = some (.directory true)) ∧
    w'.tree.PathLeads (fun _ => True) w'.here directory d ∧
      w'.tree.get? d = some (.directory true) := by
  obtain ⟨file, hfile⟩ := List.exists_mem_of_ne_nil files hfiles
  have hname := hnames.isName file.1 (List.mem_map_of_mem hfile)
  obtain ⟨-, hmeant, hbefore, -⟩ := (namesEntry_join hname).mp (h.meant file hfile)
  obtain ⟨-, hnamed, hafter, -⟩ := (namesEntry_join hname).mp (h.named file hfile)
  exact ⟨⟨hmeant, hbefore⟩, hnamed, hafter⟩

/-- Ways that are clear of the files are the same before and after. -/
theorem keeps (h : HasFiles directory files d v w') (hnames : AreFileNames (files.map Prod.fst))
    (hclear : v.IsClear directory (files.map Prod.fst))
    (hd : v.tree.PathLeads (fun _ => True) v.here directory d)
    (hchecked : ((Staging.checkTargets ((files.map Prod.fst).map (join directory)) :
      StateM World _).run v).1 = .ok ()) :
    Keeps (v.ClearOf directory (files.map Prod.fst)) v.tree w'.tree := by
  have hnamed : ∀ name ∈ files.map Prod.fst, v.tree.NamesEntry
      (v.ClearOf directory (files.map Prod.fst)) v.here (join directory name) d name := by
    rw [List.forall_mem_map]
    intro file hfile
    have hname := hnames.isName file.1 (List.mem_map_of_mem hfile)
    obtain ⟨hvalid, -, hdirectory, hshort⟩ := (namesEntry_join hname).mp (h.meant file hfile)
    exact (namesEntry_join hname).mpr ⟨hvalid, hclear.leads hd, hdirectory, hshort⟩
  apply (replaceable_slots hnames rfl hchecked hnamed hd
    ((Staged.none (fun _ => True) v).keeps _)).keeps
  intro l hl
  apply h.others
  rintro file hfile rfl
  apply hl
  simp only [List.map_map, List.mem_map]
  exact ⟨file, hfile, rfl⟩

theorem isClear (h : HasFiles directory files d v w')
    (hclear : v.IsClear directory (files.map Prod.fst))
    (hd : v.tree.PathLeads (fun _ => True) v.here directory d)
    (hd' : w'.tree.PathLeads (fun _ => True) w'.here directory d)
    (hkeeps : Keeps (v.ClearOf directory (files.map Prod.fst)) v.tree w'.tree)
    (hdirectory : ∃ b, v.tree.get? d = some (.directory b)) :
    w'.IsClear directory (files.map Prod.fst) := by
  intro d' hleads
  obtain rfl := hd'.unique hleads
  have hkept := (hclear.leads hd).keep hkeeps hdirectory
  rw [PathLeads, h.here]
  apply hkept.mono
  intro l hl
  exact hl d hd

/-- The files can be replaced. -/
theorem checkTargets (h : HasFiles directory files d v w')
    (hnames : AreFileNames (files.map Prod.fst)) :
    (Staging.checkTargets ((Staging.changes directory files).map Prod.fst) :
      StateM World _).run w' = (.ok (), w') := by
  apply checkTargets_of_forall
  rw [map_fst_changes, List.forall_mem_map, List.forall_mem_map]
  intro file hfile
  have hname := hnames.isName file.1 (List.mem_map_of_mem hfile)
  exact checkTarget_of_file (h.named file hfile) (hname.endsInSlash_join directory)
    (h.held file hfile)

theorem sameTemporaries (h : HasFiles directory files d v w')
    (hnames : AreFileNames (files.map Prod.fst)) : SameTemporaries v.tree w'.tree := by
  intro d' n
  rw [h.others]
  intro file hfile heq
  have hlast : temporaryName n = file.1 := by simpa using congrArg List.getLast? heq
  exact hnames.not_temporary _ (List.mem_map_of_mem hfile) n hlast.symm

/-- Where temporary files can be made in the directory, the files are put in place again. -/
theorem placeFiles (h : HasFiles directory files d v w') (hfiles : files ≠ [])
    (hnames : AreFileNames (files.map Prod.fst)) (hplace : HasPlace w'.tree w'.here)
    (hclear : w'.IsClear directory (files.map Prod.fst)) {paths : List String}
    (hstaging : ((Staging.stage directory [] (Staging.changes directory files) :
      StateM World _).run w').1 = .ok paths) :
    ∃ w'', (Staging.placeFiles directory files : StateM World _).run w' =
        (.ok ((Staging.changes directory files).map Prod.fst), w'') ∧ SameEntries w' w'' := by
  obtain ⟨-, hd, hdirectory⟩ := h.leads hfiles hnames
  obtain ⟨file, hfile⟩ := List.exists_mem_of_ne_nil files hfiles
  have hensured := run_ensureDirectory_again (hnames.isName _ (List.mem_map_of_mem hfile))
    (h.named file hfile).valid hd hdirectory
  have hchecked := congrArg Prod.fst (h.checkTargets hnames)
  obtain ⟨hhere, hstaged⟩ := (Staged.none (w'.ClearOf directory _) w').stage hplace
    (fun d hd => hclear.leads hd) (Staging.changes directory files)
  simp only [List.map_nil, List.nil_append] at hhere hstaged
  cases hrun : (Staging.stage directory [] (Staging.changes directory files) :
      StateM World _).run w' with
  | mk result u =>
  rw [hrun] at hhere hstaged hstaging
  obtain rfl : result = .ok paths := hstaging
  obtain ⟨e, herror, -⟩ | ⟨made, hmade, hstaged, hcontents, hall⟩ := hstaged
  · cases herror
  obtain rfl : paths = made.map (·.path) := Except.ok.inj hmade
  dsimp only at hhere hstaged
  have hvalid : ∀ name ∈ files.map Prod.fst, checkPath (join directory name) = .ok () := by
    rw [List.forall_mem_map]
    exact fun file hfile => (h.named file hfile).valid
  have hwriting := run_placeFiles hensured hchecked hrun
  rw [map_contents_changes] at hcontents
  rw [map_fst_changes] at hchecked hwriting ⊢
  obtain ⟨hmoved, d', hheld⟩ :=
    hstaged.replace_all hhere hfiles hnames hvalid hchecked hcontents hall
  dsimp only at hwriting
  rw [hmoved] at hwriting
  refine ⟨_, hwriting, hheld.here, fun l => ?_⟩
  obtain rfl : d = d' := hd.unique (hheld.leads hfiles hnames).1.1
  by_cases hl : ∃ file ∈ files, l = d ++ [file.1]
  · obtain ⟨file, hfile, rfl⟩ := hl
    exact (hheld.held file hfile).trans (h.held file hfile).symm
  · exact hheld.others l fun file hfile heq => hl ⟨file, hfile, heq⟩

end HasFiles

variable {files : List (String × String)}

/-- A write that has succeeded succeeds again and changes nothing. -/
theorem placeFiles_again {written : List String} (hfiles : files ≠ [])
    (hnames : AreFileNames (files.map Prod.fst)) (hplace : HasPlace w.tree w.here)
    (hclear : (w.withDirectory directory).IsClear directory (files.map Prod.fst))
    (h : (Staging.placeFiles directory files : StateM World _).run w = (.ok written, w')) :
    ∃ w'', (Staging.placeFiles directory files : StateM World _).run w' = (.ok written, w'') ∧
      SameEntries w' w'' := by
  have hadds := addsDirectories_withDirectory w directory
  obtain ⟨d, hheld⟩ := hasFiles_of_placeFiles hfiles hnames hplace hclear h
  obtain ⟨paths, u, hchecked, hstaging, -, rfl⟩ := steps_of_placeFiles h
  generalize w.withDirectory directory = v at *
  rw [map_fst_changes] at hchecked
  obtain ⟨⟨hd, hdirectory⟩, hd', -⟩ := hheld.leads hfiles hnames
  have hkeeps := hheld.keeps hnames hclear hd hchecked
  have hplaceV : HasPlace v.tree v.here := by
    rw [hadds.here]
    exact hplace.keep (hadds.keeps fun _ => True)
  have hplace' : HasPlace w'.tree w'.here := by
    rw [hheld.here]
    exact hplaceV.keep hkeeps
  have hstaging' := (Staged.none (v.ClearOf directory _) v).stage_again hplaceV
    (fun d hd => hclear.leads hd) hheld.here hkeeps (hheld.sameTemporaries hnames)
    (congrArg Prod.fst hstaging)
  exact hheld.placeFiles hfiles hnames hplace'
    (hheld.isClear hclear hd hd' hkeeps ⟨true, hdirectory⟩) hstaging'

end World

end ExportTables
