import ExportTables.Generate
import ExportTables.Proofs.Output

/-!
# A run is all or nothing

A run looks at the header before it touches anything, and only a run that writes touches anything at
all. What it writes are the four files together, so when it fails the worst that is left behind are
the directories that it has made.

This holds as long as the way to the output directory goes over no link that one of the files takes
the place of, and as long as the longest path of a file is accepted if that of a temporary file is.
A target whose path is not accepted is noticed by its move only. Then the moves before it stay, and
so does the temporary file that could not be moved, for as long as the error is held.
-/

namespace ExportTables

open FileSystem FileTree World ExportTables.Path

/-! ## What only looks -/

theorem onlyLooks_load (rule : Header.ExportRule) (path : String) :
    OnlyLooks (Header.load rule path) := by
  apply (onlyLooks_isFile path).bind
  intro found
  split
  · apply (onlyLooks_readText path).bind
    intro text
    split <;> exact .pure _
  · exact .pure _

theorem onlyLooks_finish {o : Options} (h : o.mode ≠ .write) (artifacts : List Artifact) :
    OnlyLooks (o.finish artifacts) := by
  rw [Options.finish]
  split
  · exact .pure _
  · apply (onlyLooks_staleIn _ _).bind
    intro stale
    split <;> exact .pure _
  · rename_i hmode
    exact absurd hmode h

/-! ## What is read and written -/

theorem readText_eq_ok {path text : String} {w : World}
    (h : ((readText path : StateM World _).run w).1 = .ok text) :
    ∃ bytes, w.tree.read w.here path = .ok bytes ∧ String.fromUTF8? bytes = some text := by
  rw [readText, run_bind, run_readBytes] at h
  cases hbytes : w.tree.read w.here path with
  | error e =>
    rw [hbytes] at h
    cases h
  | ok bytes =>
    rw [hbytes] at h
    dsimp only at h
    refine ⟨bytes, rfl, ?_⟩
    split at h
    · rename_i found hfound
      obtain rfl : found = text := Except.ok.inj h
      exact hfound
    · cases h

theorem load_eq_ok {rule : Header.ExportRule} {path : String} {w : World} {header : Header}
    (h : ((Header.load rule path : StateM World _).run w).1 = .ok header) :
    ∃ bytes text, w.tree.read w.here path = .ok bytes ∧ String.fromUTF8? bytes = some text ∧
      Header.ofText rule path text = header := by
  rw [Header.load, run_bind, onlyLooks_isFile] at h
  split at h
  · rw [run_bind, onlyLooks_readText] at h
    split at h
    · rename_i text htext
      obtain ⟨bytes, hbytes, hutf8⟩ := readText_eq_ok htext
      exact ⟨bytes, text, hbytes, hutf8, Except.ok.inj h⟩
    · cases h
  · cases h

/-- The files that a run renders when the header holds this text. -/
def Options.filesFor (o : Options) (text : String) : List (String × String) :=
  (Manifest.ofDiscovered (Header.ofText o.config.header.rule o.headerPath text).symbols
    o.config).files

/-- If the longest path of a generated file is accepted whenever the shortest one of a temporary
file is, then so are those of all generated files. -/
theorem fitTogether_artifactNames {w : World} {directory : String}
    (h : ∀ base, w.temporaryBase directory = .ok base →
      (join base (temporaryName 0)).utf8ByteSize ≤ pathLimit →
      (join directory ArtifactKind.runtimeMethods.fileName).utf8ByteSize ≤ pathLimit) :
    w.FitTogether directory artifactNames := by
  intro base n hbase hvalid name hname
  have hplain : ∀ name ∈ artifactNames, isAbsolute name = false ∧ holdsNul name = false ∧
      0 < name.utf8ByteSize ∧
      name.utf8ByteSize ≤ ArtifactKind.runtimeMethods.fileName.utf8ByteSize := by
    decide
  obtain ⟨habsolute, hplainName, hpos, hlong⟩ := hplain name hname
  have htemporary := fun n => (isName_temporaryName n).isAbsolute
  obtain ⟨hnul, -, hsize⟩ := checkPath_eq_ok.mp hvalid
  rw [holdsNul_join _ (htemporary n), Bool.or_eq_false_iff] at hnul
  have hshortest : (join base (temporaryName 0)).utf8ByteSize ≤ pathLimit := by
    obtain ⟨room, hroom⟩ := utf8ByteSize_join base
    have hle := utf8ByteSize_temporaryName_zero_le n
    rw [hroom _ (htemporary n)] at hsize
    rw [hroom _ (htemporary 0)]
    omega
  obtain ⟨room, hroom⟩ := utf8ByteSize_join directory
  have hlongest := h base hbase hshortest
  rw [hroom _ (by decide)] at hlongest
  refine checkPath_eq_ok.mpr ⟨?_, ?_, ?_⟩
  · rw [holdsNul_join _ habsolute, holdsNul_of_temporaryBase hbase hnul.1, hplainName]
    rfl
  · intro hempty
    have hzero := hroom name habsolute
    rw [hempty, String.utf8ByteSize_empty] at hzero
    omega
  · rw [hroom _ habsolute]
    omega

/-! ## Runs -/

/-- A run that writes ends as the writing of its files does. -/
theorem run_finish_write {o : Options} (h : o.mode = .write) (m : Manifest) {w w' : World}
    {written : Except StagingError (List String)}
    (hwritten : (Staging.placeFiles o.outputDir m.files : StateM World _).run w = (written, w')) :
    let finished := (o.finish m.artifacts : StateM World _).run w
    finished.2 = w' ∧ (finished.1.isOk = written.isOk) := by
  rw [Options.finish, h]
  dsimp only
  rw [run_bind, run_writeAll, hwritten]
  cases written <;> exact ⟨rfl, rfl⟩

theorem run_generate_of_error {o : Options} {w : World} {fault : Fault}
    (h : ((Header.load o.config.header.rule o.headerPath : StateM World _).run w).1 =
      .error fault) :
    let run := (generate o : StateM World _).run w
    run.2 = w ∧ run.1.2 = .error (.fault fault) := by
  rw [generate, run_bind, onlyLooks_load, h]
  exact ⟨rfl, rfl⟩

theorem run_generate_of_ok {o : Options} {w : World} {header : Header}
    (h : ((Header.load o.config.header.rule o.headerPath : StateM World _).run w).1 =
      .ok header) :
    let run := (generate o : StateM World _).run w
    let finished :=
      (o.finish (Manifest.ofDiscovered header.symbols o.config).artifacts : StateM World _).run w
    run.2 = finished.2 ∧ run.1.2.isOk = finished.1.isOk := by
  rw [generate, run_bind, onlyLooks_load, h]
  dsimp only
  rw [run_bind]
  cases ((o.finish (Manifest.ofDiscovered header.symbols o.config).artifacts :
    StateM World _).run w).1 <;> exact ⟨rfl, rfl⟩

/-- A run that writes and succeeds leaves the world as it was but for the directories that it has
made and the four files, and after any other run there is nothing new but directories, and only if
it was one that writes. -/
theorem generate_all_or_nothing (o : Options) (w : World) (hplace : HasPlace w.tree w.here)
    (hclear : (w.withDirectory o.outputDir).IsClear o.outputDir artifactNames)
    (hfit : o.mode = .write → ∀ base, w.temporaryBase o.outputDir = .ok base →
      (join base (temporaryName 0)).utf8ByteSize ≤ pathLimit →
      (join o.outputDir ArtifactKind.runtimeMethods.fileName).utf8ByteSize ≤ pathLimit) :
    let run := (generate o : StateM World _).run w
    let made := w.withDirectory o.outputDir
    (run.1.2.isOk = true → o.mode = .write →
      AddsDirectories o.outputDir w made ∧ ∃ bytes text d,
        w.tree.read w.here o.headerPath = .ok bytes ∧ String.fromUTF8? bytes = some text ∧
        HasFiles o.outputDir (o.filesFor text) d made run.2) ∧
    (run.1.2.isOk = false → AddsDirectories o.outputDir w run.2) ∧
    (o.mode ≠ .write → run.2 = w) := by
  intro run made
  cases hload : ((Header.load o.config.header.rule o.headerPath : StateM World _).run w).1 with
  | error fault =>
    obtain ⟨hrun, herror⟩ := run_generate_of_error hload
    change run.2 = w at hrun
    change run.1.2 = _ at herror
    rw [hrun, herror]
    exact ⟨fun hok => absurd hok Bool.false_ne_true, fun _ => .refl o.outputDir w, fun _ => rfl⟩
  | ok header =>
    obtain ⟨bytes, text, hbytes, hutf8, rfl⟩ := load_eq_ok hload
    obtain ⟨hrun, hok⟩ := run_generate_of_ok hload
    change run.2 = _ at hrun
    change run.1.2.isOk = _ at hok
    by_cases hmode : o.mode = .write
    · have hadds := addsDirectories_withDirectory w o.outputDir
      have hne : o.filesFor text ≠ [] := List.cons_ne_nil _ _
      have hwritten := placeFiles_all_or_nothing hne areFileNames_artifactNames hplace hclear
        (fitTogether_artifactNames (hfit hmode))
      cases hwriting :
          (Staging.placeFiles o.outputDir (o.filesFor text) : StateM World _).run w with
      | mk written w' =>
      obtain ⟨hfinish, hisOk⟩ := run_finish_write hmode _ hwriting
      rw [hfinish] at hrun
      rw [hisOk] at hok
      rw [hwriting] at hwritten
      rw [hrun, hok]
      rcases hwritten with ⟨rfl, d, hd⟩ | ⟨e, rfl, hsame⟩
      · exact ⟨fun _ _ => ⟨hadds, bytes, text, d, hbytes, hutf8, hd⟩,
          fun herror => absurd herror (by simp [Except.isOk, Except.toBool]),
          fun hnot => absurd hmode hnot⟩
      · exact ⟨fun herror => absurd herror Bool.false_ne_true, fun _ => hadds.of_sameEntries hsame,
          fun hnot => absurd hmode hnot⟩
    · rw [onlyLooks_finish hmode] at hrun
      rw [hrun]
      exact ⟨fun _ hwrite => absurd hwrite hmode, fun _ => .refl o.outputDir w, fun _ => rfl⟩

/-- A link among the targets is replaced, and the header that it stands for stays as it is. -/
theorem generate_all_or_nothing_over_link :
    let w : World := ⟨⟨[(["h"], .file .empty false), (["out"], .directory true),
      (["out", "exported-functions.json"], .link "../h")]⟩, {}⟩
    let o : Options := { outputDir := "out", includeDir := some "", config.header.file := "h" }
    HasPlace w.tree w.here ∧ (w.withDirectory o.outputDir).IsClear o.outputDir artifactNames ∧
      o.mode = .write ∧
      let run := (generate o : StateM World _).run w
      run.1.2.isOk = true ∧ run.2.tree.get? ["h"] = some (.file .empty false) := by
  intro w o
  have hplace : HasPlace w.tree w.here := fun _ => trivial
  have hmade : w.withDirectory o.outputDir = w := withDirectory_of_exists (by decide +kernel)
  have hleads : ∀ usable, w.tree.PathLeads usable w.here o.outputDir ["out"] := by
    intro usable
    exact ⟨[], ["out"], by decide +kernel, .enter rfl (by decide) (by decide) rfl (by simp) .done⟩
  have hclear : w.IsClear o.outputDir artifactNames := isClear_of_leads hleads
  have hok : ((generate o : StateM World _).run w).1.2.isOk = true := by decide +kernel
  rw [← hmade] at hclear
  obtain ⟨hwritten, -, -⟩ := generate_all_or_nothing o w hplace hclear
    fun _ _ _ _ => by decide
  obtain ⟨-, bytes, text, d, -, -, hfiles⟩ := hwritten hok rfl
  refine ⟨hplace, hclear, rfl, hok, (hfiles.others ["h"] ?_).trans ?_⟩
  · intro file hfile heq
    have hname : file.1 ∈ artifactNames := List.mem_map_of_mem hfile
    have hlast : "h" = file.1 := by simpa using congrArg List.getLast? heq
    rw [← hlast] at hname
    exact absurd hname (by decide)
  · rw [hmade]
    rfl

/-! ## A torn run -/

theorem pathLeads_slashes (t : FileTree) (usable : Location → Prop) (working : WorkingDirectory)
    (n : Nat) : t.PathLeads usable working (slashes (n + 1)) [] := by
  rw [PathLeads, isAbsolute_slashes, names_slashes]
  exact ⟨[], [], rfl, .done⟩

theorem kind_slashes (w : World) {n : Nat} (hfit : n + 1 ≤ pathLimit) :
    w.kind (slashes (n + 1)) = .ok .directory := by
  have hvalid : checkPath (slashes (n + 1) ++ "") = .ok () := (checkPath_slashes n rfl).mpr hfit
  have hslash : endsInSlash (slashes (n + 1)) = true := by
    rw [endsInSlash, toList_slashes, List.getLast?_replicate]
    rfl
  rw [String.append_empty] at hvalid
  rw [World.kind, lookup, resolve, hvalid, isAbsolute_slashes, FileTree.route, hslash,
    names_slashes]
  rfl

/-- A run that writes into the root, by a path so long that the first file fits and the second does
not, replaces the first one and fails. -/
theorem run_generate_torn {o : Options} {w : World} {n : Nat} (hmode : o.mode = .write)
    (hslashes : o.outputDir = slashes (n + 1)) (hplace : HasPlace w.tree w.here)
    (hload : ((Header.load o.config.header.rule o.headerPath : StateM World _).run w).1.isOk = true)
    (hfree : ∀ name ∈ artifactNames, w.tree.get? [name] = none)
    (hroom : ∀ k ≤ w.tree.entries.length + artifactNames.length,
      (temporaryName k).utf8ByteSize ≤ ArtifactKind.exportedFunctions.fileName.utf8ByteSize)
    (hfirst : n + 1 + ArtifactKind.exportedFunctions.fileName.utf8ByteSize ≤ pathLimit)
    (hsecond : pathLimit < n + 1 + ArtifactKind.runtimeMethods.fileName.utf8ByteSize) :
    (w.withDirectory o.outputDir).IsClear o.outputDir artifactNames ∧
      let run := (generate o : StateM World _).run w
      run.1.2.isOk = false ∧ ¬AddsDirectories o.outputDir w run.2 := by
  have hexists : (w.kind o.outputDir).isOk = true := by
    rw [hslashes, kind_slashes w (by omega)]
    rfl
  have hmade : w.withDirectory o.outputDir = w := withDirectory_of_exists hexists
  have hleads : ∀ usable, w.tree.PathLeads usable w.here o.outputDir [] := by
    intro usable
    rw [hslashes]
    exact pathLeads_slashes ..
  have hclear : w.IsClear o.outputDir artifactNames := isClear_of_leads hleads
  have habsolute : isAbsolute o.outputDir = true := by rw [hslashes, isAbsolute_slashes]
  have hjoin : ∀ name, isAbsolute name = false → holdsNul name = false →
      (checkPath (join o.outputDir name) = .ok () ↔ n + 1 + name.utf8ByteSize ≤ pathLimit) := by
    intro name hrelative hnul
    rw [hslashes, join_slashes n hrelative, checkPath_slashes n hnul]
  rw [hmade]
  refine ⟨hclear, ?_⟩
  intro run
  cases hheader : ((Header.load o.config.header.rule o.headerPath : StateM World _).run w).1 with
  | error fault =>
    rw [hheader] at hload
    cases hload
  | ok header =>
  let m := Manifest.ofDiscovered header.symbols o.config
  have hfits : ∀ k ≤ w.tree.entries.length + m.files.length,
      checkPath (join o.outputDir (temporaryName k)) = .ok () ∧
        checkName (temporaryName k) = .ok () := by
    intro k hk
    have hsize := hroom k hk
    refine ⟨(hjoin _ (isName_temporaryName k).isAbsolute (holdsNul_temporaryName k)).mpr ?_, ?_⟩
    · omega
    · have hlimit : ArtifactKind.exportedFunctions.fileName.utf8ByteSize ≤ nameLimit := by decide
      rw [checkName, if_neg (by omega)]
  have hvalid : checkPath (join o.outputDir ArtifactKind.exportedFunctions.fileName) = .ok () :=
    (hjoin _ (by decide) (by decide)).mpr hfirst
  have hinvalid : checkPath (join o.outputDir ArtifactKind.runtimeMethods.fileName) ≠ .ok () :=
    (hjoin _ (by decide) (by decide)).not.mpr (Nat.not_le.mpr hsecond)
  obtain ⟨⟨e, herror⟩, hheld⟩ := placeFiles_torn (show m.files = _ :: _ :: _ from rfl)
    areFileNames_artifactNames hplace habsolute hexists hclear (hleads _) rfl hfree hfits hvalid
    hinvalid
  cases hwriting : (Staging.placeFiles o.outputDir m.files : StateM World _).run w with
  | mk written w' =>
  rw [hwriting] at herror hheld
  obtain ⟨hrun, hok⟩ := run_generate_of_ok hheader
  obtain ⟨hfinish, hisOk⟩ := run_finish_write hmode m hwriting
  refine ⟨hok.trans (hisOk.trans (congrArg Except.isOk herror)), ?_⟩
  intro hadds
  rw [hrun.trans hfinish] at hadds
  cases (hadds.added _ _ (hfree _ (List.mem_cons_self ..)) hheld).1

/-- Without the condition on the lengths of the paths a run can fail and leave a file behind. -/
theorem generate_torn_by_long_path :
    let w : World := ⟨⟨[(["h"], .file .empty false)]⟩, {}⟩
    let o : Options :=
      { outputDir := slashes 4067, includeDir := some "", config.header.file := "h" }
    HasPlace w.tree w.here ∧ (w.withDirectory o.outputDir).IsClear o.outputDir artifactNames ∧
      o.mode = .write ∧
      let run := (generate o : StateM World _).run w
      run.1.2.isOk = false ∧ ¬AddsDirectories o.outputDir w run.2 := by
  intro w o
  have hplace : HasPlace w.tree w.here := fun _ => trivial
  have hsizes : ∀ k ≤ 5,
      (temporaryName k).utf8ByteSize ≤ ArtifactKind.exportedFunctions.fileName.utf8ByteSize := by
    decide +kernel
  obtain ⟨hclear, htorn⟩ := @run_generate_torn o w 4066 rfl rfl hplace (by decide +kernel)
    (by decide) hsizes (by decide) (by decide)
  exact ⟨hplace, hclear, rfl, htorn⟩

end ExportTables
