import ExportTables.Proofs.Generate

/-!
# What a check tells

A check passes exactly if each file that a run would write is read already. So it passes after a run
that has written the files, as long as the header is read as before, and what such a run has written
another one writes again.

A run depends on the world by the text of the header and by the way it ends. The rest of its outcome
is the same in all worlds (`Options.outcome`).
-/

namespace ExportTables

open FileSystem FileTree World ExportTables.Path

/-- The options with another mode. -/
def Options.inMode (o : Options) (mode : Mode) : Options := { o with mode := mode }

/-! ## Runs with a header that is read -/

theorem run_load_of_holds {rule : Header.ExportRule} {path text : String} {w : World}
    (h : w.Holds path text) :
    (Header.load rule path : StateM World _).run w = (.ok (Header.ofText rule path text), w) := by
  rw [Header.load, run_bind, h.run_isFile]
  dsimp only
  rw [if_pos rfl, run_bind, h.run_readText]
  rfl

/-- What a run gives when it has read this text as the header and has been finished in this way. -/
def Options.outcome (o : Options) (text : String)
    (finished : Except RunError (List String × List Event)) : List Event × Except RunError Report :=
  let header := Header.ofText o.config.header.rule o.headerPath text
  let manifest := Manifest.ofDiscovered header.symbols o.config
  let found := ⟨.info, s!"scanning {o.headerPath}"⟩ :: header.findings o.config.header.rule ++
    manifest.findings o.config.exports.exclude header.symbols
  match finished with
  | .error e => (found, .error e)
  | .ok (written, events) =>
    (found ++ events, .ok ⟨o.headerPath, manifest, manifest.artifacts, written⟩)

theorem isOk_outcome (o : Options) (text : String)
    (finished : Except RunError (List String × List Event)) :
    (o.outcome text finished).2.isOk = finished.isOk := by
  cases finished <;> rfl

theorem written_outcome (o : Options) (text : String)
    (finished : Except RunError (List String × List Event)) :
    (o.outcome text finished).2.map Report.written = finished.map Prod.fst := by
  cases finished <;> rfl

/-- What a run gives depends on the header and on how it is finished. -/
theorem run_generate_of_holds {o : Options} {text : String} {w : World}
    (h : w.Holds o.headerPath text) :
    let header := Header.ofText o.config.header.rule o.headerPath text
    let manifest := Manifest.ofDiscovered header.symbols o.config
    let finished := (o.finish manifest.artifacts : StateM World _).run w
    (generate o : StateM World _).run w = (o.outcome text finished.1, finished.2) := by
  intro header manifest
  rw [generate, run_bind, run_load_of_holds h]
  dsimp only
  rw [run_bind]
  cases (o.finish manifest.artifacts : StateM World _).run w with
  | mk result w' => cases result <;> rfl

/-! ## The ways to finish -/

/-- A check that finds something stale fails with what it has found. -/
theorem written_finish_check {o : Options} (h : o.mode = .check) (artifacts : List Artifact)
    (w : World) :
    ((o.finish artifacts : StateM World _).run w).1.map Prod.fst =
      match ((Output.staleIn o.outputDir artifacts : StateM World _).run w).1 with
      | .error e => .error (.output e)
      | .ok [] => .ok []
      | .ok stale => .error (.fault (.staleArtifacts o.outputDir stale)) := by
  rw [Options.finish, h]
  dsimp only
  rw [run_bind]
  cases ((Output.staleIn o.outputDir artifacts : StateM World _).run w).1 with
  | error e => rfl
  | ok stale => cases stale <;> rfl

theorem isOk_finish_check {o : Options} (h : o.mode = .check) (artifacts : List Artifact)
    (w : World) :
    ((o.finish artifacts : StateM World _).run w).1.isOk = true ↔
      ∀ a ∈ artifacts, w.Holds (join o.outputDir a.fileName) a.contents := by
  have hmap : ∀ finished : Except RunError (List String × List Event),
      finished.isOk = (finished.map Prod.fst).isOk := by
    intro finished
    cases finished <;> rfl
  rw [← staleIn_eq_nil, hmap, written_finish_check h]
  cases ((Output.staleIn o.outputDir artifacts : StateM World _).run w).1 with
  | error e => constructor <;> intro hok <;> cases hok
  | ok stale =>
    cases stale with
    | nil => exact ⟨fun _ => rfl, fun _ => rfl⟩
    | cons name rest => constructor <;> intro hok <;> cases hok

/-- Where the files can be written twice, both runs are finished alike. -/
theorem finish_write_again {o : Options} (h : o.mode = .write) (m : Manifest) {w : World}
    (hplace : HasPlace w.tree w.here)
    (hclear : (w.withDirectory o.outputDir).IsClear o.outputDir artifactNames)
    (hok : ((o.finish m.artifacts : StateM World _).run w).1.isOk = true) :
    let first := (o.finish m.artifacts : StateM World _).run w
    let second := (o.finish m.artifacts : StateM World _).run first.2
    (∀ file ∈ m.files, first.2.Holds (join o.outputDir file.1) file.2) ∧
      second.1 = first.1 ∧ SameEntries first.2 second.2 := by
  have hfinish : ∀ w w' written,
      (Staging.placeFiles o.outputDir m.files : StateM World _).run w = (.ok written, w') →
      (o.finish m.artifacts : StateM World _).run w =
        (.ok (written, m.artifacts.map fun a => ⟨.debug, s!"wrote {a.fileName} ({a.fingerprint})"⟩),
          w') := by
    intro w w' written hwritten
    rw [Options.finish, h]
    dsimp only
    rw [run_bind, run_writeAll, hwritten]
    rfl
  cases hwritten : (Staging.placeFiles o.outputDir m.files : StateM World _).run w with
  | mk result w' =>
  rw [(run_finish_write h m hwritten).2] at hok
  cases result with
  | error e => cases hok
  | ok written =>
  obtain ⟨d, hfiles⟩ := hasFiles_of_placeFiles m.files_ne_nil areFileNames_artifactNames hplace
    hclear hwritten
  obtain ⟨w'', hagain, hsame⟩ := placeFiles_again m.files_ne_nil areFileNames_artifactNames hplace
    hclear hwritten
  rw [hfinish w w' written hwritten]
  dsimp only
  rw [hfinish w' w'' written hagain]
  exact ⟨hfiles.holds m.isName_files, rfl, hsame⟩

/-! ## Checks and writes -/

/-- A check passes exactly if every file is read already, and leaves the world as it is. After a run
that has written the files, with the header as before, a check passes and another such run gives the
same and changes nothing. The check before has told whether the run changes what is read there. -/
theorem check_iff_and_write_again (o : Options) (w : World) (text : String)
    (hheader : w.Holds o.headerPath text) :
    let check := fun w => (generate (o.inMode .check) : StateM World _).run w
    let write := fun w => (generate (o.inMode .write) : StateM World _).run w
    let files := o.filesFor text
    ((check w).2 = w ∧ ((check w).1.2.isOk = true ↔
      ∀ file ∈ files, w.Holds (join o.outputDir file.1) file.2)) ∧
    (HasPlace w.tree w.here → (w.withDirectory o.outputDir).IsClear o.outputDir artifactNames →
      (write w).1.2.isOk = true → (write w).2.Holds o.headerPath text →
      (check (write w).2).1.2.isOk = true ∧
        (write (write w).2).1 = (write w).1 ∧ SameEntries (write w).2 (write (write w).2).2 ∧
        ((check w).1.2.isOk = true ↔ ∀ file ∈ files, ∀ found,
          w.Holds (join o.outputDir file.1) found ↔
            (write w).2.Holds (join o.outputDir file.1) found)) := by
  intro check write files
  let m := Manifest.ofDiscovered (Header.ofText o.config.header.rule o.headerPath text).symbols
    o.config
  have hpasses : ∀ w : World, w.Holds o.headerPath text → (check w).2 = w ∧
      ((check w).1.2.isOk = true ↔
        ∀ file ∈ files, w.Holds (join o.outputDir file.1) file.2) := by
    intro w hheader
    have hrun : check w = ((o.inMode .check).outcome text _, _) := run_generate_of_holds hheader
    have hfinish := isOk_finish_check (o := o.inMode .check) rfl m.artifacts w
    rw [hrun, isOk_outcome]
    refine ⟨onlyLooks_finish (o := o.inMode .check) Mode.noConfusion m.artifacts w,
      hfinish.trans ?_⟩
    rw [show files = m.artifacts.map fun a => (a.fileName, a.contents) from rfl,
      List.forall_mem_map]
    rfl
  refine ⟨hpasses w hheader, ?_⟩
  intro hplace hclear hok hheader'
  have hfirst : write w = ((o.inMode .write).outcome text _, _) := run_generate_of_holds hheader
  rw [hfirst, isOk_outcome] at hok
  obtain ⟨hheld, hagain, hsame⟩ := finish_write_again (o := o.inMode .write) rfl m hplace hclear hok
  have hheld : ∀ file ∈ files, (write w).2.Holds (join o.outputDir file.1) file.2 := by
    rw [hfirst]
    exact hheld
  have hsecond : write (write w).2 = ((o.inMode .write).outcome text _, _) :=
    run_generate_of_holds hheader'
  refine ⟨(hpasses _ hheader').2.mpr hheld, ?_, ?_, (hpasses w hheader).2.trans ?_⟩
  · rw [hsecond, hfirst]
    exact congrArg ((o.inMode .write).outcome text) hagain
  · rw [hsecond, hfirst]
    exact hsame
  · constructor
    · intro h file hfile found
      constructor
      · intro hfound
        rw [hfound.unique (h file hfile)]
        exact hheld file hfile
      · intro hfound
        rw [hfound.unique (hheld file hfile)]
        exact h file hfile
    · intro h file hfile
      exact (h file hfile file.2).mpr (hheld file hfile)

/-- A link to the header among the targets is stale, and is up to date once it has been replaced. -/
theorem check_iff_and_write_again_over_link :
    let w : World := ⟨⟨[(["h"], .file "".toUTF8 false), (["out"], .directory true),
      (["out", "exported-functions.json"], .link "../h")]⟩, {}⟩
    let o : Options := { outputDir := "out", includeDir := some "", config.header.file := "h" }
    let check := fun w => (generate (o.inMode .check) : StateM World _).run w
    let write := fun w => (generate (o.inMode .write) : StateM World _).run w
    w.Holds o.headerPath "" ∧ HasPlace w.tree w.here ∧
      (w.withDirectory o.outputDir).IsClear o.outputDir artifactNames ∧
      (write w).1.2.isOk = true ∧ (write w).2.Holds o.headerPath "" ∧
      (check w).1.2.isOk = false ∧ (check (write w).2).1.2.isOk = true ∧
      (write (write w).2).1 = (write w).1 := by
  intro w o check write
  have hheader : w.Holds o.headerPath "" := currentText_eq_ok.mp (by decide +kernel)
  have hplace : HasPlace w.tree w.here := fun _ => trivial
  have hleads : ∀ usable, w.tree.PathLeads usable w.here o.outputDir ["out"] := by
    intro usable
    exact ⟨[], ["out"], by decide +kernel, .enter rfl (by decide) (by decide) rfl (by simp) .done⟩
  have hclear : (w.withDirectory o.outputDir).IsClear o.outputDir artifactNames :=
    isClear_withDirectory (by decide +kernel) hleads
  have hok : (write w).1.2.isOk = true := by decide +kernel
  have hheader' : (write w).2.Holds o.headerPath "" := currentText_eq_ok.mp (by decide +kernel)
  obtain ⟨-, hafter⟩ := check_iff_and_write_again o w "" hheader
  obtain ⟨hchecked, hagain, -⟩ := hafter hplace hclear hok hheader'
  exact ⟨hheader, hplace, hclear, hok, hheader', by decide +kernel, hchecked, hagain⟩

end ExportTables
