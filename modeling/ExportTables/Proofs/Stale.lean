import ExportTables.Proofs.Check

/-!
# What is out of date

Files that are missing, that are no files, and those that are texts can be compared: of them a
comparison lists those that do not hold what is wanted, in the order in which they are written and
each once. A file whose bytes are no text differs as well, but it is not listed. The comparison
takes it for a file that cannot be read and fails, and what else is stale is not named then
(`staleIn_fails_on_bytes`).
-/

namespace ExportTables

open FileSystem FileTree World ExportTables.Path

/-- A comparison lists the stale files unless one of them cannot be compared, and a check fails with
the list. If some cannot be compared, both fail for the first of these. -/
theorem staleIn_and_check (m : Manifest) (directory : String) (w : World) :
    let run := (Output.staleIn directory m.artifacts : StateM World _).run w
    let obstacle := m.artifacts.findSome? (w.obstacle? directory)
    let stale := (m.artifacts.filter fun a =>
      ¬w.Holds (join directory a.fileName) a.contents).map Artifact.fileName
    run.2 = w ∧ stale.Sublist artifactNames ∧ stale.Nodup ∧
      (run.1 = match obstacle with
        | some e => .error e
        | none => .ok stale) ∧
      ∀ (o : Options) (text : String), o.mode = .check → o.outputDir = directory →
        w.Holds o.headerPath text →
        Manifest.ofDiscovered (Header.ofText o.config.header.rule o.headerPath text).symbols
          o.config = m →
        ((generate o : StateM World _).run w).1.2.map Report.written =
          match obstacle, stale with
          | some e, _ => .error (.output e)
          | none, [] => .ok []
          | none, stale => .error (.fault (.staleArtifacts directory stale)) := by
  intro run obstacle stale
  have hrun : run = (match obstacle with
      | some e => .error e
      | none => .ok stale, w) := run_staleIn directory m.artifacts w
  have hnames : m.artifacts.map Artifact.fileName = artifactNames := by
    rw [Manifest.artifacts, List.map_map]
    rfl
  have hsublist : stale.Sublist artifactNames := by
    rw [← hnames]
    exact List.filter_sublist.map _
  refine ⟨congrArg Prod.snd hrun, hsublist, areFileNames_artifactNames.apart.sublist hsublist,
    congrArg Prod.fst hrun, ?_⟩
  rintro o text hmode rfl hheader rfl
  rw [run_generate_of_holds hheader, written_outcome, written_finish_check hmode,
    show ((Output.staleIn o.outputDir _ : StateM World _).run w).1 = _ from congrArg Prod.fst hrun]
  cases obstacle with
  | some e => rfl
  | none => cases stale <;> rfl

/-- One file that is no text hides that the three others are missing. -/
theorem staleIn_and_check_no_text :
    let w : World := ⟨⟨[(["h"], .file "".toUTF8 false), (["out"], .directory true),
      (["out", "exports.generated.ts"], .file ⟨#[0xff]⟩ false)]⟩, {}⟩
    let o : Options :=
      { outputDir := "out", includeDir := some "", config.header.file := "h", mode := .check }
    w.Holds o.headerPath "" ∧
      ((generate o : StateM World _).run w).1.2.map Report.written =
        .error (.output (.unreadable "out/exports.generated.ts" .invalidText)) := by
  intro w o
  have hheader : w.Holds o.headerPath "" := by decide +kernel
  have hobstacle : (Manifest.ofDiscovered (Header.ofText o.config.header.rule o.headerPath
      "").symbols o.config).artifacts.findSome? (w.obstacle? o.outputDir) =
      some (.unreadable "out/exports.generated.ts" .invalidText) := by decide +kernel
  obtain ⟨-, -, -, -, hcheck⟩ := staleIn_and_check _ o.outputDir w
  refine ⟨hheader, ?_⟩
  rw [hcheck o "" rfl rfl hheader rfl, hobstacle]

/-- Not every comparison lists the stale files: bytes that are no text make it fail. -/
theorem staleIn_fails_on_bytes :
    ¬∀ (m : Manifest) (directory : String) (w : World),
      ((Output.staleIn directory m.artifacts : StateM World _).run w).1 =
        .ok ((m.artifacts.filter fun a =>
          ¬w.Holds (join directory a.fileName) a.contents).map Artifact.fileName) := by
  intro h
  let w : World := ⟨⟨[(["out"], .directory true),
    (["out", "exported-functions.json"], .file ⟨#[0xff]⟩ false)]⟩, {}⟩
  have hfails : ((Output.staleIn "out" ({} : Manifest).artifacts : StateM World _).run w).1 =
      .error (.unreadable "out/exported-functions.json" .invalidText) := by decide +kernel
  rw [h] at hfails
  cases hfails

end ExportTables
