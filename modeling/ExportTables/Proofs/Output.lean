import ExportTables.Proofs.Artifact
import ExportTables.Proofs.Files.Rewriting

/-!
# The output directory before and after

A comparison reads what the paths of the files lead to and changes nothing. Once the files of a
manifest have been written they are what is read there, so a comparison with another manifest tells
in which files the two manifests differ.
-/

namespace ExportTables

open FileSystem FileTree World ExportTables.Path

/-! ## Comparing -/

theorem onlyLooks_currentText (path : String) : OnlyLooks (Output.currentText path) := by
  intro w
  rw [run_currentText]

theorem onlyLooks_staleIn (directory : String) (artifacts : List Artifact) :
    OnlyLooks (Output.staleIn directory artifacts) := by
  induction artifacts with
  | nil => exact .pure _
  | cons a rest ih =>
    apply (onlyLooks_currentText _).bind
    intro current
    split
    · exact .pure _
    · apply ih.bind
      intro names
      split <;> exact .pure _

/-- Why what a path leads to cannot be compared with a text. What is missing or no file can be, and
a file that holds no text cannot. -/
def obstacleIn? (path : String) : Except FileError Entry → Option OutputError
  | .ok (.file bytes _) =>
    if (String.fromUTF8? bytes).isSome then none else some (.unreadable path .invalidText)
  | .ok (.link _) => some (.unreadable path .isADirectory)
  | _ => none

/-- Why the file of an artifact cannot be compared. -/
def World.obstacle? (w : World) (directory : String) (a : Artifact) : Option OutputError :=
  obstacleIn? (join directory a.fileName) (w.tree.lookup w.here (join directory a.fileName))

section

variable {directory : String} {artifacts : List Artifact} {w : World}

theorem obstacle?_of_currentText {a : Artifact} :
    w.obstacle? directory a =
      match ((Output.currentText (join directory a.fileName) : StateM World _).run w).1 with
      | .error e => some e
      | .ok _ => none := by
  rw [run_currentText, World.obstacle?]
  cases w.tree.lookup w.here (join directory a.fileName) with
  | error e => rfl
  | ok entry =>
    cases entry with
    | directory => rfl
    | null => rfl
    | link => rfl
    | file bytes => cases hbytes : String.fromUTF8? bytes <;> simp [obstacleIn?, hbytes]

/-- A comparison fails for the first file that cannot be compared, and otherwise lists the files
that do not hold what is wanted. -/
theorem run_staleIn (directory : String) (artifacts : List Artifact) (w : World) :
    (Output.staleIn directory artifacts : StateM World _).run w =
      (match artifacts.findSome? (w.obstacle? directory) with
        | some e => .error e
        | none => .ok ((artifacts.filter fun a =>
            ¬w.Holds (join directory a.fileName) a.contents).map Artifact.fileName), w) := by
  induction artifacts with
  | nil => rfl
  | cons a rest ih =>
    rw [Output.staleIn, run_bind, onlyLooks_currentText, List.findSome?_cons,
      obstacle?_of_currentText]
    cases hcurrent : ((Output.currentText (join directory a.fileName) :
        StateM World _).run w).1 with
    | error e => rfl
    | ok current =>
      dsimp only
      rw [run_bind, ih]
      cases rest.findSome? (w.obstacle? directory) with
      | some e => rfl
      | none =>
        have hheld :
            current = some a.contents ↔ w.Holds (join directory a.fileName) a.contents := by
          rw [← currentText_eq_ok, hcurrent, Except.ok.injEq]
        dsimp only
        by_cases hholds : w.Holds (join directory a.fileName) a.contents
        · rw [if_pos (hheld.mpr hholds), List.filter_cons_of_neg (by simp [hholds])]
          rfl
        · rw [if_neg (hheld.not.mpr hholds), List.filter_cons_of_pos (by simp [hholds])]
          rfl

/-- Where every file is a text, each can be compared. -/
theorem findSome?_obstacle?_eq_none
    (h : ∀ a ∈ artifacts, ∃ text, w.Holds (join directory a.fileName) text) :
    artifacts.findSome? (w.obstacle? directory) = none := by
  rw [List.findSome?_eq_none_iff]
  intro a ha
  obtain ⟨text, hheld⟩ := h a ha
  rw [obstacle?_of_currentText, currentText_eq_ok.mpr hheld]

/-- Nothing is stale exactly if every path leads to a regular file with the contents wanted. -/
theorem staleIn_eq_nil : ((Output.staleIn directory artifacts : StateM World _).run w).1 = .ok [] ↔
    ∀ a ∈ artifacts, w.Holds (join directory a.fileName) a.contents := by
  rw [run_staleIn]
  constructor
  · intro h
    split at h
    · cases h
    · have hstale := List.filter_eq_nil_iff.mp (List.map_eq_nil_iff.mp (Except.ok.inj h))
      simpa using hstale
  · intro h
    have hstale : (artifacts.filter fun a =>
        ¬w.Holds (join directory a.fileName) a.contents) = [] := by
      rw [List.filter_eq_nil_iff]
      simpa using h
    rw [findSome?_obstacle?_eq_none fun a ha => ⟨_, h a ha⟩, hstale]
    rfl

/-- Where the files of one manifest are, those files of another one are stale in which the two
manifests differ. -/
theorem run_staleIn_of_holds {m : Manifest} {kinds : List ArtifactKind} (h : ∀ kind ∈ kinds,
      w.Holds (join directory kind.fileName) (String.ofList (kind.render m))) (m' : Manifest) :
    (Output.staleIn directory (kinds.map fun kind => ⟨kind, String.ofList (kind.render m')⟩) :
      StateM World _).run w =
      (.ok ((kinds.filter fun kind => kind.Differs m m').map ArtifactKind.fileName), w) := by
  have hdiffers : ∀ kind ∈ kinds,
      (¬w.Holds (join directory kind.fileName) (String.ofList (kind.render m')) ↔
        kind.Differs m m') := by
    intro kind hkind
    rw [not_iff_comm, ← kind.render_eq_iff, ← String.ofList_inj]
    constructor
    · intro heq
      rw [← heq]
      exact h kind hkind
    · exact (h kind hkind).unique
  have hfilter : (kinds.filter fun kind =>
      ¬w.Holds (join directory kind.fileName) (String.ofList (kind.render m'))) =
      kinds.filter fun kind => kind.Differs m m' := by
    apply List.filter_congr
    intro kind hkind
    exact decide_eq_decide.mpr (hdiffers kind hkind)
  rw [run_staleIn, findSome?_obstacle?_eq_none, List.filter_map, List.map_map]
  · exact congrArg (fun stale => (Except.ok (stale.map ArtifactKind.fileName), w)) hfilter
  · rw [List.forall_mem_map]
    intro kind hkind
    exact ⟨_, h kind hkind⟩

end

/-! ## Writing -/

/-- The names of the generated files. -/
def artifactNames : List String := ArtifactKind.all.map ArtifactKind.fileName

theorem areFileNames_artifactNames : AreFileNames artifactNames := by
  have hplain : ∀ name ∈ artifactNames, name ≠ "" ∧ '/' ∉ name.toList ∧ name ≠ "." ∧ name ≠ ".." ∧
      name.toList.head? ≠ some '.' := by
    decide
  refine ⟨?_, by decide, ?_, by decide⟩
  · intro name hname
    obtain ⟨hempty, hslash, hdot, hdotdot, -⟩ := hplain name hname
    exact ⟨hempty, hslash, hdot, hdotdot⟩
  · rintro name hname n rfl
    obtain ⟨digits, -, -, htext⟩ := toList_temporaryName n
    obtain ⟨-, -, -, -, hhead⟩ := hplain _ hname
    rw [htext] at hhead
    exact hhead rfl

/-- The generated files by name. -/
def Manifest.files (m : Manifest) : List (String × String) :=
  m.artifacts.map fun a => (a.fileName, a.contents)

theorem run_writeAll (directory : String) (m : Manifest) (w : World) :
    (Output.writeAll directory m.artifacts : StateM World _).run w =
      let written := (Staging.placeFiles directory m.files : StateM World _).run w
      (written.1.mapError (.notWritten directory), written.2) := by
  change (Staging.placeFiles directory m.files >>= _ : StateM World _).run w = _
  rw [run_bind]
  cases (Staging.placeFiles directory m.files : StateM World _).run w with
  | mk result u => cases result <;> rfl

theorem Manifest.files_ne_nil (m : Manifest) : m.files ≠ [] := List.cons_ne_nil _ _

theorem Manifest.isName_files (m : Manifest) : ∀ file ∈ m.files, IsName file.1 :=
  fun file hfile => areFileNames_artifactNames.isName file.1 (List.mem_map_of_mem hfile)

theorem hasFiles_of_writeAll {directory : String} {m : Manifest} {w w' : World}
    {written : List String} (hplace : HasPlace w.tree w.here)
    (hclear : (w.withDirectory directory).IsClear directory artifactNames)
    (h : (Output.writeAll directory m.artifacts : StateM World _).run w = (.ok written, w')) :
    ∃ d, HasFiles directory m.files d (w.withDirectory directory) w' := by
  rw [run_writeAll] at h
  cases hwritten : (Staging.placeFiles directory m.files : StateM World _).run w with
  | mk result u =>
  rw [hwritten] at h
  cases result with
  | error e => cases (Prod.mk.inj h).1
  | ok paths =>
    obtain rfl : u = w' := (Prod.mk.inj h).2
    exact hasFiles_of_placeFiles m.files_ne_nil areFileNames_artifactNames hplace hclear hwritten

/-- When the files of one manifest have been written, a comparison with another manifest lists the
files in which the two differ. It lists none exactly if the tables are the same, where the prefix
counts as soon as something is exported. -/
theorem staleIn_after_writeAll (m m' : Manifest) (directory : String) (w w' : World)
    (written : List String) (hplace : HasPlace w.tree w.here)
    (hclear : (w.withDirectory directory).IsClear directory artifactNames)
    (hwritten : (Output.writeAll directory m.artifacts : StateM World _).run w =
      (.ok written, w')) :
    let stale := (ArtifactKind.all.filter fun kind => kind.Differs m m').map ArtifactKind.fileName
    (Output.staleIn directory m'.artifacts : StateM World _).run w' = (.ok stale, w') ∧
      (stale = [] ↔ m.exports = m'.exports ∧ m.runtimeMethods = m'.runtimeMethods ∧
        m.incomingMethods = m'.incomingMethods ∧
        (m.exports ≠ [] → m.linkagePrefix = m'.linkagePrefix)) := by
  intro stale
  obtain ⟨d, hfiles⟩ := hasFiles_of_writeAll hplace hclear hwritten
  have hholds : ∀ kind ∈ ArtifactKind.all,
      w'.Holds (join directory kind.fileName) (String.ofList (kind.render m)) := by
    intro kind hkind
    have hfile : (kind.fileName, String.ofList (kind.render m)) ∈ m.files :=
      List.mem_map.mpr ⟨⟨kind, _⟩, List.mem_map_of_mem hkind, rfl⟩
    exact hfiles.holds m.isName_files (kind.fileName, String.ofList (kind.render m)) hfile
  refine ⟨run_staleIn_of_holds hholds m', ?_⟩
  have hall : ∀ kind : ArtifactKind, kind ∈ ArtifactKind.all := by
    intro kind
    cases kind <;> decide
  rw [← Manifest.forall_not_differs_iff, List.map_eq_nil_iff, List.filter_eq_nil_iff]
  simp [hall]

/-- A name that reads like two in a list is not taken for two. -/
theorem staleIn_after_writeAll_quotes :
    let m : Manifest := { exports := ["a\",\n  \"b"], linkagePrefix := "_" }
    let m' : Manifest := { exports := ["a", "b"], linkagePrefix := "_", manualCount := 2 }
    let w : World := ⟨⟨[(["out"], .directory true)]⟩, {}⟩
    HasPlace w.tree w.here ∧ (w.withDirectory "out").IsClear "out" artifactNames ∧
      ∃ written w', (Output.writeAll "out" m.artifacts : StateM World _).run w = (.ok written, w') ∧
        (Output.staleIn "out" m'.artifacts : StateM World _).run w' =
          (.ok ["exported-functions.json", "exports.generated.ts"], w') := by
  intro m m' w
  have hplace : HasPlace w.tree w.here := fun _ => trivial
  have hleads : ∀ usable, w.tree.PathLeads usable w.here "out" ["out"] := by
    intro usable
    exact ⟨[], ["out"], by decide +kernel, .enter rfl (by decide) (by decide) rfl (by simp) .done⟩
  have hclear : (w.withDirectory "out").IsClear "out" artifactNames :=
    isClear_withDirectory (by decide +kernel) hleads
  have hok : ((Output.writeAll "out" m.artifacts : StateM World _).run w).1.isOk = true := by
    decide +kernel
  cases hwritten : (Output.writeAll "out" m.artifacts : StateM World _).run w with
  | mk result w' =>
  rw [hwritten] at hok
  cases result with
  | error e => cases hok
  | ok written =>
    obtain ⟨hstale, -⟩ := staleIn_after_writeAll m m' "out" w w' written hplace hclear hwritten
    exact ⟨hplace, hclear, written, w', rfl, hstale⟩

end ExportTables
