import ExportTables.Proofs.Constants
import Mathlib.Logic.Basic

/-!
# What the generated files tell

Every generated file can be read back, so a file tells the tables that it was rendered from and
nothing else: two manifests have the same file of a kind exactly when they agree on the tables of
this kind (`render_eq_iff`). No name can blur the border between two elements, two constants, or a
name and its prefix.
-/

namespace ExportTables

namespace ArtifactKind

/-- Two manifests differ in a table that the files of this kind show. -/
def Differs : ArtifactKind → Manifest → Manifest → Prop
  | exportedFunctions, m, m' => m.linkedExports ≠ m'.linkedExports
  | runtimeMethods, m, m' => m.runtimeMethods ≠ m'.runtimeMethods
  | incomingMethods, m, m' => m.incomingMethods ≠ m'.incomingMethods
  | constants, m, m' => m.exports ≠ m'.exports ∨ m.runtimeMethods ≠ m'.runtimeMethods

instance : (kind : ArtifactKind) → (m m' : Manifest) → Decidable (kind.Differs m m')
  | exportedFunctions, m, m' => inferInstanceAs (Decidable (m.linkedExports ≠ m'.linkedExports))
  | runtimeMethods, m, m' => inferInstanceAs (Decidable (m.runtimeMethods ≠ m'.runtimeMethods))
  | incomingMethods, m, m' => inferInstanceAs (Decidable (m.incomingMethods ≠ m'.incomingMethods))
  | constants, m, m' =>
    inferInstanceAs (Decidable (m.exports ≠ m'.exports ∨ m.runtimeMethods ≠ m'.runtimeMethods))

end ArtifactKind

theorem Json.nameList_inj {names names' : List String} :
    nameList names = nameList names' ↔ names = names' := by
  constructor
  · intro h
    have hread := names?_nameList names
    rw [h, names?_nameList] at hread
    exact (Option.some.inj hread).symm
  · rintro rfl
    rfl

theorem Constants.render_eq_iff {m m' : Manifest} :
    render m = render m' ↔ m.exports = m'.exports ∧ m.runtimeMethods = m'.runtimeMethods := by
  constructor
  · intro h
    have hread := read?_render m
    rw [h, read?_render] at hread
    simpa [eq_comm] using hread
  · intro h
    obtain ⟨hexports, hmethods⟩ := h
    rw [render, render, hexports, hmethods]

theorem ArtifactKind.render_eq_iff (kind : ArtifactKind) (m m' : Manifest) :
    kind.render m = kind.render m' ↔ ¬kind.Differs m m' := by
  cases kind with
  | constants => simp [render, Differs, Constants.render_eq_iff]
  | exportedFunctions => simp [render, Differs, Json.nameList_inj]
  | runtimeMethods => simp [render, Differs, Json.nameList_inj]
  | incomingMethods => simp [render, Differs, Json.nameList_inj]

namespace Manifest

variable {m m' : Manifest}

/-- The prefix shows in the linked names as soon as there is one. -/
theorem linkedExports_eq_iff (h : m.exports = m'.exports) :
    m.linkedExports = m'.linkedExports ↔ (m.exports ≠ [] → m.linkagePrefix = m'.linkagePrefix) := by
  rw [linkedExports, linkedExports, ← h, List.map_inj_left]
  constructor
  · intro hall hne
    obtain ⟨name, rest, hnames⟩ := List.exists_cons_of_ne_nil hne
    have hname := hall name (by simp [hnames])
    rw [← String.toList_inj, String.toList_append, String.toList_append] at hname
    exact String.toList_inj.mp (List.append_cancel_right hname)
  · intro hall name hname
    rw [hall (List.ne_nil_of_mem hname)]

theorem forall_not_differs_iff :
    (∀ kind : ArtifactKind, ¬kind.Differs m m') ↔
      m.exports = m'.exports ∧ m.runtimeMethods = m'.runtimeMethods ∧
        m.incomingMethods = m'.incomingMethods ∧
        (m.exports ≠ [] → m.linkagePrefix = m'.linkagePrefix) := by
  constructor
  · intro h
    have hlinked : m.linkedExports = m'.linkedExports := not_not.mp (h .exportedFunctions)
    obtain ⟨hexports, hmethods⟩ := not_or.mp (h .constants)
    have hexports := not_not.mp hexports
    exact ⟨hexports, not_not.mp hmethods, not_not.mp (h .incomingMethods),
      (linkedExports_eq_iff hexports).mp hlinked⟩
  · intro h kind
    obtain ⟨hexports, hmethods, hincoming, hprefix⟩ := h
    cases kind with
    | exportedFunctions => exact not_not.mpr ((linkedExports_eq_iff hexports).mpr hprefix)
    | runtimeMethods => exact not_not.mpr hmethods
    | incomingMethods => exact not_not.mpr hincoming
    | constants => exact not_or.mpr ⟨not_not.mpr hexports, not_not.mpr hmethods⟩

/-- The module of constants and the lists for the compiler say the same: the first constant has the
names of the export list without the prefix that the compiler needs, and the second one has the
names of the list of runtime methods, in the same order and as often. -/
theorem constants_mirror_lists (m : Manifest) :
    Constants.read? (ArtifactKind.constants.render m) =
        some ⟨Constants.bannerComments, [⟨"EXPORTED_FUNCTIONS", m.exports⟩,
          ⟨"EXPORTED_RUNTIME_METHODS", m.runtimeMethods⟩]⟩ ∧
      Json.names? (ArtifactKind.exportedFunctions.render m) =
        some (m.exports.map (m.linkagePrefix ++ ·)) ∧
      Json.names? (ArtifactKind.runtimeMethods.render m) = some m.runtimeMethods :=
  ⟨Constants.read?_render m, Json.names?_nameList _, Json.names?_nameList _⟩

end Manifest

end ExportTables
