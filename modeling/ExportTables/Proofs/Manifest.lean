import ExportTables.Manifest
import Mathlib.Data.List.Induction
import Mathlib.Tactic.Tauto

/-!
# The manifest accounts for every name

The counts of a manifest are taken from the lengths of two lists, the names found in a header and
the finished export list. They are right because every name that is found either goes behind the
exports assembled so far or is one of the excluded ones. `length_assemble` is the balance that each
name keeps (`assemble_concat`), whatever the manual, the excluded and the found names have in
common.
-/

namespace ExportTables.Manifest

variable {names manual exclude other : List String}

/-! ## Assembling, name by name -/

theorem assemble_nil : assemble [] manual exclude = manual := List.append_nil _

/-- One more name is left out if it is excluded, and is exported behind all others if it is not. -/
theorem assemble_concat (name : String) : assemble (names ++ [name]) manual exclude =
    if name ∈ exclude then assemble names manual exclude
    else assemble names manual exclude ++ [name] := by
  rw [assemble, assemble, List.filter_append, ← List.append_assoc]
  split
  · rename_i hexcluded
    simp [hexcluded]
  · rename_i hkept
    simp [hkept]

/-- The exports and the excluded names make up the manual names and the names found. -/
theorem length_assemble : (assemble names manual exclude).length + names.countP (· ∈ exclude) =
    manual.length + names.length := by
  induction names using List.reverseRecOn with
  | nil => rw [assemble_nil]; rfl
  | append_singleton names name ih =>
    rw [assemble_concat, List.countP_append, List.countP_singleton, List.length_append,
      List.length_singleton]
    by_cases hexcluded : name ∈ exclude
    · simp only [hexcluded, decide_true, if_true]
      omega
    · simp only [hexcluded, decide_false, if_false, Bool.false_eq_true, List.length_append,
        List.length_singleton]
      omega

/-- Every name is exported as often as the manual names ask for it, and as often again as it was
found unless it is excluded. -/
theorem count_assemble (name : String) : (assemble names manual exclude).count name =
    manual.count name + if name ∈ exclude then 0 else names.count name := by
  rw [assemble, List.count_append]
  congr 1
  split
  · rename_i hexcluded
    rw [List.count_eq_zero]
    simp [hexcluded]
  · rename_i hkept
    rw [List.count_filter]
    simpa using hkept

/-- An exclusion list counts by its members alone. -/
theorem assemble_congr (h : ∀ name, name ∈ other ↔ name ∈ exclude) :
    assemble names manual other = assemble names manual exclude := by
  rw [assemble, assemble]
  congr 1
  apply List.filter_congr
  intro name _
  rw [Bool.eq_iff_iff]
  simp [h name]

/-! ## The counts of a manifest -/

variable {config : Config}

theorem manualCount_le_length :
    (ofDiscovered names config).manualCount ≤ (ofDiscovered names config).exports.length := by
  change config.exports.manual.length ≤ (config.exports.manual ++ _).length
  rw [List.length_append]
  exact Nat.le_add_right _ _

/-- As many exports as there are besides the manual names, and the excluded ones, were found. -/
theorem kept_add_excluded : (ofDiscovered names config).exports.length -
      (ofDiscovered names config).manualCount + names.countP (· ∈ config.exports.exclude) =
    names.length := by
  have hbalance := @length_assemble names config.exports.manual config.exports.exclude
  have hle := @manualCount_le_length names config
  change config.exports.manual.length ≤ (assemble names _ _).length at hle
  change (assemble names _ _).length - config.exports.manual.length + _ = _
  omega

theorem manual?_ofDiscovered :
    (ofDiscovered names config).manual? = some config.exports.manual := by
  rw [manual?, if_pos manualCount_le_length]
  exact congrArg some (List.take_left ..)

theorem discovered?_ofDiscovered : (ofDiscovered names config).discovered? =
    some (names.filter (· ∉ config.exports.exclude)) := by
  rw [discovered?, if_pos manualCount_le_length]
  change some ((config.exports.manual ++ _).drop config.exports.manual.length) = _
  rw [List.drop_left]
  simp

theorem excludedCount_ofDiscovered : (ofDiscovered names config).excludedCount =
    names.countP (· ∈ config.exports.exclude) := by
  have hsplit := @kept_add_excluded names config
  change names.length - ((ofDiscovered names config).exports.length -
    (ofDiscovered names config).manualCount) = _
  omega

theorem ofDiscovered_congr (h : ∀ name, name ∈ other ↔ name ∈ config.exports.exclude) :
    ofDiscovered names { config with exports := { config.exports with exclude := other } } =
      ofDiscovered names config := by
  simp only [ofDiscovered, assemble_congr h]

/-- The manifest accounts for every name. Both differences that its counts are taken from are exact.
In front of the exports stand the manual names, and behind them the names found that are not
excluded, in order. Each name is exported as often as the two lists ask for it, the excluded count
is the number of names left out, and the four numbers balance. Of the exclusion list only its
members matter. -/
theorem ofDiscovered_accounts (names : List String) (config : Config) :
    let m := ofDiscovered names config
    let manual := config.exports.manual
    let exclude := config.exports.exclude
    (m.manualCount ≤ m.exports.length ∧ m.exports.length - m.manualCount ≤ names.length) ∧
      m.manual? = some manual ∧ m.discovered? = some (names.filter (· ∉ exclude)) ∧
      (∀ name, m.exports.count name =
        manual.count name + if name ∈ exclude then 0 else names.count name) ∧
      m.excludedCount = names.countP (· ∈ exclude) ∧
      m.exports.length + m.excludedCount = m.manualCount + m.discoveredCount ∧
      ∀ other, (∀ name, name ∈ other ↔ name ∈ exclude) →
        ofDiscovered names { config with exports := { config.exports with exclude := other } } =
          m := by
  intro m manual exclude
  have hkept : m.exports.length - m.manualCount + names.countP (· ∈ exclude) = names.length :=
    kept_add_excluded
  refine ⟨⟨manualCount_le_length, ?_⟩, manual?_ofDiscovered, discovered?_ofDiscovered,
    count_assemble, excludedCount_ofDiscovered, ?_, fun other => ofDiscovered_congr⟩
  · omega
  · rw [excludedCount_ofDiscovered]
    exact length_assemble

/-- A name that is found twice, one that is manual and found, and one that is manual, found and
excluded, with the exclusion list in another order and with a repetition. -/
theorem ofDiscovered_accounts_overlapping :
    let names := ["q_b", "malloc", "q_a", "q_b", "q_a"]
    let config : Config :=
      { exports.manual := ["malloc", "q_b", "malloc"], exports.exclude := ["q_x", "q_b"] }
    let m := ofDiscovered names config
    (∀ name, name ∈ ["q_b", "q_x", "q_b"] ↔ name ∈ config.exports.exclude) ∧
      ofDiscovered names
          { config with exports := { config.exports with exclude := ["q_b", "q_x", "q_b"] } } = m ∧
      m.exports = ["malloc", "q_b", "malloc", "malloc", "q_a", "q_a"] ∧ m.excludedCount = 2 ∧
      m.exports.length + m.excludedCount = m.manualCount + m.discoveredCount := by
  intro names config m
  have hsame : ∀ name, name ∈ ["q_b", "q_x", "q_b"] ↔ name ∈ config.exports.exclude := by
    intro name
    simp only [config, List.mem_cons, List.not_mem_nil, or_false]
    tauto
  obtain ⟨-, -, -, -, hexcluded, hbalance, hcongr⟩ := ofDiscovered_accounts names config
  refine ⟨hsame, hcongr _ hsame, by decide, ?_, hbalance⟩
  rw [hexcluded]
  decide

end ExportTables.Manifest
