import ExportTables.Config.File
import ExportTables.Proofs.Config.Reading
import ExportTables.Proofs.Files.Writing

/-!
# A configuration that has been saved is loaded

The file holds the document of the configuration, and that is read as this configuration. Only a
path that leads to a device does not keep what is saved there.
-/

namespace ExportTables.Config

open FileSystem World

variable {c : Config} {path : String} {w w' : World}

theorem onlyLooks_load (path : String) : OnlyLooks (load path) := by
  apply (onlyLooks_readText path).bind
  intro text
  split
  · exact .pure _
  · split <;> exact .pure _

theorem run_load {text : String} (h : w.Holds path text) :
    (load path : StateM World _).run w =
      ((ofText? text).elim (.error (.malformed path)) .ok, w) := by
  rw [load, run_bind, h.run_readText]
  dsimp only
  cases ofText? text <;> rfl

theorem run_load_of_holds (h : w.Holds path c.toText) :
    (load path : StateM World _).run w = (.ok c, w) := by
  rw [run_load h, ofText?_toText]
  rfl

theorem holds_of_save (h : (c.save path : StateM World _).run w = (.ok (), w')) :
    w'.Holds path c.toText ∨ w'.kind path = .ok .other := by
  rw [save, run_bind] at h
  cases hmade : (createNested ((Path.parent? path).getD "") : StateM World _).run w with
  | mk result v =>
  rw [hmade] at h
  cases result with
  | error e => cases (Prod.mk.inj h).1
  | ok =>
  dsimp only at h
  rw [run_bind] at h
  cases hwritten : (writeBytes path c.toText.toUTF8 : StateM World _).run v with
  | mk result u =>
  rw [hwritten] at h
  cases result with
  | error e => cases (Prod.mk.inj h).1
  | ok =>
    obtain rfl : u = w' := (Prod.mk.inj h).2
    exact holds_of_writeBytes hwritten

/-- The document of a configuration is read as this configuration, whatever its texts and lists are,
and so the configuration is loaded from the file that it has been saved to. -/
theorem load_after_save (c : Config) :
    ofText? c.toText = some c ∧
      ∀ (path : String) (w w' : World), (c.save path : StateM World _).run w = (.ok (), w') →
        w'.kind path ≠ .ok .other → (load path : StateM World _).run w' = (.ok c, w') := by
  refine ⟨ofText?_toText c, ?_⟩
  intro path w w' hsaved hkind
  exact run_load_of_holds ((holds_of_save hsaved).resolve_right hkind)

/-- Empty lists stay empty, and texts that no form fits without escapes are kept. -/
theorem load_after_save_escaped :
    let c : Config := {
      header := ⟨"", "\"\"\"'''\\", "\ufeff\r\n\t\x7f", "\n'''\"\"\""⟩
      exports := ⟨[], [""], "\r"⟩
      runtime := ⟨["'\"", "\n", "\x00"], []⟩ }
    ∃ w' : World, (c.save "d/c" : StateM World _).run {} = (.ok (), w') ∧
      w'.kind "d/c" ≠ .ok .other ∧ (load "d/c" : StateM World _).run w' = (.ok c, w') := by
  intro c
  have hsaved : ((c.save "d/c" : StateM World _).run {}).1 = .ok () := by decide +kernel
  have hkind : ((c.save "d/c" : StateM World _).run {}).2.kind "d/c" ≠ .ok .other := by
    decide +kernel
  exact ⟨_, Prod.ext hsaved rfl, hkind,
    (load_after_save c).2 "d/c" {} _ (Prod.ext hsaved rfl) hkind⟩

end ExportTables.Config
