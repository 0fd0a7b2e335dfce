import ExportTables.Files.Staging
import ExportTables.Proofs.Files.Entries
import Mathlib.Logic.Relation

/-!
# Asking for a directory

To ask for a directory adds what is missing of it and changes nothing else: whatever stands in the
tree stays, and each entry that is added is a directory that the path or one of the paths above it
names. That holds whether the directory could be made or not.
-/

namespace ExportTables

namespace World

open FileSystem FileTree

/-! ## Runs of single operations -/

theorem run_bind {α β : Type} (x : StateM World α) (f : α → StateM World β) (w : World) :
    (x >>= f).run w = (f (x.run w).1).run (x.run w).2 := rfl

theorem run_pure {α : Type} (a : α) (w : World) : (pure a : StateM World α).run w = (a, w) := rfl

theorem run_kind (path : String) (w : World) :
    (FileSystem.kind path : StateM World _).run w = (w.kind path, w) := rfl

theorem run_entryKind (path : String) (w : World) :
    (FileSystem.entryKind path : StateM World _).run w = (w.entryKind path, w) := rfl

theorem run_readBytes (path : String) (w : World) :
    (readBytes path : StateM World _).run w = (w.tree.read w.here path, w) := rfl

theorem run_createDirectory (path : String) (w : World) :
    (createDirectory path : StateM World _).run w =
      w.update (w.tree.create w.here path (.directory true)) := rfl

theorem run_createTemporary (directory : String) (contents : ByteArray) (w : World) :
    (FileSystem.createTemporary directory contents : StateM World _).run w =
      w.createTemporary directory contents := rfl

theorem run_rename (source target : String) (w : World) :
    (rename source target : StateM World _).run w =
      w.update (w.tree.rename w.here source target) := rfl

theorem run_remove (path : String) (w : World) :
    (FileSystem.remove path : StateM World _).run w = ((), w.remove path) := rfl

/-! ## Looking changes nothing -/

/-- A computation leaves every world as it is. -/
def OnlyLooks {α : Type} (x : StateM World α) : Prop := ∀ w, (x.run w).2 = w

variable {α β : Type}

theorem OnlyLooks.pure (a : α) : OnlyLooks (pure a) := fun _ => rfl

theorem OnlyLooks.bind {x : StateM World α} {f : α → StateM World β} (hx : OnlyLooks x)
    (hf : ∀ a, OnlyLooks (f a)) : OnlyLooks (x >>= f) := by
  intro w
  rw [run_bind, hf, hx]

theorem onlyLooks_pathExists (path : String) : OnlyLooks (pathExists path) := by
  apply OnlyLooks.bind
  · intro w
    rfl
  · intro found
    split <;> exact .pure _

theorem onlyLooks_isDirectory (path : String) : OnlyLooks (isDirectory path) := by
  apply OnlyLooks.bind
  · intro w
    rfl
  · intro found
    split <;> exact .pure _

theorem onlyLooks_isFile (path : String) : OnlyLooks (isFile path) := by
  apply OnlyLooks.bind
  · intro w
    rfl
  · intro found
    split <;> exact .pure _

theorem onlyLooks_readText (path : String) : OnlyLooks (readText path) := by
  apply OnlyLooks.bind
  · intro w
    rfl
  · intro contents
    split
    · exact .pure _
    · split <;> exact .pure _

/-! ## Missing directories -/

/-- One of the paths that a path is made through: the path itself or one above it. -/
def Above : String → String → Prop := Relation.ReflTransGen fun p q => Path.parent? p = some q

/-- A world has grown by nothing but directories, each of which a path above `path` names. -/
structure AddsDirectories (path : String) (w w' : World) : Prop where
  here : w'.here = w.here
  kept : ∀ l entry, w.tree.get? l = some entry → w'.tree.get? l = some entry
  added : ∀ l entry, w.tree.get? l = none → w'.tree.get? l = some entry →
    entry = .directory true ∧ ∃ p d name, Above path p ∧
      w'.tree.NamesEntry (fun _ => True) w'.here p d name ∧ d ++ [name] = l

variable {path : String} {w w' w'' : World}

theorem AddsDirectories.refl (path : String) (w : World) : AddsDirectories path w w where
  here := rfl
  kept _ _ h := h
  added l entry hnone h := by
    rw [hnone] at h
    cases h

theorem AddsDirectories.keeps (h : AddsDirectories path w w') (usable : Location → Prop) :
    Keeps usable w.tree w'.tree where
  directories _ _ := h.kept _ _
  links _ _ _ := h.kept _ _

theorem AddsDirectories.trans (h : AddsDirectories path w w') (h' : AddsDirectories path w' w'') :
    AddsDirectories path w w'' where
  here := h'.here.trans h.here
  kept l entry hentry := h'.kept l entry (h.kept l entry hentry)
  added l entry hnone hentry := by
    cases hmid : w'.tree.get? l with
    | none => exact h'.added l entry hmid hentry
    | some old =>
      obtain ⟨hold, p, d, name, habove, hnames, hl⟩ := h.added l old hnone hmid
      have hsame := h'.kept l old hmid
      rw [hentry] at hsame
      refine ⟨(Option.some.inj hsame).trans hold, p, d, name, habove, ?_, hl⟩
      rw [h'.here]
      exact hnames.keep (h'.keeps _)

theorem AddsDirectories.above {p : String} (h : AddsDirectories p w w') (hp : Above path p) :
    AddsDirectories path w w' where
  here := h.here
  kept := h.kept
  added l entry hnone hentry := by
    obtain ⟨hdirectory, q, d, name, habove, hnames, hl⟩ := h.added l entry hnone hentry
    exact ⟨hdirectory, q, d, name, hp.trans habove, hnames, hl⟩

/-- A computation adds nothing to any world but directories. -/
def OnlyAdds (path : String) {α : Type} (x : StateM World α) : Prop :=
  ∀ w, AddsDirectories path w (x.run w).2

theorem OnlyLooks.onlyAdds {x : StateM World α} (h : OnlyLooks x) (path : String) :
    OnlyAdds path x := by
  intro w
  rw [h w]
  exact .refl path w

theorem OnlyAdds.bind {x : StateM World α} {f : α → StateM World β} (hx : OnlyAdds path x)
    (hf : ∀ a, OnlyAdds path (f a)) : OnlyAdds path (x >>= f) := by
  intro w
  rw [run_bind]
  exact (hx w).trans (hf _ _)

theorem OnlyAdds.pure (a : α) : OnlyAdds path (Pure.pure a) := (OnlyLooks.pure a).onlyAdds path

theorem onlyAdds_createDirectory (path : String) : OnlyAdds path (createDirectory path) := by
  intro w
  rw [run_createDirectory]
  cases hmade : w.tree.create w.here path (.directory true) with
  | error e => exact .refl path w
  | ok tree =>
    obtain ⟨d, name, hnames, hnone, -, rfl⟩ := create_eq_ok.mp hmade
    have hother : ∀ l entry, w.tree.get? l = some entry →
        (w.tree.put (d ++ [name]) (.directory true)).get? l = some entry := by
      intro l entry hentry
      rw [get?_put_of_ne, hentry]
      rintro rfl
      rw [hnone] at hentry
      cases hentry
    refine ⟨rfl, hother, ?_⟩
    intro l entry hl hentry
    change (w.tree.put (d ++ [name]) (.directory true)).get? l = some entry at hentry
    obtain rfl : l = d ++ [name] := by
      by_contra hne
      rw [get?_put_of_ne _ hne, hl] at hentry
      cases hentry
    rw [get?_put_self _ (by simp)] at hentry
    exact ⟨(Option.some.inj hentry).symm, path, d, name, .refl,
      hnames.keep ⟨fun _ _ => hother _ _, fun _ _ _ => hother _ _⟩, rfl⟩

theorem onlyLooks_okIfDirectory (path : String) (e : FileError) :
    OnlyLooks (do if ← isDirectory path then return Except.ok () else return .error e) := by
  apply (onlyLooks_isDirectory path).bind
  intro found
  split <;> exact .pure _

theorem onlyAdds_createNestedUpTo (fuel : Nat) (path : String) :
    OnlyAdds path (createNestedUpTo fuel path) := by
  induction fuel generalizing path with
  | zero => exact .pure _
  | succ fuel ih =>
    have habove : OnlyAdds path
        (createNestedUpTo fuel ((Path.parent? path).getD "") : StateM World _) := by
      cases hparent : Path.parent? path with
      | some parent =>
        intro w
        exact (ih parent w).above (.single hparent)
      | none => cases fuel <;> exact .pure _
    rw [createNestedUpTo]
    split
    · exact .pure _
    · apply (onlyAdds_createDirectory path).bind
      intro made
      split
      · exact .pure _
      · apply habove.bind
        intro parents
        split
        · exact .pure _
        · apply (onlyAdds_createDirectory path).bind
          intro again
          split
          · exact .pure _
          · exact (onlyLooks_okIfDirectory path _).onlyAdds path
      · exact (onlyLooks_okIfDirectory path _).onlyAdds path

theorem onlyAdds_ensureDirectory (path : String) :
    OnlyAdds path (Staging.ensureDirectory path) := by
  apply ((onlyLooks_pathExists path).onlyAdds path).bind
  intro found
  split
  · exact .pure _
  · apply (onlyAdds_createNestedUpTo _ path).bind
    intro made
    split <;> exact .pure _

theorem run_ensureDirectory_of_exists {path : String} {w : World} (h : (w.kind path).isOk = true) :
    (Staging.ensureDirectory path : StateM World _).run w = (.ok (), w) := by
  have hexists : (pathExists path : StateM World Bool).run w = (true, w) := by
    rw [pathExists, run_bind, run_kind]
    cases hkind : w.kind path with
    | ok => rfl
    | error e =>
      rw [hkind] at h
      cases h
  rw [Staging.ensureDirectory, run_bind, hexists]
  rfl

/-- The world after a directory has been asked for. -/
def withDirectory (w : World) (path : String) : World :=
  ((Staging.ensureDirectory path : StateM World _).run w).2

theorem withDirectory_of_exists {path : String} {w : World} (h : (w.kind path).isOk = true) :
    w.withDirectory path = w := by
  rw [withDirectory, run_ensureDirectory_of_exists h]

theorem addsDirectories_withDirectory (w : World) (path : String) :
    AddsDirectories path w (w.withDirectory path) := onlyAdds_ensureDirectory path w

end World

end ExportTables
