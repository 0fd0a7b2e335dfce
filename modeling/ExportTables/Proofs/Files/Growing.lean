import ExportTables.Proofs.Files.Reading

/-!
# Trees that grow

While a directory is made nothing is taken away, so a path that has led to an entry leads to it
still (`AddsDirectories.entryKind`). The other way round fails: a path that leads nowhere may lead
somewhere once a directory has been made.

What has been asked for is there afterwards, unless the making has failed
(`isOk_kind_withDirectory`).
-/

namespace ExportTables

namespace FileTree

open ExportTables.Path

variable {t t' : FileTree} {working : WorkingDirectory} {path : String} {entry : Entry}

/-! ## What is kept -/

theorem entryAt_eq_ok {l : Location} : t.entryAt (some l) = .ok entry ↔ t.get? l = some entry := by
  rw [entryAt]
  split <;> simp_all

/-- That a path means the removed working directory is told by the path alone. -/
theorem locate_none {absolute : Bool} {route : List String}
    (h : t.locate false working absolute route = .ok none) :
    t'.locate false working absolute route = .ok none := by
  have hwalk : ∀ walked : Except FileError Location, walked.map some ≠ .ok none := by
    intro walked
    cases walked <;> simp [Except.map]
  rw [locate] at h ⊢
  split at h
  · exact absurd h (hwalk _)
  rw [if_neg ‹_›]
  split at h
  · exact absurd h (hwalk _)
  rw [if_neg ‹_›]
  split at h
  · rfl
  · exact absurd h (hwalk _)
  · cases h
  · cases h

section Kept

variable (hkept : ∀ l entry, t.get? l = some entry → t'.get? l = some entry)

include hkept

theorem slot?_kept {slot : Option (Location × String)} (h : t.slot? working path = .ok slot) :
    t'.slot? working path = .ok slot := by
  have hkeeps : Keeps (fun _ => True) t t' := ⟨fun _ _ => hkept _ _, fun _ _ _ => hkept _ _⟩
  cases slot with
  | some slot => exact slot?_eq_ok.mpr ((slot?_eq_ok.mp h).keep hkeeps)
  | none =>
    obtain ⟨⟨⟩, hvalid, h⟩ := bind_eq_ok.mp h
    refine bind_eq_ok.mpr ⟨(), hvalid, ?_⟩
    split at h
    · rfl
    obtain ⟨found, hway, h⟩ := bind_eq_ok.mp h
    cases found with
    | none => exact bind_eq_ok.mpr ⟨none, locate_none hway, h⟩
    | some place =>
      obtain ⟨⟨⟩, hplace, h⟩ := bind_eq_ok.mp h
      have hdirectory := checkDirectory_eq_ok.mp hplace
      have hway' := (locate_eq_ok.mp hway).keep hkeeps ⟨true, hdirectory⟩
      refine bind_eq_ok.mpr ⟨some place, locate_eq_ok.mpr hway', ?_⟩
      exact bind_eq_ok.mpr ⟨(), checkDirectory_eq_ok.mpr (hkept _ _ hdirectory), h⟩

theorem resolve_kept {place : Option Location} (h : t.resolve working path = .ok place)
    (hentry : t.entryAt place = .ok entry) : t'.resolve working path = .ok place := by
  have hkeeps : Keeps (fun _ => True) t t' := ⟨fun _ _ => hkept _ _, fun _ _ _ => hkept _ _⟩
  obtain ⟨⟨⟩, hvalid, hway⟩ := bind_eq_ok.mp h
  refine bind_eq_ok.mpr ⟨(), hvalid, ?_⟩
  cases place with
  | none => exact locate_none hway
  | some l =>
    have hl := entryAt_eq_ok.mp hentry
    exact locate_eq_ok.mpr ((locate_eq_ok.mp hway).keep_entry hkeeps hl (hkept _ _ hl))

/-- A path names the same entry in every tree that has all entries. -/
theorem lookupEntry_kept (h : t.lookupEntry working path = .ok entry) :
    t'.lookupEntry working path = .ok entry := by
  obtain ⟨place, hplace, hentry⟩ := bind_eq_ok.mp h
  have hentry' : t'.entryAt place = .ok entry := by
    cases place with
    | none => exact hentry
    | some l => exact entryAt_eq_ok.mpr (hkept _ _ (entryAt_eq_ok.mp hentry))
  refine bind_eq_ok.mpr ⟨place, ?_, hentry'⟩
  rw [resolveEntry] at hplace ⊢
  split at hplace
  · rw [if_pos ‹_›]
    exact resolve_kept hkept hplace hentry
  rw [if_neg ‹_›]
  obtain ⟨slot, hslot, hplace⟩ := bind_eq_ok.mp hplace
  refine bind_eq_ok.mpr ⟨slot, slot?_kept hkept hslot, ?_⟩
  cases slot with
  | some slot => exact hplace
  | none => exact resolve_kept hkept hplace hentry

end Kept

end FileTree

namespace World

open FileSystem FileTree

variable {path : String} {w w' : World}

theorem AddsDirectories.entryKind (h : AddsDirectories path w w') {target : String}
    {kind : EntryKind} (hkind : w.entryKind target = .ok kind) :
    w'.entryKind target = .ok kind := by
  rw [World.entryKind] at hkind ⊢
  cases hlookup : w.tree.lookupEntry w.here target with
  | error e => simp [hlookup, Except.map] at hkind
  | ok entry =>
    rw [h.here, lookupEntry_kept h.kept hlookup, ← hlookup]
    exact hkind

/-! ## What is made -/

theorem run_isDirectory (path : String) (w : World) :
    (isDirectory path : StateM World Bool).run w = (decide (w.kind path = .ok .directory), w) := by
  rw [isDirectory, run_bind, run_kind]
  cases w.kind path with
  | error e => rfl
  | ok kind => cases kind <;> rfl

theorem kind_of_createDirectory (h : ((createDirectory path : StateM World _).run w).1 = .ok ()) :
    ((createDirectory path : StateM World _).run w).2.kind path = .ok .directory := by
  have hadds := onlyAdds_createDirectory path w
  rw [run_createDirectory] at h hadds ⊢
  cases hmade : w.tree.create w.here path (.directory true) with
  | error e =>
    rw [hmade] at h
    cases h
  | ok tree =>
    rw [hmade] at hadds
    obtain ⟨d, name, hnames, -, -, rfl⟩ := create_eq_ok.mp hmade
    have hnames' := hnames.keep (hadds.keeps fun _ => True)
    have hself := get?_put_self w.tree (show d ++ [name] ≠ [] by simp) (.directory true)
    have hlookup : (w.tree.put (d ++ [name]) (.directory true)).lookup w.here path =
        .ok (.directory true) := (hnames'.leads hself (by simp)).lookup hnames.valid hself
    change Except.map _ ((w.tree.put (d ++ [name]) (.directory true)).lookup w.here path) = _
    rw [hlookup]
    rfl

theorem kind_of_okIfDirectory {e : FileError} {v : World}
    (h : ((do if ← isDirectory path then return Except.ok () else return .error e :
      StateM World _).run v).1 = .ok ()) : v.kind path = .ok .directory := by
  rw [run_bind, run_isDirectory] at h
  by_contra hkind
  rw [decide_eq_false hkind] at h
  cases h

theorem kind_of_createNestedUpTo (hpath : path ≠ "") {fuel : Nat}
    (h : ((createNestedUpTo (fuel + 1) path : StateM World _).run w).1 = .ok ()) :
    ((createNestedUpTo (fuel + 1) path : StateM World _).run w).2.kind path = .ok .directory := by
  rw [createNestedUpTo, if_neg hpath, run_bind] at h ⊢
  cases hmade : ((createDirectory path : StateM World _).run w).1 with
  | ok => exact kind_of_createDirectory hmade
  | error e =>
    rw [hmade] at h
    split at h
    · rename_i heq
      cases heq
    · rw [run_bind] at h ⊢
      split at h
      · cases h
      rw [run_bind] at h ⊢
      split at h
      · rename_i hagain
        exact kind_of_createDirectory hagain
      · rw [onlyLooks_okIfDirectory]
        exact kind_of_okIfDirectory h
    · rw [onlyLooks_okIfDirectory]
      exact kind_of_okIfDirectory h

/-- A path that has been asked for leads somewhere, unless it could not be made or is empty. -/
theorem isOk_kind_withDirectory (hpath : path ≠ "")
    (h : ((Staging.ensureDirectory path : StateM World _).run w).1 = .ok ()) :
    ((w.withDirectory path).kind path).isOk = true := by
  by_cases hexists : (w.kind path).isOk = true
  · rwa [withDirectory_of_exists hexists]
  have hmissing : (pathExists path : StateM World Bool).run w = (false, w) := by
    rw [pathExists, run_bind, run_kind]
    cases hkind : w.kind path with
    | ok => simp [hkind, Except.isOk, Except.toBool] at hexists
    | error => rfl
  rw [withDirectory]
  rw [Staging.ensureDirectory, run_bind, hmissing] at h ⊢
  dsimp only at h ⊢
  rw [if_neg Bool.false_ne_true, run_bind] at h ⊢
  cases hnested : ((createNested path : StateM World _).run w).1 with
  | error e =>
    rw [hnested] at h
    cases h
  | ok =>
    have hkind := kind_of_createNestedUpTo hpath hnested
    change (((createNested path : StateM World _).run w).2.kind path).isOk = true
    rw [createNested, hkind]
    rfl

end World

end ExportTables
