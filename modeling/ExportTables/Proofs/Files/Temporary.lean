import ExportTables.Proofs.Files.Directories

/-!
# Temporary files

While files are written together, the world is a base tree with temporary files laid over it, at
places where the base tree has nothing. `Staged` says so, and that every temporary file can still be
reached by the path under which it was made. It holds from the first file to the last, and when the
files are discarded the base tree is back.
-/

namespace ExportTables

open FileSystem FileTree

/-- A path together with the entry that it names. -/
structure Slot where
  path : String
  directory : Location
  name : String

/-- Where the entry stands. -/
def Slot.place (s : Slot) : Location := s.directory ++ [s.name]

theorem Slot.place_ne_nil (s : Slot) : s.place ≠ [] := by simp [place]

/-- A file that was made for the time being. -/
structure Temporary extends Slot where
  contents : ByteArray

/-- A name that no file has is at none of their places. -/
theorem not_mem_places {files : List Temporary} {name : String} (h : ∀ f ∈ files, f.name ≠ name)
    (d : Location) : d ++ [name] ∉ files.map (·.place) := by
  intro hmem
  obtain ⟨f, hf, heq⟩ := List.mem_map.mp hmem
  apply h f hf
  simpa [Slot.place] using congrArg List.getLast? heq

namespace World

/-! ## Making temporary files -/

/-- The working directory is where its path leads, unless it has been removed. -/
def HasPlace (base : FileTree) (working : WorkingDirectory) : Prop :=
  working.removed = false → base.IsChain [] working.location

theorem HasPlace.keep {usable : Location → Prop} {base base' : FileTree}
    {working : WorkingDirectory} (h : HasPlace base working) (hkeeps : Keeps usable base base') :
    HasPlace base' working :=
  fun hremoved => (h hremoved).keep hkeeps

/-- A file has just been made for the time being, by an absolute path with these names in front of
its own. -/
structure Makes (w : World) (route : List String) (contents : ByteArray) (f : Temporary) :
    Prop where
  contents : f.contents = contents
  name : ∃ n, f.name = temporaryName n
  way : w.tree.Leads (fun _ => True) linkLimit [] route f.directory
  named : ∀ usable, w.tree.Leads usable linkLimit [] route f.directory →
    w.tree.NamesEntry usable w.here f.path f.directory f.name
  directory : w.tree.get? f.directory = some (.directory true)
  no_slash : endsInSlash f.path = false
  free : w.tree.get? f.place = none

/-- The world with a temporary file. -/
def withTemporary (w : World) (f : Temporary) : World :=
  { w with tree := w.tree.put f.place (.file f.contents false) }

variable {w : World}

theorem createTemporaryAt_cases {base : String} (hbase : Path.isAbsolute base = true)
    (contents : ByteArray) :
    let made := w.createTemporaryAt (Path.join base w.tree.freshName) contents
    (∃ e, made = (.error e, w)) ∨
      ∃ f, Makes w (names base) contents f ∧ made = (.ok f.path, w.withTemporary f) := by
  intro made
  cases hmade : w.tree.create w.here (Path.join base w.tree.freshName) (.file contents false) with
  | error e =>
    refine Or.inl ⟨.notCreated (some (Path.join base w.tree.freshName)) e, ?_⟩
    simp only [made, createTemporaryAt, hmade]
  | ok tree =>
    right
    obtain ⟨d, name, hnames, hfree, -, rfl⟩ := create_eq_ok.mp hmade
    obtain ⟨n, -, hn, -⟩ := w.tree.exists_freshName
    have hisName := isName_temporaryName n
    have hslash : endsInSlash (Path.join base w.tree.freshName) = false := by
      rw [hn, hisName.endsInSlash_join]
    have hroute : names (Path.join base w.tree.freshName) = names base ++ [temporaryName n] := by
      rw [hn, names_join base hisName.isAbsolute, hisName.names]
    have habsolute : Path.isAbsolute (Path.join base w.tree.freshName) = true := by
      rw [hn, Path.isAbsolute_join base hisName.isAbsolute, hbase]
    have hfrom : ∀ usable, w.tree.LeadsFrom usable w.here
        (Path.isAbsolute (Path.join base w.tree.freshName))
        (names (Path.join base w.tree.freshName)).dropLast d ↔
        w.tree.Leads usable linkLimit [] (names base) d := by
      intro usable
      rw [habsolute, hroute, List.dropLast_concat]
      simp [LeadsFrom, departure]
    have hlast : name = temporaryName n := by
      have := hnames.last
      rw [hroute, List.getLast?_concat] at this
      exact (Option.some.inj this).symm
    refine ⟨⟨⟨_, d, name⟩, contents⟩, ⟨rfl, ⟨n, hlast⟩, (hfrom _).mp hnames.way, ?_,
      hnames.directory, hslash, hfree⟩, ?_⟩
    · intro usable hway
      exact { hnames with way := (hfrom usable).mpr hway }
    · simp only [made, createTemporaryAt, hmade]
      rfl

theorem temporaryBase_congr {w' : World} (h : w'.here = w.here) (directory : String) :
    w'.temporaryBase directory = w.temporaryBase directory := by
  rw [temporaryBase, temporaryBase, herePath, herePath, h]

theorem isAbsolute_temporaryBase {directory base : String}
    (h : w.temporaryBase directory = .ok base) : Path.isAbsolute base = true := by
  rw [temporaryBase] at h
  split at h
  · rename_i habsolute
    exact Except.ok.inj h ▸ habsolute
  · rename_i hrelative
    rw [herePath] at h
    split at h
    · cases h
    · rw [← Except.ok.inj h, Path.isAbsolute_join _ (Bool.not_eq_true _ ▸ hrelative),
        Path.isAbsolute, String.toList_append]
      rfl

theorem holdsNul_of_temporaryBase {directory base : String}
    (h : w.temporaryBase directory = .ok base) (hnul : holdsNul base = false) :
    holdsNul directory = false := by
  rw [temporaryBase] at h
  split at h
  · rwa [Except.ok.inj h]
  · rename_i hrelative
    rw [herePath] at h
    split at h
    · cases h
    · rw [← Except.ok.inj h, holdsNul_join _ (Bool.not_eq_true _ ▸ hrelative),
        Bool.or_eq_false_iff] at hnul
      exact hnul.2

/-- A path and its absolute form lead to the same place over the same links. -/
theorem leads_temporaryBase (hplace : HasPlace w.tree w.here) {directory base : String}
    (h : w.temporaryBase directory = .ok base) {d : Location}
    (hway : w.tree.Leads (fun _ => True) linkLimit [] (names base) d)
    (usable : Location → Prop) : w.tree.PathLeads usable w.here directory d ↔
      w.tree.Leads usable linkLimit [] (names base) d := by
  rw [temporaryBase] at h
  split at h
  · rename_i habsolute
    obtain rfl := Except.ok.inj h
    simp [PathLeads, LeadsFrom, departure, habsolute]
  · rename_i hrelative
    rw [Bool.not_eq_true] at hrelative
    rw [herePath] at h
    split at h
    · cases h
    rename_i hremoved
    rw [Bool.not_eq_true] at hremoved
    have hchain := hplace hremoved
    have hroute : names base = w.here.location ++ names directory := by
      rw [← Except.ok.inj h, names_join _ hrelative, names_root_path hchain.isName]
    rw [hroute] at hway ⊢
    have hback := (hway.of_chain hchain).2
    rw [PathLeads, LeadsFrom, departure, hrelative, hremoved]
    simp only [Bool.false_eq_true, if_false, Bool.not_false, if_true, Option.some.injEq,
      Prod.mk.injEq]
    constructor
    · intro h
      obtain ⟨start, route, ⟨rfl, rfl⟩, hleads⟩ := h
      exact hback usable _ _ hleads
    · intro hleads
      exact ⟨_, _, ⟨rfl, rfl⟩, (hleads.of_chain hchain).1⟩

/-- A temporary file is made in the directory that its path leads to, or nothing is changed. -/
theorem createTemporary_cases (hplace : HasPlace w.tree w.here) (directory : String)
    (contents : ByteArray) :
    let made := w.createTemporary directory contents
    (∃ e, made = (.error e, w)) ∨
      ∃ f route, Makes w route contents f ∧ made = (.ok f.path, w.withTemporary f) ∧
        (∀ usable, w.tree.PathLeads usable w.here directory f.directory ↔
          w.tree.Leads usable linkLimit [] route f.directory) := by
  rw [createTemporary]
  cases hbase : w.temporaryBase directory with
  | error e => exact Or.inl ⟨_, rfl⟩
  | ok base =>
    rcases createTemporaryAt_cases (isAbsolute_temporaryBase hbase) contents with
      herror | ⟨f, hmakes, hmade⟩
    · exact Or.inl herror
    · exact Or.inr ⟨f, _, hmakes, hmade, leads_temporaryBase hplace hbase hmakes.way⟩

/-- A temporary file has the path of a temporary name in the directory. -/
theorem createTemporary_eq_ok {directory path : String} {contents : ByteArray}
    (h : (w.createTemporary directory contents).1 = .ok path) :
    ∃ base n, w.temporaryBase directory = .ok base ∧ path = Path.join base (temporaryName n) ∧
      checkPath path = .ok () ∧ (w.createTemporary directory contents).2.here = w.here := by
  rw [createTemporary] at h ⊢
  split at h
  swap
  · cases h
  rename_i base hbase
  rw [createTemporaryAt] at h
  split at h
  swap
  · cases h
  rename_i tree hmade
  obtain ⟨d, name, hnames, -⟩ := create_eq_ok.mp hmade
  obtain ⟨n, -, hfresh, -⟩ := w.tree.exists_freshName
  obtain rfl := Except.ok.inj h
  refine ⟨base, n, hbase, by rw [hfresh], hnames.valid, ?_⟩
  rw [createTemporaryAt, hmade]

/-- In a directory that is there a temporary file can be made, as long as its path is short
enough. -/
theorem createTemporary_ok {directory : String} {d : Location}
    (habsolute : Path.isAbsolute directory = true)
    (hd : w.tree.PathLeads (fun _ => True) w.here directory d)
    (hdirectory : w.tree.get? d = some (.directory true))
    (hvalid : checkPath (Path.join directory w.tree.freshName) = .ok ())
    (hshort : checkName w.tree.freshName = .ok ()) (contents : ByteArray) :
    ∃ f, Makes w (names directory) contents f ∧
      w.createTemporary directory contents = (.ok f.path, w.withTemporary f) := by
  obtain ⟨n, -, hfresh, -⟩ := w.tree.exists_freshName
  have hisName : IsName w.tree.freshName := hfresh ▸ isName_temporaryName n
  have hcreate : w.tree.create w.here (Path.join directory w.tree.freshName)
      (.file contents false) =
        .ok (w.tree.put (d ++ [w.tree.freshName]) (.file contents false)) := by
    refine create_eq_ok.mpr ⟨d, _, (namesEntry_join hisName).mpr ⟨hvalid, hd, hdirectory, hshort⟩,
      w.tree.get?_freshName d, ?_, rfl⟩
    intro hends
    rw [hisName.endsInSlash_join] at hends
    cases hends
  rw [createTemporary, temporaryBase, if_pos habsolute]
  rcases createTemporaryAt_cases habsolute contents with ⟨e, herror⟩ | hmade
  · rw [createTemporaryAt, hcreate] at herror
    cases (Prod.mk.inj herror).1
  · exact hmade

/-! ## Temporary files over a base -/

/-- A tree is a base tree with temporary files at places where the base tree has nothing. -/
structure Overlay (base : FileTree) (files : List Temporary) (t : FileTree) : Prop where
  free : ∀ f ∈ files, base.get? f.place = none
  apart : (files.map (·.place)).Nodup
  held : ∀ f ∈ files, t.get? f.place = some (.file f.contents false)
  others : ∀ l, l ∉ files.map (·.place) → t.get? l = base.get? l

section Overlay

variable {base t : FileTree} {f : Temporary} {files : List Temporary}

theorem Overlay.get?_eq_iff (h : Overlay base files t) {l : Location} {entry : Entry}
    (hfile : ∀ contents, entry ≠ .file contents false) :
    t.get? l = some entry ↔ base.get? l = some entry := by
  by_cases hl : l ∈ files.map (·.place)
  · obtain ⟨f, hf, rfl⟩ := List.mem_map.mp hl
    rw [h.held f hf, h.free f hf]
    constructor
    · intro hentry
      exact absurd (Option.some.inj hentry).symm (hfile _)
    · intro hentry
      cases hentry
  · rw [h.others l hl]

theorem Overlay.keeps (h : Overlay base files t) (usable : Location → Prop) :
    Keeps usable base t where
  directories _ _ := (h.get?_eq_iff (by simp)).mpr
  links _ _ _ := (h.get?_eq_iff (by simp)).mpr

theorem Overlay.keeps_base (h : Overlay base files t) (usable : Location → Prop) :
    Keeps usable t base where
  directories _ _ := (h.get?_eq_iff (by simp)).mp
  links _ _ _ := (h.get?_eq_iff (by simp)).mp

theorem Overlay.erase (h : Overlay base (f :: files) t) : Overlay base files (t.erase f.place) := by
  have hapart := List.nodup_cons.mp h.apart
  refine ⟨fun f' hf' => h.free f' (List.mem_cons_of_mem f hf'), hapart.2, ?_, ?_⟩
  · intro f' hf'
    rw [get?_erase_of_ne]
    · exact h.held f' (List.mem_cons_of_mem f hf')
    · intro heq
      exact hapart.1 (List.mem_map.mpr ⟨f', hf', heq⟩)
  · intro l hl
    by_cases hlf : l = f.place
    · rw [hlf, get?_erase_self _ f.place_ne_nil, h.free f (List.mem_cons_self ..)]
    · rw [get?_erase_of_ne _ hlf]
      apply h.others
      simpa [hlf] using hl

theorem Overlay.put (h : Overlay base files t) {place : Location} (hplace : place ≠ [])
    (hfree : place ∉ files.map (·.place)) (entry : Entry) :
    Overlay (base.put place entry) files (t.put place entry) := by
  have hne : ∀ f ∈ files, f.place ≠ place := by
    intro f hf heq
    exact hfree (List.mem_map.mpr ⟨f, hf, heq⟩)
  refine ⟨?_, h.apart, ?_, ?_⟩
  · intro f hf
    rw [get?_put_of_ne _ (hne f hf), h.free f hf]
  · intro f hf
    rw [get?_put_of_ne _ (hne f hf), h.held f hf]
  · intro l hl
    by_cases hlp : l = place
    · rw [hlp, get?_put_self _ hplace, get?_put_self _ hplace]
    · rw [get?_put_of_ne _ hlp, get?_put_of_ne _ hlp, h.others l hl]

end Overlay

/-- A world is a base tree with temporary files laid over it. -/
structure Staged (usable : Location → Prop) (base : FileTree) (files : List Temporary) (w : World) :
    Prop where
  named : ∀ f ∈ files, w.tree.NamesEntry usable w.here f.path f.directory f.name
  no_slash : ∀ f ∈ files, endsInSlash f.path = false
  free : ∀ f ∈ files, base.get? f.place = none
  apart : (files.map (·.place)).Nodup
  held : ∀ f ∈ files, w.tree.get? f.place = some (.file f.contents false)
  others : ∀ l, l ∉ files.map (·.place) → w.tree.get? l = base.get? l

variable {usable : Location → Prop} {base : FileTree} {files : List Temporary}

theorem Staged.none (usable : Location → Prop) (w : World) : Staged usable w.tree [] w where
  named := by simp
  no_slash := by simp
  free := by simp
  apart := by simp
  held := by simp
  others _ _ := rfl

theorem Staged.overlay (h : Staged usable base files w) : Overlay base files w.tree :=
  ⟨h.free, h.apart, h.held, h.others⟩

theorem Staged.keeps (h : Staged usable base files w) (usable' : Location → Prop) :
    Keeps usable' base w.tree := h.overlay.keeps usable'

theorem Staged.keeps_base (h : Staged usable base files w) (usable' : Location → Prop) :
    Keeps usable' w.tree base := h.overlay.keeps_base usable'

theorem Staged.add {route : List String} {contents : ByteArray} {f : Temporary}
    (h : Staged usable base files w) (hmakes : Makes w route contents f)
    (hway : w.tree.Leads usable linkLimit [] route f.directory) :
    Staged usable base (files ++ [f]) (w.withTemporary f) := by
  have hself : (w.withTemporary f).tree.get? f.place = some (.file f.contents false) :=
    get?_put_self _ f.place_ne_nil _
  have hother : ∀ l, l ≠ f.place → (w.withTemporary f).tree.get? l = w.tree.get? l :=
    fun l hl => get?_put_of_ne _ hl _
  have hold : ∀ l entry, w.tree.get? l = some entry →
      (w.withTemporary f).tree.get? l = some entry := by
    intro l entry hentry
    rw [hother l, hentry]
    rintro rfl
    rw [hmakes.free] at hentry
    cases hentry
  have hkeeps : Keeps usable w.tree (w.withTemporary f).tree :=
    ⟨fun _ _ => hold _ _, fun _ _ _ => hold _ _⟩
  have hnew : f.place ∉ files.map (·.place) := by
    intro hmem
    obtain ⟨f', hf', heq⟩ := List.mem_map.mp hmem
    have hheld := h.held f' hf'
    rw [heq, hmakes.free] at hheld
    cases hheld
  refine ⟨?_, ?_, ?_, ?_, ?_, ?_⟩ <;>
    simp only [List.forall_mem_append, List.forall_mem_singleton, List.map_append,
      List.map_singleton]
  · exact ⟨fun f' hf' => (h.named f' hf').keep hkeeps, (hmakes.named usable hway).keep hkeeps⟩
  · exact ⟨h.no_slash, hmakes.no_slash⟩
  · exact ⟨h.free, (h.others _ hnew).symm.trans hmakes.free⟩
  · rw [List.nodup_append]
    refine ⟨h.apart, by simp, ?_⟩
    intro l hl l' hl' heq
    exact hnew (List.mem_singleton.mp hl' ▸ heq ▸ hl)
  · exact ⟨fun f' hf' => hold _ _ (h.held f' hf'), hself⟩
  · intro l hl
    rw [List.mem_append, List.mem_singleton, not_or] at hl
    rw [hother l hl.2, h.others l hl.1]

theorem Staged.erase {f : Temporary} (h : Staged usable base (f :: files) w) :
    Staged usable base files { w with tree := w.tree.erase f.place } := by
  have hover := h.overlay.erase
  have hkeeps := (h.keeps_base usable).trans (hover.keeps usable)
  refine ⟨?_, ?_, hover.free, hover.apart, hover.held, hover.others⟩
  · intro f' hf'
    exact (h.named f' (List.mem_cons_of_mem f hf')).keep hkeeps
  · intro f' hf'
    exact h.no_slash f' (List.mem_cons_of_mem f hf')

theorem Staged.remove {f : Temporary} (h : Staged usable base (f :: files) w) :
    w.remove f.path = { w with tree := w.tree.erase f.place } := by
  have hgone := (h.named f (List.mem_cons_self ..)).remove (h.no_slash f (List.mem_cons_self ..))
    (h.held f (List.mem_cons_self ..)) rfl
  rw [World.remove, hgone]
  rfl

/-- It does not matter in which order the temporary files are listed. -/
theorem Staged.perm {files' : List Temporary} (h : Staged usable base files w)
    (hperm : files'.Perm files) : Staged usable base files' w where
  named f hf := h.named f (hperm.mem_iff.mp hf)
  no_slash f hf := h.no_slash f (hperm.mem_iff.mp hf)
  free f hf := h.free f (hperm.mem_iff.mp hf)
  apart := (hperm.map _).nodup_iff.mpr h.apart
  held f hf := h.held f (hperm.mem_iff.mp hf)
  others l hl := h.others l fun hmem => hl ((hperm.map _).mem_iff.mpr hmem)

/-- When temporary files are discarded those behind them are left. -/
theorem Staged.discard {left : List Temporary} (h : Staged usable base (files ++ left) w) :
    let w' := ((Staging.discard (files.map (·.path)) : StateM World Unit).run w).2
    w'.here = w.here ∧ Staged usable base left w' := by
  induction files generalizing w with
  | nil => exact ⟨rfl, h⟩
  | cons f files ih =>
    rw [List.map_cons, Staging.discard, run_bind, run_remove, h.remove]
    exact ih h.erase

/-- When all temporary files are discarded the base tree is back. -/
theorem Staged.discard_all (h : Staged usable base files w) :
    let w' := ((Staging.discard (files.map (·.path)) : StateM World Unit).run w).2
    w'.here = w.here ∧ ∀ l, w'.tree.get? l = base.get? l := by
  rw [← List.append_nil files] at h
  obtain ⟨hhere, hstaged⟩ := h.discard
  exact ⟨hhere, fun l => hstaged.others l (by simp)⟩

/-- All contents go to temporary files in the directory that the path leads to, or the base tree is
back. -/
theorem Staged.stage {directory : String} (h : Staged usable base files w)
    (hplace : HasPlace base w.here)
    (hclear : ∀ d, base.PathLeads (fun _ => True) w.here directory d →
      base.PathLeads usable w.here directory d) (changes : List (String × String)) :
    let run := (Staging.stage directory (files.map (·.path)) changes : StateM World _).run w
    run.2.here = w.here ∧
      ((∃ e, run.1 = .error e ∧ ∀ l, run.2.tree.get? l = base.get? l) ∨
        ∃ made, run.1 = .ok ((files ++ made).map (·.path)) ∧
          Staged usable base (files ++ made) run.2 ∧
          made.map (·.contents) = changes.map (fun change => change.2.toUTF8) ∧
          ∀ f ∈ made, (∃ n, f.name = temporaryName n) ∧
            base.get? f.directory = some (.directory true) ∧
            base.PathLeads usable w.here directory f.directory) := by
  induction changes generalizing files w with
  | nil =>
    refine ⟨rfl, Or.inr ⟨[], ?_, ?_, rfl, by simp⟩⟩
    · rw [List.append_nil]
      rfl
    · rw [List.append_nil]
      exact h
  | cons change changes ih =>
    have hplace' : HasPlace w.tree w.here := hplace.keep (h.keeps usable)
    rw [Staging.stage, run_bind, run_createTemporary]
    rcases createTemporary_cases hplace' directory change.2.toUTF8 with
      ⟨e, hmade⟩ | ⟨f, route, hmakes, hmade, hway⟩
    · rw [hmade]
      obtain ⟨hhere, hback⟩ := h.discard_all
      exact ⟨hhere, Or.inl ⟨_, rfl, hback⟩⟩
    · rw [hmade]
      have hdirectory : base.get? f.directory = some (.directory true) :=
        (h.keeps_base usable).directories _ _ hmakes.directory
      have hleads : base.PathLeads usable w.here directory f.directory :=
        hclear _ (((hway _).mpr hmakes.way).keep (h.keeps_base _) ⟨true, hmakes.directory⟩)
      have hadd := h.add hmakes ((hway usable).mp (hleads.keep (h.keeps _) ⟨true, hdirectory⟩))
      have hpaths : files.map (·.path) ++ [f.path] =
          (files ++ [f]).map (·.path) := by simp
      obtain ⟨hhere, hrest⟩ := ih hadd hplace hclear
      dsimp only
      rw [hpaths]
      refine ⟨hhere, ?_⟩
      rcases hrest with herror | ⟨made, hok, hstaged, hcontents, hall⟩
      · exact Or.inl herror
      · rw [List.append_assoc, List.singleton_append] at hok hstaged
        refine Or.inr ⟨f :: made, hok, hstaged, ?_, ?_⟩
        · rw [List.map_cons, List.map_cons, hcontents, hmakes.contents]
        · exact List.forall_mem_cons.mpr ⟨⟨hmakes.name, hdirectory, hleads⟩, hall⟩

/-- The temporary files have the paths of temporary names in the directory, and these paths are
accepted. -/
theorem path_of_stage {directory : String} {made paths : List String}
    {changes : List (String × String)}
    (h : ((Staging.stage directory made changes : StateM World _).run w).1 = .ok paths) :
    ∀ path ∈ paths, path ∈ made ∨ ∃ base n, w.temporaryBase directory = .ok base ∧
      path = Path.join base (temporaryName n) ∧ checkPath path = .ok () := by
  induction changes generalizing made w with
  | nil =>
    obtain rfl : made = paths := Except.ok.inj h
    exact fun path hpath => Or.inl hpath
  | cons change changes ih =>
    rw [Staging.stage, run_bind, run_createTemporary] at h
    split at h
    · rename_i path hmade
      obtain ⟨base, n, hbase, hpath, hvalid, hhere⟩ := createTemporary_eq_ok hmade
      intro other hother
      rcases ih h other hother with hmem | hlater
      · rw [List.mem_append, List.mem_singleton] at hmem
        rcases hmem with hmem | rfl
        · exact Or.inl hmem
        · exact Or.inr ⟨base, n, hbase, hpath, hvalid⟩
      · exact Or.inr (temporaryBase_congr hhere directory ▸ hlater)
    · cases h

/-- Nothing can go wrong while the temporary files are made in a directory that is there, as long as
their paths are short enough. -/
theorem Staged.stage_ok {directory : String} {d : Location}
    (h : Staged (fun _ => True) base files w) (habsolute : Path.isAbsolute directory = true)
    (hd : base.PathLeads (fun _ => True) w.here directory d)
    (hdirectory : base.get? d = some (.directory true)) (changes : List (String × String))
    (hfit : ∀ n ≤ w.tree.entries.length + changes.length,
      checkPath (Path.join directory (temporaryName n)) = .ok () ∧
        checkName (temporaryName n) = .ok ()) :
    ∃ paths, ((Staging.stage directory (files.map (·.path)) changes : StateM World _).run w).1 =
      .ok paths := by
  induction changes generalizing files w with
  | nil => exact ⟨_, rfl⟩
  | cons change changes ih =>
    have hroom : (w.tree.entries.length + 1) + changes.length =
        w.tree.entries.length + (change :: changes).length := by
      simp only [List.length_cons]
      omega
    obtain ⟨n, hn, hfresh, -⟩ := w.tree.exists_freshName
    obtain ⟨hvalid, hshort⟩ := hfit n (by omega)
    rw [← hfresh] at hvalid hshort
    obtain ⟨f, hmakes, hmade⟩ := createTemporary_ok habsolute
      (hd.keep (h.keeps fun _ => True) ⟨true, hdirectory⟩)
      ((h.keeps fun _ => True).directories _ _ hdirectory) hvalid hshort change.2.toUTF8
    have hpaths : files.map (·.path) ++ [f.path] = (files ++ [f]).map (·.path) := by simp
    have hlength : (w.withTemporary f).tree.entries.length ≤ w.tree.entries.length + 1 := by
      simpa [withTemporary, put, Association.put, Association.erase] using
        List.length_filter_le _ _
    rw [Staging.stage, run_bind, run_createTemporary, hmade]
    dsimp only
    rw [hpaths]
    apply ih (h.add hmakes hmakes.way) hd
    intro n hn
    exact hfit n (by omega)

end World

end ExportTables
