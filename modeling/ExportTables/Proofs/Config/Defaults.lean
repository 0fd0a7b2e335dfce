import ExportTables.Proofs.Config.File
import ExportTables.Proofs.Toml.Mentions

/-!
# Defaults are merged key by key

A configuration has nine keys in three sections. If its sections are tables or missing, each key
is decided on its own: it has the value at its path, or its default if there is none, and the file
is refused exactly if some key has a value of another type.
-/

namespace ExportTables.Config

open FileSystem World Toml

/-! ## The keys -/

/-- A key of the configuration. -/
inductive Setting where
  | marker
  | namePrefix
  | file
  | includeDir
  | manual
  | exclude
  | linkagePrefix
  | methods
  | incoming
  deriving DecidableEq, Repr

namespace Setting

/-- The section of a key and its name there. -/
def path : Setting → List String
  | marker => ["header", "marker"]
  | namePrefix => ["header", "prefix"]
  | file => ["header", "file"]
  | includeDir => ["header", "include_dir"]
  | manual => ["exports", "manual"]
  | exclude => ["exports", "exclude"]
  | linkagePrefix => ["exports", "linkage_prefix"]
  | methods => ["runtime", "methods"]
  | incoming => ["runtime", "incoming"]

/-- Whether a value has the type of a key. -/
def Admits : Setting → Value → Prop
  | marker, v | namePrefix, v | file, v | includeDir, v | linkagePrefix, v =>
    ∃ text, v = .string text
  | manual, v | exclude, v | methods, v | incoming, v =>
    ∃ texts : List String, v = .array (texts.map .string)

/-- What a configuration has for a key, as a document writes it. -/
def valueIn (c : Config) : Setting → Value
  | marker => .string c.header.marker
  | namePrefix => .string c.header.namePrefix
  | file => .string c.header.file
  | includeDir => .string c.header.includeDir
  | manual => .array (c.exports.manual.map .string)
  | exclude => .array (c.exports.exclude.map .string)
  | linkagePrefix => .string c.exports.linkagePrefix
  | methods => .array (c.runtime.methods.map .string)
  | incoming => .array (c.runtime.incoming.map .string)

variable (key : Setting) (c : Config)

theorem path_ne_nil : key.path ≠ [] := by
  cases key <;> exact List.cons_ne_nil _ _

theorem admits_valueIn : key.Admits (key.valueIn c) := by
  cases key <;> exact ⟨_, rfl⟩

theorem isPlain_valueIn : (key.valueIn c).isPlain = true := by
  cases key <;> rfl

/-- A configuration can have any values of the right types for its keys. -/
theorem exists_valueIn {values : Setting → Value} (h : ∀ key : Setting, key.Admits (values key)) :
    ∃ c, ∀ key : Setting, key.valueIn c = values key := by
  obtain ⟨marker', hmarker⟩ := h marker
  obtain ⟨namePrefix', hname⟩ := h namePrefix
  obtain ⟨file', hfile⟩ := h file
  obtain ⟨dir', hdir⟩ := h includeDir
  obtain ⟨manual', hmanual⟩ := h manual
  obtain ⟨exclude', hexclude⟩ := h exclude
  obtain ⟨linkage', hlinkage⟩ := h linkagePrefix
  obtain ⟨methods', hmethods⟩ := h methods
  obtain ⟨incoming', hincoming⟩ := h incoming
  refine ⟨⟨⟨marker', namePrefix', file', dir'⟩, ⟨manual', exclude', linkage'⟩,
    ⟨methods', incoming'⟩⟩, fun key => ?_⟩
  cases key <;> symm <;> assumption

end Setting

/-! ## Values and their defaults -/

theorem valueOr?_text?_eq_some {default text : String} {found : Option Value} :
    valueOr? text? default found = some text ↔ .string text = found.getD (.string default) := by
  cases found with
  | none => simp [valueOr?, eq_comm]
  | some v => cases v <;> simp [valueOr?, text?, eq_comm]

theorem mapM_text?_eq_some {items : List Value} {texts : List String} :
    items.mapM text? = some texts ↔ items = texts.map .string := by
  induction items generalizing texts with
  | nil => cases texts <;> simp
  | cons item items ih =>
    cases item <;> cases texts <;> simp [text?, Option.bind_eq_some_iff, ih, and_comm]

theorem valueOr?_texts?_eq_some {default texts : List String} {found : Option Value} :
    valueOr? texts? default found = some texts ↔
      .array (texts.map .string) = found.getD (.array (default.map .string)) := by
  have hinj : Function.Injective Value.string := fun _ _ h => Value.string.inj h
  cases found with
  | none => simp [valueOr?, hinj.list_map.eq_iff, eq_comm]
  | some v => cases v <;> simp [valueOr?, texts?, mapM_text?_eq_some, eq_comm]

/-! ## Sections -/

section Sections

variable {fields : Fields}

theorem headerOf?_eq_some {c : HeaderConfig} :
    headerOf? fields = some c ↔
      .string c.marker = (fields "marker").getD (.string ({} : HeaderConfig).marker) ∧
      .string c.namePrefix = (fields "prefix").getD (.string ({} : HeaderConfig).namePrefix) ∧
      .string c.file = (fields "file").getD (.string ({} : HeaderConfig).file) ∧
      .string c.includeDir =
        (fields "include_dir").getD (.string ({} : HeaderConfig).includeDir) := by
  simp only [headerOf?, Option.bind_eq_bind, Option.bind_eq_some_iff, valueOr?_text?_eq_some,
    Option.some.injEq]
  constructor
  · rintro ⟨_, hmarker, _, hname, _, hfile, _, hdir, rfl⟩
    exact ⟨hmarker, hname, hfile, hdir⟩
  · rintro ⟨hmarker, hname, hfile, hdir⟩
    exact ⟨_, hmarker, _, hname, _, hfile, _, hdir, rfl⟩

theorem exportsOf?_eq_some {c : ExportsConfig} :
    exportsOf? fields = some c ↔
      .array (c.manual.map .string) =
        (fields "manual").getD (.array (({} : ExportsConfig).manual.map .string)) ∧
      .array (c.exclude.map .string) =
        (fields "exclude").getD (.array (({} : ExportsConfig).exclude.map .string)) ∧
      .string c.linkagePrefix =
        (fields "linkage_prefix").getD (.string ({} : ExportsConfig).linkagePrefix) := by
  simp only [exportsOf?, Option.bind_eq_bind, Option.bind_eq_some_iff, valueOr?_text?_eq_some,
    valueOr?_texts?_eq_some, Option.some.injEq]
  constructor
  · rintro ⟨_, hmanual, _, hexclude, _, hlinkage, rfl⟩
    exact ⟨hmanual, hexclude, hlinkage⟩
  · rintro ⟨hmanual, hexclude, hlinkage⟩
    exact ⟨_, hmanual, _, hexclude, _, hlinkage, rfl⟩

theorem runtimeOf?_eq_some {c : RuntimeConfig} :
    runtimeOf? fields = some c ↔
      .array (c.methods.map .string) =
        (fields "methods").getD (.array (({} : RuntimeConfig).methods.map .string)) ∧
      .array (c.incoming.map .string) =
        (fields "incoming").getD (.array (({} : RuntimeConfig).incoming.map .string)) := by
  simp only [runtimeOf?, Option.bind_eq_bind, Option.bind_eq_some_iff, valueOr?_texts?_eq_some,
    Option.some.injEq]
  constructor
  · rintro ⟨_, hmethods, _, hincoming, rfl⟩
    exact ⟨hmethods, hincoming⟩
  · rintro ⟨hmethods, hincoming⟩
    exact ⟨_, hmethods, _, hincoming, rfl⟩

end Sections

/-! ## Tables -/

section Tables

variable {t : Table} {c : Config}

theorem fields?_of_isTable (keys : List String) {name : String}
    (h : ∀ v ∈ t.get? name, v.isTable) :
    fields? keys (t.get? name) = some fun key => t.at? [name, key] := by
  have hat : ∀ key, t.at? [name, key] = (t.get? name).bind (Value.at? [key]) := fun _ => rfl
  simp only [hat]
  cases hget : t.get? name with
  | none => rfl
  | some v =>
    cases v with
    | table form entries =>
      refine congrArg some (funext fun key => ?_)
      exact (bind_at?_nil _).symm
    | _ => exact absurd (h _ hget) Bool.false_ne_true

/-- The names of the sections. -/
def sectionNames : List String := ["header", "exports", "runtime"]

variable (h : ∀ name ∈ sectionNames, ∀ v ∈ t.get? name, v.isTable)

include h

theorem isOpen_path (key : Setting) : (Value.table .headed t).IsOpen key.path := by
  have hopen : ∀ name ∈ sectionNames, ∀ key, (Value.table .headed t).IsOpen [name, key] := by
    intro name hname key v hv
    have htable := h name hname v hv
    cases v with
    | table form entries => exact fun _ _ => trivial
    | _ => cases htable
  cases key <;> exact hopen _ (by decide) _

theorem ofTable?_eq_some :
    ofTable? t = some c ↔
      ∀ key : Setting, key.valueIn c = (t.at? key.path).getD (key.valueIn {}) := by
  simp only [ofTable?, fields?_of_isTable _ (h "header" (by decide)),
    fields?_of_isTable _ (h "exports" (by decide)), fields?_of_isTable _ (h "runtime" (by decide)),
    Option.bind_eq_bind, Option.bind_some, Option.bind_eq_some_iff, headerOf?_eq_some,
    exportsOf?_eq_some, runtimeOf?_eq_some, Option.some.injEq]
  constructor
  · rintro ⟨_, ⟨hmarker, hname, hfile, hdir⟩, _, ⟨hmanual, hexclude, hlinkage⟩, _,
      ⟨hmethods, hincoming⟩, rfl⟩ key
    cases key <;> assumption
  · intro hkey
    exact ⟨_, ⟨hkey .marker, hkey .namePrefix, hkey .file, hkey .includeDir⟩,
      _, ⟨hkey .manual, hkey .exclude, hkey .linkagePrefix⟩,
      _, ⟨hkey .methods, hkey .incoming⟩, rfl⟩

/-- A configuration is written exactly if no key has a value of another type. -/
theorem exists_ofTable?_eq_some :
    (∃ c, ofTable? t = some c) ↔ ∀ key : Setting, ∀ v ∈ t.at? key.path, key.Admits v := by
  simp only [ofTable?_eq_some h]
  constructor
  · rintro ⟨c, hc⟩ key v hv
    have hvalue := hc key
    rw [hv, Option.getD_some] at hvalue
    exact hvalue ▸ key.admits_valueIn c
  · intro htyped
    refine Setting.exists_valueIn fun key => ?_
    cases hfound : t.at? key.path with
    | none => exact key.admits_valueIn {}
    | some v => exact htyped key v hfound

end Tables

/-! ## Documents -/

/-- A file holds a document in which every section that is there is a table. -/
structure HasDocument (w : World) (path text : String) (t : Table) : Prop where
  holds : w.Holds path text
  ofText : Table.ofText? text.toList = some t
  isTable : ∀ name ∈ sectionNames, ∀ v ∈ t.get? name, v.isTable

namespace HasDocument

variable {w : World} {path text : String} {t : Table} {c : Config}

theorem run_load (h : HasDocument w path text t) :
    (load path : StateM World _).run w =
      ((ofTable? t).elim (.error (.malformed path)) .ok, w) := by
  rw [Config.run_load h.holds, ofText?, h.ofText, Option.bind_some]

theorem run_load_eq_ok (h : HasDocument w path text t) :
    ((load path : StateM World _).run w).1 = .ok c ↔ ofTable? t = some c := by
  rw [h.run_load]
  cases ofTable? t <;> simp

theorem tells (h : HasDocument w path text t) (key : Setting) :
    Tells (said text.toList key.path) (t.at? key.path) :=
  tells_of_ofText? h.ofText key.path_ne_nil (isOpen_path h.isTable key)

/-- What a document says about the keys is all that counts. -/
theorem ofTable?_eq_some_iff_said (h : HasDocument w path text t) :
    ofTable? t = some c ↔ ∀ key : Setting,
      said text.toList key.path = [.value (key.valueIn c)] ∨
        said text.toList key.path = [] ∧ key.valueIn c = key.valueIn {} := by
  rw [ofTable?_eq_some h.isTable]
  refine forall_congr' fun key => ?_
  rw [← (h.tells key).eq_some_iff (key.isPlain_valueIn c), ← (h.tells key).eq_none_iff]
  cases t.at? key.path <;> simp [eq_comm]

/-- Two files that say the same about each key, in any order, are loaded alike. -/
theorem run_load_congr {w' : World} {text' : String} {t' : Table} (h : HasDocument w path text t)
    (h' : HasDocument w' path text' t')
    (hsaid : ∀ key : Setting, (said text'.toList key.path).Perm (said text.toList key.path)) :
    ((load path : StateM World _).run w').1 = ((load path : StateM World _).run w).1 := by
  have htable : ofTable? t' = ofTable? t := by
    refine Option.ext fun c => ?_
    rw [h.ofTable?_eq_some_iff_said, h'.ofTable?_eq_some_iff_said]
    refine forall_congr' fun key => ?_
    rw [← List.perm_singleton, (hsaid key).congr_left, List.perm_singleton,
      ← List.perm_nil, (hsaid key).congr_left, List.perm_nil]
  rw [h.run_load, h'.run_load, htable]

/-- The order of a document does not count, and neither does what it mentions apart from the keys
and their sections. -/
theorem run_load_of_perm {w' : World} {text' : String} {t' : Table} (h : HasDocument w path text t)
    (h' : HasDocument w' path text' t') {apart : List Mention}
    (hperm : (mentionsIn text'.toList).Perm (mentionsIn text.toList ++ apart))
    (hapart : ∀ mention ∈ apart, ∀ key : Setting,
      ¬ key.path <+: mention.path ∧ ¬ mention.path <+: key.path) :
    ((load path : StateM World _).run w').1 = ((load path : StateM World _).run w).1 :=
  h.run_load_congr h' fun key => saidBy_perm hperm fun mention hmem => hapart mention hmem key

end HasDocument

/-- A file is loaded exactly if each key that it has has a value of its type, and then each key has
this value, or its default if it is missing. A key is missing if nothing is said about it, and has a
plain value if that is all that is said about it; so files that say the same about the keys, in any
order, are loaded alike. In particular the order of all that a file mentions does not count, and
neither does what it mentions apart from the keys and their sections. -/
theorem load_merges_defaults {w : World} {path text : String} {t : Table}
    (h : HasDocument w path text t) :
    ((∃ c, ((load path : StateM World _).run w).1 = .ok c) ↔
        ∀ key : Setting, ∀ v ∈ t.at? key.path, key.Admits v) ∧
      (∀ c, ((load path : StateM World _).run w).1 = .ok c →
        ∀ key : Setting, key.valueIn c = (t.at? key.path).getD (key.valueIn {})) ∧
      (∀ key : Setting, (t.at? key.path = none ↔ said text.toList key.path = []) ∧
        ∀ v, v.isPlain → (t.at? key.path = some v ↔ said text.toList key.path = [.value v])) ∧
      (∀ (w' : World) (text' : String) (t' : Table), HasDocument w' path text' t' →
        (∀ key : Setting, (said text'.toList key.path).Perm (said text.toList key.path)) →
        ((load path : StateM World _).run w').1 = ((load path : StateM World _).run w).1) ∧
      ∀ (w' : World) (text' : String) (t' : Table) (apart : List Mention),
        HasDocument w' path text' t' →
        (mentionsIn text'.toList).Perm (mentionsIn text.toList ++ apart) →
        (∀ mention ∈ apart, ∀ key : Setting,
          ¬ key.path <+: mention.path ∧ ¬ mention.path <+: key.path) →
        ((load path : StateM World _).run w').1 = ((load path : StateM World _).run w).1 := by
  simp only [h.run_load_eq_ok]
  exact ⟨exists_ofTable?_eq_some h.isTable, fun c => (ofTable?_eq_some h.isTable).mp,
    fun key => ⟨(h.tells key).eq_none_iff, fun v => (h.tells key).eq_some_iff⟩,
    fun w' text' t' => h.run_load_congr,
    fun w' text' t' apart h' hperm hapart => h.run_load_of_perm h' hperm hapart⟩

/-- A dotted key, a table in one line and a header with tables below it; other keys and sections
stand between them. -/
theorem load_merges_defaults_scattered :
    let text := "exports.manual = ['alloc']\nheader = \x7bprefix = 'm_', x = 1\x7d\n" ++
      "[other]\nmarker = 7\n[runtime.other]\nincoming = 2\n[runtime]\nmethods = []\n"
    let w : World := ⟨⟨[(["c"], .file text.toUTF8 false)]⟩, {}⟩
    let c : Config :=
      { header.namePrefix := "m_", exports.manual := ["alloc"], runtime.methods := [] }
    ((load "c" : StateM World _).run w).1 = .ok c ∧ ∃ t, HasDocument w "c" text t ∧
      (∀ key : Setting, key.valueIn c = (t.at? key.path).getD (key.valueIn {})) ∧
      said text.toList ["header", "prefix"] = [.value (.string "m_")] := by
  intro text w c
  have hread : (Table.ofText? text.toList).any fun t => ofTable? t = some c ∧
      ∀ name ∈ sectionNames, ∀ v ∈ t.get? name, v.isTable = true := by decide +kernel
  obtain ⟨t, ht, hread⟩ := (Option.any_eq_true _ _).mp hread
  obtain ⟨htable, htables⟩ := of_decide_eq_true hread
  have h : HasDocument w "c" text t := ⟨⟨false, rfl⟩, ht, htables⟩
  have hloaded := h.run_load_eq_ok.mpr htable
  obtain ⟨-, hvalues, hsaid, -⟩ := load_merges_defaults h
  have hname : .string "m_" = (t.at? ["header", "prefix"]).getD (.string "qpdf_") :=
    hvalues c hloaded .namePrefix
  refine ⟨hloaded, t, h, hvalues c hloaded, ?_⟩
  refine ((hsaid .namePrefix).2 (.string "m_") rfl).mp ?_
  change t.at? ["header", "prefix"] = _
  cases hfound : t.at? ["header", "prefix"] with
  | none => simp [hfound] at hname
  | some v => rw [hname, hfound, Option.getD_some]

end ExportTables.Config
