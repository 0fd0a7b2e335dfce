import ExportTables.Toml.Document

/-!
# What a document says about a path

A document can name one key in many ways: under a header, by a dotted key, in a table that is
written as a value, or by a header of its own. Each header and each entry mentions one path, and
says something about this path, about the paths above it, where tables have to stand, and about the
paths that lead into its value. All that a document says about a path is collected without regard
to the table that it builds (`said`).

What the table holds at a path is told by that, as far as tables lead there: a path that nothing is
said about is missing, a plain value is all that is said about its path, and everywhere else there
is a table (`Tells`). One statement changes the table along one path (`Reaches`), and adds to each
path what its remark says about it (`Extends`).
-/

namespace ExportTables.Toml

/-! ## Paths into values -/

namespace Value

/-- Whether a value is a table. -/
def isTable : Value → Bool
  | .table .. => true
  | _ => false

/-- Whether a value is neither a table nor an array of tables to which a document can add. -/
def isPlain : Value → Bool
  | .table .. => false
  | .tables _ => false
  | _ => true

/-- What a path of keys leads to from a value, through tables only. -/
def at? : List String → Value → Option Value
  | [], v => some v
  | key :: rest, .table _ entries => (Table.get? entries key).bind (at? rest)
  | _ :: _, _ => none

/-- Whether a path of keys leads through tables as far as there is anything. -/
def IsOpen : List String → Value → Prop
  | [], _ => True
  | key :: rest, .table _ entries => ∀ v ∈ Table.get? entries key, v.IsOpen rest
  | _ :: _, _ => False

end Value

/-- What a path of keys leads to from the outermost table. -/
def Table.at? (t : Table) (path : List String) : Option Value := (Value.table .headed t).at? path

/-! ## What the statements say -/

/-- What is said about one path: that a table stands there, or which value. -/
inductive Remark where
  | table
  | value (v : Value)

/-- What a remark on one path says about another. -/
def Remark.about : (path mentioned : List String) → Remark → Option Remark
  | [], [], remark => some remark
  | [], _ :: _, _ => some .table
  | _ :: _, [], .table => none
  | key :: rest, [], .value v => (v.at? (key :: rest)).map .value
  | key :: rest, other :: others, remark => if key = other then about rest others remark else none

/-- A path that a document mentions, with the remark on it. -/
structure Mention where
  path : List String
  remark : Remark

/-- What a statement below a header mentions. -/
def Statement.mention (header : List String) : Statement → Mention
  | .table path => ⟨path, .table⟩
  | .element path => ⟨path, .table⟩
  | .entry key value => ⟨header ++ key, .value value⟩

/-- The header below which the next statement stands. -/
def Statement.headerAfter (header : List String) : Statement → List String
  | .table path => path
  | .element path => path
  | .entry _ _ => header

/-- What statements below a header mention. -/
def mentions : (header : List String) → List Statement → List Mention
  | _, [] => []
  | header, statement :: rest =>
    statement.mention header :: mentions (statement.headerAfter header) rest

/-- What mentions say about a path, in their order. -/
def saidBy (found : List Mention) (path : List String) : List Remark :=
  found.filterMap fun mention => mention.remark.about path mention.path

/-- What a document mentions. -/
def mentionsIn (text : List Char) : List Mention :=
  ((statements? (joinNewlines (skipByteOrderMark text))).map (mentions [])).getD []

/-- What a document says about a path, in its order. -/
def said (text : List Char) (path : List String) : List Remark := saidBy (mentionsIn text) path

/-- A remark says nothing about a path that parts from its own. -/
theorem Remark.about_of_not_prefix (remark : Remark) {path mentioned : List String}
    (h : ¬ path <+: mentioned) (h' : ¬ mentioned <+: path) :
    remark.about path mentioned = none := by
  induction path generalizing mentioned with
  | nil => exact absurd List.nil_prefix h
  | cons key rest ih =>
    cases mentioned with
    | nil => exact absurd List.nil_prefix h'
    | cons other others =>
      rw [about]
      split
      · rename_i heq
        rw [heq, List.prefix_cons_inj] at h h'
        exact ih h h'
      · rfl

/-- Neither the order of the mentions counts nor what is mentioned apart from the path. -/
theorem saidBy_perm {found found' apart : List Mention} {path : List String}
    (h : found'.Perm (found ++ apart))
    (hapart : ∀ mention ∈ apart, ¬ path <+: mention.path ∧ ¬ mention.path <+: path) :
    (saidBy found' path).Perm (saidBy found path) := by
  have hnone : saidBy apart path = [] := by
    rw [saidBy, List.filterMap_eq_nil_iff]
    intro mention hmention
    obtain ⟨hbelow, habove⟩ := hapart mention hmention
    exact mention.remark.about_of_not_prefix hbelow habove
  have hperm := h.filterMap fun mention => mention.remark.about path mention.path
  rw [List.filterMap_append] at hperm
  change (saidBy found' path).Perm (saidBy found path ++ saidBy apart path) at hperm
  rwa [hnone, List.append_nil] at hperm

/-! ## How a statement changes the table -/

/-- The entries to which a document can add where there is nothing yet or a table. -/
def entriesOf? : Option Value → Option Table
  | none => some []
  | some (.table _ entries) => some entries
  | some _ => none

section EntriesOf

variable {old : Option Value} {entries : Table}

theorem entriesOf?_cases (h : entriesOf? old = some entries) :
    (old = none ∧ entries = []) ∨ ∃ form, old = some (.table form entries) := by
  cases old with
  | none => exact .inl ⟨rfl, (Option.some.inj h).symm⟩
  | some v =>
    cases v with
    | table form inner => exact .inr ⟨form, by rw [Option.some.inj h]⟩
    | _ => cases h

theorem isPlain_of_entriesOf? (h : entriesOf? old = some entries) :
    ∀ v ∈ old, v.isPlain = false := by
  rcases entriesOf?_cases h with ⟨rfl, -⟩ | ⟨form, rfl⟩
  · exact nofun
  · intro v hv
    rw [← Option.some.inj hv]
    rfl

theorem bind_at?_nil (old : Option Value) : old.bind (Value.at? []) = old := by
  cases old <;> rfl

theorem bind_at?_of_entriesOf? (h : entriesOf? old = some entries) (key : String)
    (rest : List String) :
    old.bind (Value.at? (key :: rest)) = (Table.get? entries key).bind (Value.at? rest) := by
  rcases entriesOf?_cases h with ⟨rfl, rfl⟩ | ⟨form, rfl⟩ <;> rfl

theorem isOpen_iff_of_entriesOf? (h : entriesOf? old = some entries) (key : String)
    (rest : List String) :
    (∀ v ∈ old, v.IsOpen (key :: rest)) ↔ ∀ v ∈ Table.get? entries key, v.IsOpen rest := by
  rcases entriesOf?_cases h with ⟨rfl, rfl⟩ | ⟨form, rfl⟩
  · exact iff_of_true nofun nofun
  · exact ⟨fun hopen => hopen _ rfl, fun hopen v hv => Option.some.inj hv ▸ hopen⟩

end EntriesOf

/-- At a path, `new` takes the place of `old` or of nothing, and only what the path leads to is
changed: a header opens a table or adds one to an array, and an entry puts its value where there
is none. The path goes through tables and through the last tables of arrays. -/
inductive Reaches : Remark → (path : List String) → (old : Option Value) → (new : Value) → Prop
  | opened {old : Option Value} {entries : Table} (form : TableForm)
      (hold : entriesOf? old = some entries) : Reaches .table [] old (.table form entries)
  | added {old : Option Value} (elements : List Table) (hold : ∀ v ∈ old, v.isPlain = false) :
      Reaches .table [] old (.tables elements)
  | assigned (value : Value) : Reaches (.value value) [] none value
  | within {remark : Remark} {key : String} {rest : List String} {old : Option Value}
      {entries : Table} {new : Value} (form : TableForm) (hold : entriesOf? old = some entries)
      (h : Reaches remark rest (Table.get? entries key) new) :
      Reaches remark (key :: rest) old (.table form (Table.put entries key new))
  | withinLast {remark : Remark} {key : String} {rest : List String} {last : Table}
      {new : Value} (earlier : List Table) (h : Reaches remark rest (Table.get? last key) new) :
      Reaches remark (key :: rest) (some (.tables (last :: earlier)))
        (.tables (Table.put last key new :: earlier))

/-- Along a path, the table `t'` takes the place of `t`. -/
def Puts (remark : Remark) (path : List String) (t t' : Table) : Prop :=
  ∃ key rest new, path = key :: rest ∧ Reaches remark rest (t.get? key) new ∧ t' = t.put key new

section Steps

variable {remark : Remark} {path key : List String} {t t' : Table}

theorem Puts.within (h : Puts remark path t t') (form : TableForm) {old : Option Value}
    (hold : entriesOf? old = some t) : Reaches remark path old (.table form t') := by
  obtain ⟨key, rest, new, rfl, hnew, rfl⟩ := h
  exact .within form hold hnew

theorem Puts.withinLast (h : Puts remark path t t') (earlier : List Table) :
    Reaches remark path (some (.tables (t :: earlier))) (.tables (t' :: earlier)) := by
  obtain ⟨key, rest, new, rfl, hnew, rfl⟩ := h
  exact .withinLast earlier hnew

section Deeper

variable {first : String} {inner : Table} {found : Option Table}
  (hfound : ∀ inner', found = some inner' → Puts remark path inner inner')

include hfound

/-- A change of the table that a key stands for is a change along that key. -/
theorem puts_below {form : TableForm} (hget : entriesOf? (t.get? first) = some inner)
    (h : (found.map fun inner' => t.put first (.table form inner')) = some t') :
    Puts remark (first :: path) t t' := by
  obtain ⟨inner', hinner, rfl⟩ := Option.map_eq_some_iff.mp h
  exact ⟨first, path, _, rfl, (hfound inner' hinner).within form hget, rfl⟩

/-- So is a change of the last table of the array that a key stands for. -/
theorem puts_belowLast {earlier : List Table}
    (hget : t.get? first = some (.tables (inner :: earlier)))
    (h : (found.map fun inner' => t.put first (.tables (inner' :: earlier))) = some t') :
    Puts remark (first :: path) t t' := by
  obtain ⟨inner', hinner, rfl⟩ := Option.map_eq_some_iff.mp h
  exact ⟨first, path, _, rfl, hget ▸ (hfound inner' hinner).withinLast earlier, rfl⟩

end Deeper

theorem puts_of_alter {change : Option Value → Option Value}
    (hchange : ∀ old new, change old = some new → Reaches remark key old new)
    (h : t.alter change path = some t') : Puts remark (path ++ key) t t' := by
  induction path generalizing t t' with
  | nil => cases h
  | cons first rest ih =>
  cases rest with
  | nil =>
    obtain ⟨new, hnew, rfl⟩ := Option.map_eq_some_iff.mp h
    exact ⟨first, key, new, rfl, hchange _ _ hnew, rfl⟩
  | cons second rest =>
    rw [Table.alter] at h
    · split at h
      case h_1 hget => exact puts_below (fun _ => ih) (hget ▸ rfl) h
      case h_2 form entries hget =>
        split at h
        · cases h
        · exact puts_below (fun _ => ih) (hget ▸ rfl) h
      case h_3 last earlier hget => exact puts_belowLast (fun _ => ih) hget h
      case h_4 => cases h
    · exact List.cons_ne_nil second rest

theorem puts_of_insert {value : Value} (h : t.insert value path = some t') :
    Puts (.value value) path t t' := by
  induction path generalizing t t' with
  | nil => cases h
  | cons first rest ih =>
  cases rest with
  | nil =>
    rw [Table.insert] at h
    split at h
    · cases h
    rename_i hget
    obtain rfl := Option.some.inj h
    exact ⟨first, [], value, rfl, Option.not_isSome_iff_eq_none.mp hget ▸ .assigned value, rfl⟩
  | cons second rest =>
    rw [Table.insert] at h
    · split at h
      case h_1 hget => exact puts_below (fun _ => ih) (hget ▸ rfl) h
      case h_2 entries hget => exact puts_below (fun _ => ih) (hget ▸ rfl) h
      case h_3 entries hget =>
        split at h
        · cases h
        · exact puts_below (fun _ => ih) (hget ▸ rfl) h
      case h_4 last earlier hget =>
        split at h
        · cases h
        · exact puts_belowLast (fun _ => ih) hget h
      case h_5 => cases h
    · exact List.cons_ne_nil second rest

theorem puts_of_openTable (h : t.openTable path = some t') : Puts .table path t t' := by
  rw [← List.append_nil path]
  refine puts_of_alter (fun old new hnew => ?_) h
  split at hnew <;> cases hnew
  · exact .opened _ rfl
  · exact .opened _ rfl

theorem puts_of_addElement (h : t.addElement path = some t') : Puts .table path t t' := by
  rw [← List.append_nil path]
  refine puts_of_alter (fun old new hnew => ?_) h
  split at hnew <;> cases hnew
  · exact .added _ (by simp)
  · exact .added _ (by simp [Value.isPlain])

theorem puts_of_insertBelow {value : Value} (h : t.insertBelow path key value = some t') :
    Puts (.value value) (path ++ key) t t' := by
  rw [Table.insertBelow] at h
  split at h
  · rename_i hpath
    rw [hpath]
    exact puts_of_insert h
  refine puts_of_alter (fun old new hnew => ?_) h
  split at hnew
  · obtain ⟨inner, hinner, rfl⟩ := Option.map_eq_some_iff.mp hnew
    exact (puts_of_insert hinner).within _ rfl
  · obtain ⟨inner, hinner, rfl⟩ := Option.map_eq_some_iff.mp hnew
    exact (puts_of_insert hinner).withinLast _
  · cases hnew

end Steps

/-! ## What is said accounts for what is built -/

/-- What is said about a path accounts for what the path leads to. -/
inductive Tells : (said : List Remark) → (found : Option Value) → Prop
  | missing : Tells [] none
  | assigned (v : Value) : Tells [.value v] (some v)
  | table {said : List Remark} {v : Value} (hv : v.isPlain = false) (hne : said ≠ [])
      (h : ∀ u, .value u ∈ said → u.isPlain = false) : Tells said (some v)

section Tells

variable {said before : List Remark} {found old : Option Value} {new v : Value}

theorem Tells.append_table (h : Tells before old) (hold : ∀ v ∈ old, v.isPlain = false)
    (hnew : new.isPlain = false) : Tells (before ++ [.table]) (some new) := by
  refine .table hnew (by simp) (fun u hu => ?_)
  have hu : .value u ∈ before := by simpa using hu
  cases h with
  | missing => cases hu
  | assigned v =>
    obtain rfl : u = v := by simpa using hu
    exact hold u rfl
  | table _ _ h => exact h u hu

theorem tells_toList (found : Option Value) : Tells (found.map .value).toList found := by
  cases found with
  | none => exact .missing
  | some v => exact .assigned v

/-- The path leads nowhere exactly if nothing is said about it. -/
theorem Tells.eq_none_iff (h : Tells said found) : found = none ↔ said = [] := by
  cases h with
  | missing => simp
  | assigned v => simp
  | table _ hne _ => simp [hne]

/-- The path leads to a plain value exactly if that is all that is said about the path. -/
theorem Tells.eq_some_iff (h : Tells said found) (hv : v.isPlain = true) :
    found = some v ↔ said = [.value v] := by
  cases h with
  | missing => simp
  | assigned u => simp
  | table hu _ h =>
    constructor
    · intro heq
      rw [Option.some.inj heq, hv] at hu
      cases hu
    · rintro rfl
      rw [h v (by simp)] at hv
      cases hv

end Tells

/-- Where `new` takes the place of `old`, what is said about a path goes on by `said`, if tables
lead along the path. -/
def Extends (path : List String) (said : List Remark) (old new : Option Value) : Prop :=
  (∀ v ∈ new, v.IsOpen path) →
    (∀ v ∈ old, v.IsOpen path) ∧
      ∀ before, Tells before (old.bind (Value.at? path)) →
        Tells (before ++ said) (new.bind (Value.at? path))

theorem Extends.refl (path : List String) (old : Option Value) : Extends path [] old old :=
  fun hopen => ⟨hopen, fun before h => by rwa [List.append_nil]⟩

theorem Extends.trans {path : List String} {said said' : List Remark}
    {old mid new : Option Value} (h : Extends path said old mid) (h' : Extends path said' mid new) :
    Extends path (said ++ said') old new := by
  intro hopen
  obtain ⟨hmid, htells'⟩ := h' hopen
  obtain ⟨hold, htells⟩ := h hmid
  refine ⟨hold, fun before hbefore => ?_⟩
  rw [← List.append_assoc]
  exact htells' _ (htells before hbefore)

section Extends

variable {said : List Remark} {old new : Option Value} {remark : Remark}

theorem extends_nil {new : Value} (hold : ∀ v ∈ old, v.isPlain = false)
    (hnew : new.isPlain = false) : Extends [] [.table] old (some new) := by
  refine fun _ => ⟨fun _ _ => trivial, fun before hbefore => ?_⟩
  rw [bind_at?_nil] at hbefore ⊢
  exact hbefore.append_table hold hnew

theorem Extends.cons {key : String} {rest : List String} {entries entries' : Table}
    (hold : entriesOf? old = some entries) (hnew : entriesOf? new = some entries')
    (h : Extends rest said (Table.get? entries key) (Table.get? entries' key)) :
    Extends (key :: rest) said old new := by
  rw [Extends, isOpen_iff_of_entriesOf? hold, isOpen_iff_of_entriesOf? hnew,
    bind_at?_of_entriesOf? hold, bind_at?_of_entriesOf? hnew]
  exact h

theorem extends_cons_tables {key : String} {rest : List String} {elements : List Table} :
    Extends (key :: rest) said old (some (.tables elements)) :=
  fun hopen => (hopen _ rfl).elim

theorem extends_assigned (path : List String) (v : Value) :
    Extends path ((Remark.value v).about path []).toList none (some v) := by
  refine fun _ => ⟨nofun, fun before hbefore => ?_⟩
  rw [hbefore.eq_none_iff.mp rfl, List.nil_append]
  cases path with
  | nil => exact .assigned v
  | cons key rest => exact tells_toList _

/-- A change at one place adds to each path what the remark on that place says about it. -/
theorem Reaches.extends {mentioned : List String} {new : Value}
    (h : Reaches remark mentioned old new) (path : List String) :
    Extends path (remark.about path mentioned).toList old (some new) := by
  -- Along the way of the change: tables lead there, and beside it nothing is changed or said.
  induction h generalizing path with
  | opened form hold =>
    cases path with
    | nil => exact extends_nil (isPlain_of_entriesOf? hold) rfl
    | cons key rest => exact .cons hold rfl (.refl rest _)
  | added elements hold =>
    cases path with
    | nil => exact extends_nil hold rfl
    | cons key rest => exact extends_cons_tables
  | assigned value => exact extends_assigned path value
  | within form hold _ ih =>
    cases path with
    | nil => exact extends_nil (isPlain_of_entriesOf? hold) rfl
    | cons first rest =>
      refine .cons hold rfl ?_
      rw [Remark.about]
      split
      · rename_i heq
        rw [heq, Table.get?_put_self]
        exact ih rest
      · rename_i hne
        rw [Table.get?_put_of_ne _ hne]
        exact .refl rest _
  | withinLast earlier _ _ =>
    cases path with
    | nil => exact extends_nil (by simp [Value.isPlain]) rfl
    | cons key rest => exact extends_cons_tables

theorem Puts.extends {mentioned : List String} {t t' : Table} (h : Puts remark mentioned t t')
    (path : List String) : Extends path (remark.about path mentioned).toList
      (some (.table .headed t)) (some (.table .headed t')) :=
  (h.within .headed rfl).extends path

end Extends

theorem saidBy_cons (first : Mention) (found : List Mention) (path : List String) :
    saidBy (first :: found) path =
      (first.remark.about path first.path).toList ++ saidBy found path := by
  rw [saidBy, List.filterMap_cons]
  cases first.remark.about path first.path <;> rfl

/-- The statements of a document add to each path what they say about it. -/
theorem extends_of_build? {header : List String} {statements : List Statement} {t t' : Table}
    (h : build? header t statements = some t') (path : List String) :
    Extends path (saidBy (mentions header statements) path)
      (some (.table .headed t)) (some (.table .headed t')) := by
  -- On the statements, since each of them starts from the table that those before it have built.
  induction statements generalizing header t with
  | nil =>
    obtain rfl := Option.some.inj h
    exact .refl path _
  | cons statement rest ih =>
    rw [mentions, saidBy_cons]
    cases statement with
    | table opened =>
      obtain ⟨mid, hmid, hrest⟩ := Option.bind_eq_some_iff.mp h
      exact ((puts_of_openTable hmid).extends path).trans (ih hrest)
    | element added =>
      obtain ⟨mid, hmid, hrest⟩ := Option.bind_eq_some_iff.mp h
      exact ((puts_of_addElement hmid).extends path).trans (ih hrest)
    | entry key value =>
      obtain ⟨mid, hmid, hrest⟩ := Option.bind_eq_some_iff.mp h
      exact ((puts_of_insertBelow hmid).extends path).trans (ih hrest)

/-- What a document says about a path accounts for what its table holds there, if tables lead
along the path. -/
theorem tells_of_ofText? {text : List Char} {t : Table} (h : Table.ofText? text = some t)
    {path : List String} (hpath : path ≠ []) (hopen : (Value.table .headed t).IsOpen path) :
    Tells (said text path) (t.at? path) := by
  obtain ⟨statements, hstatements, hbuild⟩ := Option.bind_eq_some_iff.mp h
  rw [said, mentionsIn, hstatements]
  obtain ⟨_, htells⟩ := extends_of_build? hbuild path (by simpa using hopen)
  obtain ⟨key, rest, rfl⟩ := List.exists_cons_of_ne_nil hpath
  exact htells [] .missing

end ExportTables.Toml
