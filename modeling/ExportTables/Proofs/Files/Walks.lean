import ExportTables.Proofs.Files.Paths

/-!
# Where walks lead

`Leads` is the walk along names as a relation, with one rule for each kind of name. It also says
which links the walk follows: only those at a usable place. That is what it takes to compare two
trees, since a walk sees nothing of a tree but its directories and the links that it follows, so it
leads to the same directory in every tree that has these (`Leads.keep`).
-/

namespace ExportTables.FileTree

open ExportTables.Path

/-- The names lead from a location to `d`, over at most `links` links that all stand at usable
places. The last name need not exist. -/
inductive Leads (t : FileTree) (usable : Location → Prop) :
    (links : Nat) → Location → List String → Location → Prop
  | done {links here} : Leads t usable links here [] here
  | slash {links here rest d} (hhere : ∃ b, t.get? here = some (.directory b))
      (hrest : Leads t usable links here rest d) : Leads t usable links here ("" :: rest) d
  | current {links here rest d} (hhere : t.get? here = some (.directory true))
      (hrest : Leads t usable links here rest d) : Leads t usable links here ("." :: rest) d
  | above {links here rest d} (hhere : t.get? here = some (.directory true))
      (hrest : Leads t usable links here.dropLast rest d) :
      Leads t usable links here (".." :: rest) d
  | missing {links here name} (hhere : t.get? here = some (.directory true))
      (hdots : name ≠ "" ∧ name ≠ "." ∧ name ≠ "..") (hname : checkName name = .ok ())
      (hnone : t.get? (here ++ [name]) = none) :
      Leads t usable links here [name] (here ++ [name])
  | enter {links here name rest d} {entry : Entry} (hhere : t.get? here = some (.directory true))
      (hdots : name ≠ "" ∧ name ≠ "." ∧ name ≠ "..") (hname : checkName name = .ok ())
      (hentry : t.get? (here ++ [name]) = some entry) (hlink : ∀ target, entry ≠ .link target)
      (hrest : Leads t usable links (here ++ [name]) rest d) :
      Leads t usable links here (name :: rest) d
  | link {links here name rest d} {target : String} (hhere : t.get? here = some (.directory true))
      (hdots : name ≠ "" ∧ name ≠ "." ∧ name ≠ "..") (hname : checkName name = .ok ())
      (hentry : t.get? (here ++ [name]) = some (.link target)) (husable : usable (here ++ [name]))
      (hrest : Leads t usable links (if isAbsolute target then [] else here)
        (FileTree.route target ++ rest) d) :
      Leads t usable (links + 1) here (name :: rest) d

/-! ## Walks are these -/

theorem bind_eq_ok {α β ε : Type} {x : Except ε α} {f : α → Except ε β} {b : β} :
    (x >>= f) = .ok b ↔ ∃ a, x = .ok a ∧ f a = .ok b := by
  cases x <;> simp [bind, Except.bind]

variable {t t' : FileTree} {usable : Location → Prop} {creating : Bool} {links : Nat}
  {here d : Location} {route : List String}

theorem checkDirectory_eq_ok : t.checkDirectory here = .ok () ↔
    t.get? here = some (.directory true) := by
  rw [checkDirectory]
  split <;> simp_all

theorem checkSlash_eq_ok : t.checkSlash here = .ok () ↔
    ∃ b, t.get? here = some (.directory b) := by
  rw [checkSlash]
  split <;> simp_all

/-- What a walk hands over to when it meets a link. -/
def onLink (t : FileTree) : (links : Nat) → Location → List String → Except FileError Location
  | 0 => fun _ _ => .error .tooManyLinks
  | links + 1 => t.walk false links

theorem walk_eq_follow : t.walk false links = t.follow false (t.onLink links) := by
  cases links <;> rfl

theorem Leads.walk (h : Leads t usable links here route d) :
    t.walk false links here route = .ok d := by
  induction h with
  | done => rw [walk_eq_follow, follow]
  | slash hhere _ ih =>
    rw [walk_eq_follow] at ih ⊢
    rw [follow, checkSlash_eq_ok.mpr hhere]
    exact ih
  | current hhere _ ih =>
    rw [walk_eq_follow] at ih ⊢
    rw [follow, checkDirectory_eq_ok.mpr hhere]
    · exact ih
    · decide
  | above hhere _ ih =>
    rw [walk_eq_follow] at ih ⊢
    rw [follow, checkDirectory_eq_ok.mpr hhere]
    · exact ih
    · decide
  | missing hhere hdots hname hnone =>
    obtain ⟨hempty, hdot, hdotdot⟩ := hdots
    rw [walk_eq_follow, follow, checkDirectory_eq_ok.mpr hhere]
    · simp [hdot, hdotdot, hname, hnone, bind, Except.bind]
    · exact hempty
  | @enter _ here name rest d entry hhere hdots hname hentry hlink _ ih =>
    obtain ⟨hempty, hdot, hdotdot⟩ := hdots
    rw [walk_eq_follow] at ih ⊢
    rw [follow, checkDirectory_eq_ok.mpr hhere]
    · cases entry with
      | link target => exact absurd rfl (hlink target)
      | directory => simpa [hdot, hdotdot, hname, hentry, bind, Except.bind] using ih
      | file => simpa [hdot, hdotdot, hname, hentry, bind, Except.bind] using ih
      | null => simpa [hdot, hdotdot, hname, hentry, bind, Except.bind] using ih
    · exact hempty
  | link hhere hdots hname hentry _ _ ih =>
    obtain ⟨hempty, hdot, hdotdot⟩ := hdots
    rw [walk_eq_follow, follow, checkDirectory_eq_ok.mpr hhere]
    · simpa [hdot, hdotdot, hname, hentry, bind, Except.bind, onLink] using ih
    · exact hempty

theorem leads_of_follow {onLink : Location → List String → Except FileError Location}
    (honLink : ∀ {start route d}, onLink start route = .ok d →
      ∃ fewer, links = fewer + 1 ∧ Leads t (fun _ => True) fewer start route d)
    (h : t.follow creating onLink here route = .ok d) :
    Leads t (fun _ => True) links here route d := by
  induction route generalizing here with
  | nil =>
    obtain rfl : here = d := Except.ok.inj h
    exact .done
  | cons name rest ih =>
    by_cases hempty : name = ""
    · subst hempty
      rw [follow] at h
      obtain ⟨⟨⟩, hslash, h⟩ := bind_eq_ok.mp h
      exact .slash (checkSlash_eq_ok.mp hslash) (ih h)
    rw [follow] at h
    swap
    · exact hempty
    obtain ⟨⟨⟩, hhere, hstep⟩ := bind_eq_ok.mp h
    have hdirectory := checkDirectory_eq_ok.mp hhere
    split at hstep
    · cases hstep
    split at hstep
    · rename_i hdot
      subst hdot
      exact .current hdirectory (ih hstep)
    rename_i hdot
    split at hstep
    · rename_i hdotdot
      subst hdotdot
      exact .above hdirectory (ih hstep)
    rename_i hdotdot
    obtain ⟨⟨⟩, hname, hfound⟩ := bind_eq_ok.mp hstep
    have hdots : name ≠ "" ∧ name ≠ "." ∧ name ≠ ".." := ⟨hempty, hdot, hdotdot⟩
    split at hfound
    · rename_i target hentry
      obtain ⟨fewer, rfl, hleads⟩ := honLink hfound
      exact .link hdirectory hdots hname hentry trivial hleads
    · rename_i entry hlink hentry
      exact .enter hdirectory hdots hname hentry hlink (ih hfound)
    · rename_i hentry
      split at hfound
      · rename_i hrest
        subst hrest
        obtain rfl : here ++ [name] = d := Except.ok.inj hfound
        exact .missing hdirectory hdots hname hentry
      · cases hfound

/-- A walk that may create leads nowhere else, it only refuses more. -/
theorem leads_of_walk (h : t.walk creating links here route = .ok d) :
    Leads t (fun _ => True) links here route d := by
  induction links generalizing here route d with
  | zero =>
    rw [FileTree.walk] at h
    exact leads_of_follow (fun hlink => by cases hlink) h
  | succ links ih =>
    rw [FileTree.walk] at h
    exact leads_of_follow (fun hlink => ⟨links, rfl, ih hlink⟩) h

/-! ## What a walk depends on -/

theorem Leads.mono {usable' : Location → Prop} (h : Leads t usable links here route d)
    (husable : ∀ l, usable l → usable' l) : Leads t usable' links here route d := by
  induction h with
  | done => exact .done
  | slash hhere _ ih => exact .slash hhere ih
  | current hhere _ ih => exact .current hhere ih
  | above hhere _ ih => exact .above hhere ih
  | missing hhere hdots hname hnone => exact .missing hhere hdots hname hnone
  | enter hhere hdots hname hentry hlink _ ih => exact .enter hhere hdots hname hentry hlink ih
  | link hhere hdots hname hentry hplace _ ih =>
    exact .link hhere hdots hname hentry (husable _ hplace) ih

/-- A tree that has the directories of another one and the links at usable places. -/
structure Keeps (usable : Location → Prop) (t t' : FileTree) : Prop where
  directories : ∀ l b, t.get? l = some (.directory b) → t'.get? l = some (.directory b)
  links : ∀ l target, usable l → t.get? l = some (.link target) → t'.get? l = some (.link target)

theorem Keeps.trans {t'' : FileTree} (h : Keeps usable t t') (h' : Keeps usable t' t'') :
    Keeps usable t t'' where
  directories l b hl := h'.directories l b (h.directories l b hl)
  links l target hplace hl := h'.links l target hplace (h.links l target hplace hl)

theorem Keeps.not_directory (h : Keeps usable t t') {l : Location}
    (hl : ∀ entry, t'.get? l = some entry → entry.isDirectory = false) :
    ∀ entry, t.get? l = some entry → entry.isDirectory = false := by
  intro entry hentry
  cases entry with
  | directory b => exact hl _ (h.directories l b hentry)
  | file => rfl
  | link => rfl
  | null => rfl

/-- A file that is put somewhere hides what was there and shows no directory or link. -/
theorem get?_of_put_file {place l : Location} {entry : Entry} {contents : ByteArray} {b : Bool}
    (hplace : place ≠ []) (hentry : ∀ contents b, entry ≠ .file contents b)
    (h : (t.put place (.file contents b)).get? l = some entry) :
    l ≠ place ∧ t.get? l = some entry := by
  have hne : l ≠ place := by
    rintro rfl
    rw [get?_put_self _ hplace] at h
    exact hentry _ _ (Option.some.inj h).symm
  rw [get?_put_of_ne _ hne] at h
  exact ⟨hne, h⟩

theorem Keeps.of_put_file (h : Keeps usable t t') {place : Location} (hplace : place ≠ [])
    (contents : ByteArray) (b : Bool) : Keeps usable (t.put place (.file contents b)) t' where
  directories l b hl := h.directories l b (get?_of_put_file hplace (by simp) hl).2
  links l target husable hl := h.links l target husable (get?_of_put_file hplace (by simp) hl).2

/-- A file in both trees is in no way's way. -/
theorem Keeps.put_file (h : Keeps usable t t') {place : Location} (hplace : place ≠ [])
    (contents : ByteArray) (b : Bool) :
    Keeps usable (t.put place (.file contents b)) (t'.put place (.file contents b)) where
  directories l b hl := by
    rw [get?_put_of_ne _ (get?_of_put_file hplace (by simp) hl).1]
    exact (h.of_put_file hplace _ _).directories l b hl
  links l target husable hl := by
    rw [get?_put_of_ne _ (get?_of_put_file hplace (by simp) hl).1]
    exact (h.of_put_file hplace _ _).links l target husable hl

/-- What is put at a place that is not usable and holds no directory is in no way's way. -/
theorem Keeps.put {place : Location} (husable : ¬usable place)
    (hvictim : ∀ victim, t.get? place = some victim → victim.isDirectory = false) (entry : Entry) :
    Keeps usable t (t.put place entry) where
  directories l b hl := by
    rw [get?_put_of_ne, hl]
    rintro rfl
    cases hvictim _ hl
  links l target hplace hl := by
    rw [get?_put_of_ne, hl]
    rintro rfl
    exact husable hplace

theorem Leads.starts_in_directory (h : Leads t usable links here route d) (hroute : route ≠ []) :
    ∃ b, t.get? here = some (.directory b) := by
  cases h with
  | done => exact absurd rfl hroute
  | slash hhere _ => exact hhere
  | current hhere _ => exact ⟨true, hhere⟩
  | above hhere _ => exact ⟨true, hhere⟩
  | missing hhere _ _ _ => exact ⟨true, hhere⟩
  | enter hhere _ _ _ _ _ => exact ⟨true, hhere⟩
  | link hhere _ _ _ _ _ => exact ⟨true, hhere⟩

/-- A walk to an entry leads to it in every tree that has the entry, the directories and the links
followed. -/
theorem Leads.keep_entry {entry : Entry} (hkeeps : Keeps usable t t')
    (h : Leads t usable links here route d) (hd : t.get? d = some entry)
    (hd' : t'.get? d = some entry) : Leads t' usable links here route d := by
  induction h with
  | done => exact .done
  | slash hhere _ ih =>
    obtain ⟨b, hhere⟩ := hhere
    exact .slash ⟨b, hkeeps.directories _ _ hhere⟩ (ih hd hd')
  | current hhere _ ih => exact .current (hkeeps.directories _ _ hhere) (ih hd hd')
  | above hhere _ ih => exact .above (hkeeps.directories _ _ hhere) (ih hd hd')
  | missing _ _ _ hnone =>
    rw [hnone] at hd
    cases hd
  | @enter _ here name rest d found hhere hdots hname hfound hlink hrest ih =>
    have hfound' : t'.get? (here ++ [name]) = some found := by
      by_cases hempty : rest = []
      · subst hempty
        cases hrest
        rw [hd', ← hd, hfound]
      · obtain ⟨b, hb⟩ := hrest.starts_in_directory hempty
        rw [hkeeps.directories _ _ hb, ← hb, hfound]
    exact .enter (hkeeps.directories _ _ hhere) hdots hname hfound' hlink (ih hd hd')
  | link hhere hdots hname hentry husable _ ih =>
    exact .link (hkeeps.directories _ _ hhere) hdots hname (hkeeps.links _ _ husable hentry)
      husable (ih hd hd')

theorem Leads.keep (hkeeps : Keeps usable t t') (h : Leads t usable links here route d)
    (hd : ∃ b, t.get? d = some (.directory b)) : Leads t' usable links here route d := by
  obtain ⟨b, hd⟩ := hd
  exact h.keep_entry hkeeps hd (hkeeps.directories _ _ hd)

/-! ## The way from the root to the working directory -/

/-- The names lead from a location over directories, one below the other. -/
def IsChain (t : FileTree) : Location → List String → Prop
  | _, [] => True
  | here, name :: rest =>
    IsName name ∧ (∃ b, t.get? (here ++ [name]) = some (.directory b)) ∧
      IsChain t (here ++ [name]) rest

theorem IsChain.isName {chain : List String} (h : IsChain t here chain) :
    ∀ name ∈ chain, IsName name := by
  induction chain generalizing here with
  | nil => simp
  | cons name rest ih =>
    obtain ⟨hname, -, hrest⟩ := h
    exact List.forall_mem_cons.mpr ⟨hname, ih hrest⟩

theorem IsChain.keep {chain : List String} (hkeeps : Keeps usable t t')
    (h : IsChain t here chain) : IsChain t' here chain := by
  induction chain generalizing here with
  | nil => trivial
  | cons name rest ih =>
    obtain ⟨hname, ⟨b, hb⟩, hrest⟩ := h
    exact ⟨hname, ⟨b, hkeeps.directories _ _ hb⟩, ih hrest⟩

theorem Leads.into_directory {name : String} {b : Bool} (hname : IsName name)
    (hb : t.get? (here ++ [name]) = some (.directory b))
    (h : Leads t usable links here (name :: route) d) :
    t.get? here = some (.directory true) ∧ checkName name = .ok () ∧
      Leads t usable links (here ++ [name]) route d := by
  cases h with
  | slash => exact absurd rfl hname.ne_empty
  | current => exact absurd rfl hname.ne_dot
  | above => exact absurd rfl hname.ne_dotdot
  | missing _ _ _ hnone => rw [hb] at hnone; cases hnone
  | enter hhere _ hcheck _ _ hrest => exact ⟨hhere, hcheck, hrest⟩
  | link _ _ _ hentry => rw [hb] at hentry; cases hentry

/-- A walk that starts with a chain of directories is the walk from its end, and whatever starts
at its end can be walked behind the chain too. -/
theorem Leads.of_chain {chain : List String} (hchain : IsChain t here chain)
    (h : Leads t usable links here (chain ++ route) d) :
    Leads t usable links (here ++ chain) route d ∧
      ∀ usable' route' d', Leads t usable' links (here ++ chain) route' d' →
        Leads t usable' links here (chain ++ route') d' := by
  induction chain generalizing here with
  | nil =>
    rw [List.append_nil]
    exact ⟨h, fun _ _ _ h' => h'⟩
  | cons name rest ih =>
    obtain ⟨hname, ⟨b, hb⟩, hrest⟩ := hchain
    obtain ⟨hhere, hcheck, hleads⟩ := h.into_directory hname hb
    obtain ⟨hend, hback⟩ := ih hrest hleads
    rw [List.append_assoc, List.singleton_append] at hend hback
    refine ⟨hend, ?_⟩
    intro usable' route' d' h'
    exact .enter hhere ⟨hname.ne_empty, hname.ne_dot, hname.ne_dotdot⟩ hcheck hb (by simp)
      (hback usable' route' d' h')

/-! ## Paths from the working directory -/

/-- Where a walk along names begins, and the names that it takes from there. From a working
directory that has been removed, only the way to the directory above leads anywhere. -/
def departure (working : WorkingDirectory) (absolute : Bool) (route : List String) :
    Option (Location × List String) :=
  if absolute then some ([], route)
  else if !working.removed then some (working.location, route)
  else match route.dropWhile fun name => name = "." || name = "" with
    | ".." :: rest => some (working.location.dropLast, rest)
    | _ => none

/-- The names of a path lead to a location over links at usable places only. -/
def LeadsFrom (t : FileTree) (usable : Location → Prop) (working : WorkingDirectory)
    (absolute : Bool) (route : List String) (d : Location) : Prop :=
  ∃ start names, departure working absolute route = some (start, names) ∧
    t.Leads usable linkLimit start names d

variable {working : WorkingDirectory} {absolute : Bool}

/-- A path leads to a location over links at usable places only. A slash at its end is no matter. -/
def PathLeads (t : FileTree) (usable : Location → Prop) (working : WorkingDirectory)
    (path : String) (d : Location) : Prop :=
  t.LeadsFrom usable working (isAbsolute path) (names path) d

theorem leadsFrom_of_locate (h : t.locate creating working absolute route = .ok (some d)) :
    t.LeadsFrom (fun _ => True) working absolute route d := by
  have hwalk : ∀ start names, (t.walk creating linkLimit start names).map some = .ok (some d) →
      t.Leads (fun _ => True) linkLimit start names d := by
    intro start names hmapped
    cases hok : t.walk creating linkLimit start names with
    | error e => simp [hok, Except.map] at hmapped
    | ok d' =>
      obtain rfl : d' = d := by simpa [hok, Except.map] using hmapped
      exact leads_of_walk hok
  rw [locate] at h
  rw [LeadsFrom, departure]
  split at h
  · exact ⟨_, _, if_pos ‹_›, hwalk _ _ h⟩
  rw [if_neg ‹_›]
  split at h
  · exact ⟨_, _, if_pos ‹_›, hwalk _ _ h⟩
  rw [if_neg ‹_›]
  split at h
  · cases h
  · rename_i rest hup
    rw [hup]
    exact ⟨_, _, rfl, hwalk _ _ h⟩
  · cases h
  · cases h

theorem locate_of_departure {start : Location} {names : List String}
    (h : departure working absolute route = some (start, names)) :
    t.locate creating working absolute route =
      (t.walk creating linkLimit start names).map some := by
  rw [departure] at h
  rw [locate]
  split at h
  · obtain ⟨rfl, rfl⟩ := Prod.mk.inj (Option.some.inj h)
    rw [if_pos ‹_›]
  rw [if_neg ‹_›]
  split at h
  · obtain ⟨rfl, rfl⟩ := Prod.mk.inj (Option.some.inj h)
    rw [if_pos ‹_›]
  rw [if_neg ‹_›]
  split at h
  · rename_i rest hup
    obtain ⟨rfl, rfl⟩ := Prod.mk.inj (Option.some.inj h)
    rw [hup]
    rfl
  · cases h

theorem locate_eq_ok : t.locate false working absolute route = .ok (some d) ↔
    t.LeadsFrom (fun _ => True) working absolute route d := by
  refine ⟨leadsFrom_of_locate, ?_⟩
  intro h
  obtain ⟨start, names, hstart, hleads⟩ := h
  rw [locate_of_departure hstart, hleads.walk]
  rfl

theorem LeadsFrom.mono {usable' : Location → Prop}
    (h : t.LeadsFrom usable working absolute route d) (husable : ∀ l, usable l → usable' l) :
    t.LeadsFrom usable' working absolute route d := by
  obtain ⟨start, names, hstart, hleads⟩ := h
  exact ⟨start, names, hstart, hleads.mono husable⟩

theorem LeadsFrom.keep_entry {entry : Entry} (hkeeps : Keeps usable t t')
    (h : t.LeadsFrom usable working absolute route d) (hd : t.get? d = some entry)
    (hd' : t'.get? d = some entry) : t'.LeadsFrom usable working absolute route d := by
  obtain ⟨start, names, hstart, hleads⟩ := h
  exact ⟨start, names, hstart, hleads.keep_entry hkeeps hd hd'⟩

theorem LeadsFrom.keep (hkeeps : Keeps usable t t')
    (h : t.LeadsFrom usable working absolute route d)
    (hd : ∃ b, t.get? d = some (.directory b)) : t'.LeadsFrom usable working absolute route d := by
  obtain ⟨b, hd⟩ := hd
  exact h.keep_entry hkeeps hd (hkeeps.directories _ _ hd)

theorem LeadsFrom.unique {usable' : Location → Prop} {d' : Location}
    (h : t.LeadsFrom usable working absolute route d)
    (h' : t.LeadsFrom usable' working absolute route d') : d = d' := by
  obtain ⟨start, names, hstart, hleads⟩ := h
  obtain ⟨start', names', hstart', hleads'⟩ := h'
  rw [hstart] at hstart'
  obtain ⟨rfl, rfl⟩ := Prod.mk.inj (Option.some.inj hstart')
  exact Except.ok.inj (hleads.walk.symm.trans hleads'.walk)

end ExportTables.FileTree
