import ExportTables.Output
import ExportTables.Proofs.Files.Replacing

/-!
# Reading what a path names

Naming an entry and leading to it are two things: the first walk ends at the directory of the
entry, the second one goes through it. They meet where the entry is no link (`NamesEntry.lookup`),
so files that have been written are what their paths lead to.

A text is compared as a whole, and bytes are the text of one string at most. So the text at a path
is a given one exactly when the path leads to a regular file with its bytes (`currentText_eq_ok`).
-/

namespace ExportTables

theorem fromUTF8?_eq_some {bytes : ByteArray} {text : String} :
    String.fromUTF8? bytes = some text ↔ bytes = text.toUTF8 := by
  rw [String.fromUTF8?]
  constructor
  · intro h
    split at h
    · rw [← Option.some.inj h]
      rfl
    · cases h
  · rintro rfl
    rw [String.toUTF8_eq_toByteArray, dif_pos text.isValidUTF8]
    rfl

namespace FileTree

open ExportTables.Path

variable {t : FileTree} {usable : Location → Prop} {working : WorkingDirectory}
  {path name : String} {d : Location} {entry : Entry}

/-- A walk to a directory goes on from there, if the rest of the way meets no link. -/
theorem Leads.append {links : Nat} {here d' : Location} {route more : List String}
    (h : Leads t usable links here route d) (hd : ∃ b, t.get? d = some (.directory b))
    (hmore : ∀ links, Leads t usable links d more d') :
    Leads t usable links here (route ++ more) d' := by
  induction h with
  | done => exact hmore _
  | slash hhere _ ih => exact .slash hhere (ih hd hmore)
  | current hhere _ ih => exact .current hhere (ih hd hmore)
  | above hhere _ ih => exact .above hhere (ih hd hmore)
  | missing _ _ _ hnone =>
    obtain ⟨b, hd⟩ := hd
    rw [hnone] at hd
    cases hd
  | enter hhere hdots hname hentry hlink _ ih =>
    exact .enter hhere hdots hname hentry hlink (ih hd hmore)
  | link hhere hdots hname hentry husable _ ih =>
    have hrest := ih hd hmore
    rw [List.append_assoc] at hrest
    exact .link hhere hdots hname hentry husable hrest

theorem departure_append {absolute : Bool} {route rest : List String} {start : Location}
    (h : departure working absolute route = some (start, rest)) (more : List String) :
    departure working absolute (route ++ more) = some (start, rest ++ more) := by
  rw [departure] at h ⊢
  split
  · simp_all
  rename_i habsolute
  rw [if_neg habsolute] at h
  split
  · simp_all
  rename_i hremoved
  rw [if_neg hremoved] at h
  split at h
  · rename_i hup
    rw [List.dropWhile_append, hup]
    simpa using h
  · cases h

theorem LeadsFrom.append {absolute : Bool} {route more : List String} {d' : Location}
    (h : t.LeadsFrom usable working absolute route d) (hd : ∃ b, t.get? d = some (.directory b))
    (hmore : ∀ links, Leads t usable links d more d') :
    t.LeadsFrom usable working absolute (route ++ more) d' := by
  obtain ⟨start, rest, hstart, hleads⟩ := h
  exact ⟨start, _, departure_append hstart more, hleads.append hd hmore⟩

theorem lookup_eq_ok_of_leads (hvalid : checkPath path = .ok ())
    (h : t.LeadsFrom usable working (isAbsolute path) (FileTree.route path) d)
    (hentry : t.get? d = some entry) : t.lookup working path = .ok entry := by
  have hresolve : t.resolve working path = .ok (some d) :=
    bind_eq_ok.mpr ⟨(), hvalid, locate_eq_ok.mpr (h.mono fun _ _ => trivial)⟩
  rw [FileTree.lookup, hresolve]
  change t.entryAt (some d) = _
  rw [entryAt, hentry]

/-- A path that names an entry leads to it, unless it is a link. -/
theorem NamesEntry.leads (h : t.NamesEntry usable working path d name)
    (hentry : t.get? (d ++ [name]) = some entry) (hlink : ∀ target, entry ≠ .link target) :
    t.PathLeads usable working path (d ++ [name]) := by
  obtain ⟨lead, hnames⟩ := List.getLast?_eq_some_iff.mp h.last
  have hway := h.way
  rw [hnames, List.dropLast_concat] at hway
  rw [PathLeads, hnames]
  exact hway.append ⟨true, h.directory⟩ fun _ =>
    .enter h.directory ⟨h.name_ne_empty, h.ne_dots⟩ h.short hentry hlink .done

theorem NamesEntry.lookup (h : t.NamesEntry usable working path d name)
    (hslash : endsInSlash path = false) (hentry : t.get? (d ++ [name]) = some entry)
    (hlink : ∀ target, entry ≠ .link target) : t.lookup working path = .ok entry := by
  have hleads :
      t.LeadsFrom usable working (isAbsolute path) (FileTree.route path) (d ++ [name]) := by
    rw [FileTree.route, hslash, if_neg Bool.false_ne_true]
    exact h.leads hentry hlink
  exact lookup_eq_ok_of_leads h.valid hleads hentry

/-- A path leads to a directory whether it ends in a slash or not. -/
theorem PathLeads.lookup {b : Bool} (h : t.PathLeads usable working path d)
    (hvalid : checkPath path = .ok ()) (hd : t.get? d = some (.directory b)) :
    t.lookup working path = .ok (.directory b) := by
  have hroute : t.LeadsFrom usable working (isAbsolute path) (FileTree.route path) d := by
    rw [FileTree.route]
    split
    · exact h.append ⟨b, hd⟩ fun _ => .slash ⟨b, hd⟩ .done
    · exact h
  exact lookup_eq_ok_of_leads hvalid hroute hd

end FileTree

namespace World

open FileSystem FileTree

/-- A path leads to a regular file with the bytes of a text. -/
def Holds (w : World) (path text : String) : Prop :=
  ∃ readOnly, w.tree.lookup w.here path = .ok (.file text.toUTF8 readOnly)

variable {w w' : World} {directory : String} {files : List (String × String)} {d : Location}

theorem HasFiles.holds (h : HasFiles directory files d w w')
    (hnames : ∀ file ∈ files, IsName file.1) :
    ∀ file ∈ files, w'.Holds (Path.join directory file.1) file.2 := by
  intro file hfile
  have hname := hnames file hfile
  exact ⟨false, (h.named file hfile).lookup (hname.endsInSlash_join directory) (h.held file hfile)
    (by simp)⟩

/-! ## Texts -/

theorem run_isFile (path : String) (w : World) :
    (isFile path : StateM World Bool).run w = (decide (w.kind path = .ok .file), w) := by
  rw [isFile, run_bind, run_kind]
  cases w.kind path with
  | error e => rfl
  | ok kind => cases kind <;> rfl

theorem run_readText (path : String) (w : World) :
    (readText path : StateM World _).run w =
      (w.tree.read w.here path >>= fun bytes =>
        match String.fromUTF8? bytes with
        | some text => .ok text
        | none => .error .invalidText, w) := by
  rw [readText, run_bind, run_readBytes]
  cases w.tree.read w.here path with
  | error e => rfl
  | ok bytes =>
    dsimp only
    split <;> simp_all [bind, Except.bind] <;> rfl

theorem Holds.run_isFile {path text : String} (h : w.Holds path text) :
    (isFile path : StateM World Bool).run w = (true, w) := by
  obtain ⟨readOnly, hlookup⟩ := h
  rw [World.run_isFile, World.kind, hlookup]
  rfl

theorem Holds.run_readText {path text : String} (h : w.Holds path text) :
    (readText path : StateM World _).run w = (.ok text, w) := by
  obtain ⟨readOnly, hlookup⟩ := h
  have hread : w.tree.read w.here path = .ok text.toUTF8 := bind_eq_ok.mpr ⟨_, hlookup, rfl⟩
  have hdecoded : String.fromUTF8? text.toUTF8 = some text := fromUTF8?_eq_some.mpr rfl
  simp only [World.run_readText, hread, bind, Except.bind, hdecoded]

theorem Holds.unique {path text text' : String} (h : w.Holds path text)
    (h' : w.Holds path text') : text = text' := by
  have hread := h.run_readText.symm.trans h'.run_readText
  exact Except.ok.inj (Prod.mk.inj hread).1

/-- What the text at a path is depends on what the path leads to. -/
theorem run_currentText (path : String) (w : World) :
    (Output.currentText path : StateM World _).run w =
      (match w.tree.lookup w.here path with
        | .ok (.file bytes _) =>
          match String.fromUTF8? bytes with
          | some text => .ok (some text)
          | none => .error (.unreadable path .invalidText)
        | .ok (.link _) => .error (.unreadable path .isADirectory)
        | _ => .ok none, w) := by
  rw [Output.currentText, run_bind, readIfExists, run_bind, run_isFile, World.kind]
  cases hlookup : w.tree.lookup w.here path with
  | error e => rfl
  | ok entry =>
    cases entry with
    | directory => rfl
    | null => rfl
    | link target =>
      simp only [Except.map, decide_true, if_true]
      rw [run_bind, run_readText, FileTree.read, hlookup]
      rfl
    | file bytes readOnly =>
      simp only [Except.map, decide_true, if_true]
      rw [run_bind, run_readText, FileTree.read, hlookup]
      simp only [bind, Except.bind]
      cases String.fromUTF8? bytes <;> rfl

theorem currentText_eq_ok {path text : String} :
    ((Output.currentText path : StateM World _).run w).1 = .ok (some text) ↔
      w.Holds path text := by
  rw [run_currentText, Holds]
  constructor
  · intro h
    split at h
    · rename_i bytes readOnly hlookup
      split at h
      · rename_i found hfound
        obtain rfl : found = text := by simpa using h
        exact ⟨readOnly, by rw [hlookup, fromUTF8?_eq_some.mp hfound]⟩
      · cases h
    · cases h
    · cases h
  · rintro ⟨readOnly, hlookup⟩
    rw [hlookup]
    dsimp only
    rw [fromUTF8?_eq_some.mpr rfl]

instance (w : World) (path text : String) : Decidable (w.Holds path text) :=
  decidable_of_iff _ currentText_eq_ok

end World

end ExportTables
