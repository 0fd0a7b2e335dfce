import ExportTables.Files.World
import Mathlib.Data.List.Nodup
import Mathlib.Data.List.Perm.Subperm

/-!
# The names in a joined path

A walk reads a path as the row of its names, and two texts joined by a slash are read as the two
rows joined. So what a joined path leads to can be told from where its left part leads, and the
path of the working directory reads as the location of that directory.
-/

namespace ExportTables

namespace Path

theorem pieces_ne_nil (text : List Char) : pieces text ≠ [] := by
  induction text with
  | nil => simp [pieces]
  | cons c rest ih =>
    rw [pieces]
    split
    · simp
    · split <;> simp

theorem pieces_append_slash (left right : List Char) :
    pieces (left ++ '/' :: right) = pieces left ++ pieces right := by
  induction left with
  | nil => simp [pieces]
  | cons c rest ih =>
    rw [List.cons_append, pieces, pieces, ih]
    split
    · rfl
    · cases hrest : pieces rest with
      | nil => exact absurd hrest (pieces_ne_nil rest)
      | cons piece more => rfl

theorem pieces_of_no_slash {text : List Char} (h : '/' ∉ text) : pieces text = [text] := by
  induction text with
  | nil => rfl
  | cons c rest ih =>
    have hc : c ≠ '/' := by
      intro heq
      exact h (heq ▸ List.mem_cons_self ..)
    have hrest := ih fun hmem => h (List.mem_cons_of_mem c hmem)
    rw [pieces, if_neg hc, hrest]

/-- A join puts a slash between its parts unless the left one is empty or has a slash at its
end. -/
theorem toList_join (left : String) {right : String} (hright : isAbsolute right = false) :
    ((left = "" ∨ ∃ lead, left.toList = lead ++ ['/']) ∧
        (join left right).toList = left.toList ++ right.toList) ∨
      (left ≠ "" ∧ (join left right).toList = left.toList ++ '/' :: right.toList) := by
  rw [join, hright, if_neg Bool.false_ne_true]
  split
  · rename_i hlast
    rw [List.getLast?_eq_none_iff, String.toList_eq_nil_iff] at hlast
    subst hlast
    exact Or.inl ⟨Or.inl rfl, rfl⟩
  · rename_i hlast
    exact Or.inl ⟨Or.inr (List.getLast?_eq_some_iff.mp hlast), String.toList_append⟩
  · rename_i hlast
    refine Or.inr ⟨?_, ?_⟩
    · rintro rfl
      simp at hlast
    · rw [String.toList_append, String.toList_append, List.append_assoc]
      rfl

theorem isAbsolute_join (left : String) {right : String} (hright : isAbsolute right = false) :
    isAbsolute (join left right) = isAbsolute left := by
  rcases toList_join left hright with ⟨rfl | ⟨lead, hlead⟩, hjoin⟩ | ⟨hne, hjoin⟩
  · rw [isAbsolute, hjoin]
    exact hright
  · rw [isAbsolute, isAbsolute, hjoin, hlead]
    cases lead <;> rfl
  · obtain ⟨c, rest, hleft⟩ := List.exists_cons_of_ne_nil (String.toList_eq_nil_iff.not.mpr hne)
    rw [isAbsolute, isAbsolute, hjoin, hleft]
    rfl

/-- How many bytes a join adds to its right part depends on the left one only. -/
theorem utf8ByteSize_join (left : String) : ∃ room, ∀ right, isAbsolute right = false →
    (join left right).utf8ByteSize = room + right.utf8ByteSize := by
  cases hlast : left.toList.getLast? with
  | none =>
    refine ⟨0, fun right hright => ?_⟩
    simp [join, hright, hlast]
  | some c =>
    by_cases hc : c = '/'
    · refine ⟨left.utf8ByteSize, fun right hright => ?_⟩
      simp [join, hright, hlast, hc]
    · refine ⟨(left ++ "/").utf8ByteSize, fun right hright => ?_⟩
      simp [join, hright, hlast]

end Path

namespace FileTree

open ExportTables.Path

theorem endsInSlash_join (left : String) {right : String} (hright : isAbsolute right = false)
    (hne : right ≠ "") : endsInSlash (join left right) = endsInSlash right := by
  have hright' : right.toList ≠ [] := String.toList_eq_nil_iff.not.mpr hne
  rcases toList_join left hright with ⟨-, hjoin⟩ | ⟨-, hjoin⟩
  · rw [endsInSlash, endsInSlash, hjoin, List.getLast?_append_of_ne_nil _ hright']
  · rw [endsInSlash, endsInSlash, hjoin, List.getLast?_append_of_ne_nil _ (List.cons_ne_nil _ _),
      List.getLast?_cons_of_ne_nil hright']

theorem holdsNul_join (left : String) {right : String} (hright : isAbsolute right = false) :
    holdsNul (join left right) = (holdsNul left || holdsNul right) := by
  rcases toList_join left hright with ⟨-, hjoin⟩ | ⟨-, hjoin⟩ <;> simp [holdsNul, hjoin]

/-- The names in a text. -/
def namesOf (text : List Char) : List String :=
  ((pieces text).filter (!·.isEmpty)).map String.ofList

theorem namesOf_append_slash (left right : List Char) :
    namesOf (left ++ '/' :: right) = namesOf left ++ namesOf right := by
  simp only [namesOf, pieces_append_slash, List.filter_append, List.map_append]

theorem names_join (left : String) {right : String} (hright : isAbsolute right = false) :
    names (join left right) = names left ++ names right := by
  show namesOf _ = namesOf _ ++ namesOf _
  rcases toList_join left hright with ⟨rfl | ⟨lead, hlead⟩, hjoin⟩ | ⟨-, hjoin⟩
  · rw [hjoin]
    rfl
  · rw [hjoin, hlead, List.append_assoc, List.singleton_append, namesOf_append_slash,
      namesOf_append_slash]
    simp [namesOf, pieces]
  · rw [hjoin, namesOf_append_slash]

/-- A text that can be the name of an entry. -/
structure IsName (name : String) : Prop where
  ne_empty : name ≠ ""
  no_slash : '/' ∉ name.toList
  ne_dot : name ≠ "."
  ne_dotdot : name ≠ ".."

theorem IsName.isAbsolute {name : String} (h : IsName name) : isAbsolute name = false := by
  by_contra habsolute
  rw [Bool.not_eq_false, Path.isAbsolute, beq_iff_eq] at habsolute
  exact h.no_slash (List.mem_of_mem_head? habsolute)

theorem IsName.endsInSlash {name : String} (h : IsName name) : endsInSlash name = false := by
  by_contra hslash
  rw [Bool.not_eq_false, FileTree.endsInSlash, beq_iff_eq] at hslash
  exact h.no_slash (List.mem_of_getLast? hslash)

theorem IsName.endsInSlash_join {name : String} (h : IsName name) (left : String) :
    FileTree.endsInSlash (Path.join left name) = false := by
  rw [FileTree.endsInSlash_join left h.isAbsolute h.ne_empty, h.endsInSlash]

theorem IsName.names {name : String} (h : IsName name) : names name = [name] := by
  have hne : name.toList ≠ [] := String.toList_eq_nil_iff.not.mpr h.ne_empty
  rw [FileTree.names, pieces_of_no_slash h.no_slash]
  simp [hne]

theorem checkPath_eq_ok {path : String} : checkPath path = .ok () ↔
    holdsNul path = false ∧ path ≠ "" ∧ path.utf8ByteSize ≤ pathLimit := by
  rw [checkPath]
  split
  · simp_all
  · split
    · simp_all
    · split
      · simp_all
      · simp_all

theorem checkPath_of_join {directory name : String} (hname : IsName name) (hne : directory ≠ "")
    (h : checkPath (join directory name) = .ok ()) : checkPath directory = .ok () := by
  obtain ⟨hnul, -, hsize⟩ := checkPath_eq_ok.mp h
  rw [holdsNul_join _ hname.isAbsolute, Bool.or_eq_false_iff] at hnul
  obtain ⟨rest, hrest⟩ : ∃ rest, join directory name = directory ++ rest := by
    rcases toList_join directory hname.isAbsolute with ⟨-, hjoin⟩ | ⟨-, hjoin⟩
    · exact ⟨name, String.toList_inj.mp (by rw [hjoin, String.toList_append])⟩
    · exact ⟨"/" ++ name, String.toList_inj.mp (by simp [hjoin])⟩
  rw [hrest, String.utf8ByteSize_append] at hsize
  exact checkPath_eq_ok.mpr ⟨hnul.1, hne, by omega⟩

/-! ## Temporary names -/

theorem toList_temporaryName (n : Nat) : ∃ digits, (∀ c ∈ digits, c.isDigit = true) ∧
    Nat.ofDigitChars 10 digits 0 = n ∧
    (temporaryName n).toList = '.' :: 't' :: 'm' :: 'p' :: digits := by
  refine ⟨List.replicate (6 - (Nat.toDigits 10 n).length) '0' ++ Nat.toDigits 10 n, ?_, ?_, ?_⟩
  · intro c hc
    rcases List.mem_append.mp hc with hc | hc
    · rw [List.eq_of_mem_replicate hc]
      decide
    · exact Nat.isDigit_of_mem_toDigits (by decide) (by decide) hc
  · rw [Nat.ofDigitChars_append, Nat.ofDigitChars_replicate_zero, Nat.mul_zero,
      Nat.ofDigitChars_ten_toDigits]
  · simp [temporaryName]

theorem temporaryName_injective : Function.Injective temporaryName := by
  intro m n h
  obtain ⟨left, -, hm, hleft⟩ := toList_temporaryName m
  obtain ⟨right, -, hn, hright⟩ := toList_temporaryName n
  rw [h, hright] at hleft
  obtain rfl : right = left := by simpa using hleft
  exact hm.symm.trans hn

/-- A tree has fewer names than there are candidates, so one of these is free. -/
theorem exists_freshName (t : FileTree) : ∃ n ≤ t.entries.length, t.freshName = temporaryName n ∧
    ∀ entry ∈ t.entries, entry.1.getLast? ≠ some t.freshName := by
  have hfree : ∃ name ∈ (List.range (t.entries.length + 1)).map temporaryName,
      t.entries.all (·.1.getLast? != some name) = true := by
    by_contra hnone
    have hsubset : (List.range (t.entries.length + 1)).map temporaryName ⊆
        t.entries.filterMap (·.1.getLast?) := by
      intro name hname
      have htaken : ¬t.entries.all (·.1.getLast? != some name) = true :=
        fun hall => hnone ⟨name, hname, hall⟩
      simp only [List.all_eq_true, bne_iff_ne, not_forall, not_not] at htaken
      obtain ⟨entry, hentry, hlast⟩ := htaken
      exact List.mem_filterMap.mpr ⟨entry, hentry, hlast⟩
    have hnodup : ((List.range (t.entries.length + 1)).map temporaryName).Nodup :=
      List.nodup_range.map temporaryName_injective
    have hlength := (hnodup.subperm hsubset).length_le
    have hfilter := t.entries.length_filterMap_le (·.1.getLast?)
    rw [List.length_map, List.length_range] at hlength
    omega
  rw [freshName]
  cases hfound : ((List.range (t.entries.length + 1)).map temporaryName).find? fun name =>
      t.entries.all (·.1.getLast? != some name) with
  | none =>
    obtain ⟨name, hname, hall⟩ := hfree
    exact absurd hall (List.find?_eq_none.mp hfound name hname)
  | some name =>
    obtain ⟨n, hn, rfl⟩ := List.mem_map.mp (List.mem_of_find?_eq_some hfound)
    have hall := List.find?_some hfound
    rw [List.all_eq_true] at hall
    refine ⟨n, Nat.le_of_lt_succ (List.mem_range.mp hn), rfl, ?_⟩
    intro entry hentry
    exact bne_iff_ne.mp (hall entry hentry)

/-- A temporary name is free in every directory. -/
theorem get?_freshName (t : FileTree) (d : Location) : t.get? (d ++ [t.freshName]) = none := by
  obtain ⟨-, -, -, hfree⟩ := t.exists_freshName
  rw [get?, if_neg (by simp), List.lookup_eq_none_iff]
  intro entry hentry
  rw [bne_iff_ne]
  intro heq
  exact hfree entry hentry (by rw [← heq]; simp)

theorem isName_temporaryName (n : Nat) : IsName (temporaryName n) := by
  obtain ⟨digits, hdigits, -, hname⟩ := toList_temporaryName n
  have hne : ∀ other : String, other.toList.length < 4 → temporaryName n ≠ other := by
    rintro other hlength rfl
    rw [hname] at hlength
    simp only [List.length_cons] at hlength
    omega
  refine ⟨hne _ (by decide), ?_, hne _ (by decide), hne _ (by decide)⟩
  rw [hname]
  intro hmem
  have hdigit : '/' ∈ digits := by simpa using hmem
  exact absurd (hdigits _ hdigit) (by decide)

theorem holdsNul_temporaryName (n : Nat) : holdsNul (temporaryName n) = false := by
  obtain ⟨digits, hdigits, -, hname⟩ := toList_temporaryName n
  rw [holdsNul, hname, List.any_eq_false]
  intro c hc hzero
  simp only [List.mem_cons] at hc
  rcases hc with rfl | rfl | rfl | rfl | hc
  any_goals cases hzero
  obtain rfl : c = Char.ofNat 0 := Char.toNat_inj.mp (beq_iff_eq.mp hzero)
  cases hdigits _ hc

theorem length_le_utf8ByteSize (text : List Char) :
    text.length ≤ (String.ofList text).utf8ByteSize := by
  induction text with
  | nil => exact Nat.zero_le _
  | cons c text ih =>
    have hpos := c.utf8Size_pos
    rw [String.ofList_cons, String.utf8ByteSize_append, String.utf8ByteSize_singleton,
      List.length_cons]
    omega

/-- No temporary name is shorter than the first one. -/
theorem utf8ByteSize_temporaryName_zero_le (n : Nat) :
    (temporaryName 0).utf8ByteSize ≤ (temporaryName n).utf8ByteSize := by
  have hzero : (temporaryName 0).utf8ByteSize = ".tmp".utf8ByteSize + 6 := by decide +kernel
  have hlength := length_le_utf8ByteSize
    (List.replicate (6 - (Nat.toDigits 10 n).length) '0' ++ Nat.toDigits 10 n)
  rw [List.length_append, List.length_replicate] at hlength
  rw [hzero, temporaryName, String.utf8ByteSize_append]
  omega

/-! ## The path of a location -/

theorem names_root_path {location : Location} (h : ∀ name ∈ location, IsName name) :
    names ("/" ++ "/".intercalate location) = location := by
  have hlead : names ("/" ++ "/".intercalate location) = names ("/".intercalate location) := by
    have htext : ("/" ++ "/".intercalate location).toList =
        [] ++ '/' :: ("/".intercalate location).toList := by
      rw [String.toList_append]
      rfl
    show namesOf _ = namesOf _
    rw [htext, namesOf_append_slash]
    rfl
  rw [hlead]
  clear hlead
  induction location with
  | nil => decide
  | cons name rest ih =>
    obtain ⟨hname, hrest⟩ := List.forall_mem_cons.mp h
    cases rest with
    | nil => rw [String.intercalate_singleton, hname.names]
    | cons other rest =>
      have htext : ("/".intercalate (name :: other :: rest)).toList =
          name.toList ++ '/' :: ("/".intercalate (other :: rest)).toList := by
        rw [String.intercalate_cons_cons, String.toList_append, String.toList_append,
          List.append_assoc]
        rfl
      show namesOf _ = _
      rw [htext, namesOf_append_slash]
      exact congrArg₂ (· ++ ·) hname.names (ih hrest)

/-! ## Repeated slashes -/

/-- The root directory by a path of so many slashes. -/
def slashes (n : Nat) : String := String.ofList (List.replicate n '/')

theorem toList_slashes (n : Nat) : (slashes n).toList = List.replicate n '/' := String.toList_ofList

theorem isAbsolute_slashes (n : Nat) : isAbsolute (slashes (n + 1)) = true := by
  rw [isAbsolute, toList_slashes]
  rfl

theorem names_slashes (n : Nat) : names (slashes n) = [] := by
  show namesOf _ = _
  rw [toList_slashes]
  induction n with
  | zero => rfl
  | succ n ih =>
    have hlead := namesOf_append_slash [] (List.replicate n '/')
    rw [ih] at hlead
    exact hlead

theorem join_slashes (n : Nat) {right : String} (hright : isAbsolute right = false) :
    join (slashes (n + 1)) right = slashes (n + 1) ++ right := by
  have hlast : (slashes (n + 1)).toList.getLast? = some '/' := by
    rw [toList_slashes, List.getLast?_replicate]
    rfl
  rw [join, hright, hlast]
  rfl

theorem utf8ByteSize_slashes (n : Nat) : (slashes n).utf8ByteSize = n := by
  induction n with
  | zero => rfl
  | succ n ih =>
    have hsplit : slashes (n + 1) = "/" ++ slashes n := by
      rw [← String.toList_inj, String.toList_append, toList_slashes, toList_slashes]
      rfl
    rw [hsplit, String.utf8ByteSize_append, ih, Nat.add_comm]
    rfl

theorem checkPath_slashes (n : Nat) {name : String} (hnul : holdsNul name = false) :
    checkPath (slashes (n + 1) ++ name) = .ok () ↔ n + 1 + name.utf8ByteSize ≤ pathLimit := by
  rw [checkPath_eq_ok, String.utf8ByteSize_append, utf8ByteSize_slashes]
  constructor
  · intro h
    obtain ⟨-, -, hsize⟩ := h
    exact hsize
  · intro hsize
    refine ⟨?_, ?_, hsize⟩
    · simpa [holdsNul, toList_slashes] using hnul
    · intro hempty
      have hzero := utf8ByteSize_slashes (n + 1)
      rw [(String.append_eq_empty_iff.mp hempty).1] at hzero
      cases hzero

end FileTree

end ExportTables
