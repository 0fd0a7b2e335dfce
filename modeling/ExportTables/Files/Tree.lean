import ExportTables.Association
import ExportTables.Files.Error
import ExportTables.Path

/-!
# File trees

A file tree maps locations to entries. A location is the list of names that leads to it from the
root, without links and without `..`. An entry is a directory, a file with its contents and its
read-only mark, a link with the path that it stands for, or the device that holds nothing. The root
is always a directory.

Paths lead to locations by a walk along their names. The walk follows every link it meets, and
gives up at the forty-first, so it ends on every tree, also where links form a circle. It is two
nested recursions: `follow` goes along the names of one path, and hands over to the walk with one
link less when it meets a link.

A path that ends in a slash asks for a directory. The walk reads the slash as one more name, the
empty one, which leads nowhere else but can only be read in a directory.

A relative path starts from the working directory. That can be removed while it is in use, and then
stays what it is, whatever takes its place: `.` still means it and `..` the directory above, but it
holds nothing and is at no location.
-/

namespace ExportTables

/-- The names that lead from the root to an entry. -/
abbrev Location := List String

/-- What can stand at a location. -/
inductive Entry where
  /-- A directory, and whether the names in it can be looked up. -/
  | directory (searchable : Bool)
  | file (contents : ByteArray) (readOnly : Bool)
  /-- A symbolic link and the path that it stands for. -/
  | link (target : String)
  /-- The device that is always empty and drops what is written to it. -/
  | null

/-- Whether an entry is a directory. -/
def Entry.isDirectory : Entry → Bool
  | .directory _ => true
  | _ => false

/-- The directory that relative paths start from. -/
structure WorkingDirectory where
  /-- The location that it has or, if it has been removed, had. -/
  location : Location := []
  removed : Bool := false
  deriving DecidableEq, Repr

/-- The entries below the root, by location. -/
structure FileTree where
  /-- The entries; of two with the same location the first one counts. -/
  entries : List (Location × Entry) := []

namespace FileTree

/-- The entry at a location. -/
def get? (t : FileTree) (location : Location) : Option Entry :=
  if location = [] then some (.directory true) else t.entries.lookup location

/-- The tree with this entry at the location. -/
def put (t : FileTree) (location : Location) (entry : Entry) : FileTree :=
  ⟨Association.put location entry t.entries⟩

/-- The tree without the entry at the location. -/
def erase (t : FileTree) (location : Location) : FileTree :=
  ⟨Association.erase location t.entries⟩

/-- Whether a location lies below another one. -/
def liesBelow (location place : Location) : Bool :=
  location.isPrefixOf place && place.length != location.length

/-- The tree without the entries below a location. -/
def clear (t : FileTree) (location : Location) : FileTree :=
  ⟨t.entries.filter (!liesBelow location ·.1)⟩

/-- The entries below a location, each directory before its contents and its names in ascending
order. -/
def below (t : FileTree) (location : Location) : List (Location × Entry) :=
  let inside := t.entries.filter (liesBelow location ·.1)
  inside.mergeSort fun a b => !(decide (b.1 < a.1))

@[simp] theorem get?_nil (t : FileTree) : t.get? [] = some (.directory true) := rfl

theorem get?_put_self (t : FileTree) {location : Location} (h : location ≠ []) (entry : Entry) :
    (t.put location entry).get? location = some entry := by
  simp [get?, put, h, Association.lookup_put_self]

theorem get?_put_of_ne (t : FileTree) {location other : Location} (h : other ≠ location)
    (entry : Entry) : (t.put location entry).get? other = t.get? other := by
  simp [get?, put, Association.lookup_put_of_ne h]

theorem get?_erase_self (t : FileTree) {location : Location} (h : location ≠ []) :
    (t.erase location).get? location = none := by
  simp [get?, erase, h, Association.lookup_erase_self]

theorem get?_erase_of_ne (t : FileTree) {location other : Location} (h : other ≠ location) :
    (t.erase location).get? other = t.get? other := by
  simp [get?, erase, Association.lookup_erase_of_ne h]

/-! ## Walking -/

/-- The names in a path. -/
def names (path : String) : List String :=
  ((Path.pieces path.toList).filter (!·.isEmpty)).map String.ofList

/-- Whether a path ends in a slash. -/
def endsInSlash (path : String) : Bool := path.toList.getLast? == some '/'

/-- The names that the walk along a path reads. -/
def route (path : String) : List String :=
  if endsInSlash path then names path ++ [""] else names path

/-- The number of bytes that a name may have. -/
def nameLimit : Nat := 255

/-- The number of bytes that a path may have. -/
def pathLimit : Nat := 4095

/-- The number of links that a walk may meet. -/
def linkLimit : Nat := 40

/-- Whether a path holds the character that ends texts for the system. -/
def holdsNul (path : String) : Bool := path.toList.any (·.toNat == 0)

/-- Checks that a text can be the path of something. -/
def checkPath (path : String) : Except FileError Unit :=
  if holdsNul path then .error .invalidPath
  else if path = "" then .error .notFound
  else if pathLimit < path.utf8ByteSize then .error .nameTooLong
  else .ok ()

/-- Checks that a name is not too long. -/
def checkName (name : String) : Except FileError Unit :=
  if nameLimit < name.utf8ByteSize then .error .nameTooLong else .ok ()

/-- Checks that names can be looked up at a location. -/
def checkDirectory (t : FileTree) (location : Location) : Except FileError Unit :=
  match t.get? location with
  | some (.directory true) => .ok ()
  | some (.directory false) => .error .permissionDenied
  | some _ => .error .notADirectory
  | none => .error .notFound

/-- Checks that a walk may end at a location where a slash asks for a directory. -/
def checkSlash (t : FileTree) (location : Location) : Except FileError Unit :=
  match t.get? location with
  | some (.directory _) => .ok ()
  | some _ => .error .notADirectory
  | none => .error .notFound

/-- The location that the names lead to, where `onLink` goes on from a place along names that
start with those of a link. The last name need not exist; but if something is to be created there,
that is no directory, so no slash may follow. -/
def follow (t : FileTree) (creating : Bool)
    (onLink : Location → List String → Except FileError Location) :
    Location → List String → Except FileError Location
  | here, [] => .ok here
  | here, "" :: rest => do
    t.checkSlash here
    follow t creating onLink here rest
  | here, name :: rest => do
    t.checkDirectory here
    if creating ∧ rest = [""] then .error .isADirectory
    else if name = "." then follow t creating onLink here rest
    else if name = ".." then follow t creating onLink here.dropLast rest
    else
      checkName name
      match t.get? (here ++ [name]) with
      | some (.link target) =>
        onLink (if Path.isAbsolute target then [] else here) (route target ++ rest)
      | some _ => follow t creating onLink (here ++ [name]) rest
      | none => if rest = [] then .ok (here ++ [name]) else .error .notFound

/-- The location that the names lead to if no more than `links` links are met. -/
def walk (t : FileTree) (creating : Bool) :
    (links : Nat) → Location → List String → Except FileError Location
  | 0 => t.follow creating fun _ _ => .error .tooManyLinks
  | links + 1 => t.follow creating (t.walk creating links)

/-- The location that the names of a path lead to. A working directory that has been removed has
none. -/
def locate (t : FileTree) (creating : Bool) (here : WorkingDirectory) (isAbsolute : Bool)
    (route : List String) : Except FileError (Option Location) :=
  if isAbsolute then (t.walk creating linkLimit [] route).map some
  else if !here.removed then (t.walk creating linkLimit here.location route).map some
  else match route.dropWhile fun name => name = "." || name = "" with
    | [] => .ok none
    | ".." :: rest => (t.walk creating linkLimit here.location.dropLast rest).map some
    | [_, ""] => .error (if creating then .isADirectory else .notFound)
    | _ => .error .notFound

/-- The location that a path leads to, through a link at its end too. Its last name need not
exist. -/
def resolve (t : FileTree) (here : WorkingDirectory) (path : String) :
    Except FileError (Option Location) := do
  checkPath path
  t.locate false here (Path.isAbsolute path) (route path)

/-- The location that a path leads to if a file may be created there. -/
def resolveCreating (t : FileTree) (here : WorkingDirectory) (path : String) :
    Except FileError (Option Location) := do
  checkPath path
  t.locate true here (Path.isAbsolute path) (route path)

/-- The directory that a path names an entry of, and the name of the entry. What a path names by
its last slash, `.` or `..` alone is no such entry. -/
def slot? (t : FileTree) (here : WorkingDirectory) (path : String) :
    Except FileError (Option (Location × String)) := do
  checkPath path
  match (names path).getLast? with
  | none => .ok none
  | some last =>
    match ← t.locate false here (Path.isAbsolute path) (names path).dropLast with
    | some directory =>
      t.checkDirectory directory
      if last = "." ∨ last = ".." then .ok none
      else
        checkName last
        .ok (some (directory, last))
    | none => if last = "." ∨ last = ".." then .ok none else .error .notFound

/-- The location that a path names, where a link at its end stands for itself. -/
def resolveEntry (t : FileTree) (here : WorkingDirectory) (path : String) :
    Except FileError (Option Location) :=
  if endsInSlash path then t.resolve here path
  else do
    match ← t.slot? here path with
    | some (directory, name) => .ok (some (directory ++ [name]))
    | none => t.resolve here path

/-- The entry at the end of a walk. -/
def entryAt (t : FileTree) : Option Location → Except FileError Entry
  | none => .ok (.directory true)
  | some location =>
    match t.get? location with
    | some entry => .ok entry
    | none => .error .notFound

/-- The entry that a path leads to. -/
def lookup (t : FileTree) (here : WorkingDirectory) (path : String) : Except FileError Entry := do
  t.entryAt (← t.resolve here path)

/-- The entry that a path names, where a link at its end stands for itself. -/
def lookupEntry (t : FileTree) (here : WorkingDirectory) (path : String) :
    Except FileError Entry := do
  t.entryAt (← t.resolveEntry here path)

/-! ## Operations -/

/-- The bytes of the file that a path leads to. -/
def read (t : FileTree) (here : WorkingDirectory) (path : String) :
    Except FileError ByteArray := do
  match ← t.lookup here path with
  | .file contents _ => .ok contents
  | .null => .ok .empty
  | _ => .error .isADirectory

/-- Writes the file that a path leads to, and creates it if there is none. A read-only file is not
written, though it can still be replaced or removed. -/
def write (t : FileTree) (here : WorkingDirectory) (path : String) (contents : ByteArray) :
    Except FileError FileTree := do
  match ← t.resolveCreating here path with
  | none => .error .isADirectory
  | some location =>
    match t.get? location with
    | some (.file _ true) => .error .permissionDenied
    | some (.file _ false) | none => .ok (t.put location (.file contents false))
    | some .null => .ok t
    | some _ => .error .isADirectory

/-- Puts an entry where there is none yet. Only a directory can be put at a path that ends in a
slash. -/
def create (t : FileTree) (here : WorkingDirectory) (path : String) (entry : Entry) :
    Except FileError FileTree := do
  match ← t.slot? here path with
  | none => .error .alreadyExists
  | some (directory, name) =>
    match t.get? (directory ++ [name]) with
    | some _ => .error .alreadyExists
    | none =>
      if endsInSlash path ∧ !entry.isDirectory then .error .notFound
      else .ok (t.put (directory ++ [name]) entry)

/-- Creates a link to a path. -/
def createLink (t : FileTree) (here : WorkingDirectory) (path target : String) :
    Except FileError FileTree := do
  checkPath target
  t.create here path (.link target)

/-- Moves the file at `source` to `target`, in place of a file or link that stands there. -/
def rename (t : FileTree) (here : WorkingDirectory) (source target : String) :
    Except FileError FileTree := do
  if holdsNul target then .error .invalidArgument
  else
    let old ← t.resolveEntry here source
    let slot ← t.slot? here target
    match old, slot with
    | some old, some (directory, name) =>
      match t.get? old, t.get? (directory ++ [name]) with
      | none, _ => .error .notFound
      | some entry, victim =>
        if endsInSlash target then .error .notADirectory
        else if victim.any Entry.isDirectory then .error .isADirectory
        else .ok ((t.erase old).put (directory ++ [name]) entry)
    | _, _ => .error (.other "Device or resource busy (os error 16)")

/-- Removes the file or link that a path names. -/
def remove (t : FileTree) (here : WorkingDirectory) (path : String) :
    Except FileError FileTree := do
  match ← t.resolveEntry here path with
  | none => .error .isADirectory
  | some location =>
    match t.get? location with
    | none => .error .notFound
    | some (.directory _) => .error .isADirectory
    | some _ => .ok (t.erase location)

/-- Removes the empty directory that a path names. The path has to name it by its own name. -/
def removeDirectory (t : FileTree) (here : WorkingDirectory) (path : String) :
    Except FileError FileTree := do
  match ← t.slot? here path with
  | none => .error .invalidArgument
  | some (directory, name) =>
    match t.get? (directory ++ [name]) with
    | none => .error .notFound
    | some (.directory _) => .ok (t.erase (directory ++ [name]))
    | some _ => .error .notADirectory

/-- Whether everything below a location can be removed, which takes that names can be looked up in
every directory that holds something. -/
def canClear (t : FileTree) (location : Location) : Bool :=
  (t.entries.filter (liesBelow location ·.1)).all fun (place, _) =>
    match t.get? place.dropLast with
    | some (.directory false) => false
    | _ => true

/-- Sets or clears the read-only mark of the file that a path leads to. A directory gets the
permissions of a plain file by either, with which its names can no longer be looked up. -/
def setReadOnly (t : FileTree) (here : WorkingDirectory) (path : String) (readOnly : Bool) :
    Except FileError FileTree := do
  match ← t.resolve here path with
  | none => .ok t
  | some location =>
    match t.get? location with
    | some (.file contents _) => .ok (t.put location (.file contents readOnly))
    | some (.directory _) => .ok (t.put location (.directory false))
    | some _ => .ok t
    | none => .error .notFound

/-! ## Temporary names -/

/-- The temporary name with a number, which has at least six digits. -/
def temporaryName (n : Nat) : String :=
  let digits := Nat.toDigits 10 n
  ".tmp" ++ String.ofList (List.replicate (6 - digits.length) '0' ++ digits)

/-- A temporary name that no entry of the tree has: of one name more than there are entries, the
first that is free. -/
def freshName (t : FileTree) : String :=
  let candidates := (List.range (t.entries.length + 1)).map temporaryName
  (candidates.find? fun name => t.entries.all (·.1.getLast? != some name)).getD ""

end FileTree

end ExportTables
