import ExportTables.Association

/-!
# Values and tables

A table assigns values to keys. It can come about in four ways, and how it did decides what may
still be added to it: a header opens a table and the tables on its way, a dotted key opens the
tables on its way, and a table that is written as a value is complete.

Every addition goes along a path of keys. Where the path meets an array of tables it goes on in the
last of them.
-/

namespace ExportTables.Toml

/-- How a table came about. -/
inductive TableForm where
  /-- It lies on the way of a header. -/
  | implied
  /-- It lies on the way of a dotted key. -/
  | dotted
  /-- It has a header of its own. -/
  | headed
  /-- It is written as a value. -/
  | inline
  deriving DecidableEq, Repr

/-- What a key can stand for. -/
inductive Value where
  | string (text : String)
  /-- A boolean or a number. -/
  | scalar
  | moment
  | array (items : List Value)
  | table (form : TableForm) (entries : List (String × Value))
  /-- An array of tables that have headers, last one first. -/
  | tables (elements : List (List (String × Value)))

/-- The entries of a table. -/
abbrev Table := List (String × Value)

namespace Table

/-- What a key stands for. -/
def get? (t : Table) (key : String) : Option Value := t.lookup key

/-- The table in which a key stands for a value. -/
def put (t : Table) (key : String) (value : Value) : Table := Association.put key value t

theorem get?_put_self (t : Table) (key : String) (value : Value) :
    (t.put key value).get? key = some value :=
  Association.lookup_put_self key value t

theorem get?_put_of_ne (t : Table) {key other : String} (h : other ≠ key) (value : Value) :
    (t.put key value).get? other = t.get? other :=
  Association.lookup_put_of_ne h value t

/-- Changes what the last key of a path stands for, where `change` may refuse. The keys before it
lead through tables with headers or dotted keys, and imply tables where there is nothing yet. -/
def alter (change : Option Value → Option Value) : List String → Table → Option Table
  | [], _ => none
  | [key], t => (change (t.get? key)).map (t.put key)
  | key :: rest, t =>
    match t.get? key with
    | none => (alter change rest []).map fun inner => t.put key (.table .implied inner)
    | some (.table form inner) =>
      if form = .inline then none
      else (alter change rest inner).map fun inner => t.put key (.table form inner)
    | some (.tables (last :: earlier)) =>
      (alter change rest last).map fun last => t.put key (.tables (last :: earlier))
    | some _ => none

/-- Puts a value under a dotted key. The keys before the last open tables where there is nothing
yet. They may also lead through implied tables and arrays of tables, but the table that takes the
value must have been opened by dotted keys, unless it is the one that the key starts from. -/
def insert (value : Value) : List String → Table → Option Table
  | [], _ => none
  | [key], t => if (t.get? key).isSome then none else some (t.put key value)
  | key :: rest, t =>
    match t.get? key with
    | none => (insert value rest []).map fun inner => t.put key (.table .dotted inner)
    | some (.table .dotted inner) =>
      (insert value rest inner).map fun inner => t.put key (.table .dotted inner)
    | some (.table .implied inner) =>
      if rest.length = 1 then none
      else (insert value rest inner).map fun inner => t.put key (.table .implied inner)
    | some (.tables (last :: earlier)) =>
      if rest.length = 1 then none
      else (insert value rest last).map fun last => t.put key (.tables (last :: earlier))
    | some _ => none

/-- Opens the table of a header, which may have been implied before but not opened. -/
def openTable (path : List String) (t : Table) : Option Table :=
  t.alter (fun
    | none => some (.table .headed [])
    | some (.table .implied inner) => some (.table .headed inner)
    | some _ => none) path

/-- Adds a table to the array of tables that a header names. -/
def addElement (path : List String) (t : Table) : Option Table :=
  t.alter (fun
    | none => some (.tables [[]])
    | some (.tables elements) => some (.tables ([] :: elements))
    | some _ => none) path

/-- Puts a value under a dotted key of the table that a header has opened. Without a header that
is the outermost table. -/
def insertBelow (header : List String) (key : List String) (value : Value) (t : Table) :
    Option Table :=
  if header = [] then t.insert value key
  else t.alter (fun
    | some (.table form inner) => (insert value key inner).map (.table form)
    | some (.tables (last :: earlier)) =>
      (insert value key last).map fun last => .tables (last :: earlier)
    | _ => none) header

end Table

end ExportTables.Toml
