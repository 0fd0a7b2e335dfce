import ExportTables.Header
import ExportTables.Json.NameList

/-!
# Headers as JSON

The outcome of a scan can be kept as a JSON text and read back. It is an object with the keys
`source` and `symbols`, each exactly once and in any order; other keys are skipped with their
values. An array of the two values in that order is accepted too.

A skipped value only has to be well formed, so `skipValue?` needs no more than the closing marks
that are still due. The keys themselves and the two values must hold proper text.
-/

namespace ExportTables.Header

open Json

/-- The kinds of value that can be open while a value is skipped. -/
inductive Enclosure where
  | object | array
  deriving DecidableEq, Repr

/-- What a skipped value expects next. -/
inductive Expected where
  | value
  /-- A value, or the end of the array that has just begun. -/
  | firstItem
  /-- A key, or the end of the object that has just begun. -/
  | firstKey
  | key
  | colon
  deriving DecidableEq, Repr

mutual

/-- The tokens behind a value of which the next token meets `expected` and the values in
`enclosing` are still open. -/
def skipValue? (expected : Expected) (enclosing : List Enclosure) :
    List Token → Option (List Token)
  | [] => none
  | token :: rest =>
    match expected, token with
    | .colon, .colon => skipValue? .value enclosing rest
    | .key, .string _ => skipValue? .colon enclosing rest
    | .firstKey, .string _ => skipValue? .colon enclosing rest
    | .firstKey, .closeObject => afterValue? enclosing.tail rest
    | .firstItem, .closeArray => afterValue? enclosing.tail rest
    | .value, .string _ | .firstItem, .string _ => afterValue? enclosing rest
    | .value, .scalar | .firstItem, .scalar => afterValue? enclosing rest
    | .value, .openArray | .firstItem, .openArray =>
      skipValue? .firstItem (.array :: enclosing) rest
    | .value, .openObject | .firstItem, .openObject =>
      skipValue? .firstKey (.object :: enclosing) rest
    | _, _ => none

/-- The tokens behind the outermost value, where the value read last has just ended. -/
def afterValue? (enclosing : List Enclosure) (tokens : List Token) : Option (List Token) :=
  match enclosing, tokens with
  | [], _ => some tokens
  | .object :: _, .comma :: rest => skipValue? .key enclosing rest
  | .array :: _, .comma :: rest => skipValue? .value enclosing rest
  | .object :: outer, .closeObject :: rest => afterValue? outer rest
  | .array :: outer, .closeArray :: rest => afterValue? outer rest
  | _ :: _, _ => none

end

/-- The header of which the remaining fields of an object give what is not known yet, and the
tokens behind the object. At most `fuel` fields are read. -/
def fieldsUpTo? : (fuel : Nat) → Option String → Option (List String) → List Token →
    Option (Header × List Token)
  | fuel + 1, source, symbols, .string units :: .colon :: value => do
    let key ← (joinUnits units).map String.ofList
    let (source, symbols, behind) ←
      match key, value with
      | "source", item :: behind =>
        if source.isSome then none
        else item.text?.map fun text => (some text, symbols, behind)
      | "symbols", value =>
        if symbols.isSome then none
        else (strings? value).map fun (names, behind) => (source, some names, behind)
      | _, value => (skipValue? .value [] value).map fun behind => (source, symbols, behind)
    match behind with
    | .comma :: more => fieldsUpTo? fuel source symbols more
    | .closeObject :: more => do some (⟨← source, ← symbols⟩, more)
    | _ => none
  | _, _, _, _ => none

/-- The header at the head of a row of tokens, and the tokens behind it. -/
def ofTokens? : List Token → Option (Header × List Token)
  | .openObject :: rest => fieldsUpTo? rest.length none none rest
  | .openArray :: source :: .comma :: rest => do
    let text ← source.text?
    match ← strings? rest with
    | (symbols, .closeArray :: behind) => some (⟨text, symbols⟩, behind)
    | _ => none
  | _ => none

/-- Reads a header that was kept as JSON. -/
def ofJson? (text : String) : Option Header :=
  match (tokens? text.toList).bind ofTokens? with
  | some (header, []) => some header
  | _ => none

end ExportTables.Header
