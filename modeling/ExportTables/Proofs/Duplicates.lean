import ExportTables.Manifest
import ExportTables.Proofs.Text.ByteOrder
import Mathlib.Data.List.Induction
import Mathlib.Data.List.Nodup
import Mathlib.Data.List.Sort

/-!
# The names that are exported more than once

Each of them is listed once, with the number of its occurrences, and the names ascend by their
bytes. That says what is listed, since a list that ascends is told by its members.
-/

namespace ExportTables.Manifest

variable {m : Manifest}

end ExportTables.Manifest
