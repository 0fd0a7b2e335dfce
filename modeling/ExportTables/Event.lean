/-!
# The log

A run tells in its log what it looks at and what it decides. The log is a list of events; which of
them the user gets to see, and in which layout, is decided where it is printed.
-/

namespace ExportTables

/-- How much an event matters. -/
inductive Level where
  | debug | info | warning
  deriving DecidableEq, Repr

/-- One entry of the log. -/
structure Event where
  level : Level
  message : String
  deriving DecidableEq, Repr

end ExportTables
