import Bundler.Range

/-!
# Faults

What makes a step fail. Problems that a bundle can be built in spite of are no faults but warnings.
-/

namespace Bundler

/-- The reason for which a step failed. -/
inductive Fault where
  /-- A re-exported name leads back to itself. -/
  | circularReexport (moduleId name : String)
  /-- An imported name is not exported by the module it is imported from. -/
  | missingImport (importer exporter name : String)
  /-- A module exports a name twice. -/
  | duplicateExport (moduleId name : String)
  /-- A module exports a local name that it does not declare. -/
  | undeclaredExport (moduleId name : String)
  /-- A scope declares a name twice. -/
  | duplicateBinding (moduleId name : String)
  /-- An edit touches bytes that another edit replaces already. -/
  | overlappingEdit (range existing : Range)
  /-- An edit has an empty range, or one that does not fit the text. -/
  | invalidRange (range : Range) (length : Nat)
  deriving Repr, DecidableEq

/-- A range as two offsets with dots between them. -/
def Range.dotted (range : Range) : String :=
  toString range.start ++ ".." ++ toString range.stop

/-- A range as the text of a fault shows an edit that is there already. -/
def Range.tuple (range : Range) : String :=
  "Loc(" ++ toString range.start ++ ", " ++ toString range.stop ++ ")"

/-- The text of a fault. -/
def Fault.message : Fault → String
  | .circularReexport moduleId name =>
    "circular re-export of '" ++ name ++ "' through '" ++ moduleId ++ "'"
  | .missingImport importer exporter name =>
    "'" ++ name ++ "' is not exported by '" ++ exporter ++ "' (imported by '" ++ importer ++ "')"
  | .duplicateExport moduleId name =>
    "duplicate export '" ++ name ++ "' in '" ++ moduleId ++ "'"
  | .undeclaredExport moduleId name =>
    "'" ++ name ++ "' is exported by '" ++ moduleId ++ "' but never declared"
  | .duplicateBinding moduleId name =>
    "duplicate declaration '" ++ name ++ "' in '" ++ moduleId ++ "'"
  | .overlappingEdit range existing =>
    "edit at " ++ range.dotted ++ " overlaps existing edit at " ++ existing.tuple
  | .invalidRange range length =>
    "invalid edit range " ++ range.dotted ++ " for source of length " ++ toString length

end Bundler
