import DisasmLens.Text.Basic

/-!
# Compiler diagnostics

A diagnostic points at a line and column of a source file and says with what severity.
-/

namespace DisasmLens

structure Diagnostic where
  line : Nat
  column : Nat
  severity : Text
  message : Text
deriving DecidableEq, Repr

namespace Diagnostic

def isError (d : Diagnostic) : Bool := d.severity = "error".toList

def errorCount (ds : List Diagnostic) : Nat := ds.countP isError

end Diagnostic

end DisasmLens
