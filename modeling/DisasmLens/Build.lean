import DisasmLens.Diagnostic.Basic
import DisasmLens.Listing.Retention
import DisasmLens.Listing.Summary
import DisasmLens.Text.Boundary

/-!
# Builds

What is known about the latest build of a source file: its text, the listing of its executable before and
after filtering, and what the compiler reported. A build that failed has no listing.
-/

namespace DisasmLens

/-- The latest build of a source file. The listing is the part of the whole one that the file contributed. -/
structure Build where
  source : Text := []
  code : Text := []
  codeLines : List Text := []
  whole : Text := []
  listing : Text := []
  summary : Summary := {}
  report : Text := []
  flags : List Text := []
  diagnostics : List Diagnostic := []
  updated : Int := 0
deriving DecidableEq, Repr

namespace Build

def hasErrors (b : Build) : Bool := b.diagnostics.any Diagnostic.isError

/-- Whether the listing is worth showing: there is one, and no error was reported. -/
def isShowable (b : Build) : Bool := !b.hasErrors && b.listing ≠ []

/-- What the compiler reported, or another text if that is nothing. -/
def reportOr (b : Build) (other : Text) : Text := if b.report = [] then other else b.report

def hiddenLines (b : Build) : Int :=
  if b.whole = [] then 0 else (b.whole.lines.length : Int) - b.summary.total

def withCode (b : Build) (code : Text) : Build :=
  { b with code, codeLines := Text.boundaryLines code }

@[simp] theorem source_withCode (b : Build) (code : Text) : (b.withCode code).source = b.source := rfl

def withListing (b : Build) (listing : Text) (summary : Summary) (whole : Text) (time : Int) : Build :=
  { b with listing, summary, whole, updated := time }

def withoutListing (b : Build) (time : Int) : Build := b.withListing [] {} [] time

end Build

/-- The part of a listing that a target contributed, and its counts. -/
def Listing.process (target whole : Text) : Text × Summary :=
  let listing := Listing.retain target whole
  (listing, Summary.of listing)

end DisasmLens
