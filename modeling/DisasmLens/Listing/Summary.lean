import DisasmLens.Listing.Line

/-!
# Counts of a listing

`Summary.of` counts the lines of a listing by kind. An empty listing has no line at all here,
although its text, like every text, has one. Counts are integers, so that differences of them need no care.
-/

namespace DisasmLens

/-- How many lines a listing has, and how many of three kinds. Locations are the lines of kind `text`. -/
structure Summary where
  total : Int := 0
  labels : Int := 0
  instructions : Int := 0
  locations : Int := 0
deriving DecidableEq, Repr

namespace Summary

def ofLines (ls : List Text) : Summary where
  total := ls.length
  labels := ls.countP (LineKind.of · = .label)
  instructions := ls.countP (LineKind.of · = .instruction)
  locations := ls.countP (LineKind.of · = .text)

def of (listing : Text) : Summary := if listing = [] then {} else ofLines listing.lines

theorem of_nil : of [] = {} := rfl

theorem of_ne_nil {listing : Text} (h : listing ≠ []) : of listing = ofLines listing.lines := by
  simp only [of, h, if_false]

example : of "f():\na.jai:1\n  nop".toList = ⟨3, 1, 1, 1⟩ := by decide

end Summary

end DisasmLens
