/-!
# Code ranges

A property of characters is a table of ranges of codes, both ends included. The ASCII half of each property
is written out beside its table, so the tables begin at `0x80`.
-/

namespace DisasmLens.Text

def inRanges (table : List (Nat × Nat)) (code : Nat) : Bool :=
  table.any fun (first, last) => first ≤ code && code ≤ last

theorem inRanges_eq_true_iff {table : List (Nat × Nat)} {code : Nat} :
    inRanges table code = true ↔ ∃ r ∈ table, r.1 ≤ code ∧ code ≤ r.2 := by
  simp [inRanges]

theorem inRanges_eq_false_of_apart {table other : List (Nat × Nat)}
    (apart : ∀ r ∈ table, ∀ s ∈ other, s.2 < r.1 ∨ r.2 < s.1) {code : Nat} (h : inRanges table code = true) :
    inRanges other code = false := by
  rw [← Bool.not_eq_true, inRanges_eq_true_iff]
  rintro ⟨s, hs, hfirst, hlast⟩
  obtain ⟨r, hr, hbetween⟩ := inRanges_eq_true_iff.mp h
  have hapart := apart r hr s hs
  omega

end DisasmLens.Text
