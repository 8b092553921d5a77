import DisasmLens.Listing.Line

/-!
# What one source file contributed

A listing of a whole executable interleaves instructions with the source locations that they were
compiled from. `Listing.retain` keeps the instructions that stand under a location of one source
file. Every label and every empty line stays, so the shape of the executable is still visible.

A location counts as one of the wanted file if it contains the target text. Its block reaches to the
next label or the next other location. The last line of a listing is cut off in the middle more often
than not, so an instruction there is never kept.
-/

namespace DisasmLens.Listing

/-- The lines that are kept for a target. `inside` says whether the lines read so far left off inside
a block of the target. -/
def keepLines (target : Text) : (inside : Bool) → List Text → List Text
  | _, [] => []
  | inside, line :: rest =>
    match LineKind.of line with
    | .empty => line :: keepLines target inside rest
    | .label => line :: keepLines target false rest
    | .text =>
      if Text.hasPart target line then line :: keepLines target true rest else keepLines target false rest
    | .instruction =>
      if inside ∧ rest ≠ [] then line :: keepLines target inside rest
      else keepLines target inside rest

/-- The part of a listing that the target contributed, with all labels and empty lines. -/
def retain (target listing : Text) : Text := Text.unlines (keepLines target false listing.lines)

/-- The label that is the last of the lines, if the last of them is a label. A listing that ends in a
label announces code which does not follow. -/
def danglingLabel? : List Text → Option Text
  | [] => none
  | [line] => if LineKind.of line = .label then some line else none
  | _ :: line :: rest => danglingLabel? (line :: rest)

theorem keepLines_sublist (target : Text) (inside : Bool) (ls : List Text) :
    (keepLines target inside ls).Sublist ls := by
  induction ls generalizing inside with
  | nil => exact List.Sublist.slnil
  | cons line rest ih =>
    simp only [keepLines]
    split
    · exact (ih _).cons_cons _
    · exact (ih _).cons_cons _
    · split
      · exact (ih _).cons_cons _
      · exact (ih _).cons _
    · split
      · exact (ih _).cons_cons _
      · exact (ih _).cons _

theorem not_mem_of_mem_keepLines {target listing : Text} {inside : Bool} {line : Text}
    (h : line ∈ keepLines target inside listing.lines) : '\n' ∉ line :=
  Text.not_mem_of_mem_lines ((keepLines_sublist target inside listing.lines).subset h)

/-- The lines of what is kept are the lines kept. Where none is, the text still has an empty line. -/
theorem lines_retain {target listing : Text} (h : keepLines target false listing.lines ≠ []) :
    (retain target listing).lines = keepLines target false listing.lines :=
  Text.lines_unlines (fun _ hl => not_mem_of_mem_keepLines hl) h

theorem retain_eq_nil {target listing : Text} (h : keepLines target false listing.lines = []) :
    retain target listing = [] := by
  rw [retain, h]
  rfl

end DisasmLens.Listing
