import DisasmLens.Proofs.KeptCounts

/-!
# Lines of a filtered listing

A listing is filtered line by line, and what is seen of the lines kept is their joined text. Read again, the text has
the lines that were kept, in their order, with every label and as many blank lines as before. It is otherwise only if no
line is kept at all: then the text is empty, which stands for a listing without lines although its one line is blank
(`sublist_lines_retain_iff`).
-/

namespace DisasmLens.Listing

def standsAlone (target line : Text) : Bool :=
  LineKind.of line = .empty || LineKind.of line = .label || opensBlock target line

/-- Instructions are kept only below a location that is kept as well. -/
theorem keepLines_eq_nil_iff {target : Text} {ls : List Text} :
    keepLines target false ls = [] ↔ ls.any (standsAlone target) = false := by
  induction ls with
  | nil => exact iff_of_true rfl rfl
  | cons line ls ih =>
    rw [List.any_cons, Bool.or_eq_false_iff, ← ih]
    cases hk : LineKind.of line with
    | empty => simp [keepLines, standsAlone, hk]
    | label => simp [keepLines, standsAlone, hk]
    | text => cases hp : Text.hasPart target line <;> simp [keepLines, standsAlone, opensBlock, hk, hp]
    | instruction => simp [keepLines, standsAlone, opensBlock, hk]

theorem filter_label_keepLines (target : Text) (inside : Bool) (ls : List Text) :
    (keepLines target inside ls).filter (LineKind.of · = .label) = ls.filter (LineKind.of · = .label) := by
  induction ls generalizing inside with
  | nil => rfl
  | cons line ls ih =>
    rw [keepLines]
    cases hk : LineKind.of line with
    | empty => simp [hk, ih]
    | label => simp [hk, ih]
    | text =>
      dsimp only
      split
      · simp [hk, ih]
      · simp [hk, ih]
    | instruction =>
      dsimp only
      split
      · simp [hk, ih]
      · simp [hk, ih]

theorem countP_keepLines_empty (target : Text) (ls : List Text) :
    (keepLines target false ls).countP (LineKind.of · = .empty) = ls.countP (LineKind.of · = .empty) := by
  rw [keepLines_eq_keptLines, countP_keptLines_empty]

theorem lines_retain_of_any {target listing : Text} (h : listing.lines.any (standsAlone target) = true) :
    (retain target listing).lines = keepLines target false listing.lines := by
  refine lines_retain fun hnil => ?_
  rw [keepLines_eq_nil_iff.mp hnil] at h
  cases h

theorem not_sublist_of_countP_eq_zero {kept ls : List Text} (hblank : [] ∈ kept)
    (hnone : ls.countP (LineKind.of · = .empty) = 0) : ¬kept.Sublist ls := by
  intro hsub
  have hkind := List.countP_eq_zero.mp hnone [] (hsub.subset hblank)
  exact hkind rfl

/-- The filtered text has the labels of the listing in any case, and is a part of it with all its blank lines exactly if
a line is kept at all. -/
theorem sublist_lines_retain_iff (target listing : Text) :
    let ls := listing.lines
    let kept := (retain target listing).lines
    kept.filter (LineKind.of · = .label) = ls.filter (LineKind.of · = .label) ∧
      if ls.any (standsAlone target) then
        kept.Sublist ls ∧ kept.countP (LineKind.of · = .empty) = ls.countP (LineKind.of · = .empty)
      else
        retain target listing = [] ∧ ¬kept.Sublist ls ∧
          kept.countP (LineKind.of · = .empty) = 1 ∧ ls.countP (LineKind.of · = .empty) = 0 := by
  intro ls kept
  have hlabels := filter_label_keepLines target false ls
  have hblanks := countP_keepLines_empty target ls
  split
  · rename_i hany
    have hlines : kept = keepLines target false ls := lines_retain_of_any hany
    rw [hlines]
    exact ⟨hlabels, keepLines_sublist target false ls, hblanks⟩
  · rename_i hnone
    have hnil : keepLines target false ls = [] := keepLines_eq_nil_iff.mpr (Bool.eq_false_iff.mpr hnone)
    have htext : retain target listing = [] := retain_eq_nil hnil
    have hlines : kept = [[]] := congrArg Text.lines htext
    rw [hnil] at hlabels hblanks
    rw [hlines]
    exact ⟨hlabels, htext, not_sublist_of_countP_eq_zero List.mem_cons_self hblanks.symm, rfl, hblanks.symm⟩

/-- A lone instruction is not kept. The empty text that is left has a blank line, which the listing has not. -/
theorem exists_not_sublist_lines_retain :
    ∃ target listing : Text, ¬(retain target listing).lines.Sublist listing.lines ∧
      (retain target listing).lines.countP (LineKind.of · = .empty) ≠ listing.lines.countP (LineKind.of · = .empty) :=
  ⟨"/work/x.jai", "  1: ret", by decide, by decide⟩

end DisasmLens.Listing
