import DisasmLens.Listing.Retention
import Mathlib.Logic.Function.Iterate

/-!
# Filtering a filtered listing

What is kept is read again with the same target. A line that was kept is kept again, since the header that it
stands under and all lines between were kept with it. Only the last line can be judged anew: an instruction
that had a line below it has none if all those below were dropped. So a second pass takes one line away or
none (`keepLines_keepLines`), and which of the two can be told from the last line. The same holds of every
later pass, since its text was filtered once already.
-/

namespace DisasmLens.Listing

def endsInInstruction (ls : List Text) : Bool := ls.getLast?.any (LineKind.of · = .instruction)

def dropFinalInstruction (ls : List Text) : List Text :=
  if endsInInstruction ls then ls.dropLast else ls

theorem dropFinalInstruction_cons {line : Text} {ls : List Text}
    (h : LineKind.of line ≠ .instruction ∨ ls ≠ []) :
    dropFinalInstruction (line :: ls) = line :: dropFinalInstruction ls := by
  cases ls with
  | nil =>
    have hk : LineKind.of line ≠ .instruction := h.resolve_right fun hn => hn rfl
    simp [dropFinalInstruction, endsInInstruction, hk]
  | cons next ls =>
    simp only [dropFinalInstruction, endsInInstruction, List.getLast?_cons_cons,
      List.dropLast_cons_cons]
    exact (apply_ite (line :: ·) _ _ _).symm

theorem dropFinalInstruction_instruction {line : Text} (h : LineKind.of line = .instruction) :
    dropFinalInstruction [line] = [] := by
  simp [dropFinalInstruction, endsInInstruction, h]

/-! ### The lines of a second pass -/

theorem keepLines_keepLines_false (target : Text) (inside : Bool) (ls : List Text) :
    keepLines target inside (keepLines target false ls) =
      keepLines target false (keepLines target false ls) := by
  -- what was kept outside a block begins with a header, but for empty lines, and a header sets the bit anew
  induction ls with
  | nil => rfl
  | cons line rest ih =>
    cases hk : LineKind.of line with
    | empty => simp only [keepLines, hk, ih]
    | label => simp only [keepLines, hk]
    | text =>
      cases hp : Text.hasPart target line with
      | true => simp only [keepLines, hk, hp, if_true]
      | false => simpa only [keepLines, hk, hp, Bool.false_eq_true, if_false] using ih
    | instruction =>
      simpa only [keepLines, hk, Bool.false_eq_true, false_and, if_false] using ih

theorem keepLines_keepLines (target : Text) (inside : Bool) (ls : List Text) :
    keepLines target inside (keepLines target inside ls) =
      dropFinalInstruction (keepLines target inside ls) := by
  induction ls generalizing inside with
  | nil => rfl
  | cons line rest ih =>
    cases hk : LineKind.of line with
    | empty =>
      have hne : LineKind.of line ≠ .instruction := by simp [hk]
      simp only [keepLines, hk, ih, dropFinalInstruction_cons (.inl hne)]
    | label =>
      have hne : LineKind.of line ≠ .instruction := by simp [hk]
      simp only [keepLines, hk, ih, dropFinalInstruction_cons (.inl hne)]
    | text =>
      have hne : LineKind.of line ≠ .instruction := by simp [hk]
      cases hp : Text.hasPart target line with
      | true => simp only [keepLines, hk, hp, if_true, ih, dropFinalInstruction_cons (.inl hne)]
      | false =>
        simp only [keepLines, hk, hp, Bool.false_eq_true, if_false]
        rw [keepLines_keepLines_false, ih]
    | instruction =>
      by_cases hkept : inside = true ∧ rest ≠ []
      · simp only [keepLines, hk, if_pos hkept]
        -- whether the second pass keeps the line depends on what the first one kept below it
        by_cases hbelow : keepLines target inside rest = []
        · rw [hbelow, dropFinalInstruction_instruction hk]
          simp [keepLines]
        · rw [if_pos ⟨hkept.1, hbelow⟩, ih, dropFinalInstruction_cons (.inr hbelow)]
      · simp only [keepLines, hk, if_neg hkept, ih]

/-! ### The text of a second pass -/

theorem retain_retain (target listing : Text) :
    retain target (retain target listing) =
      Text.unlines (dropFinalInstruction (keepLines target false listing.lines)) := by
  by_cases hne : keepLines target false listing.lines = []
  · rw [retain_eq_nil hne, hne]
    rfl
  · rw [retain, lines_retain hne, keepLines_keepLines]

theorem unlines_dropLast_ne {ls : List Text} (hlf : ∀ line ∈ ls, '\n' ∉ line)
    (h : endsInInstruction ls = true) : Text.unlines ls.dropLast ≠ Text.unlines ls := by
  intro he
  have hne : ls ≠ [] := by
    rintro rfl
    simp [endsInInstruction] at h
  have hlines : (Text.unlines ls).lines = ls := Text.lines_unlines hlf hne
  rw [← he] at hlines
  by_cases hd : ls.dropLast = []
  · -- a single line, which as an instruction is not empty
    rw [hd] at hlines
    rw [← hlines] at h
    revert h
    decide
  · have hcut := Text.lines_unlines (fun line hl => hlf line ((List.dropLast_sublist ls).subset hl)) hd
    have hlen := congrArg List.length (hcut.symm.trans hlines)
    have hpos := List.length_pos_iff.mpr hne
    rw [List.length_dropLast] at hlen
    omega

/-- A second pass changes nothing exactly if what the first one left does not end in an instruction. -/
theorem retain_retain_eq_iff (target listing : Text) :
    retain target (retain target listing) = retain target listing ↔
      endsInInstruction (retain target listing).lines = false := by
  rw [retain_retain]
  by_cases hne : keepLines target false listing.lines = []
  · rw [retain_eq_nil hne, hne]
    exact iff_of_true rfl rfl
  · rw [lines_retain hne, retain, dropFinalInstruction]
    cases he : endsInInstruction (keepLines target false listing.lines) with
    | false => simp
    | true => simpa using unlines_dropLast_ne (fun _ hl => not_mem_of_mem_keepLines hl) he

/-- The instruction that was last but one is last in what is kept, and goes in the second pass. -/
theorem retain_retain_ne :
    retain "foo.jai" (retain "foo.jai" "foo.jai:1\n  0x1: mov\n  0x2: ret") ≠
      retain "foo.jai" "foo.jai:1\n  0x1: mov\n  0x2: ret" := by
  decide

/-! ### Further passes -/

theorem dropFinalInstruction_of_not {ls : List Text} (h : endsInInstruction ls = false) :
    dropFinalInstruction ls = ls := by
  simp only [dropFinalInstruction, h, Bool.false_eq_true, if_false]

theorem exists_append_dropFinalInstruction (ls : List Text) :
    ∃ dropped : List Text, dropped.length ≤ 1 ∧ ls = dropFinalInstruction ls ++ dropped := by
  cases he : endsInInstruction ls with
  | false =>
    refine ⟨[], Nat.zero_le 1, ?_⟩
    rw [dropFinalInstruction_of_not he, List.append_nil]
  | true =>
    have hne : ls ≠ [] := by
      rintro rfl
      simp [endsInInstruction] at he
    refine ⟨[ls.getLast hne], Nat.le_refl 1, ?_⟩
    simp only [dropFinalInstruction, he, if_true, List.dropLast_concat_getLast]

/-- Outside a block no instruction is kept, so what is kept begins with another line. -/
theorem keepLines_false_ne_cons {target line : Text} {kept : List Text} (ls : List Text)
    (hk : LineKind.of line = .instruction) : keepLines target false ls ≠ line :: kept := by
  induction ls with
  | nil => simp [keepLines]
  | cons first rest ih =>
    have hcons (more : List Text) (hf : LineKind.of first ≠ .instruction) :
        first :: more ≠ line :: kept := by
      intro he
      rw [(List.cons.inj he).1] at hf
      exact hf hk
    cases hf : LineKind.of first with
    | empty => simpa only [keepLines, hf] using hcons _ (by simp [hf])
    | label => simpa only [keepLines, hf] using hcons _ (by simp [hf])
    | text =>
      cases hp : Text.hasPart target first with
      | true => simpa only [keepLines, hf, hp, if_true] using hcons _ (by simp [hf])
      | false => simpa only [keepLines, hf, hp, Bool.false_eq_true, if_false] using ih
    | instruction =>
      simpa only [keepLines, hf, Bool.false_eq_true, false_and, if_false] using ih

theorem dropFinalInstruction_keepLines_ne_nil {target : Text} {ls : List Text}
    (h : keepLines target false ls ≠ []) : dropFinalInstruction (keepLines target false ls) ≠ [] := by
  obtain ⟨line, kept, he⟩ := List.exists_cons_of_ne_nil h
  have hk : LineKind.of line ≠ .instruction := fun hk => keepLines_false_ne_cons ls hk he
  rw [he, dropFinalInstruction_cons (.inl hk)]
  exact List.cons_ne_nil _ _

theorem lines_retain_retain (target listing : Text) :
    (retain target (retain target listing)).lines =
      dropFinalInstruction (retain target listing).lines := by
  by_cases hne : keepLines target false listing.lines = []
  · rw [retain_eq_nil hne]
    rfl
  · have hlf : ∀ line ∈ dropFinalInstruction (keepLines target false listing.lines), '\n' ∉ line := by
      intro line hl
      obtain ⟨dropped, -, he⟩ :=
        exists_append_dropFinalInstruction (keepLines target false listing.lines)
      have hmem : line ∈ keepLines target false listing.lines := by
        rw [he]
        exact List.mem_append_left dropped hl
      exact not_mem_of_mem_keepLines hmem
    rw [retain_retain, lines_retain hne,
      Text.lines_unlines hlf (dropFinalInstruction_keepLines_ne_nil hne)]

theorem retain_retain_of_not {target listing : Text}
    (h : endsInInstruction (retain target listing).lines = false) :
    retain target (retain target listing) = retain target listing := by
  rw [← Text.unlines_lines (retain target (retain target listing)), lines_retain_retain,
    dropFinalInstruction_of_not h, Text.unlines_lines]

/-- A second pass takes the final line away if it is an instruction, and nothing otherwise. Each later pass
takes away one line at most. A text that does not end in an instruction after the first pass stays. -/
theorem iterate_retain (target listing : Text) :
    retain target listing = Text.unlines (keepLines target false listing.lines) ∧
      retain target (retain target listing) =
        (if endsInInstruction (keepLines target false listing.lines) then
          Text.unlines (keepLines target false listing.lines).dropLast
        else retain target listing) ∧
      (∀ n, ∃ dropped : List Text, dropped.length ≤ 1 ∧
        ((retain target)^[n + 1] listing).lines =
          ((retain target)^[n + 2] listing).lines ++ dropped) ∧
      ((∀ n, (retain target)^[n + 1] listing = retain target listing) ↔
        endsInInstruction (retain target listing).lines = false) := by
  refine ⟨rfl, ?_, ?_, ?_, ?_⟩
  · rw [retain_retain, dropFinalInstruction]
    split
    · rfl
    · rfl
  · intro n
    -- what a later pass reads was filtered by the pass before it
    have hlines := lines_retain_retain target ((retain target)^[n] listing)
    rw [Function.iterate_succ_apply', Function.iterate_succ_apply', Function.iterate_succ_apply', hlines]
    exact exists_append_dropFinalInstruction _
  · intro hfix
    have hlines := lines_retain_retain target listing
    rw [show retain target (retain target listing) = retain target listing from hfix 1] at hlines
    cases he : endsInInstruction (retain target listing).lines with
    | false => rfl
    | true =>
      have hlen := congrArg List.length hlines
      have hpos := List.length_pos_iff.mpr (Text.lines_ne_nil (retain target listing))
      simp only [dropFinalInstruction, he, if_true, List.length_dropLast] at hlen
      omega
  · intro h n
    rw [Function.iterate_succ_apply]
    exact Function.iterate_fixed (retain_retain_of_not h) n

end DisasmLens.Listing
