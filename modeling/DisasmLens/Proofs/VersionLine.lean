import DisasmLens.Proofs.ToolRuns

/-!
# The line of the version

The version of a compiler is the first line of what it says of itself. Taking that line always succeeds: a text that is
stripped starts with a character that is not blank, and every line boundary is blank
(`Text.isBlank_of_isBoundary`), so the first line of a text that is not blank is there and is not empty
(`Toolchain.firstLine_of_version`).
-/

namespace DisasmLens

open Text (isBlank isBoundary)

namespace Text

theorem isBlank_of_isBoundary {c : Char} (h : isBoundary c = true) : isBlank c = true := by
  by_cases hascii : c.toNat < 0x80
  · simp only [isBoundary, isBlank, hascii, if_true, Bool.or_eq_true, Bool.and_eq_true, decide_eq_true_eq] at h ⊢
    omega
  · -- three boundaries lie outside ASCII
    have hall : ∀ n ∈ [0x85, 0x2028, 0x2029], inRanges blankRanges n = true := by decide
    have hcode : c.toNat ∈ [0x85, 0x2028, 0x2029] := by
      simp only [isBoundary, Bool.or_eq_true, Bool.and_eq_true, decide_eq_true_eq] at h
      simp only [List.mem_cons, List.not_mem_nil, or_false]
      omega
    simp only [isBlank, hascii, if_false]
    exact hall _ hcode

theorem head?_takeWhile_strip (t : Text) :
    ((strip t).takeWhile fun c => !isBoundary c).head? = t.find? fun c => !isBlank c := by
  rw [List.head?_takeWhile, head?_strip]
  cases hfirst : t.find? fun c => !isBlank c with
  | none => rfl
  | some c =>
    have hblank := List.find?_some hfirst
    rw [Bool.not_eq_true'] at hblank
    have hboundary : isBoundary c = false :=
      Bool.eq_false_iff.mpr fun h => Bool.eq_false_iff.mp hblank (isBlank_of_isBoundary h)
    rw [Option.filter_some, hboundary]
    rfl

end Text

/-- What a run wrote to its output, or to its error output if it wrote nothing to the first. -/
def RunAnswer.said (a : RunAnswer) : Text := if a.output = [] then a.errors else a.output

namespace Toolchain

/-! ### The line -/

/-- The line of the version by its place. There is no result if a text that is not blank has no line at that place. -/
def versionByPlace? (said : Text) : Option (Option Text) :=
  let stripped := Text.strip said
  if stripped = [] then some none else (Text.boundaryLines stripped)[0]?.map some

/-- A line that is the first of a text when blanks are left away at both ends. -/
structure IsFirstLine (said line : Text) : Prop where
  ne_nil : line ≠ []
  unbroken : ∀ c ∈ line, isBoundary c = false
  start : line.head? = said.find? fun c => !isBlank c
  stop : ∃ rest, Text.strip said = line ++ rest ∧ ∀ c ∈ rest.head?, isBoundary c = true

theorem versionLine?_eq (a : RunAnswer) :
    versionLine? a.output a.errors =
      if Text.strip a.said = [] then none else some ((Text.strip a.said).takeWhile fun c => !isBoundary c) :=
  Text.head?_boundaryLines (Text.strip a.said)

theorem versionByPlace?_said (a : RunAnswer) : versionByPlace? a.said = some (versionLine? a.output a.errors) := by
  rw [versionLine?_eq]
  by_cases hs : Text.strip a.said = []
  · simp only [versionByPlace?, hs, if_true]
  · simp only [versionByPlace?, hs, if_false, ← List.head?_eq_getElem?, Text.head?_boundaryLines, Option.map_some]

theorem versionLine?_eq_none_iff (a : RunAnswer) :
    versionLine? a.output a.errors = none ↔ ∀ c ∈ a.said, isBlank c = true := by
  rw [versionLine?_eq, ← Text.strip_eq_nil_iff]
  simp only [ite_eq_left_iff, reduceCtorEq, imp_false, Decidable.not_not]

theorem isFirstLine_of_versionLine? {a : RunAnswer} {line : Text} (h : line ∈ versionLine? a.output a.errors) :
    IsFirstLine a.said line := by
  rw [versionLine?_eq] at h
  split at h
  · cases h
  rename_i hs
  cases h
  have hhead := Text.head?_takeWhile_strip a.said
  exact
    { ne_nil := fun hnil => by
        rw [hnil, List.head?_nil, ← Text.head?_strip] at hhead
        exact hs (List.head?_eq_none_iff.mp hhead.symm)
      unbroken := fun c hc => (Bool.not_eq_true' _).mp (List.all_eq_true.mp List.all_takeWhile c hc)
      start := hhead
      stop := ⟨_, List.takeWhile_append_dropWhile.symm, fun c hc =>
        (Bool.not_eq_false' _).mp (Text.eq_false_of_mem_head?_dropWhile hc)⟩ }

/-! ### Asking for the version -/

/-- There is no version if there is no compiler or the system refuses to run it. Other failures are not caught. -/
theorem fst_version_eq (t : Toolchain) (h : Host) :
    (t.version.run.run h).1 =
      match t.compiler.located?, h.answer.failure with
      | none, _ => .ok none
      | some _, none => .ok (versionLine? h.answer.output h.answer.errors)
      | some _, some (failure, message) => if failure = .system then .ok none else .error (.run failure message) := by
  unfold version
  cases t.compiler.located? with
  | none => rfl
  | some path =>
    have hasked := Attempt.run_result (runTool [.ofText path, .ofText "-version".toList] none) h
    rw [run_runTool] at hasked
    dsimp only
    rw [Attempt.run_bind_of_eq_ok hasked, RunAnswer.result]
    cases h.answer.failure with
    | none => rfl
    | some failed =>
      obtain ⟨failure, message⟩ := failed
      cases failure <;> rfl

/-- The version of a compiler that is there and runs is the first line of what it says, and only one that says nothing
but blanks has none. The line is always found at its place. -/
theorem firstLine_of_version {t : Toolchain} {h : Host} (hc : t.compiler.located?.isSome = true)
    (hf : h.answer.failure = none) :
    ∃ line?, (t.version.run.run h).1 = .ok line? ∧ versionByPlace? h.answer.said = some line? ∧
      (line? = none ↔ ∀ c ∈ h.answer.said, isBlank c = true) ∧ ∀ line ∈ line?, IsFirstLine h.answer.said line := by
  obtain ⟨path, hpath⟩ := Option.isSome_iff_exists.mp hc
  refine ⟨versionLine? h.answer.output h.answer.errors, ?_, versionByPlace?_said h.answer,
    versionLine?_eq_none_iff h.answer, fun line hline => isFirstLine_of_versionLine? hline⟩
  rw [fst_version_eq, hpath, hf]

def foundTools : Toolchain := ⟨⟨Settings.defaults.fields⟩, ⟨.ofText "jai".toList, some "/bin/jai"⟩, ⟨.null, none⟩⟩

def separatorHost : Host := { answers := [{ output := "\u2028 jai 1\r\n\u0085built\r\n" }] }

theorem firstLine_of_version_separator :
    foundTools.compiler.located?.isSome = true ∧ separatorHost.answer.failure = none ∧
      (foundTools.version.run.run separatorHost).1 = .ok (some "jai 1".toList) ∧
      IsFirstLine separatorHost.answer.said "jai 1".toList := by
  have hc : foundTools.compiler.located?.isSome = true := by decide
  have hf : separatorHost.answer.failure = none := rfl
  have hread : versionLine? separatorHost.answer.output separatorHost.answer.errors = some "jai 1".toList := by
    decide +kernel
  have hversion : (foundTools.version.run.run separatorHost).1 = .ok (some "jai 1".toList) :=
    (fst_version_eq foundTools separatorHost).trans (congrArg Except.ok hread)
  obtain ⟨line?, hline, -, -, hfirst⟩ := firstLine_of_version hc hf
  rw [hversion] at hline
  cases hline
  exact ⟨hc, hf, hversion, hfirst _ rfl⟩

end Toolchain

end DisasmLens
