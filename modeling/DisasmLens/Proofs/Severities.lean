import DisasmLens.Proofs.DiagnosticGrammar
import Mathlib.Data.List.Basic

/-!
# Severities in small letters

A severity is found without regard to case and then written in small letters. The two are different notions of case:
four characters beyond ASCII compare equal to an ASCII letter, and only one of them becomes it. Of the two severities
`warning` alone has a letter that is concerned. Written with a dotted capital or a dotless small `i` it is found, and
its small form is another word (`severity_of_parseAll`). Errors are not concerned.
-/

namespace DisasmLens

/-! ### Two notions of case -/

namespace Text

theorem lowerChar_eq_singleton {c : Char} (hi : c ≠ 'İ') (hdotless : c ≠ 'ı') (hs : c ≠ 'ſ') :
    lowerChar c = [foldChar c] := by
  by_cases hk : c = '\u212A'
  · -- the Kelvin sign is the one foreign form that becomes its letter
    rw [hk]
    decide
  · simp only [lowerChar, foldChar, hi, hdotless, hs, hk, or_self, if_false]

theorem lower_eq_foldCase {t : Text} (hi : 'İ' ∉ t) (hdotless : 'ı' ∉ t) (hs : 'ſ' ∉ t) :
    lower t = foldCase t := by
  induction t with
  | nil => rfl
  | cons c t ih =>
    rw [List.mem_cons, not_or] at hi hdotless hs
    rw [lower, List.flatMap_cons, lowerChar_eq_singleton (Ne.symm hi.1) (Ne.symm hdotless.1) (Ne.symm hs.1), ← lower,
      ih hi.2 hdotless.2 hs.2]
    rfl

theorem mem_lower {c d : Char} {t : Text} (hc : c ∈ t) (hd : d ∈ lowerChar c) : d ∈ lower t :=
  List.mem_flatMap.mpr ⟨c, hc, hd⟩

theorem not_mem_of_foldCase_eq {c : Char} {t word : Text} (h : foldCase t = word) (hc : foldChar c ∉ word) : c ∉ t := by
  intro hm
  have hmem : foldChar c ∈ foldCase t := List.mem_map_of_mem hm
  rw [h] at hmem
  exact hc hmem

end Text

namespace Diagnostic

/-! ### Severity words -/

/-- A form of `i` that compares equal to it and does not become it. -/
def HasForeignI (word : Text) : Prop := 'İ' ∈ word ∨ 'ı' ∈ word

instance (word : Text) : Decidable (HasForeignI word) := inferInstanceAs (Decidable (_ ∨ _))

theorem lower_eq_foldCase_of_isSeverity {word : Text} (h : IsSeverity word) (hi : ¬HasForeignI word) :
    Text.lower word = Text.foldCase word := by
  have hs : 'ſ' ∉ word := by
    rcases h with h | h
    · exact Text.not_mem_of_foldCase_eq h (by decide)
    · exact Text.not_mem_of_foldCase_eq h (by decide)
  obtain ⟨hdotted, hdotless⟩ := not_or.mp hi
  exact Text.lower_eq_foldCase hdotted hdotless hs

theorem lower_ne_of_hasForeignI {word severity : Text} (hi : HasForeignI word) (hdot : '\u0307' ∉ severity)
    (hdotless : 'ı' ∉ severity) : Text.lower word ≠ severity := by
  rintro rfl
  -- the dotted capital leaves a combining dot, the dotless `i` stays as it is
  rcases hi with hi | hi
  · exact hdot (Text.mem_lower hi (by decide))
  · exact hdotless (Text.mem_lower hi (by decide))

theorem lower_isSeverity_iff {word : Text} (h : IsSeverity word) :
    Text.lower word = "error".toList ∨ Text.lower word = "warning".toList ↔ ¬HasForeignI word := by
  constructor
  · intro hlower hi
    rcases hlower with hlower | hlower
    · exact lower_ne_of_hasForeignI hi (by decide) (by decide) hlower
    · exact lower_ne_of_hasForeignI hi (by decide) (by decide) hlower
  · intro hi
    rw [lower_eq_foldCase_of_isSeverity h hi]
    exact h

theorem lower_eq_error_iff {word : Text} (h : IsSeverity word) :
    Text.lower word = "error".toList ↔ Text.foldCase word = "error".toList := by
  constructor
  · intro hlower
    have hi := (lower_isSeverity_iff h).mp (.inl hlower)
    rwa [lower_eq_foldCase_of_isSeverity h hi] at hlower
  · intro hfold
    have hi : ¬HasForeignI word :=
      not_or.mpr ⟨Text.not_mem_of_foldCase_eq hfold (by decide), Text.not_mem_of_foldCase_eq hfold (by decide)⟩
    rwa [lower_eq_foldCase_of_isSeverity h hi]

/-! ### Reports -/

theorem Scans.isSeverity {report : Text} {i : Nat} {ps : List Parts} (hs : Scans report i ps) :
    ∀ p ∈ ps, IsSeverity p.severity := by
  induction hs with
  | done none =>
    intro p hp
    cases hp
  | @found i j c ps le start text longest first behind ih =>
    intro p hp
    rcases List.mem_cons.mp hp with rfl | hp
    · exact c.severity_word
    · exact ih p hp

/-- The severity of a diagnostic is `error` or `warning`, unless its word in the report has a foreign `i`. It is `error`
exactly if the word is a form of `error`, so errors are counted right in any case. -/
theorem severity_of_parseAll {report : Text} {ds : List Diagnostic} (h : parseAll report = .ok ds) :
    ∃ ps, Scans report 0 ps ∧ ds = ps.map Parts.diagnostic ∧
      ∀ p ∈ ps,
        (p.diagnostic.severity = "error".toList ∨ p.diagnostic.severity = "warning".toList ↔
            ¬HasForeignI p.severity) ∧
          (p.diagnostic.isError = true ↔ Text.foldCase p.severity = "error".toList) := by
  obtain ⟨ps, hscans, -, hparse⟩ := parseAll_eq_ok_iff report
  refine ⟨ps, hscans, ((hparse ds).mp h).2, fun p hp => ?_⟩
  have hseverity := hscans.isSeverity p hp
  refine ⟨lower_isSeverity_iff hseverity, ?_⟩
  rw [isError, decide_eq_true_iff]
  exact lower_eq_error_iff hseverity

/-- A report with severities in four forms, the last one with a dotted capital. -/
def mixedReport : Text :=
  "a.jai:1,2: eRRoR: b\na.jai:3,4: Warning: c\na.jai:5,6: WARNING: d\na.jai:7,8: WARNİNG: e".toList

theorem severity_of_parseAll_mixed :
    ∃ ds, parseAll mixedReport = .ok ds ∧
      ds.map severity = ["error".toList, "warning".toList, "warning".toList, "warni\u0307ng".toList] ∧
      ∃ ps, Scans mixedReport 0 ps ∧ ds = ps.map Parts.diagnostic ∧
        ∀ p ∈ ps,
          (p.diagnostic.severity = "error".toList ∨ p.diagnostic.severity = "warning".toList ↔
              ¬HasForeignI p.severity) ∧
            (p.diagnostic.isError = true ↔ Text.foldCase p.severity = "error".toList) := by
  have hread : parseAll mixedReport =
      .ok [⟨1, 2, "error".toList, ['b']⟩, ⟨3, 4, "warning".toList, ['c']⟩, ⟨5, 6, "warning".toList, ['d']⟩,
        ⟨7, 8, "warni\u0307ng".toList, ['e']⟩] := by
    decide +kernel
  exact ⟨_, hread, rfl, severity_of_parseAll hread⟩

theorem exists_severity_ne :
    ∃ (report : Text) (ds : List Diagnostic), parseAll report = .ok ds ∧
      ∃ d ∈ ds, d.severity ≠ "error".toList ∧ d.severity ≠ "warning".toList := by
  have hread : parseAll "a.jai:1,2: WARNİNG: bad".toList = .ok [⟨1, 2, "warni\u0307ng".toList, "bad".toList⟩] := by
    decide +kernel
  exact ⟨_, _, hread, _, List.mem_cons_self, by decide, by decide⟩

end Diagnostic

end DisasmLens
