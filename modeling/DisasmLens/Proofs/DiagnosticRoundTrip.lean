import DisasmLens.Proofs.DiagnosticGrammar
import Mathlib.Data.List.Chain

/-!
# Reports that are written line by line

An `Entry` is a diagnostic with the path of its file, and `Entry.text` writes it in one line. The path may be
anything, other diagnostics included: a line is cut behind the longest lead, so what stands before the last
place that can begin a diagnostic does not matter. Behind that place a colon must not go on with a digit. Of
what `Entry.text` puts there this holds, and of the message it is asked (`Entry.Writable`). Then a report is
read back as it was written, entry by entry.
-/

namespace DisasmLens.Diagnostic

structure Entry where
  path : Text
  line : Nat
  column : Nat
  separator : Char
  severity : Text
  message : Text

namespace Entry

def text (e : Entry) : Text :=
  e.path ++ ':' :: Text.decimal e.line ++ e.separator :: Text.decimal e.column ++ ": ".toList ++
    e.severity ++ ": ".toList ++ e.message

def parts (e : Entry) : Parts := ⟨Text.decimal e.line, Text.decimal e.column, e.severity, e.message⟩

def diagnostic (e : Entry) : Diagnostic := ⟨e.line, e.column, e.severity.map Char.toLower, e.message⟩

structure Writable (e : Entry) : Prop where
  path_line : '\n' ∉ e.path
  line_short : (Text.decimal e.line).length ≤ Text.maxDigits
  column_short : (Text.decimal e.column).length ≤ Text.maxDigits
  separator_eq : e.separator = ',' ∨ e.separator = ':'
  severity_spelled :
    e.severity.map Char.toLower = "error".toList ∨ e.severity.map Char.toLower = "warning".toList
  message_ne : e.message ≠ []
  message_line : '\n' ∉ e.message
  message_head : Stops Text.isBlank e.message
  message_last : Stops Text.isBlank e.message.reverse
  message_chain : e.message.IsChain fun x y => x = ':' → Text.isDecimalDigit y = false

instance : DecidablePred Writable := fun e =>
  decidable_of_iff
    ('\n' ∉ e.path ∧ (Text.decimal e.line).length ≤ Text.maxDigits ∧
      (Text.decimal e.column).length ≤ Text.maxDigits ∧ (e.separator = ',' ∨ e.separator = ':') ∧
      (e.severity.map Char.toLower = "error".toList ∨ e.severity.map Char.toLower = "warning".toList) ∧
      e.message ≠ [] ∧ '\n' ∉ e.message ∧ Stops Text.isBlank e.message ∧
      Stops Text.isBlank e.message.reverse ∧
      e.message.IsChain fun x y => x = ':' → Text.isDecimalDigit y = false)
    ⟨fun ⟨h₁, h₂, h₃, h₄, h₅, h₆, h₇, h₈, h₉, h₁₀⟩ => ⟨h₁, h₂, h₃, h₄, h₅, h₆, h₇, h₈, h₉, h₁₀⟩,
      fun h => ⟨h.1, h.2, h.3, h.4, h.5, h.6, h.7, h.8, h.9, h.10⟩⟩

end Entry

/-! ### Texts in which no diagnostic starts -/

theorem run?_of_stops {p : Char → Bool} {t : Text} (h : Stops p t) : run? p t = none := by
  have ht := Text.takeWhile_append_of_head? (List.forall_mem_nil (p · = true)) h
  rw [List.nil_append] at ht
  rw [run?, ht]

theorem inLine?_cons_of_ne_colon {x : Char} (hx : x ≠ ':') {t : Text} (ht : inLine? t = none) :
    inLine? (x :: t) = none := by
  by_cases hf : x = '\n'
  · rw [hf]
    exact inLine?_feed t
  · rw [inLine?_cons hf, ht, Option.none_or]
    exact parts?_of_ne_colon hx t

theorem inLine?_append_of_not_mem {s t : Text} (hs : ':' ∉ s) (ht : inLine? t = none) :
    inLine? (s ++ t) = none := by
  induction s with
  | nil => exact ht
  | cons x s ih =>
    rw [List.mem_cons, not_or] at hs
    exact inLine?_cons_of_ne_colon (Ne.symm hs.1) (ih hs.2)

theorem inLine?_colon {t : Text} (h : Stops Text.isDecimalDigit t) (ht : inLine? t = none) :
    inLine? (':' :: t) = none := by
  rw [inLine?_cons (by decide), ht, Option.none_or]
  simp only [parts?, run?_of_stops h, Option.bind_eq_bind, Option.bind_none]

theorem inLine?_colon_run {ds t : Text} (hd : IsRun Text.isDecimalDigit ds) (hc : ':' ∉ ds)
    (ht : Stops Text.isDecimalDigit t) (hn : inLine? (':' :: t) = none) :
    inLine? (':' :: (ds ++ ':' :: t)) = none := by
  rw [inLine?_cons (by decide), inLine?_append_of_not_mem hc hn, Option.none_or, parts?,
    run?_append hd (stops_colon t), Option.bind_eq_bind, Option.bind_some]
  dsimp only
  rw [(Option.guard_eq_some' ()).mpr (.inr rfl), run?_of_stops ht]
  rfl

theorem inLine?_message {m rest : Text}
    (hm : m.IsChain fun x y => x = ':' → Text.isDecimalDigit y = false)
    (hr : AtLineEnd rest) : inLine? (m ++ rest) = none := by
  induction m with
  | nil =>
    cases rest with
    | nil => rfl
    | cons x rest =>
      have hx : x = '\n' := by simpa [AtLineEnd] using hr
      rw [hx]
      exact inLine?_feed rest
  | cons x m ih =>
    obtain ⟨hhead, htail⟩ := List.isChain_cons.mp hm
    by_cases hx : x = ':'
    · subst hx
      have hstop : Stops Text.isDecimalDigit (m ++ rest) := by
        intro y hy
        cases m with
        | nil => exact hr.stops (by decide) y hy
        | cons _ m =>
          cases hy
          exact hhead y rfl rfl
      exact inLine?_colon hstop (ih htail)
    · exact inLine?_cons_of_ne_colon hx (ih htail)

theorem inLine?_append_lead {lead t : Text} {found : Parts × Text} (hl : '\n' ∉ lead)
    (ht : inLine? t = some found) : inLine? (lead ++ t) = some found := by
  induction lead with
  | nil => exact ht
  | cons x lead ih =>
    rw [List.mem_cons, not_or] at hl
    rw [List.cons_append, inLine?_cons (Ne.symm hl.1), ih hl.2, Option.some_or]

theorem IsRun.not_mem {p : Char → Bool} {cs : Text} (h : IsRun p cs) {c : Char} (hc : p c = false) :
    c ∉ cs := by
  intro hm
  rw [h.2 c hm] at hc
  cases hc

theorem not_mem_severity {s : Text} (h : IsSeverity s) {c : Char} (hc : Text.foldChar c = c)
    (hw : c ∉ "error".toList ∧ c ∉ "warning".toList) : c ∉ s := by
  intro hm
  have hfold : c ∈ Text.foldCase s := hc ▸ List.mem_map_of_mem hm
  rcases h with h | h
  · exact hw.1 (h ▸ hfold)
  · exact hw.2 (h ▸ hfold)

theorem stops_digit_of_blank {bs : Text} (h : IsRun Text.isBlank bs) (t : Text) :
    Stops Text.isDecimalDigit (bs ++ t) := by
  obtain ⟨b, bs, rfl⟩ := List.exists_cons_of_ne_nil h.1
  intro c hc
  cases hc
  exact Text.isDecimalDigit_of_isBlank (h.2 b List.mem_cons_self)

/-- Behind the colon before the line number a diagnostic could start in the message only. So if none starts
there then the cut is the longest. -/
theorem Cut.inLine?_text (c : Cut) (h : inLine? (c.parts.message ++ c.rest) = none) :
    inLine? c.text = some (c.parts, c.rest) := by
  have hblank {bs t : Text} (hb : IsRun Text.isBlank bs) (ht : inLine? t = none) :
      inLine? (':' :: (bs ++ t)) = none :=
    inLine?_colon (stops_digit_of_blank hb t) (inLine?_append_of_not_mem (hb.not_mem (by decide)) ht)
  have hdigits {ds t : Text} (hd : IsRun Text.isDecimalDigit ds) (ht : inLine? t = none) :
      inLine? (ds ++ t) = none :=
    inLine?_append_of_not_mem (hd.not_mem (by decide)) ht
  have hmessage := hblank c.indent_run h
  have hword : ':' ∉ c.parts.severity := not_mem_severity c.severity_word (by decide) (by decide)
  have hseverity := hblank c.gap_run (inLine?_append_of_not_mem hword hmessage)
  have hcolumn : inLine? (c.separator :: (c.parts.column ++ ':' :: (c.gap ++ (c.parts.severity ++
      ':' :: (c.indent ++ (c.parts.message ++ c.rest)))))) = none := by
    rcases c.separator_eq with hs | hs
    · rw [hs]
      exact inLine?_cons_of_ne_colon (by decide) (hdigits c.column_run hseverity)
    · rw [hs]
      exact inLine?_colon_run c.column_run (c.column_run.not_mem (by decide))
        (stops_digit_of_blank c.gap_run _) hseverity
  have hline := hdigits c.line_run hcolumn
  have hbody : c.body ++ c.rest = ':' :: (c.parts.line ++ c.separator :: (c.parts.column ++ ':' ::
      (c.gap ++ (c.parts.severity ++ ':' :: (c.indent ++ (c.parts.message ++ c.rest)))))) := by
    simp only [Cut.body, List.append_assoc, List.cons_append]
  have hparts := c.parts?_body
  rw [text, List.append_assoc]
  refine inLine?_append_lead c.lead_line ?_
  rw [hbody] at hparts ⊢
  rw [inLine?_cons (by decide), hline, Option.none_or, hparts]

/-! ### Entries -/

theorem isRun_decimal (n : Nat) : IsRun Text.isDecimalDigit (Text.decimal n) :=
  ⟨Nat.toDigits_ne_nil, fun _ hc => Text.isDecimalDigit_of_isDigit (Text.isDigit_of_mem_decimal hc)⟩

theorem isRun_space : IsRun Text.isBlank [' '] :=
  ⟨List.cons_ne_nil _ _, List.forall_mem_singleton.mpr (by decide)⟩

theorem not_mem_decimal {c : Char} (h : c.isDigit = false) (n : Nat) : c ∉ Text.decimal n := by
  intro hc
  rw [Text.isDigit_of_mem_decimal hc] at h
  cases h

namespace Entry

variable {e : Entry}

theorem Writable.isAscii_severity (he : e.Writable) :
    Text.isAscii (e.severity.map Char.toLower) = true := by
  rcases he.severity_spelled with h | h
  · rw [h]
    decide
  · rw [h]
    decide

theorem Writable.not_mem_severity (he : e.Writable) {c : Char}
    (hc : c.toLower ∉ "error".toList ∧ c.toLower ∉ "warning".toList) : c ∉ e.severity := by
  intro hm
  have hlow : c.toLower ∈ e.severity.map Char.toLower := List.mem_map_of_mem hm
  rcases he.severity_spelled with h | h
  · exact hc.1 (h ▸ hlow)
  · exact hc.2 (h ▸ hlow)

def cut (e : Entry) (he : e.Writable) (rest : Text) (hr : AtLineEnd rest) : Cut where
  lead := e.path
  parts := e.parts
  separator := e.separator
  gap := [' ']
  indent := [' ']
  rest := rest
  lead_line := he.path_line
  line_run := isRun_decimal e.line
  separator_eq := he.separator_eq
  column_run := isRun_decimal e.column
  gap_run := isRun_space
  severity_word := by
    have hs := Text.foldCase_of_isAscii he.isAscii_severity
    exact he.severity_spelled.imp hs.trans hs.trans
  indent_run := isRun_space
  indent_whole := by
    obtain ⟨x, m, hm⟩ := List.exists_cons_of_ne_nil he.message_ne
    intro c hc
    refine he.message_head c ?_
    rw [parts, hm] at hc
    rw [hm]
    exact hc
  message_line := he.message_line
  rest_end := hr

theorem text_cut (he : e.Writable) {rest : Text} (hr : AtLineEnd rest) :
    e.path ++ ((e.cut he rest hr).body ++ rest) = e.text ++ rest := by
  simp [Cut.body, cut, parts, text]

/-- In the message no diagnostic starts, so the cut behind the path is the longest. -/
theorem inLine?_text (he : e.Writable) {rest : Text} (hr : AtLineEnd rest) :
    inLine? (e.text ++ rest) = some (e.parts, rest) := by
  have hmessage : inLine? (e.message ++ rest) = none := inLine?_message he.message_chain hr
  rw [← text_cut he hr, ← List.append_assoc]
  exact (e.cut he rest hr).inLine?_text hmessage

theorem not_mem_text (he : e.Writable) : '\n' ∉ e.text := by
  have hdecimal (n : Nat) : '\n' ∉ Text.decimal n := not_mem_decimal (by decide) n
  have hseparator : e.separator ≠ '\n' := by
    rcases he.separator_eq with h | h
    · rw [h]
      decide
    · rw [h]
      decide
  simp [text, he.path_line, hdecimal, hseparator.symm, he.not_mem_severity (c := '\n') (by decide),
    he.message_line]

theorem diagnostic_parts (he : e.Writable) : e.parts.diagnostic = e.diagnostic := by
  simp only [Parts.diagnostic, parts, diagnostic, Text.digitsValue_decimal,
    Text.lower_of_isAscii he.isAscii_severity, Text.strip_eq_self he.message_head he.message_last]

end Entry

/-! ### Reports -/

theorem scan_skip {s : Text} (hs : '\n' ∉ s) (t : Text) : scan s.length false (s ++ t) = scan 0 false t := by
  induction s with
  | nil => rfl
  | cons x s ih =>
    rw [List.mem_cons, not_or] at hs
    rw [List.length_cons, List.cons_append, scan, decide_eq_false (Ne.symm hs.1)]
    exact ih hs.2

/-- A diagnostic that ends with its line is followed by what the next lines hold. -/
theorem scan_of_inLine?_eq_some {line rest : Text} {p : Parts} (hl : '\n' ∉ line) (hn : line ≠ [])
    (hfound : inLine? (line ++ rest) = some (p, rest)) :
    scan 0 true (line ++ rest) = p :: scan 0 false rest := by
  obtain ⟨x, s, rfl⟩ := List.exists_cons_of_ne_nil hn
  rw [List.mem_cons, not_or] at hl
  have hskip : (s ++ rest).length - rest.length = s.length := by
    rw [List.length_append, Nat.add_sub_cancel]
  rw [List.cons_append] at hfound ⊢
  rw [scan, hfound]
  dsimp only
  rw [hskip, decide_eq_false (Ne.symm hl.1), scan_skip hl.2]

theorem scan_entry {e : Entry} (he : e.Writable) {rest : Text} (hr : AtLineEnd rest) :
    scan 0 true (e.text ++ rest) = e.parts :: scan 0 false rest := by
  have hn : e.text ≠ [] := by simp [Entry.text]
  exact scan_of_inLine?_eq_some (Entry.not_mem_text he) hn (Entry.inLine?_text he hr)

/-- The end of a report: nothing, or a line feed behind the last entry. -/
theorem scan_entries {es : List Entry} (h : ∀ e ∈ es, e.Writable) {rest : Text}
    (hr : rest = [] ∨ rest = ['\n']) :
    scan 0 true (Text.unlines (es.map Entry.text) ++ rest) = es.map Entry.parts := by
  induction es with
  | nil =>
    rcases hr with rfl | rfl
    · rfl
    · rfl
  | cons e es ih =>
    rw [List.forall_mem_cons] at h
    cases es with
    | nil =>
      rw [List.map_singleton, Text.unlines_singleton]
      rcases hr with rfl | rfl
      · exact scan_entry h.1 (.inl rfl)
      · exact scan_entry h.1 (.inr rfl)
    | cons next es =>
      rw [List.map_cons, Text.unlines_cons (by simp), List.append_assoc, List.cons_append,
        scan_entry h.1 (.inr rfl), List.map_cons]
      -- the line feed behind the entry leads to the start of the next line
      exact congrArg (e.parts :: ·) (ih h.2)

/-- A report that is written entry by entry is read back whole, in order, with the severities in small letters,
be there a line feed at its end or not. -/
theorem parseAll_unlines {es : List Entry} (h : ∀ e ∈ es, e.Writable) :
    parseAll (Text.unlines (es.map Entry.text)) = .ok (es.map Entry.diagnostic) ∧
      parseAll (Text.unlines (es.map Entry.text) ++ ['\n']) = .ok (es.map Entry.diagnostic) := by
  have hshort : ∀ p ∈ es.map Entry.parts, p.IsShort := by
    intro p hp
    obtain ⟨e, he, rfl⟩ := List.mem_map.mp hp
    exact ⟨(h e he).line_short, (h e he).column_short⟩
  have hdiagnostics : (es.map Entry.parts).map Parts.diagnostic = es.map Entry.diagnostic := by
    rw [List.map_map]
    exact List.map_congr_left fun e he => Entry.diagnostic_parts (h e he)
  have hread (rest : Text) (hr : rest = [] ∨ rest = ['\n']) :
      parseAll (Text.unlines (es.map Entry.text) ++ rest) = .ok (es.map Entry.diagnostic) := by
    rw [parseAll, scan_entries h hr, mapM_ofParts_of_isShort hshort, hdiagnostics]
  have hplain := hread [] (.inl rfl)
  rw [List.append_nil] at hplain
  exact ⟨hplain, hread ['\n'] (.inr rfl)⟩

/-- Paths and messages may look like diagnostics themselves. -/
theorem parseAll_unlines_nested :
    parseAll (Text.unlines (["a.jai:1,1: error: b.jai:10:5: eRRoR: x: y:", ":7:0,12: WARNING: error: a,1 : z"].map
        String.toList)) =
      .ok [⟨10, 5, "error".toList, "x: y:".toList⟩, ⟨0, 12, "warning".toList, "error: a,1 : z".toList⟩] :=
  (@parseAll_unlines
    [⟨"a.jai:1,1: error: b.jai".toList, 10, 5, ':', "eRRoR".toList, "x: y:".toList⟩,
      ⟨":7".toList, 0, 12, ',', "WARNING".toList, "error: a,1 : z".toList⟩] (by decide)).1

end DisasmLens.Diagnostic
