import DisasmLens.Screen

/-!
# Words written as a line and read back

The reader of a line comes back to where it stands behind a bare word when it has read a word that was written
(`ShellWords.splitFrom_quote`), so that the words of a line are those it was made of (`ShellWords.split_join`). A user who
submits the arguments as the editor shows them asks for a rebuild and for nothing else (`Screen.submit_edit`).
-/

namespace DisasmLens

namespace ShellWords

/-! ### One word -/

def special : Text := [' ', '\t', '\r', '\n', '\\', '\'', '"']

theorem not_mem_special {c : Char} (h : isSafe c = true) : c ∉ special := by
  have hspecial : special.all (fun c => !isSafe c) = true := by decide
  intro hc
  have hsafe := List.all_eq_true.mp hspecial c hc
  rw [h] at hsafe
  cases hsafe

theorem splitFrom_between_cons {c : Char} (h : c ∉ special) (word rest : Text) :
    splitFrom .between word (c :: rest) = splitFrom .bare [c] rest := by
  simp only [special, List.mem_cons, List.not_mem_nil, or_false, not_or] at h
  simp [splitFrom, isSpace, h]

theorem splitFrom_bare_cons {c : Char} (h : c ∉ special) (word rest : Text) :
    splitFrom .bare word (c :: rest) = splitFrom .bare (word ++ [c]) rest := by
  simp only [special, List.mem_cons, List.not_mem_nil, or_false, not_or] at h
  simp [splitFrom, isSpace, h]

theorem splitFrom_bare_append {cs : Text} (h : cs.all isSafe = true) (word rest : Text) :
    splitFrom .bare word (cs ++ rest) = splitFrom .bare (word ++ cs) rest := by
  induction cs generalizing word with
  | nil => rw [List.nil_append, List.append_nil]
  | cons c cs ih =>
    rw [List.all_cons, Bool.and_eq_true] at h
    rw [List.cons_append, splitFrom_bare_cons (not_mem_special h.1), ih h.2, List.append_assoc, List.singleton_append]

/-- An apostrophe in the word ends the quotes and begins them anew, with itself between double quotes. -/
theorem splitFrom_single_quoteChar (c : Char) (word rest : Text) :
    splitFrom .single word (quoteChar c ++ rest) = splitFrom .single (word ++ [c]) rest := by
  by_cases hc : c = '\''
  · subst hc
    rfl
  · simp [quoteChar, splitFrom, hc]

theorem splitFrom_single_flatMap (w word rest : Text) :
    splitFrom .single word (w.flatMap quoteChar ++ '\'' :: rest) = splitFrom .bare (word ++ w) rest := by
  induction w generalizing word with
  | nil =>
    rw [List.append_nil]
    rfl
  | cons c w ih =>
    rw [List.flatMap_cons, List.append_assoc, splitFrom_single_quoteChar, ih, List.append_assoc, List.singleton_append]

/-- Behind a word that was written the reader stands as behind a bare word. -/
theorem splitFrom_quote (word rest : Text) :
    splitFrom .between [] (quote word ++ rest) = splitFrom .bare word rest := by
  unfold quote
  split
  · rename_i h
    obtain ⟨hne, hsafe⟩ := h
    cases word with
    | nil => exact absurd rfl hne
    | cons c cs =>
      rw [List.all_cons, Bool.and_eq_true] at hsafe
      rw [List.cons_append, splitFrom_between_cons (not_mem_special hsafe.1), splitFrom_bare_append hsafe.2]
      rfl
  · have hopen : splitFrom .between [] ('\'' :: (word.flatMap quoteChar ++ '\'' :: rest)) =
        splitFrom .single [] (word.flatMap quoteChar ++ '\'' :: rest) := rfl
    rw [List.append_assoc, List.cons_append, List.singleton_append, hopen, splitFrom_single_flatMap]
    rfl

/-! ### All words -/

theorem join_singleton (word : Text) : join [word] = quote word := by
  rw [join, List.map_singleton, Text.joinWith, List.intercalate_singleton]

theorem join_cons {words : List Text} (h : words ≠ []) (word : Text) :
    join (word :: words) = quote word ++ ' ' :: join words := by
  have hne : words.map quote ≠ [] := mt List.map_eq_nil_iff.mp h
  rw [join, List.map_cons, Text.joinWith, List.intercalate_cons_of_ne_nil hne, List.append_assoc]
  rfl

theorem split_join (words : List Text) : split (join words) = .ok words := by
  induction words with
  | nil => rfl
  | cons word words ih =>
    by_cases h : words = []
    · subst h
      have hread := splitFrom_quote word []
      rw [List.append_nil] at hread
      rw [join_singleton, split, hread]
      rfl
    · rw [join_cons h, split, splitFrom_quote]
      -- The blank ends the word, and the reader begins again as at the start of a line.
      show (split (join words)).map (word :: ·) = _
      rw [ih]
      rfl

end ShellWords

/-! ### The editor -/

theorem Screen.run_handle_submit (render : Renderer) (s : Screen) (line : Text) (h : Host) :
    (s.handle render (.submit line)).run.run h = (.ok ((s.submit line).run h).1, ((s.submit line).run h).2) := rfl

theorem Screen.run_submit_of_words {s : Screen} {line : Text} {flags : List Text}
    (hl : ShellWords.split line = .ok flags) (h : Host) :
    (s.submit line).run h =
      let rebuilt := (s.session.setFlags flags).run h
      ({ s with editor := ({ s.editor with field := line } : FlagsEditor).close, session := rebuilt.1 }, rebuilt.2) := by
  unfold submit
  rw [FlagsEditor.submit_of_split_ok hl]
  rfl

/-- The editor shows a line whose words are the session's arguments. When this line is submitted the editor closes
without a complaint, and all that happens to the session is that it builds anew. -/
theorem Screen.submit_edit (render : Renderer) (s : Screen) (h : Host) :
    ∃ edited, (s.handle render .edit).run.run h = (.ok edited, h) ∧ edited.editor.isOpen = true ∧
      ShellWords.split edited.editor.field = .ok s.session.flags ∧
      edited.editor.submit edited.editor.field =
        ({ edited.editor with isOpen := false, complaint := none }, some s.session.flags) ∧
      (edited.handle render (.submit edited.editor.field)).run.run h =
        (.ok { edited with
          editor := { edited.editor with isOpen := false, complaint := none }
          session := (s.session.refresh.run h).1 }, (s.session.refresh.run h).2) := by
  have hsplit : ShellWords.split (s.editor.edit s.session.flags).field = .ok s.session.flags :=
    ShellWords.split_join s.session.flags
  refine ⟨{ s with editor := s.editor.edit s.session.flags }, rfl, rfl, hsplit,
    FlagsEditor.submit_of_split_ok hsplit _, ?_⟩
  rw [run_handle_submit, run_submit_of_words hsplit]
  rfl

end DisasmLens
