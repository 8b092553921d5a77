import DisasmLens.Markup.Styled
import DisasmLens.StatusBar
import DisasmLens.Text.DecimalDigit

/-!
# The line of the status bar

What the library that draws the screen makes of the text for the bar is not said here but for what is documented of it
(`Renderer.IsDocumented`). The bar adds no mark of its own to the file and the arguments but one colon, so that its text
is shown as it is if they have none (`Renderer.IsDocumented.render_text`).
-/

namespace DisasmLens

namespace Text

/-- The characters of a text that can stand for something else: the bracket of a tag, the colons around the name of a
picture, and control characters. -/
def marks (t : Text) : Text := t.filter fun c => c = '[' || c = ':' || !Styled.isShown c

theorem marks_append (t u : Text) : marks (t ++ u) = marks t ++ marks u := List.filter_append t u

theorem marks_joinWith {between : Text} (hb : marks between = []) (pieces : List Text) :
    marks (joinWith between pieces) = pieces.flatMap marks := by
  induction pieces with
  | nil => rfl
  | cons piece pieces ih =>
    by_cases hp : pieces = []
    · subst hp
      rw [joinWith, List.intercalate_singleton, List.flatMap_singleton]
    · rw [joinWith, List.intercalate_cons_of_ne_nil hp, marks_append, marks_append, hb, List.append_nil, ← joinWith, ih,
        List.flatMap_cons]

theorem marks_decimal (n : Nat) : marks (decimal n) = [] := by
  refine List.filter_eq_nil_iff.mpr fun c hc hm => ?_
  have hdigit := isDigit_of_mem_decimal hc
  simp only [Bool.or_eq_true, decide_eq_true_eq, Styled.isShown, Bool.not_not, List.contains_iff_mem] at hm
  rcases hm with (rfl | rfl) | hcontrol
  · cases hdigit
  · cases hdigit
  · have hcodes : ∀ code ∈ [7, 8, 11, 12, 13], code < 48 := by decide
    simp only [Char.isDigit, Bool.and_eq_true, decide_eq_true_eq] at hdigit
    exact absurd hdigit.1 (Nat.not_le.mpr (hcodes _ hcontrol))

theorem marks_decimalInt (n : Int) : marks (decimalInt n) = [] := by
  cases n with
  | ofNat n => exact marks_decimal n
  | negSucc n => exact (marks_append ['-'] (decimal (n + 1))).trans (by rw [marks_decimal]; rfl)

end Text

/-- The marks of the bar's text are those of the file, of the arguments and of the status, and a colon. -/
theorem StatusBar.marks_text (b : StatusBar) :
    b.text.marks = b.file.marks ++ (if b.flags = [] then [] else ':' :: b.flags.marks) ++ b.status.marks := by
  have hbetween : Text.marks "  │  " = [] := by decide
  have hlabel : Text.marks "flags: " = [':'] := by decide
  have hbullet : Text.marks "● " = [] := by decide
  have hwords : Text.marks " instr / " = [] ∧ Text.marks " labels" = [] ∧ Text.marks " error(s)" = [] := by decide
  have hempty : Text.marks [] = [] := rfl
  rw [text, Text.marks_joinWith hbetween, parts]
  simp only [List.flatMap_append, List.flatMap_cons, List.flatMap_nil, Text.marks_append, hlabel, hbullet, hwords,
    Text.marks_decimalInt, apply_ite (List.flatMap Text.marks ·), ite_self, List.append_nil, List.nil_append]
  by_cases hf : b.file = [] <;> simp [hf, hempty]

namespace Renderer

/-- What is documented of a library that draws screens. A lone colon names no picture, so that a text with no other mark
is shown as it is. A tag that is closed and was not opened is refused. -/
structure IsDocumented (render : Renderer) : Prop where
  literal {t : Text} (ht : t.marks = [] ∨ t.marks = [':']) : render t = .ok t
  unopened {before name after : Text} (hb : '[' ∉ before ∧ '\\' ∉ before) (hn : name ≠ [] ∧ ∀ c ∈ name, c.isAlpha)
    (ha : '[' ∉ after) : ∃ message, render (before ++ "[/" ++ name ++ "]" ++ after) = .error message

theorem IsDocumented.render_text {render : Renderer} (hd : render.IsDocumented) {b : StatusBar}
    (hfile : b.file.marks = []) (hflags : b.flags.marks = []) (hstatus : b.status.marks = []) :
    render b.text = .ok b.text := by
  refine hd.literal ?_
  rw [b.marks_text, hfile, hflags, hstatus]
  split
  · exact .inl rfl
  · exact .inr rfl

def defect? (render : Renderer) (t : Text) : Option Text :=
  match render t with
  | .ok _ => none
  | .error message => some message

/-- A library to which any tag is one that was not opened. -/
def tagless : Renderer := fun t =>
  if '[' ∈ t then
    .error ("closing tag '" ++ (t.dropWhile (· ≠ '[')).takeWhile (· ≠ ']') ++ "]' does not match any open tag")
  else .ok (t.filter Styled.isShown)

theorem isDocumented_tagless : tagless.IsDocumented where
  literal {t} ht := by
    have hmarks : ∀ c ∈ t.marks, c = ':' := by
      rcases ht with ht | ht <;> rw [ht] <;> simp
    have hmem {c : Char} (hc : c ∈ t) (hm : c = '[' ∨ Styled.isShown c = false) : c = ':' :=
      hmarks c (List.mem_filter.mpr ⟨hc, by rcases hm with hm | hm <;> simp [hm]⟩)
    have hbracket : '[' ∉ t := fun hc => absurd (hmem hc (.inl rfl)) (by decide)
    have hshown : t.filter Styled.isShown = t := List.filter_eq_self.mpr fun c hc => by
      cases hs : Styled.isShown c with
      | true => rfl
      | false =>
        have hcolon := hmem hc (.inr hs)
        subst hcolon
        cases hs
    exact (if_neg hbracket).trans (congrArg Except.ok hshown)
  unopened {before name after} _ _ _ := by
    have hbracket : '[' ∈ before ++ "[/" ++ name ++ "]" ++ after := by
      have hopen : '[' ∈ "[/".toList := by decide
      exact List.mem_append_left _ (List.mem_append_left _ (List.mem_append_left _ (List.mem_append_right _ hopen)))
    exact ⟨_, if_pos hbracket⟩

end Renderer

end DisasmLens
