import DisasmLens.Proofs.RetentionLaw

/-!
# Listings one behind the other

What is kept of the lines above does not depend on the lines below, so long as there are some: only the last
line of all is judged by its place. And what is kept below a label does not depend on the lines above. So two
listings can be filtered apart if the first is whole lines and the second begins with a label.
-/

namespace DisasmLens.Listing

/-- The lines below take from those above the bit that these leave behind, and nothing else. -/
theorem exists_keepLines_append (target : Text) (inside : Bool) (above : List Text) :
    ∃ kept after, ∀ line below,
      keepLines target inside (above ++ line :: below) = kept ++ keepLines target after (line :: below) := by
  induction above generalizing inside with
  | nil => exact ⟨[], inside, fun _ _ => rfl⟩
  | cons first above ih =>
    cases hk : LineKind.of first with
    | empty =>
      obtain ⟨kept, after, h⟩ := ih inside
      refine ⟨first :: kept, after, fun line below => ?_⟩
      simp only [List.cons_append, keepLines, hk, h]
    | label =>
      obtain ⟨kept, after, h⟩ := ih false
      refine ⟨first :: kept, after, fun line below => ?_⟩
      simp only [List.cons_append, keepLines, hk, h]
    | text =>
      cases hp : Text.hasPart target first with
      | true =>
        obtain ⟨kept, after, h⟩ := ih true
        refine ⟨first :: kept, after, fun line below => ?_⟩
        simp only [List.cons_append, keepLines, hk, hp, if_true, h]
      | false =>
        obtain ⟨kept, after, h⟩ := ih false
        refine ⟨kept, after, fun line below => ?_⟩
        simp only [List.cons_append, keepLines, hk, hp, Bool.false_eq_true, if_false, h]
    | instruction =>
      obtain ⟨kept, after, h⟩ := ih inside
      cases inside with
      | true =>
        refine ⟨first :: kept, after, fun line below => ?_⟩
        have hne : above ++ line :: below ≠ [] :=
          List.append_ne_nil_of_right_ne_nil above (List.cons_ne_nil line below)
        simp only [List.cons_append, keepLines, hk, hne, ne_eq, not_false_eq_true, and_self, if_true, h]
      | false =>
        refine ⟨kept, after, fun line below => ?_⟩
        simp only [List.cons_append, keepLines, hk, Bool.false_eq_true, false_and, if_false, h]

theorem retain_append {target x y : Text} (hx : x = [] ∨ x.getLast? = some '\n')
    (hy : LineKind.of (y.lines.head (Text.lines_ne_nil y)) = .label) :
    retain target (x ++ y) = retain target x ++ retain target y := by
  obtain rfl | hlast := hx
  · rfl
  · obtain ⟨t, rfl⟩ := List.getLast?_eq_some_iff.mp hlast
    obtain ⟨label, below, hlines⟩ := List.exists_cons_of_ne_nil (Text.lines_ne_nil y)
    have hlabel : LineKind.of label = .label := by simpa only [hlines, List.head_cons] using hy
    obtain ⟨kept, after, hkept⟩ := exists_keepLines_append target false (Text.lines t)
    have habove : keepLines target false (Text.lines (t ++ ['\n'])) = kept ++ [[]] := by
      rw [Text.lines_append]
      exact hkept [] []
    have hbelow : keepLines target false y.lines = label :: keepLines target false below := by
      simp only [hlines, keepLines, hlabel]
    have hboth : keepLines target false (Text.lines (t ++ ['\n'] ++ y)) =
        kept ++ label :: keepLines target false below := by
      rw [List.append_assoc, List.singleton_append, Text.lines_append, hlines, hkept]
      simp only [keepLines, hlabel]
    rw [retain, retain, retain, hboth, habove, hbelow]
    by_cases hn : kept = []
    · -- the line feed at the end of the first listing goes with its last line
      rw [hn, List.nil_append, List.nil_append, Text.unlines_singleton, List.nil_append]
    · rw [Text.unlines_append hn (List.cons_ne_nil _ _), Text.unlines_append hn (List.cons_ne_nil _ _),
        Text.unlines_singleton, List.append_assoc, List.singleton_append]

/-- The block that is open at the seam ends there, and so does the first listing's last line. -/
theorem retain_append_open_block :
    retain "a.jai" "f():\na.jai:1\n  push\ng():\n  nop\na.jai:2\n  ret" =
      retain "a.jai" "f():\na.jai:1\n  push\n" ++ retain "a.jai" "g():\n  nop\na.jai:2\n  ret" :=
  retain_append (x := "f():\na.jai:1\n  push\n") (y := "g():\n  nop\na.jai:2\n  ret") (by decide) (by decide)

end DisasmLens.Listing
