import DisasmLens.Path

/-!
# Locations of entries

A path written with its components only leads to the same place (`Path.components_tidy`). So the path of an entry in a
directory leads to the place of that name in the place of the directory (`Path.location_resolve_join`).

The absolute form of a path is its own absolute form (`Path.absolute_text_absolute`). Resolving it leaves it as it is
only if it does not start with two slashes (`Path.text_resolve_absolute`, `Path.location_text_eq_iff`).
-/

namespace DisasmLens.Path

/-! ### Components -/

def IsComponent (c : Text) : Prop := c ≠ [] ∧ c ≠ ['.'] ∧ '/' ∉ c

theorem components_append_slash (p q : Text) : components (p ++ '/' :: q) = components p ++ components q := by
  simp only [components, List.splitOn_append_cons_self, List.filter_append]

theorem components_slash (p : Text) : components ('/' :: p) = components p := components_append_slash [] p

theorem isComponent_of_mem {p c : Text} (h : c ∈ components p) : IsComponent c := by
  obtain ⟨hsplit, hkept⟩ := List.mem_filter.mp h
  have hkept := of_decide_eq_true hkept
  exact ⟨hkept.1, hkept.2, Text.not_mem_of_mem_splitOn hsplit⟩

theorem components_joinWith {cs : List Text} (h : ∀ c ∈ cs, IsComponent c) :
    components (Text.joinWith ['/'] cs) = cs := by
  by_cases hn : cs = []
  · subst hn
    rfl
  · have hkept : ∀ c ∈ cs, decide (c ≠ [] ∧ c ≠ ['.']) = true := fun c hc => decide_eq_true ⟨(h c hc).1, (h c hc).2.1⟩
    have hsplit := List.splitOn_intercalate '/' (fun c hc => (h c hc).2.2) hn
    rw [components, Text.joinWith, hsplit, List.filter_eq_self.mpr hkept]

theorem components_of_isComponent {c : Text} (h : IsComponent c) : components c = [c] := by
  have hsingle := components_joinWith (List.forall_mem_singleton.mpr h)
  rwa [Text.joinWith, List.intercalate_singleton] at hsingle

theorem components_root (p q : Text) : components (root p ++ q) = components q := by
  unfold root
  split
  · exact (components_slash _).trans (components_slash q)
  split
  · exact components_slash q
  · rfl

theorem components_tidy (p : Text) : components (tidy p) = components p := by
  unfold tidy ofComponents
  split
  · rename_i hempty
    rw [hempty.2]
    rfl
  · rw [components_root, components_joinWith fun c hc => isComponent_of_mem hc]

theorem isAbsolute_joinWith {cs : List Text} (h : ∀ c ∈ cs, IsComponent c) :
    isAbsolute (Text.joinWith ['/'] cs) = false := by
  cases cs with
  | nil => rfl
  | cons c cs =>
    obtain ⟨hne, -, hslash⟩ := h c List.mem_cons_self
    obtain ⟨d, c, rfl⟩ := List.exists_cons_of_ne_nil hne
    have hhead : (Text.joinWith ['/'] ((d :: c) :: cs)).head? = some d := by
      cases cs with
      | nil => rw [Text.joinWith, List.intercalate_singleton, List.head?_cons]
      | cons e cs => rw [Text.joinWith, List.intercalate_cons_cons, List.cons_append, List.cons_append, List.head?_cons]
    rw [isAbsolute, hhead]
    refine decide_eq_false fun he => hslash ?_
    rw [Option.some.inj he]
    exact List.mem_cons_self

theorem isAbsolute_tidy (p : Text) : isAbsolute (tidy p) = isAbsolute p := by
  have hcomponents := isAbsolute_joinWith fun c (hc : c ∈ components p) => isComponent_of_mem hc
  have htwo : hasTwoSlashes p = true → isAbsolute p = true := by
    rcases p with _ | ⟨c, _ | ⟨d, p⟩⟩ <;> simp +contextual [hasTwoSlashes, isAbsolute]
  unfold tidy ofComponents root
  by_cases hslashes : hasTwoSlashes p = true
  · rw [if_pos hslashes, htwo hslashes]
    rfl
  by_cases habsolute : isAbsolute p = true
  · rw [if_neg hslashes, if_pos habsolute, habsolute]
    rfl
  · rw [if_neg hslashes, if_neg habsolute, Bool.eq_false_iff.mpr habsolute]
    split
    · rfl
    · exact hcomponents

/-! ### Seen from a directory -/

theorem components_within {directory p : Text} (h : isAbsolute p = false) :
    components (within directory p) = components directory ++ components p := by
  have hrelative : ¬isAbsolute p = true := Bool.eq_false_iff.mp h
  unfold within
  split
  · rename_i hwhole
    rw [hwhole.resolve_left hrelative]
    rfl
  split
  · rename_i hlast
    obtain ⟨front, hfront⟩ := List.getLast?_eq_some_iff.mp hlast
    have hdirectory : components (front ++ ['/']) = components front := by
      rw [components_append_slash]
      exact List.append_nil _
    rw [hfront, hdirectory, List.append_assoc, List.singleton_append, components_append_slash]
  · exact components_append_slash directory p

theorem isAbsolute_within {directory p : Text} (h : isAbsolute p = false) :
    isAbsolute (within directory p) = isAbsolute directory := by
  have hrelative : ¬isAbsolute p = true := Bool.eq_false_iff.mp h
  unfold within
  split
  · rename_i hwhole
    rw [hwhole.resolve_left hrelative]
    exact h
  · rename_i hwhole
    obtain ⟨c, front, rfl⟩ := List.exists_cons_of_ne_nil (not_or.mp hwhole).2
    split <;> rfl

theorem location_resolve (directory p : Text) :
    (resolve directory p).location = follow [] (components (within directory p)) := by
  unfold resolve absolute
  dsimp only
  split <;> rfl

theorem follow_append (start : Location) (cs ds : List Text) : follow start (cs ++ ds) = follow (follow start cs) ds :=
  List.foldl_append ..

theorem follow_concat {name : Text} (h : name ≠ ['.', '.']) (start : Location) (cs : List Text) :
    follow start (cs ++ [name]) = follow start cs ++ [name] := by
  rw [follow_append]
  exact if_neg h

/-- The path of an entry leads to its name in the place of the directory. -/
theorem location_resolve_join {name : Text} (hn : IsComponent name) (hup : name ≠ ['.', '.'])
    (directory d : Text) :
    (resolve directory (join d name)).location = (resolve directory d).location ++ [name] := by
  have hrelative : isAbsolute name = false := by
    have hsingle := isAbsolute_joinWith (List.forall_mem_singleton.mpr hn)
    rwa [Text.joinWith, List.intercalate_singleton] at hsingle
  have hjoin : components (join d name) = components d ++ [name] := by
    rw [join, components_tidy, components_within hrelative, components_of_isComponent hn]
  have habsolute : isAbsolute (join d name) = isAbsolute d := by
    rw [join, isAbsolute_tidy, isAbsolute_within hrelative]
  rw [location_resolve, location_resolve, ← follow_concat hup]
  cases hd : isAbsolute d with
  | true =>
    rw [hd] at habsolute
    rw [within, if_pos (.inl habsolute), within, if_pos (.inl hd), hjoin]
  | false =>
    rw [hd] at habsolute
    rw [components_within habsolute, components_within hd, hjoin, List.append_assoc]

/-! ### Absolute forms -/

def IsName (c : Text) : Prop := IsComponent c ∧ c ≠ ['.', '.']

theorem isName_of_mem_follow {start : Location} {cs : List Text} (hstart : ∀ c ∈ start, IsName c)
    (hcs : ∀ c ∈ cs, IsComponent c) : ∀ c ∈ follow start cs, IsName c := by
  induction cs generalizing start with
  | nil => exact hstart
  | cons d cs ih =>
    refine ih ?_ fun c hc => hcs c (List.mem_cons_of_mem d hc)
    intro c hc
    dsimp only at hc
    split at hc
    · exact hstart c ((List.dropLast_subset start) hc)
    · rename_i hd
      rcases List.mem_append.mp hc with hc | hc
      · exact hstart c hc
      · cases List.mem_singleton.mp hc
        exact ⟨hcs d List.mem_cons_self, hd⟩

theorem follow_names {cs : List Text} (h : ∀ c ∈ cs, IsName c) (start : Location) : follow start cs = start ++ cs := by
  induction cs generalizing start with
  | nil => exact (List.append_nil start).symm
  | cons c cs ih =>
    rw [follow, List.foldl_cons, if_neg (h c List.mem_cons_self).2, ← follow,
      ih fun d hd => h d (List.mem_cons_of_mem c hd), List.append_assoc, List.singleton_append]

theorem isName_of_mem_absolute (directory p : Text) : ∀ c ∈ (absolute directory p).location, IsName c :=
  isName_of_mem_follow nofun fun _ hc => isComponent_of_mem hc

theorem components_text {p : AbsolutePath} (h : ∀ c ∈ p.location, IsName c) : components p.text = p.location := by
  have hlocation : components p.location.text = p.location :=
    (components_slash _).trans (components_joinWith fun c hc => (h c hc).1)
  unfold AbsolutePath.text
  split
  · exact (components_slash _).trans hlocation
  · exact hlocation

theorem isAbsolute_text (p : AbsolutePath) : isAbsolute p.text = true := by
  unfold AbsolutePath.text
  split <;> rfl

theorem hasTwoSlashes_text {p : AbsolutePath} (h : ∀ c ∈ p.location, IsName c) :
    hasTwoSlashes p.text = p.hasTwoSlashes := by
  -- Behind its own slashes the text goes on with a name.
  have hnames : (Text.joinWith ['/'] p.location).head? ≠ some '/' :=
    of_decide_eq_false (isAbsolute_joinWith fun c hc => (h c hc).1)
  unfold AbsolutePath.text Location.text hasTwoSlashes
  cases p.hasTwoSlashes with
  | true => simpa using hnames
  | false =>
    cases hj : Text.joinWith ['/'] p.location with
    | nil => rfl
    | cons c rest =>
      rw [hj] at hnames
      have hc : c ≠ '/' := fun he => hnames (by rw [he]; rfl)
      simp [hc]

theorem absolute_text {p : AbsolutePath} (h : ∀ c ∈ p.location, IsName c) (directory : Text) :
    absolute directory p.text = p := by
  rw [absolute, within, if_pos (.inl (isAbsolute_text p)), components_text h, follow_names h, hasTwoSlashes_text h]
  rfl

theorem absolute_text_absolute (directory other p : Text) :
    absolute other (absolute directory p).text = absolute directory p :=
  absolute_text (isName_of_mem_absolute directory p) other

/-- Resolving an absolute form gives the text of its location. -/
theorem text_resolve_absolute (directory other p : Text) :
    (resolve other (absolute directory p).text).text = (absolute directory p).location.text := by
  have hresolved : resolve other (absolute directory p).text = { absolute directory p with hasTwoSlashes := false } := by
    rw [resolve, absolute_text_absolute]
    exact if_pos (isAbsolute_text _)
  rw [hresolved, AbsolutePath.text, if_neg Bool.false_ne_true]

theorem location_text_eq_iff (directory p : Text) :
    (absolute directory p).location.text = (absolute directory p).text ↔ hasTwoSlashes (within directory p) = false := by
  have hslashes : (absolute directory p).hasTwoSlashes = hasTwoSlashes (within directory p) := rfl
  rw [AbsolutePath.text, hslashes]
  cases hasTwoSlashes (within directory p) with
  | true => exact iff_of_false (fun h => List.cons_ne_self '/' _ h.symm) nofun
  | false => exact iff_of_true rfl rfl

end DisasmLens.Path
