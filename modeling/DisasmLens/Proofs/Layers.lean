import DisasmLens.Json.Basic
import Mathlib.Data.List.Induction

/-!
# Fields laid over others

What `Fields.layer` gives is told by its names and the value of each of them (`Fields.names_layer`,
`Fields.get?_layer`), since a list of fields without repeated names is (`Fields.eq_of_names_eq`). So it can be written
down without going through the members one by one (`Fields.layer_eq_layered`).
-/

namespace DisasmLens.Fields

def last? (name : List Rune) (members : Fields) : Option Json := get? name members.reverse

/-- The base with the last value that members give to each of its names, and behind it the other names of the members
in the order in which they first appear. -/
def layered (base members : Fields) : Fields :=
  base.map (fun f => (f.1, (last? f.1 members).getD f.2)) ++
    (members.names.eraseDups.filter (· ∉ base.names)).filterMap fun n => (last? n members).map (n, ·)

/-! ### Names and values -/

theorem names_append (fs gs : Fields) : (fs ++ gs).names = fs.names ++ gs.names := List.map_append

theorem get?_eq_none_iff {name : List Rune} {fs : Fields} : fs.get? name = none ↔ name ∉ fs.names := by
  induction fs with
  | nil => simp [get?, names]
  | cons f fs ih =>
    rw [get?, names, List.map_cons, List.mem_cons, not_or, ← names, ← ih]
    by_cases h : f.1 = name
    · simp [h]
    · simp [h, Ne.symm h]

theorem get?_append (name : List Rune) (fs gs : Fields) :
    (fs ++ gs).get? name = (fs.get? name).or (gs.get? name) := by
  induction fs with
  | nil => rfl
  | cons f fs ih =>
    rw [List.cons_append, get?, get?, ih]
    split <;> rfl

/-- Fields without repeated names are told by their names and the value of each. -/
theorem eq_of_names_eq {fs gs : Fields} (hn : fs.names.Nodup) (he : fs.names = gs.names)
    (hg : ∀ name, fs.get? name = gs.get? name) : fs = gs := by
  induction fs generalizing gs with
  | nil => exact (List.map_eq_nil_iff.mp he.symm).symm
  | cons f fs ih =>
    cases gs with
    | nil => cases he
    | cons g gs =>
      obtain ⟨n, v⟩ := f
      obtain ⟨m, w⟩ := g
      obtain ⟨rfl, hrest⟩ := List.cons.inj he
      have hrest : Fields.names fs = Fields.names gs := hrest
      obtain ⟨hnot, hnodup⟩ := List.nodup_cons.mp hn
      have hvalue := hg n
      simp only [get?, if_true, Option.some.injEq] at hvalue
      have hothers : ∀ name, Fields.get? name fs = Fields.get? name gs := by
        intro name
        by_cases h : n = name
        · have hleft : name ∉ Fields.names fs := h ▸ hnot
          have hright : name ∉ Fields.names gs := fun hm => hleft (hrest.symm ▸ hm)
          rw [get?_eq_none_iff.mpr hleft, get?_eq_none_iff.mpr hright]
        · have hname := hg name
          simp only [get?, if_neg h] at hname
          exact hname
      rw [hvalue, ih hnodup hrest hothers]

theorem nodup_insert {fs : Fields} (h : fs.names.Nodup) (name : List Rune) (value : Json) :
    (fs.insert name value).names.Nodup := by
  rw [names_insert]
  split
  · exact h
  · rename_i hnot
    refine List.nodup_append.mpr ⟨h, List.nodup_cons.mpr ⟨List.not_mem_nil, List.nodup_nil⟩, fun a ha b hb => ?_⟩
    rw [List.mem_singleton.mp hb]
    exact fun he => hnot (he ▸ ha)

/-! ### Layers -/

theorem layer_concat (base members : Fields) (name : List Rune) (value : Json) :
    layer base (members ++ [(name, value)]) = (layer base members).insert name value := by
  rw [layer, List.foldl_append]
  rfl

theorem last?_concat (name n : List Rune) (value : Json) (members : Fields) :
    last? name (members ++ [(n, value)]) = if n = name then some value else last? name members := by
  rw [last?, List.reverse_append]
  rfl

theorem nodup_layer {base : Fields} (h : base.names.Nodup) (members : Fields) : (layer base members).names.Nodup := by
  induction members using List.reverseRecOn with
  | nil => exact h
  | append_singleton members f ih =>
    rw [layer_concat]
    exact nodup_insert ih f.1 f.2

theorem get?_insert (name n : List Rune) (value : Json) (fs : Fields) :
    (fs.insert n value).get? name = if n = name then some value else fs.get? name := by
  split
  · rename_i h
    rw [h, get?_insert_self]
  · rename_i h
    exact get?_insert_of_ne h value fs

theorem get?_layer (name : List Rune) (base members : Fields) :
    (layer base members).get? name = (last? name members).or (base.get? name) := by
  induction members using List.reverseRecOn with
  | nil => rfl
  | append_singleton members f ih =>
    rw [layer_concat, get?_insert, last?_concat, ih]
    split <;> rfl

theorem names_layer (base members : Fields) :
    (layer base members).names = base.names ++ members.names.eraseDups.filter (· ∉ base.names) := by
  -- The last member brings a new name if neither the base nor a member before it has that name.
  induction members using List.reverseRecOn with
  | nil => exact (List.append_nil _).symm
  | append_singleton members f ih =>
    have hnew : names (members ++ [f]) = names members ++ [f.1] := names_append members [f]
    rw [layer_concat, names_insert, ih, hnew, List.eraseDups_append, List.filter_append, ← List.append_assoc]
    by_cases hm : f.1 ∈ names members
    · have hold : [f.1].removeAll (names members) = [] := by simp [List.removeAll, hm]
      have hthere : f.1 ∈ base.names ++ (names members).eraseDups.filter (· ∉ base.names) := by
        by_cases hb : f.1 ∈ base.names
        · exact List.mem_append_left _ hb
        · exact List.mem_append_right _ (List.mem_filter.mpr ⟨List.mem_eraseDups.mpr hm, decide_eq_true hb⟩)
      rw [if_pos hthere, hold]
      exact (List.append_nil _).symm
    · have hnone : [f.1].removeAll (names members) = [f.1] := by simp [List.removeAll, hm]
      have hsingle : [f.1].eraseDups = [f.1] := rfl
      rw [hnone, hsingle]
      by_cases hb : f.1 ∈ base.names
      · rw [if_pos (List.mem_append_left _ hb)]
        simp [hb]
      · have hnot : f.1 ∉ base.names ++ (names members).eraseDups.filter (· ∉ base.names) := by
          rw [List.mem_append, List.mem_filter, List.mem_eraseDups]
          exact not_or.mpr ⟨hb, fun h => hm h.1⟩
        rw [if_neg hnot]
        simp [hb]

theorem last?_eq_none_iff {name : List Rune} {members : Fields} :
    last? name members = none ↔ name ∉ members.names := by
  have hnames : names members.reverse = members.names.reverse := List.map_reverse
  rw [last?, get?_eq_none_iff, hnames, List.mem_reverse]

/-! ### Layers written down -/

theorem names_filterMap {names : List (List Rune)} {value : List Rune → Option Json}
    (h : ∀ n ∈ names, value n ≠ none) : Fields.names (names.filterMap fun n => (value n).map (n, ·)) = names := by
  induction names with
  | nil => rfl
  | cons n names ih =>
    rw [List.forall_mem_cons] at h
    obtain ⟨v, hv⟩ := Option.ne_none_iff_exists'.mp h.1
    have htail := ih h.2
    rw [List.filterMap_cons, hv]
    exact congrArg (n :: ·) htail

theorem get?_filterMap (name : List Rune) (names : List (List Rune)) (value : List Rune → Option Json) :
    get? name (names.filterMap fun n => (value n).map (n, ·)) = if name ∈ names then value name else none := by
  induction names with
  | nil => rfl
  | cons n names ih =>
    by_cases hn : n = name
    · subst hn
      rw [List.filterMap_cons, if_pos List.mem_cons_self]
      cases hv : value n with
      | none =>
        rw [hv, ite_self] at ih
        exact ih
      | some v => exact if_pos rfl
    · have hmem : name ∈ n :: names ↔ name ∈ names := by rw [List.mem_cons, or_iff_right (Ne.symm hn)]
      rw [List.filterMap_cons]
      simp only [hmem, ← ih]
      cases value n with
      | none => rfl
      | some v => exact if_neg hn

theorem get?_map_getD (name : List Rune) (fs : Fields) (value : List Rune → Option Json) :
    get? name (fs.map fun f => (f.1, (value f.1).getD f.2)) = (fs.get? name).map (value name).getD := by
  induction fs with
  | nil => rfl
  | cons f fs ih =>
    rw [List.map_cons, get?, get?, ih]
    by_cases h : f.1 = name
    · rw [if_pos h, if_pos h, h]
      rfl
    · rw [if_neg h, if_neg h]

theorem names_layered (base members : Fields) : (layered base members).names = (layer base members).names := by
  have hbase : names (base.map fun f => (f.1, (last? f.1 members).getD f.2)) = base.names := by
    rw [names, List.map_map]
    rfl
  rw [layered, names_append, hbase, names_layer, names_filterMap]
  intro n hn
  have hmem := List.mem_eraseDups.mp (List.mem_filter.mp hn).1
  exact fun hnone => last?_eq_none_iff.mp hnone hmem

theorem get?_layered (name : List Rune) (base members : Fields) :
    (layered base members).get? name = (layer base members).get? name := by
  rw [layered, get?_append, get?_map_getD name base (last? · members), get?_filterMap, get?_layer]
  cases hb : base.get? name with
  | some v => cases last? name members <;> rfl
  | none =>
    have hnot := get?_eq_none_iff.mp hb
    have hmem : name ∈ (names members).eraseDups.filter (· ∉ base.names) ↔ name ∈ names members := by
      rw [List.mem_filter, List.mem_eraseDups, and_iff_left (decide_eq_true hnot)]
    simp only [hmem, Option.map_none, Option.none_or, Option.or_none]
    split
    · rfl
    · rename_i hno
      exact (last?_eq_none_iff.mpr hno).symm

/-- Writing members to a base one after the other puts the last value at the first place of each name. -/
theorem layer_eq_layered {base : Fields} (h : base.names.Nodup) (members : Fields) :
    layer base members = layered base members :=
  eq_of_names_eq (nodup_layer h members) (names_layered base members).symm
    fun name => (get?_layered name base members).symm

/-! ### Layers of layers -/

theorem last?_of_nodup {fs : Fields} (h : fs.names.Nodup) (name : List Rune) : last? name fs = fs.get? name := by
  induction fs with
  | nil => rfl
  | cons f fs ih =>
    obtain ⟨hnot, hnodup⟩ := List.nodup_cons.mp h
    have hrest : last? name fs = get? name fs := ih hnodup
    rw [last?, List.reverse_cons, get?_append, ← last?, hrest]
    by_cases hf : f.1 = name
    · have hnone : get? name fs = none := get?_eq_none_iff.mpr (hf ▸ hnot)
      simp only [get?, hnone, hf, if_true, Option.none_or]
    · simp only [get?, hf, if_false, Option.or_none]

theorem eraseDups_of_nodup {names : List (List Rune)} (h : names.Nodup) : names.eraseDups = names := by
  induction names with
  | nil => rfl
  | cons n names ih =>
    obtain ⟨hnot, hnodup⟩ := List.nodup_cons.mp h
    have hkept : names.filter (fun m => !m == n) = names := by
      refine List.filter_eq_self.mpr fun m hm => ?_
      rw [Bool.not_eq_true', beq_eq_false_iff_ne]
      exact fun he => hnot (he ▸ hm)
    rw [List.eraseDups_cons, hkept, ih hnodup]

theorem layer_layer_nil {base : Fields} (h : base.names.Nodup) (members : Fields) :
    layer base (layer [] members) = layer base members := by
  have hnil : (names []).Nodup := List.nodup_nil
  have hinner := nodup_layer hnil members
  have hnames : (layer [] members).names = members.names.eraseDups := by
    rw [names_layer]
    exact List.filter_eq_self.mpr fun n _ => decide_eq_true List.not_mem_nil
  refine eq_of_names_eq (nodup_layer h _) ?_ fun name => ?_
  · rw [names_layer base, names_layer base, eraseDups_of_nodup hinner, hnames]
  · rw [get?_layer, get?_layer, last?_of_nodup hinner, get?_layer, get?, Option.or_none]

/-- Nothing changes when fields are laid over a base whose names they start with. -/
theorem layer_eq_self {base fs : Fields} (h : fs.names.Nodup) (hb : base.names <+: fs.names) :
    layer base fs = fs := by
  obtain ⟨rest, hrest⟩ := hb
  have hnodup := h
  rw [← hrest] at hnodup
  obtain ⟨hbase, -, hapart⟩ := List.nodup_append.mp hnodup
  refine eq_of_names_eq (nodup_layer hbase fs) ?_ fun name => ?_
  · have hgone : base.names.filter (· ∉ base.names) = [] :=
      List.filter_eq_nil_iff.mpr fun n hn => by simp [hn]
    have hkept : rest.filter (· ∉ base.names) = rest :=
      List.filter_eq_self.mpr fun n hn => decide_eq_true fun hm => hapart n hm n hn rfl
    rw [names_layer, eraseDups_of_nodup h, ← hrest, List.filter_append, hgone, hkept, List.nil_append]
  · rw [get?_layer, last?_of_nodup h]
    cases hf : fs.get? name with
    | some v => rfl
    | none =>
      have hnot := get?_eq_none_iff.mp hf
      rw [← hrest, List.mem_append, not_or] at hnot
      exact get?_eq_none_iff.mpr hnot.1

end DisasmLens.Fields
