import DisasmLens.Proofs.JsonRoundTrip
import DisasmLens.Proofs.Locations
import DisasmLens.Proofs.SettingsFile

/-!
# Preferences that are saved and loaded

However preferences were loaded and changed, what is saved of them is what the next one to load them gets
(`Settings.load_of_change`). The file is laid over the defaults then, and that changes nothing because the names of the
defaults always come first (`Settings.Layered`).
-/

namespace DisasmLens

theorem keeps_writeFile (path content : Text) : Attempt.Keeps (writeFile path content) := by
  intro h
  unfold writeFile
  rw [Attempt.run_bind_of_eq_ok (Attempt.run_get h)]
  split <;> rfl

theorem eq_withEntry_of_writeFile {path content : Text} {h h' : Host}
    (hw : (writeFile path content).run.run h = (.ok (), h')) :
    h' = h.withEntry path (.file (Utf8.encode content)) := by
  unfold writeFile at hw
  rw [Attempt.run_bind_of_eq_ok (Attempt.run_get h)] at hw
  split at hw
  · cases hw
  · cases hw
  · cases hw
    rfl

namespace Settings

/-! ### Names -/

/-- The names of the defaults come first, and no name is repeated. -/
structure Layered (s : Settings) : Prop where
  nodup : s.fields.names.Nodup
  defaults_first : defaults.fields.names <+: s.fields.names

theorem layered_defaults : Layered defaults := ⟨nodup_defaults, List.prefix_refl _⟩

theorem Layered.insert {s : Settings} (hs : s.Layered) (name : List Rune) (value : Json) :
    (s.insert name value).Layered := by
  refine ⟨Fields.nodup_insert hs.nodup name value, ?_⟩
  have hnames := Fields.names_insert name value s.fields
  rw [Settings.insert, hnames]
  split
  · exact hs.defaults_first
  · exact hs.defaults_first.trans (List.prefix_append _ _)

theorem layered_layer (fs : Fields) : Layered ⟨Fields.layer defaults.fields fs⟩ := by
  refine ⟨Fields.nodup_layer nodup_defaults fs, ?_⟩
  show defaults.fields.names <+: (Fields.layer defaults.fields fs).names
  rw [Fields.names_layer]
  exact List.prefix_append _ _

theorem layered_of_ofEntry {room : Nat} {e : Option Entry} {s : Settings} (h : ofEntry room e = .ok s) : s.Layered := by
  rw [ofEntry_eq] at h
  split at h
  · cases h
  · cases h
    rw [← Fields.layer_eq_layered nodup_defaults]
    exact layered_layer _
  · cases h
    exact layered_defaults

theorem Layered.appendFlag {s s' : Settings} {value : Json} (hs : s.Layered) (ha : s.appendFlag value = .ok s') :
    s'.Layered := by
  unfold Settings.appendFlag at ha
  split at ha
  · cases ha
    exact hs.insert _ _
  · cases ha

/-! ### Loading and changing -/

theorem keeps_load : Attempt.Keeps load := leaves_load Host.hidesFiles_setting Host.hidesLogs_setting

theorem exists_of_load {s : Settings} {h h' : Host} (hl : load.run.run h = (.ok s, h')) :
    h.hasHome = true ∧ ∃ room e, ofEntry room e = .ok s := by
  have hloaded := hl
  obtain ⟨_, _, hget, hl⟩ := Attempt.run_bind_eq_ok hl
  cases hget
  dsimp only at hl
  split at hl
  · cases hl
  · rename_i hhome
    have hhome : h.hasHome = true := by simpa using hhome
    obtain ⟨_, made, hmade, -⟩ := Attempt.run_bind_eq_ok hl
    have hentry := fst_load hhome hmade
    rw [hloaded] at hentry
    exact ⟨hhome, _, _, hentry.symm⟩

theorem keeps_save (s : Settings) : Attempt.Keeps s.save :=
  .bind .get fun _ => .bind (leaves_makeDirectory Host.hidesFiles_setting _) fun _ => keeps_writeFile _ _

theorem hasHome_setting (h : Host) : h.setting.hasHome = h.hasHome := rfl

theorem directory_setting (h : Host) : directory h.setting = directory h := rfl

theorem path_setting (h : Host) : path h.setting = path h := rfl

theorem maxDepth_setting (h : Host) : h.setting.maxDepth = h.maxDepth := rfl

theorem run_change (s : Settings) (name : List Rune) (value : Json) (h : Host) :
    (s.change name value).run h =
      ((s.insert name value, ((s.insert name value).save.run.run h).1), ((s.insert name value).save.run.run h).2) := rfl

/-- Preferences that were loaded and changed on a host, whatever else happened to its files while its user stays at
home. What fails leaves the preferences as they are, but for a change that cannot be saved. -/
inductive Reachable : Settings → Host → Prop
  | load {s : Settings} {h h' : Host} (hl : load.run.run h = (.ok s, h')) : Reachable s h'
  | change {s : Settings} {h : Host} (name : List Rune) (value : Json) (hr : Reachable s h) :
      Reachable ((s.change name value).run h).1.1 ((s.change name value).run h).2
  | appendFlag {s s' : Settings} {h : Host} {value : Json} (ha : s.appendFlag value = .ok s') (hr : Reachable s h) :
      Reachable s' h
  | host {s : Settings} {h h' : Host} (hh : h'.home = h.home) (hr : Reachable s h) : Reachable s h'

theorem Reachable.layered {s : Settings} {h : Host} (hr : Reachable s h) : s.Layered := by
  induction hr with
  | load hl =>
    obtain ⟨-, room, e, he⟩ := exists_of_load hl
    exact layered_of_ofEntry he
  | change name value _ ih => exact ih.insert name value
  | appendFlag ha _ ih => exact ih.appendFlag ha
  | host _ _ ih => exact ih

theorem Reachable.hasHome {s : Settings} {h : Host} (hr : Reachable s h) : h.hasHome = true := by
  induction hr with
  | @load s h h' hl =>
    have hkept := keeps_load.view_eq hl
    rw [← hasHome_setting, hkept, hasHome_setting]
    exact (exists_of_load hl).1
  | @change s h name value _ ih =>
    cases hsave : (s.insert name value).save.run.run h with
    | mk saved h' =>
      have hkept := (keeps_save (s.insert name value)).view_eq hsave
      rw [run_change, hsave, ← hasHome_setting, hkept, hasHome_setting]
      exact ih
  | appendFlag _ _ ih => exact ih
  | host hh _ ih => rwa [Host.hasHome, Host.homeDirectory, hh]

/-! ### Saving and loading -/

theorem locate_path (h made : Host) :
    made.locate (path h) = made.locate (directory h) ++ ["config.json".toList] := by
  have hname : Path.IsComponent "config.json".toList := by
    unfold Path.IsComponent
    decide
  exact Path.location_resolve_join hname (by decide) made.directory (directory h)

theorem entry?_of_save {s : Settings} {h h' : Host} (hs : s.save.run.run h = (.ok (), h')) :
    h'.entry? (directory h) = some .directory ∧
      h'.entry? (path h) = some (.file (Utf8.encode (Json.indented (.object s.fields)))) := by
  obtain ⟨_, _, hget, hs⟩ := Attempt.run_bind_eq_ok hs
  cases hget
  obtain ⟨_, made, hmade, hwrite⟩ := Attempt.run_bind_eq_ok hs
  have hthere := entry?_of_makeDirectory hmade
  -- The file is deeper than its directory, so that writing it leaves the directory.
  have hapart : made.locate (path h) ≠ made.locate (directory h) := by
    rw [locate_path]
    intro he
    have hlength := congrArg List.length he
    rw [List.length_append] at hlength
    exact absurd hlength (Nat.succ_ne_self _)
  rw [eq_withEntry_of_writeFile hwrite]
  exact ⟨Files.get?_insert_of_ne hapart hthere _, Files.get?_insert_self _ _ _⟩

/-- The names of the preferences are texts, and inside their object the reader has room for each of the values. -/
structure IsPlain (room : Nat) (s : Settings) : Prop where
  room_pos : 0 < room
  names : ∀ n ∈ s.fields.names, ∃ t, n = Text.runes t
  values : ∀ f ∈ s.fields, Json.Plain (room - 1) f.2

theorem IsPlain.plain_object {room : Nat} {s : Settings} (hs : s.Layered) (hp : s.IsPlain room) :
    Json.Plain room (.object s.fields) := by
  have hobject := Json.Plain.object hs.nodup hp.names hp.values
  rwa [Nat.sub_add_cancel hp.room_pos] at hobject

theorem ofEntry_saved {room : Nat} {s : Settings} (hs : s.Layered) (hp : s.IsPlain room) :
    ofEntry room (some (.file (Utf8.encode (Json.indented (.object s.fields))))) = .ok s := by
  have hplain := hp.plain_object hs
  have hsame := Fields.layer_eq_self hs.nodup hs.defaults_first
  rw [ofEntry_file (Utf8.decode_encode _) room, Json.normalizeNewlines_indented hplain, ofContent,
    Json.parse_indented hplain]
  dsimp only
  rw [hsame]

/-- Preferences that were saved with a change are loaded as they are. -/
theorem load_of_change {s : Settings} {h : Host} (hr : Reachable s h) {name : List Rune} {value : Json}
    (hp : (s.insert name value).IsPlain h.maxDepth) (hs : ((s.change name value).run h).1.2 = .ok ()) :
    (load.run.run ((s.change name value).run h).2).1 = .ok ((s.change name value).run h).1.1 := by
  rw [run_change] at hs ⊢
  cases hsave : (s.insert name value).save.run.run h with
  | mk saved h' =>
    rw [hsave] at hs
    dsimp only at hs ⊢
    subst hs
    have hkept := (keeps_save (s.insert name value)).view_eq hsave
    have hhome : h'.hasHome = true := by rw [← hasHome_setting, hkept, hasHome_setting, hr.hasHome]
    have hroom : h'.maxDepth = h.maxDepth := by rw [← maxDepth_setting, hkept, maxDepth_setting]
    have hdirectory : directory h' = directory h := by rw [← directory_setting, hkept, directory_setting]
    have hpath : path h' = path h := by rw [← path_setting, hkept, path_setting]
    obtain ⟨hthere, hfile⟩ := entry?_of_save hsave
    have hmade := run_makeDirectory_of_entry hthere
    rw [← hdirectory] at hmade
    rw [fst_load hhome hmade, hpath, hfile, hroom, ofEntry_saved (hr.layered.insert name value) hp]

def themeName : List Rune := Text.runes "theme".toList

def theme : Json :=
  .object [(Text.runes "😀".toList, .array [.int (-12), .null, .ofText "a\r\n\"\\é".toList]), ([], .object [])]

theorem plain_theme (room : Nat) : Json.Plain (room + 2) theme := by
  have hitems : ∀ v ∈ [.int (-12), .null, .ofText "a\r\n\"\\é".toList], Json.Plain room v := by
    simp only [List.forall_mem_cons]
    exact ⟨.int (by decide), .null, .string _, List.forall_mem_nil _⟩
  refine .object (by decide) ?_ ?_
  · simp only [Fields.names, List.map_cons, List.map_nil, List.forall_mem_cons]
    exact ⟨⟨_, rfl⟩, ⟨[], rfl⟩, List.forall_mem_nil _⟩
  · simp only [List.forall_mem_cons]
    exact ⟨.array hitems, .object List.nodup_nil (List.forall_mem_nil _) (List.forall_mem_nil _), List.forall_mem_nil _⟩

theorem load_of_change_theme :
    ∃ h, Reachable defaults h ∧ (defaults.insert themeName theme).IsPlain h.maxDepth ∧
      ((defaults.change themeName theme).run h).1.2 = .ok () ∧
      (load.run.run ((defaults.change themeName theme).run h).2).1 =
        .ok ((defaults.change themeName theme).run h).1.1 := by
  have hl : load.run.run bareHost = (.ok defaults, (load.run.run bareHost).2) := rfl
  have hr : Reachable defaults (load.run.run bareHost).2 := .load hl
  have hs : ((defaults.change themeName theme).run (load.run.run bareHost).2).1.2 = .ok () := rfl
  have hp : (defaults.insert themeName theme).IsPlain 985 := by
    have hfields : (defaults.insert themeName theme).fields = defaults.fields ++ [(themeName, theme)] := rfl
    refine ⟨by decide, ?_, ?_⟩
    · rw [hfields]
      simp only [defaults, Fields.names, List.map_cons, List.map_nil, List.cons_append, List.nil_append,
        List.forall_mem_cons]
      exact ⟨⟨_, rfl⟩, ⟨_, rfl⟩, ⟨_, rfl⟩, ⟨_, rfl⟩, ⟨_, rfl⟩, List.forall_mem_nil _⟩
    · rw [hfields]
      simp only [defaults, List.cons_append, List.nil_append, List.forall_mem_cons]
      exact ⟨.string _, .string _, .bool _, .array (List.forall_mem_nil _), plain_theme 982, List.forall_mem_nil _⟩
  exact ⟨_, hr, hp, hs, load_of_change hr hp hs⟩

end Settings

end DisasmLens
