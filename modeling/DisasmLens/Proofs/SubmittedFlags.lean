import DisasmLens.Proofs.ShownBuild
import DisasmLens.Proofs.WordsRoundTrip

/-!
# Submitted arguments

A line that is accepted is posted, and some time later its words come to the session. More may happen in between: the
editor may be opened again and other lines submitted, and the session may build for other reasons. The words come to the
session in the order of their lines, and each of them brings about one build (`Posting.flags_of_reached`).
-/

namespace DisasmLens

theorem FlagsEditor.complaintText_eq_nil_iff {e : FlagsEditor} : e.complaintText = [] ↔ e.complaint = none := by
  rw [complaintText]
  cases e.complaint with
  | none => exact iff_of_true rfl rfl
  | some d => exact iff_of_false (fun h => nomatch h) (fun h => nomatch h)

def FlagsEditor.ComplainsOpenly (e : FlagsEditor) : Prop := e.complaintText ≠ [] → e.isOpen = true

theorem FlagsEditor.complainsOpenly_edit (e : FlagsEditor) (flags : List Text) : (e.edit flags).ComplainsOpenly :=
  fun _ => rfl

theorem FlagsEditor.complainsOpenly_close (e : FlagsEditor) : e.close.ComplainsOpenly :=
  fun h => absurd (complaintText_eq_nil_iff.mpr rfl) h

theorem FlagsEditor.complainsOpenly_submit {e : FlagsEditor} (h : e.isOpen = true) (line : Text) :
    (e.submit line).1.ComplainsOpenly := by
  cases hl : ShellWords.split line with
  | error d =>
    rw [submit_of_split_error hl]
    exact fun _ => h
  | ok flags =>
    rw [submit_of_split_ok hl]
    exact complainsOpenly_close _

namespace Screen

variable {render : Renderer}

structure Posting where
  screen : Screen
  posted : List (List Text) := []

/-- What can happen: an event of the screen, or the delivery of the oldest words. -/
inductive Move where
  | event (event : Event)
  | deliver

def Move.accepted? : Move → Option (List Text)
  | .event (.submit line) => (ShellWords.split line).toOption
  | .event _ | .deliver => none

def Move.isDelivery : Move → Bool
  | .deliver => true
  | .event _ => false

/-- The move may make the session build, though no line was submitted. -/
def Move.isOther : Move → Bool
  | .event .rebuild | .event (.file _) => true
  | .event _ | .deliver => false

namespace Posting

def submit (p : Posting) (line : Text) : Posting where
  screen := { p.screen with editor := (p.screen.editor.submit line).1 }
  posted := p.posted ++ (p.screen.editor.submit line).2.toList

def deliver (p : Posting) : Action Posting :=
  match p.posted with
  | [] => return p
  | flags :: posted =>
    return { screen := { p.screen with session := ← p.screen.session.setFlags flags }, posted }

def take (render : Renderer) (p : Posting) : Move → Attempt Posting
  | .event (.submit line) => return p.submit line
  | .event event => return { p with screen := ← p.screen.handle render event }
  | .deliver => return ← p.deliver

/-- A line is submitted, and the editor left, only while it is open, and what is delivered has been posted. -/
def Allows (p : Posting) : Move → Prop
  | .event (.submit _) | .event .leave => p.screen.editor.isOpen = true
  | .deliver => p.posted ≠ []
  | .event _ => True

/-- What can be come to from a screen that is opened with arguments, with the moves, the latest first. Between two moves
anything may happen to the host. -/
inductive Reached (render : Renderer) (flags : List Text) : List Move → Posting → Host → Prop
  | mount {source : Text} {session : Session} {s : Screen} {h made before after : Host}
      (hl : (Session.load source).run.run h = (.ok session, made))
      (hm : (mount render { session with flags }).run.run before = (.ok s, after)) :
      Reached render flags [] ⟨s, []⟩ after
  | move {moves : List Move} {p next : Posting} {h after : Host} (move : Move) (hr : Reached render flags moves p h)
      (ha : p.Allows move) (ht : (p.take render move).run.run h = (.ok next, after)) :
      Reached render flags (move :: moves) next after
  | host {moves : List Move} {p : Posting} {h : Host} (h' : Host) (hr : Reached render flags moves p h) :
      Reached render flags moves p h'

/-! ### One move -/

theorem submit_of_error {line : Text} {d : ShellWords.Defect} (hl : ShellWords.split line = .error d) (p : Posting) :
    p.submit line =
      { p with screen := { p.screen with editor := { p.screen.editor with field := line, complaint := some d } } } := by
  rw [submit, FlagsEditor.submit_of_split_error hl]
  exact congrArg _ (List.append_nil p.posted)

theorem submit_of_ok {line : Text} {flags : List Text} (hl : ShellWords.split line = .ok flags) (p : Posting) :
    p.submit line =
      { screen := { p.screen with editor := ⟨false, line, none⟩ }, posted := p.posted ++ [flags] } := by
  rw [submit, FlagsEditor.submit_of_split_ok hl]
  rfl

theorem run_deliver {p : Posting} {flags : List Text} {rest : List (List Text)} (hp : p.posted = flags :: rest)
    (h : Host) :
    p.deliver.run h =
      ({ screen := { p.screen with session := ((p.screen.session.setFlags flags).run h).1 }, posted := rest },
        ((p.screen.session.setFlags flags).run h).2) := by
  rw [deliver, hp]
  rfl

theorem exists_handle_of_take {p next : Posting} {event : Event} {h after : Host}
    (ht : (p.take render (.event event)).run.run h = (.ok next, after)) (hne : ∀ line, event ≠ .submit line) :
    ∃ s, (p.screen.handle render event).run.run h = (.ok s, after) ∧ next = { p with screen := s } := by
  have hrun : (do return { p with screen := ← p.screen.handle render event } : Attempt Posting).run.run h =
      (.ok next, after) := by
    cases event with
    | submit line => exact absurd rfl (hne line)
    | _ => exact ht
  obtain ⟨s, h₁, hs, hnext⟩ := Attempt.run_bind_eq_ok hrun
  cases hnext
  exact ⟨s, hs, rfl⟩

/-- Where nothing waits, a line is taken in by posting its words and delivering them at once. -/
theorem run_deliver_submit (s : Screen) (line : Text) (h : Host) :
    ((mk s []).submit line).deliver.run h = (mk ((s.submit line).run h).1 [], ((s.submit line).run h).2) := by
  cases hl : ShellWords.split line with
  | error d =>
    unfold Screen.submit
    rw [submit_of_error hl, FlagsEditor.submit_of_split_error hl]
    rfl
  | ok flags =>
    rw [submit_of_ok hl, run_deliver (List.nil_append _), run_submit_of_words hl]
    rfl

/-! ### Other events -/

theorem editor_presentBuild (s : Screen) (b : Build) : (s.presentBuild b).editor = s.editor := by
  unfold presentBuild
  split <;> rfl

theorem session_presentBuild (s : Screen) (b : Build) : (s.presentBuild b).session = s.session := by
  unfold presentBuild
  split <;> rfl

/-- What a change of the session that is not asked for here leaves as it was. -/
structure KeepsFlags (s next : Session) : Prop where
  flags : next.flags = s.flags
  isSubscribed : next.isSubscribed = s.isSubscribed

theorem keepsFlags_refresh (s : Session) (h : Host) : KeepsFlags s (s.refresh.run h).1 :=
  ⟨Session.flags_refresh s h, Session.isSubscribed_refresh s h⟩

theorem keepsFlags_deliver (s : Session) (event : FileEvent) (h : Host) :
    KeepsFlags s ((s.deliver event).run h).1 := by
  rw [Session.run_deliver]
  split
  · rename_i watcher path h₁ hd
    obtain ⟨hflags, hsub⟩ := keepsFlags_refresh { s with watcher } h₁
    exact ⟨hflags, hsub⟩
  · exact ⟨rfl, rfl⟩

theorem keepsFlags_handle {s next : Screen} {event : Event} {h after : Host}
    (hh : (s.handle render event).run.run h = (.ok next, after)) (hne : ∀ line, event ≠ .submit line) :
    KeepsFlags s.session next.session ∧
      ((Move.event event).isOther = false → next.session.published = s.session.published) ∧
      (s.editor.ComplainsOpenly → next.editor.ComplainsOpenly) := by
  cases event with
  | rebuild =>
    change (s.rebuild render).run.run h = _ at hh
    rw [run_rebuild] at hh
    split at hh
    · cases hh
    · cases hh
      exact ⟨keepsFlags_refresh s.session h, fun h => (nomatch h), id⟩
  | edit =>
    cases hh
    exact ⟨⟨rfl, rfl⟩, fun _ => rfl, fun _ => s.editor.complainsOpenly_edit s.session.flags⟩
  | submit line => exact absurd rfl (hne line)
  | leave =>
    cases hh
    exact ⟨⟨rfl, rfl⟩, fun _ => rfl, fun _ => s.editor.complainsOpenly_close⟩
  | file event =>
    cases hh
    exact ⟨keepsFlags_deliver s.session event h, fun h => (nomatch h), id⟩
  | message =>
    change (if s.pending = 0 then return s else Attempt.ofExcept (s.present render) : Attempt Screen).run.run h = _ at hh
    by_cases hp : s.pending = 0
    · rw [if_pos hp] at hh
      cases hh
      exact ⟨⟨rfl, rfl⟩, fun _ => rfl, id⟩
    · rw [if_neg hp, Attempt.run_ofExcept, present_eq] at hh
      have hsession := session_presentBuild s s.session.build
      have heditor := editor_presentBuild s s.session.build
      split at hh
      · cases hh
      · cases hh
        dsimp only
        rw [hsession, heditor]
        exact ⟨⟨rfl, rfl⟩, fun _ => rfl, id⟩

/-! ### All moves -/

/-- How the moves have got on: the words of the accepted lines have come to the session in their order, but for those
that are posted, and each delivery has published one build. -/
structure Follows (flags : List Text) (moves : List Move) (p : Posting) : Prop where
  delivered : ∃ delivered, moves.filterMap Move.accepted? = p.posted.reverse ++ delivered ∧
    p.screen.session.flags = delivered.head?.getD flags ∧ moves.countP Move.isDelivery = delivered.length
  published : (∀ m ∈ moves, m.isOther = false) →
    p.screen.session.published.length = 1 + moves.countP Move.isDelivery
  isSubscribed : p.screen.session.isSubscribed = true
  complains : p.screen.editor.ComplainsOpenly

theorem exists_session_mount {session : Session} {s : Screen} {before after : Host}
    (hm : (mount render session).run.run before = (.ok s, after)) :
    ∃ h watcher, s.session = { (session.refresh.run h).1 with watcher } ∧ s.editor = {} := by
  obtain ⟨bar, h₁, -, hrest⟩ := Attempt.run_bind_eq_ok hm
  obtain ⟨⟨started, fault⟩, h₂, hstart, hs⟩ := Attempt.run_bind_eq_ok hrest
  obtain ⟨watcher, hw⟩ := Session.fst_start session h₁
  have hstarted : (session.start.run h₁).1 = (started, fault) := Except.ok.inj (congrArg Prod.fst hstart)
  rw [hstarted] at hw
  cases fault with
  | some f => cases hs
  | none =>
    cases hs
    exact ⟨h₁, watcher, hw, rfl⟩

theorem published_load {source : Text} {s : Session} {h h' : Host}
    (hl : (Session.load source).run.run h = (.ok s, h')) : s.published = [] := by
  obtain ⟨toolchain, h₁, -, hs⟩ := Attempt.run_bind_eq_ok hl
  cases hs
  rfl

theorem follows_mount {source : Text} {session : Session} {s : Screen} {h made before after : Host} {flags : List Text}
    (hl : (Session.load source).run.run h = (.ok session, made))
    (hm : (mount render { session with flags }).run.run before = (.ok s, after)) : Follows flags [] ⟨s, []⟩ := by
  obtain ⟨h₁, watcher, hs, he⟩ := exists_session_mount hm
  have hloaded := Session.isSubscribed_load hl
  have hsub : ({ session with flags } : Session).isSubscribed = true := hloaded
  have hpublished := Session.published_refresh hsub h₁
  refine ⟨⟨[], rfl, ?_, rfl⟩, fun _ => ?_, ?_, ?_⟩
  · rw [hs]
    exact Session.flags_refresh _ h₁
  · rw [hs]
    show ((Session.refresh { session with flags }).run h₁).1.published.length = 1
    rw [hpublished, List.length_append, published_load hl]
    rfl
  · rw [hs]
    exact (Session.isSubscribed_refresh _ h₁).trans hsub
  · rw [he]
    exact fun h => absurd rfl h

theorem accepted?_event {event : Event} (hne : ∀ line, event ≠ .submit line) : (Move.event event).accepted? = none := by
  cases event with
  | submit line => exact absurd rfl (hne line)
  | _ => rfl

theorem Follows.event {flags : List Text} {moves : List Move} {p : Posting} {next : Screen} {event : Event}
    {h after : Host} (hf : Follows flags moves p) (hne : ∀ line, event ≠ .submit line)
    (hh : (p.screen.handle render event).run.run h = (.ok next, after)) :
    Follows flags (.event event :: moves) { p with screen := next } := by
  obtain ⟨⟨delivered, hwords, hflags, hcount⟩, hpublished, hsub, hcomplains⟩ := hf
  obtain ⟨hkeeps, hsame, hopenly⟩ := keepsFlags_handle hh hne
  refine ⟨⟨delivered, ?_, hkeeps.flags.trans hflags, hcount⟩, fun hother => ?_, hkeeps.isSubscribed.trans hsub,
    hopenly hcomplains⟩
  · rw [List.filterMap_cons_none (accepted?_event hne)]
    exact hwords
  · rw [List.forall_mem_cons] at hother
    have hlength := hpublished hother.2
    rw [← hsame hother.1] at hlength
    exact hlength

theorem Follows.submit {flags : List Text} {moves : List Move} {p : Posting} (hf : Follows flags moves p)
    (ho : p.screen.editor.isOpen = true) (line : Text) :
    Follows flags (.event (.submit line) :: moves) (p.submit line) := by
  obtain ⟨⟨delivered, hwords, hflags, hcount⟩, hpublished, hsub, -⟩ := hf
  refine ⟨⟨delivered, ?_, hflags, hcount⟩, fun hother => hpublished (List.forall_mem_cons.mp hother).2, hsub,
    FlagsEditor.complainsOpenly_submit ho line⟩
  cases hl : ShellWords.split line with
  | error d =>
    have hnone : (Move.event (.submit line)).accepted? = none := congrArg Except.toOption hl
    rw [List.filterMap_cons_none hnone, submit_of_error hl]
    exact hwords
  | ok words =>
    have hsome : (Move.event (.submit line)).accepted? = some words := congrArg Except.toOption hl
    rw [List.filterMap_cons_some hsome, submit_of_ok hl, hwords, List.reverse_append]
    rfl

theorem Follows.deliver {flags : List Text} {moves : List Move} {p : Posting} (hf : Follows flags moves p)
    (hp : p.posted ≠ []) (h : Host) : Follows flags (.deliver :: moves) (p.deliver.run h).1 := by
  obtain ⟨⟨delivered, hwords, -, hcount⟩, hpublished, hsub, hcomplains⟩ := hf
  obtain ⟨words, rest, hposted⟩ := List.exists_cons_of_ne_nil hp
  rw [run_deliver hposted]
  have hsub' : ({ p.screen.session with flags := words } : Session).isSubscribed = true := hsub
  refine ⟨⟨words :: delivered, ?_, Session.flags_refresh _ h, ?_⟩, fun hother => ?_,
    (Session.isSubscribed_refresh _ h).trans hsub', hcomplains⟩
  · rw [List.filterMap_cons_none rfl, hwords, hposted, List.reverse_cons, List.append_assoc]
    rfl
  · rw [List.countP_cons_of_pos rfl, hcount, List.length_cons]
  · have hlength := hpublished (List.forall_mem_cons.mp hother).2
    rw [List.countP_cons_of_pos rfl, ← Nat.add_assoc, ← hlength]
    show ((Session.refresh { p.screen.session with flags := words }).run h).1.published.length = _
    rw [Session.published_refresh hsub', List.length_append, List.length_singleton]

theorem follows_of_reached {flags : List Text} {moves : List Move} {p : Posting} {h : Host}
    (hr : Reached render flags moves p h) : Follows flags moves p := by
  induction hr with
  | mount hl hm => exact follows_mount hl hm
  | @move moves p next h after move hr ha ht ih =>
    cases move with
    | deliver =>
      cases ht
      exact ih.deliver ha h
    | event event =>
      by_cases hs : ∃ line, event = .submit line
      · obtain ⟨line, rfl⟩ := hs
        cases ht
        exact ih.submit ha line
      · have hne (line : Text) : event ≠ .submit line := fun he => hs ⟨line, he⟩
        obtain ⟨screen, hh, rfl⟩ := exists_handle_of_take ht hne
        exact ih.event hne hh
  | host h' hr ih => exact ih

/-- The session's arguments are the words that were delivered last, or those that it began with. The words of the
accepted lines are delivered in order, each builds once, and no complaint is shown without the editor.

A line that is not accepted changes the editor alone, which goes on being shown and complains. Any other line closes
it without a complaint and is posted, which changes neither the session nor the host. The screen's own way to take a
line in is to post it and to deliver it at once. -/
theorem flags_of_reached {flags : List Text} {moves : List Move} {p : Posting} {h : Host}
    (hr : Reached render flags moves p h) :
    (∃ delivered, moves.filterMap Move.accepted? = p.posted.reverse ++ delivered ∧
      p.screen.session.flags = delivered.head?.getD flags ∧ moves.countP Move.isDelivery = delivered.length) ∧
    (p.posted = [] → p.screen.session.flags = (moves.filterMap Move.accepted?).head?.getD flags) ∧
    ((∀ m ∈ moves, m.isOther = false) →
      p.screen.session.published.length = 1 + moves.countP Move.isDelivery) ∧
    (p.screen.editor.complaintText ≠ [] → p.screen.editor.isOpen = true) ∧
    (p.screen.editor.isOpen = true → ∀ line host, ∃ next,
      (p.take render (.event (.submit line))).run.run host = (.ok next, host) ∧
      next.screen = { p.screen with editor := next.screen.editor } ∧
      match ShellWords.split line with
      | .error d => next.posted = p.posted ∧ next.screen.editor.isOpen = true ∧
          next.screen.editor.complaintText = "Cannot parse arguments: ".toList ++ Fault.wordsDefect d
      | .ok words => next.posted = p.posted ++ [words] ∧ next.screen.editor.isOpen = false ∧
          next.screen.editor.complaintText = []) ∧
    (p.posted = [] → ∀ line host, (p.submit line).deliver.run host =
      ({ screen := ((p.screen.submit line).run host).1 }, ((p.screen.submit line).run host).2)) ∧
    ∀ words rest host, p.posted = words :: rest →
      (p.take render .deliver).run.run host =
        (.ok { screen := { p.screen with session := ((p.screen.session.setFlags words).run host).1 }, posted := rest },
          ((p.screen.session.setFlags words).run host).2) ∧
      ((p.screen.session.setFlags words).run host).1.flags = words ∧
      ((p.screen.session.setFlags words).run host).1.published =
        p.screen.session.published ++ [((p.screen.session.setFlags words).run host).1.build] := by
  obtain ⟨hdelivered, hpublished, hsub, hcomplains⟩ := follows_of_reached hr
  refine ⟨hdelivered, fun hp => ?_, hpublished, hcomplains, fun ho line host => ?_, fun hp line host => ?_,
    fun words rest host hp => ?_⟩
  · obtain ⟨delivered, hwords, hflags, -⟩ := hdelivered
    rw [hp, List.reverse_nil, List.nil_append] at hwords
    rw [hwords]
    exact hflags
  · refine ⟨p.submit line, rfl, rfl, ?_⟩
    split
    · rename_i d hl
      rw [submit_of_error hl]
      exact ⟨rfl, ho, rfl⟩
    · rename_i words hl
      rw [submit_of_ok hl]
      exact ⟨rfl, rfl, rfl⟩
  · rw [← run_deliver_submit, ← hp]
  · have hsub' : ({ p.screen.session with flags := words } : Session).isSubscribed = true := hsub
    refine ⟨?_, Session.flags_refresh _ host, Session.published_refresh hsub' host⟩
    have htake : (p.take render .deliver).run.run host = (.ok (p.deliver.run host).1, (p.deliver.run host).2) := rfl
    rw [htake, run_deliver hp]

/-! ### Runs on a host -/

instance (p : Posting) : DecidablePred p.Allows
  | .event (.submit _) | .event .leave => inferInstanceAs (Decidable (p.screen.editor.isOpen = true))
  | .deliver => inferInstanceAs (Decidable (p.posted ≠ []))
  | .event .rebuild | .event .edit | .event (.file _) | .event .message => inferInstanceAs (Decidable True)

def leadsTo (render : Renderer) (p : Posting) (h : Host) : List Move → (Posting → Bool) → Bool
  | [], test => test p
  | move :: moves, test =>
    p.Allows move && match (p.take render move).run.run h with
      | (.ok next, h) => leadsTo render next h moves test
      | (.error _, _) => false

theorem exists_of_leadsTo {flags : List Text} {done moves : List Move} {p : Posting} {h : Host} {test : Posting → Bool}
    (hr : Reached render flags done p h) (ht : leadsTo render p h moves test = true) :
    ∃ next after, Reached render flags (moves.reverse ++ done) next after ∧ test next = true := by
  induction moves generalizing done p h with
  | nil => exact ⟨p, h, hr, ht⟩
  | cons move moves ih =>
    rw [leadsTo, Bool.and_eq_true, decide_eq_true_iff] at ht
    obtain ⟨ha, ht⟩ := ht
    split at ht
    · rename_i next after hh
      rw [List.reverse_cons, List.append_assoc, List.singleton_append]
      exact ih (hr.move move ha hh) ht
    · cases ht

def mountsTo (render : Renderer) (source : Text) (flags : List Text) (moves : List Move) (h : Host)
    (test : Posting → Bool) : Bool :=
  Session.loadsTo source h fun session h =>
    match (mount render { session with flags }).run.run h with
    | (.ok s, h) => leadsTo render ⟨s, []⟩ h moves test
    | (.error _, _) => false

theorem exists_of_mountsTo {source : Text} {flags : List Text} {moves : List Move} {h : Host} {test : Posting → Bool}
    (ht : mountsTo render source flags moves h test = true) :
    ∃ p after, Reached render flags moves.reverse p after ∧ test p = true := by
  obtain ⟨session, made, hl, ht⟩ := Session.exists_of_loadsTo ht
  split at ht
  · rename_i s after hm
    have hreached := exists_of_leadsTo (Reached.mount hl hm) ht
    rwa [List.append_nil] at hreached
  · cases ht

/-- A line with an open quote, its correction, and another line before the words of the first one arrive. -/
def lineMoves : List Move :=
  [.event .edit, .event (.submit "-a \"b c"), .event (.submit "-a 'b c'"), .event .edit, .event (.submit "-d"),
   .deliver]

theorem flags_of_reached_lineMoves :
    ∃ p h, Reached Renderer.tagless ["-x64"] lineMoves.reverse p h ∧ p.posted = [["-d".toList]] ∧
      p.screen.session.flags = ["-a".toList, "b c".toList] ∧ p.screen.session.published.length = 2 := by
  have ht : mountsTo Renderer.tagless "/work/x.jai" ["-x64"] lineMoves Session.listingHost
      (fun p => p.posted = [["-d".toList]]) = true := by
    decide +kernel
  obtain ⟨p, h, hr, htest⟩ := exists_of_mountsTo ht
  have hposted := of_decide_eq_true htest
  obtain ⟨⟨delivered, hwords, hflags, -⟩, -, hpublished, -⟩ := flags_of_reached hr
  have haccepted : lineMoves.reverse.filterMap Move.accepted? = ["-d".toList] :: [["-a".toList, "b c".toList]] := by
    decide +kernel
  rw [haccepted, hposted] at hwords
  obtain rfl : _ = delivered := List.tail_eq_of_cons_eq hwords
  exact ⟨p, h, hr, hposted, hflags, hpublished (by decide)⟩

end Posting

end Screen

end DisasmLens
