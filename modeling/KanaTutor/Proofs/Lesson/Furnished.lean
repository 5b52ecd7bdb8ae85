/-
Lessons that give something to type in every round. Nothing checks this when a lesson is read: a start takes the text
as it is, and a random directive takes any text that is not empty. But it can be told from the lines of a lesson. A
start needs a text before it for which there is something to type, and a random directive one whose lines can all be
drawn.

The text that a player has is that of the last text passage before the line it reads, with three exceptions. Before the
first text passage it may be any text, because the first line follows the last. It may have been drawn, and then it is
as good as the one it was drawn from. And a script that is given up in a text loses it; but then the lesson has no
rounds, because a line that starts one is reached before the script is given up.
-/
import KanaTutor.Proofs.Lesson.Legible
import KanaTutor.Proofs.Lesson.Staying
import Mathlib.Tactic.SplitIfs

namespace KanaTutor

/-! ## Furnished lessons -/

/-- The text of the last text passage, if there is one. -/
def lastText? (lines : List Text) : Option Text := ((passages lines).filterMap Passage.text?).getLast?

namespace Directive

/-- The directive starts rounds. -/
def isRound : Directive → Bool
  | .start | .random _ _ => true
  | _ => false

/-- With this text there is something to type in every round that the directive starts. A random directive has to find
lines of which each can be drawn, alone or with any others. That is more than is needed where several lines are drawn:
they make one text, and there may be something to type for it although there is nothing for one of its lines alone. -/
def Accepts (t? : Option Text) : Directive → Prop
  | .start => ∃ t ∈ t?, Ruby.plain t ≠ []
  | .random _ _ => ∃ t ∈ t?, t ≠ [] ∧ ∀ line ∈ t.lines, Legible line
  | _ => True

instance (t? : Option Text) : (d : Directive) → Decidable (d.Accepts t?)
  | .start => inferInstanceAs (Decidable (∃ t ∈ t?, Ruby.plain t ≠ []))
  | .random _ _ => inferInstanceAs (Decidable (∃ t ∈ t?, t ≠ [] ∧ ∀ line ∈ t.lines, Legible line))
  | .title _ | .text | .hint | .imeMode _ | .keyboard | .showScore | .up | .next _ | .menu _ | .zenkaku | .unknown _ =>
    .isTrue trivial

end Directive

/-- There is something to type in every round of the lesson, whichever lines are drawn. The lesson may be like that
without being furnished, if its random directives draw several lines at a time. -/
def Furnished (lines : List Text) : Prop :=
  ∀ i (h : i < lines.length), ∀ d ∈ directive? lines[i], d.Accepts (lastText? (lines.take i))

instance (lines : List Text) : Decidable (Furnished lines) :=
  inferInstanceAs (Decidable (∀ i (h : i < lines.length), ∀ d ∈ directive? lines[i], _))

/-- All lessons that can be read are furnished. -/
def Library.IsFurnished (library : Library) : Prop :=
  ∀ path content, library path = some content → Furnished content.linesKeepingBreaks

/-- No line of the lesson starts a round. -/
def Idle (lines : List Text) : Prop := ∀ line ∈ lines, ∀ d, directive? line = some d → d.isRound = false

/-! ## The draft before a line -/

namespace Draft

/-- The draft after a line that neither leaves the script nor leads to another lesson. -/
def after (line : Text) (draft : Draft) : Draft :=
  match directive? line with
  | none => draft.extend line
  | some d => if d = .text then collecting [] else settled draft.text

/-- What is known of the draft after a line. -/
def read (found : Option Draft) (line : Text) : Option Draft :=
  if directive? line = some .text then some (collecting []) else found.map (after line)

end Draft

/-- What is known of the draft after some lines of a lesson, whatever it was before them. -/
def draftOf (lines : List Text) : Option Draft := lines.foldl Draft.read none

/-- The text of the last text passage is the text of the draft, if that is known. -/
theorem text_draftOf (lines : List Text) : (draftOf lines).map Draft.text = lastText? lines := by
  -- before any text passage the lines go on with the draft that there was
  have hfrom : ∀ found, (lines.foldl Draft.read found).map Draft.text =
      (lastText? lines).or (found.map fun draft => (draft.extend (leading lines)).text) := by
    induction lines with
    | nil =>
      intro found
      rcases found with _ | content | t
      · rfl
      · simp [lastText?, passages, leading, Draft.extend, Draft.text]
      · rfl
    | cons line lines ih =>
      intro found
      rw [List.foldl_cons, ih]
      cases hline : directive? line with
      | none =>
        rw [lastText?, lastText?, passages_content hline, leading_content hline, Draft.read, hline,
          if_neg (Option.some_ne_none _).symm, Option.map_map]
        congr 2
        funext draft
        cases draft <;> simp [Draft.after, hline, Draft.extend]
      | some d =>
        rw [lastText?, lastText?, passages_directive _ hline, leading_directive hline, Draft.read, hline,
          List.filterMap_cons]
        by_cases htext : d = .text
        · subst htext
          simp [Passage.text?, Draft.extend, Draft.text, List.getLast?_cons]
        · rw [if_neg (fun h => htext (Option.some.inj h)), Option.map_map]
          simp only [Passage.text?, if_neg htext]
          congr 2
          funext draft
          cases draft <;> simp [Draft.after, hline, htext, Draft.extend, Draft.text]
  rw [draftOf, hfrom, Option.map_none, Option.or_none]

/-- How a draft may stand to what is known of it. -/
inductive Stands (lines : List Text) : Option Draft → Draft → Prop where
  | unknown {draft : Draft} : Stands lines none draft
  | known {draft : Draft} : Stands lines (some draft) draft
  /-- The text has been drawn. -/
  | drawn {found : Option Draft} {t : Text} : Typeable t → Stands lines found (.settled t)
  /-- The script has been given up in a text. -/
  | idle {found : Option Draft} : Idle lines → Stands lines found (.settled [])

namespace Stands

variable {lines : List Text} {found : Option Draft} {draft : Draft}

theorem read (h : Stands lines found draft) (line : Text) :
    Stands lines (Draft.read found line) (draft.after line) := by
  unfold Draft.read
  split
  · rename_i htext
    rw [Draft.after, htext]
    exact .known
  · rename_i htext
    -- a text that is settled stays as it is
    have hsettled : ∀ t, (Draft.settled t).after line = .settled t := by
      intro t
      unfold Draft.after
      split
      · rfl
      · rename_i d hline
        rw [if_neg (fun hd => htext (by rw [hline, hd]))]
        rfl
    cases h with
    | unknown => exact .unknown
    | known => exact .known
    | drawn ht => rw [hsettled]; exact .drawn ht
    | idle hidle => rw [hsettled]; exact .idle hidle

/-- What is enough for a round with the text that is known is enough with the text of the draft. -/
theorem accepts (h : Stands lines found draft) {d : Directive} (hd : d.Accepts (found.map Draft.text))
    (hidle : Idle lines → d.isRound = false) : d.Accepts (some draft.text) := by
  have hdrawn : ∀ t, Typeable t → d.Accepts (some t) := by
    intro t ht
    cases d with
    | start => exact ⟨t, rfl, ht.plain⟩
    | random lines rounds =>
      refine ⟨t, rfl, ?_, ht.lines⟩
      rintro rfl
      exact ht.plain Ruby.plain_nil
    | _ => trivial
  cases h with
  | unknown =>
    cases d with
    | start | random => obtain ⟨t, ht, -⟩ := hd; cases ht
    | _ => trivial
  | known => exact hd
  | drawn ht => exact hdrawn _ ht
  | idle hlines =>
    have hround := hidle hlines
    cases d with
    | start | random => cases hround
    | _ => trivial

end Stands

/-- What the lines of a furnished lesson say of a directive, for the draft that there is before it. -/
theorem Furnished.accepts {lines : List Text} (h : Furnished lines) {i : Nat} {line : Text} {draft : Draft}
    {d : Directive} (hi : lines[i]? = some line) (hd : directive? line = some d)
    (hdraft : Stands lines (draftOf (lines.take i)) draft) : d.Accepts (some draft.text) := by
  obtain ⟨hlt, rfl⟩ := List.getElem?_eq_some_iff.1 hi
  refine hdraft.accepts ?_ fun hidle => hidle _ (List.getElem_mem hlt) d hd
  rw [text_draftOf]
  exact h i hlt d hd

/-! ## Players of furnished lessons -/

namespace Player

/-- How many lines are read before the line at a position. -/
def ahead (p : Player) (i : Nat) : Nat := if p.place ≤ i then i - p.place else p.lines.length - p.place + i

/-- Every line that starts a round is reached before so many lines have been read. -/
def Reaches (p : Player) (visits : Nat) : Prop :=
  ∀ i line d, p.lines[i]? = some line → directive? line = some d → d.isRound = true → p.ahead i < visits

/-- The player is in a furnished lesson, with a text as good as the one that is known. Where it practises, there is
something to type. -/
structure Supplied (p : Player) : Prop where
  lesson : Furnished p.lines
  pool : p.pool.IsLegible
  draft : Stands p.lines (draftOf (p.lines.take p.place)) (.settled p.text)
  mode : p.mode ≠ .text
  plain : p.mode = .practice → p.target.plain ≠ []

/-- The player reads the script of a furnished lesson, and may read so many lines more of it. -/
structure Follows (p : Player) (content : Text) (visits : Nat) : Prop where
  lesson : Furnished p.lines
  pool : p.pool.IsLegible
  draft : Stands p.lines (draftOf (p.lines.take p.place)) (Reader.draft { player := p, content })
  blank : p.mode = .text → p.text = []
  mode : p.mode ≠ .practice
  reaches : p.Reaches visits

/-- A furnished lesson has just been opened. -/
structure Fresh (p : Player) : Prop where
  lesson : Furnished p.lines
  pool : p.pool = {}
  position : p.position = 0
  mode : p.mode = .run

variable {p q : Player} {library : Library} {typing : Typing}

theorem isLegible_empty : ({} : Pool).IsLegible := nofun

theorem place_zero (h : p.position = 0) : p.place = 0 := by
  unfold place
  rw [h]
  split <;> rfl

/-- All lines are reached in one pass over the lesson. -/
theorem reaches_maxVisits (p : Player) : p.Reaches p.maxVisits := by
  intro i line d hi _ _
  have hlt := (List.getElem?_eq_some_iff.1 hi).1
  unfold ahead maxVisits
  split
  · omega
  · omega

theorem Fresh.follows (h : p.Fresh) : p.Follows [] p.maxVisits where
  lesson := h.lesson
  pool := h.pool ▸ isLegible_empty
  draft := by
    rw [place_zero h.position]
    exact .unknown
  blank hm := by
    rw [h.mode] at hm
    cases hm
  mode := by
    rw [h.mode]
    exact Mode.noConfusion
  reaches := reaches_maxVisits p

theorem draft_of_mode (content : Text) (h : p.mode ≠ .text) :
    Reader.draft { player := p, content } = .settled p.text := if_neg h

theorem Supplied.follows (h : p.Supplied) (hm : p.mode ≠ .practice) : p.Follows [] p.maxVisits where
  lesson := h.lesson
  pool := h.pool
  draft := by
    rw [draft_of_mode [] h.mode]
    exact h.draft
  blank ht := absurd ht h.mode
  mode := hm
  reaches := reaches_maxVisits p

/-- A script that is left without a round. -/
theorem Follows.left {content : Text} {visits : Nat} (h : p.Follows content visits) (hm : p.mode ≠ .text) :
    p.Supplied where
  lesson := h.lesson
  pool := h.pool
  draft := by
    rw [← draft_of_mode content hm]
    exact h.draft
  mode := hm
  plain hp := absurd hp h.mode

theorem Supplied.stops (h : p.Supplied) : Supplied { p with mode := .run } :=
  ⟨h.lesson, h.pool, h.draft, Mode.noConfusion, nofun⟩

/-- A lesson without lines has no text that could be lost. -/
theorem Follows.stops {content : Text} {visits : Nat} (h : p.Follows content visits) (hl : p.lines = []) :
    Supplied { p with mode := .run } where
  lesson := h.lesson
  pool := h.pool
  draft := by
    show Stands p.lines (draftOf (p.lines.take p.place)) (.settled p.text)
    rw [hl, List.take_nil]
    exact .unknown
  mode := Mode.noConfusion
  plain := nofun

/-- A script that is given up because its lines have been read has no line that starts a round, or it is not in a
text. -/
theorem Follows.giveUp {content : Text} (h : p.Follows content 0) : Supplied { p with mode := .run } where
  lesson := h.lesson
  pool := h.pool
  draft := by
    show Stands p.lines (draftOf (p.lines.take p.place)) (.settled p.text)
    by_cases hm : p.mode = .text
    · rw [h.blank hm]
      refine .idle fun line hline d hd => ?_
      obtain ⟨i, hi⟩ := List.mem_iff_getElem?.1 hline
      exact Bool.eq_false_iff.2 fun hround => absurd (h.reaches i line d hi hd hround) (Nat.not_lt_zero _)
    · rw [← draft_of_mode content hm]
      exact h.draft
  mode := Mode.noConfusion
  plain := nofun

/-! ## One line of a furnished lesson -/

/-- The line that is taken stands at the place of the player. -/
theorem takeLine_place (hl : p.lines ≠ []) : ∃ line, p.lines[p.place]? = some line ∧
    p.takeLine = (readLine line, { p with position := p.place + 1 }) := by
  have hlt := place_lt hl
  refine ⟨p.lines[p.place], List.getElem?_eq_getElem hlt, ?_⟩
  rw [takeLine_eq, List.getD_eq_getElem?_getD, List.getElem?_eq_getElem hlt, Option.getD_some]

/-- The next line, with the draft before it. -/
theorem stands_next {line : Text} {draft : Draft} (hline : p.lines[p.place]? = some line)
    (h : Stands p.lines (draftOf (p.lines.take p.place)) draft) (hlines : q.lines = p.lines)
    (hposition : q.position = p.place + 1) :
    Stands q.lines (draftOf (q.lines.take q.place)) (draft.after line) := by
  obtain ⟨hlt, rfl⟩ := List.getElem?_eq_some_iff.1 hline
  have hread := h.read p.lines[p.place]
  rw [place, hlines, hposition]
  split
  · rw [List.take_succ_eq_append_getElem hlt, draftOf, List.foldl_append]
    exact hread
  · -- the first line follows the last, and nothing is known before it
    exact .unknown

/-- After a line all others are nearer by one. -/
theorem ahead_next {i : Nat} (hi : i < p.lines.length) (hne : i ≠ p.place) (hlines : q.lines = p.lines)
    (hposition : q.position = p.place + 1) : q.ahead i + 1 = p.ahead i := by
  have hplace := place_lt (List.ne_nil_of_length_pos (Nat.zero_lt_of_lt hi))
  have hq : q.place = if p.place + 1 < p.lines.length then p.place + 1 else 0 := by
    rw [place, hlines, hposition]
  rw [ahead, ahead, hq, hlines]
  split_ifs <;> omega

theorem reaches_next {line : Text} {visits : Nat} (hline : p.lines[p.place]? = some line)
    (hround : ∀ d, directive? line = some d → d.isRound = false) (h : p.Reaches (visits + 1))
    (hlines : q.lines = p.lines) (hposition : q.position = p.place + 1) : q.Reaches visits := by
  intro i found d hi hd hstarts
  rw [hlines] at hi
  -- a line that starts a round is another one
  have hne : i ≠ p.place := by
    rintro rfl
    rw [hline] at hi
    cases hi
    rw [hround d hd] at hstarts
    cases hstarts
  have hahead := h i found d hi hd hstarts
  rw [← ahead_next (List.getElem?_eq_some_iff.1 hi).1 hne hlines hposition] at hahead
  exact Nat.lt_of_succ_lt_succ hahead

end Player

/-- A line of a furnished lesson leads on in the script, to another lesson, or to a round with something to type. -/
def Player.Outcome.Goes (content : Text) (visits : Nat) : Player.Outcome → Prop
  | .ongoing p => p.Follows content visits
  | .opened p => p.Fresh
  | .started p => p.Supplied

namespace Player

variable {p q : Player} {library : Library} {typing : Typing} {visits : Nat}

theorem fresh_open {name : Text} (hlibrary : library.IsFurnished) (h : p.open? library name = some q) : q.Fresh := by
  obtain ⟨content, hread, rfl⟩ := Option.map_eq_some_iff.1 h
  exact ⟨hlibrary _ content hread, rfl, rfl, rfl⟩

theorem goes_openOrStay (hlibrary : library.IsFurnished) (name : Text) (h : p.Follows [] visits) :
    (p.openOrStay library name).outcome.Goes [] visits := by
  unfold openOrStay
  split
  · rename_i q hq
    exact fresh_open hlibrary hq
  · exact h

theorem Follows.withTrail (h : p.Follows [] visits) (trail : Trail) : Follows { p with trail } [] visits :=
  ⟨h.lesson, h.pool, h.draft, h.blank, h.mode, h.reaches⟩

theorem goes_goUp (hlibrary : library.IsFurnished) (h : p.Follows [] visits) :
    (p.goUp library).outcome.Goes [] visits := by
  unfold goUp
  split
  · exact h
  · exact goes_openOrStay hlibrary _ (h.withTrail _)

theorem goes_goNext (hlibrary : library.IsFurnished) (target : Option Text) (h : p.Follows [] visits) :
    (p.goNext library target).outcome.Goes [] visits := by
  unfold goNext
  split
  · exact goes_openOrStay hlibrary _ h
  · split
    · exact goes_openOrStay hlibrary _ h
    · exact goes_goUp hlibrary h

/-- A round that is drawn. -/
theorem supplied_nextRound (hlesson : Furnished p.lines) (hpool : p.pool.IsLegible)
    (h : p.nextRound? typing = some q) : q.Supplied := by
  obtain ⟨⟨t, pool, source⟩, hnext, rfl⟩ := Option.map_eq_some_iff.1 h
  obtain ⟨ht, hleft⟩ := typeable_nextRound hpool hnext
  exact ⟨hlesson, hleft, .drawn ht, nofun, fun _ => ht.plain⟩

/-- A directive is followed with the text that a block before it has left. -/
theorem goes_follow {d : Directive} (hlibrary : library.IsFurnished) (hm : p.mode = .run)
    (hlesson : Furnished p.lines) (hpool : p.pool.IsLegible)
    (hdraft : Stands p.lines (draftOf (p.lines.take p.place)) (if d = .text then .collecting [] else .settled p.text))
    (haccepts : d.Accepts (some p.text)) (hrounds : ∀ lines rounds, d = .random lines rounds → 0 < rounds)
    (hreaches : d.isRound = false → p.Reaches visits) : (p.follow library typing d).Goes [] visits := by
  have hmode : p.mode ≠ .practice := by
    rw [hm]
    exact Mode.noConfusion
  have htext : p.mode ≠ .text := by
    rw [hm]
    exact Mode.noConfusion
  -- a directive that is not about the text leaves the draft as it is
  have hsettled : d ≠ .text → Stands p.lines (draftOf (p.lines.take p.place)) (.settled p.text) := by
    intro hd
    rw [if_neg hd] at hdraft
    exact hdraft
  have hkept : d ≠ .text → d.isRound = false → p.Follows [] visits := by
    intro hd hround
    refine ⟨hlesson, hpool, ?_, fun ht => absurd ht htext, hmode, hreaches hround⟩
    rw [draft_of_mode [] htext]
    exact hsettled hd
  cases d with
  | title | imeMode | keyboard | zenkaku | unknown =>
    have h := hkept Directive.noConfusion rfl
    exact ⟨h.lesson, h.pool, h.draft, h.blank, h.mode, h.reaches⟩
  | text => exact ⟨hlesson, hpool, hdraft, fun _ => rfl, nofun, hreaches rfl⟩
  | hint | showScore | menu => exact ⟨hlesson, hpool, hsettled nofun, nofun, nofun, hreaches rfl⟩
  | up => exact goes_goUp hlibrary (hkept Directive.noConfusion rfl)
  | next target => exact goes_goNext hlibrary target (hkept Directive.noConfusion rfl)
  | start =>
    obtain ⟨t, ht, hplain⟩ := haccepts
    cases ht
    exact ⟨hlesson, isLegible_empty, hsettled nofun, nofun, fun _ => hplain⟩
  | random lines rounds =>
    obtain ⟨t, ht, hne, hlegible⟩ := haccepts
    cases ht
    have hsome := p.isSome_nextRound?_ofText typing lines (hrounds lines rounds rfl)
    rw [List.isEmpty_eq_false_iff.2 hne] at hsome
    obtain ⟨q, hq⟩ := Option.isSome_iff_exists.1 hsome
    unfold follow
    dsimp only
    rw [hq]
    exact supplied_nextRound (p := { p with pool := .ofText p.text lines rounds }) hlesson
      (isLegible_ofText hlegible lines rounds) hq

theorem pool_endBlock (p : Player) (typing : Typing) (content : Text) : (p.endBlock typing content).pool = p.pool := by
  unfold endBlock
  split <;> rfl

/-- A content line is collected or passed over. -/
theorem follows_content {line content content' : Text} (h : p.Follows content (visits + 1))
    (hline : p.lines[p.place]? = some line) (hnone : directive? line = none)
    (hcontent : p.mode = .text → content' = content ++ line) :
    Follows { p with position := p.place + 1 } content' visits := by
  have hdraft : Reader.draft { player := { p with position := p.place + 1 }, content := content' } =
      (Reader.draft { player := p, content }).after line := by
    rw [Draft.after, hnone]
    unfold Reader.draft
    dsimp only
    split
    · rename_i hm
      rw [hcontent hm]
      rfl
    · rfl
  refine ⟨h.lesson, h.pool, ?_, h.blank, h.mode, ?_⟩
  · rw [hdraft]
    exact stands_next (q := { p with position := p.place + 1 }) hline h.draft rfl rfl
  · refine reaches_next hline (fun d hd => ?_) h.reaches rfl rfl
    rw [hnone] at hd
    cases hd

/-- A directive ends the block of content lines before it, and is followed. -/
theorem goes_directive {line content : Text} {d : Directive} (hlibrary : library.IsFurnished)
    (h : p.Follows content (visits + 1)) (hm : p.mode.isReading = true) (hline : p.lines[p.place]? = some line)
    (hd : directive? line = some d) :
    ((({ p with position := p.place + 1 } : Player).endBlock typing content).follow library typing d).Goes []
      visits := by
  have hrun := mode_endBlock (p := { p with position := p.place + 1 }) typing content hm
  have htext := endBlock_text (r := { player := { p with position := p.place + 1 }, content }) typing hm
  have hpool := pool_endBlock { p with position := p.place + 1 } typing content
  have hposition := position_endBlock { p with position := p.place + 1 } typing content
  obtain ⟨hlines, -⟩ := endBlock_frame { p with position := p.place + 1 } typing content
  have hdraft := stands_next hline h.draft hlines hposition
  rw [Draft.after, hd] at hdraft
  have haccepts := h.lesson.accepts hline hd h.draft
  dsimp only at htext
  generalize ({ p with position := p.place + 1 } : Player).endBlock typing content = ended at *
  have hsame : ended.text = (Reader.draft { player := p, content }).text := htext
  rw [← hsame] at hdraft haccepts
  refine goes_follow hlibrary hrun (hlines ▸ h.lesson) (hpool ▸ h.pool) hdraft haccepts ?_ ?_
  · rintro lines rounds rfl
    exact Directive.rounds_pos_of_read? hd
  · intro hround
    refine reaches_next hline (fun d' hd' => ?_) h.reaches hlines hposition
    rw [hd] at hd'
    cases hd'
    exact hround

theorem goes_readNext {content rest : Text} {outcome : Outcome} (hlibrary : library.IsFurnished)
    (h : p.Follows content (visits + 1)) (hm : p.mode.isReading = true) (hl : p.lines ≠ [])
    (hread : p.readNext library typing content = (rest, outcome)) : outcome.Goes rest visits := by
  obtain ⟨line, hline, htaken⟩ := takeLine_place hl
  unfold readNext at hread
  rw [htaken] at hread
  dsimp only at hread
  split at hread
  · rename_i hnone
    have hsame : readLine line = line := readLine_content hnone
    split at hread
    · cases hread
      exact follows_content h hline hnone fun _ => by rw [hsame]
    · cases hread
      exact follows_content h hline hnone fun _ => by rw [hsame]
    · rename_i htext _
      cases hread
      exact follows_content h hline hnone fun hm => absurd hm htext
  · rename_i d hd
    cases hread
    exact goes_directive hlibrary h hm hline hd

/-! ## The script of a furnished lesson -/

theorem supplied_scanFrom (hlibrary : library.IsFurnished) (opens visits : Nat) (content : Text) (p : Player)
    (h : p.Follows content visits) (hopens : opens = 0 → p.mode ≠ .text) :
    (scanFrom library typing opens visits content p).2.Supplied := by
  induction opens, visits, content, p using scanFrom.induct library typing with
  | case1 opens visits content p hreads =>
    rw [scanFrom, if_pos hreads]
    refine h.left fun hm => ?_
    rw [hm] at hreads
    cases hreads
  | case2 opens visits content p hreads hl =>
    rw [scanFrom, if_neg hreads, if_pos hl]
    exact h.stops (List.isEmpty_iff.1 hl)
  | case3 opens visits content p hreads hl rest q hread =>
    rw [scanFrom_started _ _ hreads hl hread]
    exact goes_readNext hlibrary h (by simpa using hreads) (by simpa using hl) hread
  | case4 opens visits content p hreads hl rest q hread ih =>
    rw [scanFrom, if_neg hreads, if_neg hl, hread]
    have hfresh : q.Fresh := goes_readNext hlibrary h (by simpa using hreads) (by simpa using hl) hread
    refine ih hfresh.follows fun _ => ?_
    rw [hfresh.mode]
    exact Mode.noConfusion
  | case5 opens visits content p hreads hl rest q hread ih =>
    rw [scanFrom_ongoing _ _ hreads hl hread]
    have hfollows : q.Follows rest visits :=
      goes_readNext hlibrary h (by simpa using hreads) (by simpa using hl) hread
    exact ih hfollows fun hzero => absurd hzero (Nat.succ_ne_zero opens)
  | case6 visits content p =>
    -- too many lessons have been opened, and the last one has not been begun
    rw [scanFrom]
    have hleft := h.left (hopens rfl)
    dsimp only
    split
    · exact hleft.stops
    · exact hleft
  | case7 opens content p hzero =>
    rw [scanFrom.eq_3 _ _ _ _ _ hzero]
    dsimp only
    split
    · exact h.giveUp
    · rename_i hreads
      refine h.left fun hm => hreads ?_
      rw [hm]
      rfl

/-- A player of furnished lessons that reads on is one afterwards, with something to type if a round has begun. -/
theorem Supplied.scan (h : p.Supplied) (hm : p.mode ≠ .practice) (hlibrary : library.IsFurnished) (typing : Typing) :
    (p.scan library typing).2.Supplied :=
  supplied_scanFrom hlibrary maxOpens p.maxVisits [] p (h.follows hm) fun _ => h.mode

end Player

end KanaTutor
