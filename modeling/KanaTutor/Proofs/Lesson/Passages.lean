/-
What a script sets up for its first round. A lesson is read as passages: each directive with the content lines that
follow it. Up to the line that starts a round, the last passage that begins a text holds the text, the last one that
begins a hint holds the hint, and the last title and the last mode of the input method are the ones that count.

The induction is along the lines before that one. What carries it is the round that the player would begin if the
rest of them were read from where it stands, in a block whose first lines it has collected or in none.
-/
import KanaTutor.Proofs.Lesson.Loops

namespace KanaTutor

/-! ## Passages -/

/-- The directive of a line of a lesson; nothing for a content line. -/
def directive? (line : Text) : Option Directive := Directive.read? (Player.readLine line)

/-- A directive, and the content lines up to the next one. -/
structure Passage where
  directive : Directive
  content : Text

/-- The content lines before the first directive. -/
def leading (lines : List Text) : Text := (lines.takeWhile fun line => (directive? line).isNone).flatten

def passages : List Text → List Passage
  | [] => []
  | line :: rest =>
    match directive? line with
    | some d => ⟨d, leading rest⟩ :: passages rest
    | none => passages rest

namespace Passage

def text? (passage : Passage) : Option Text :=
  if passage.directive = .text then some passage.content.trimEnd else none

def hint? (passage : Passage) : Option Text :=
  if passage.directive = .hint then some passage.content.trimEnd else none

def title? (passage : Passage) : Option Text :=
  match passage.directive with
  | .title title => some title
  | _ => none

def imeMode? (passage : Passage) : Option Text :=
  match passage.directive with
  | .imeMode mode => some mode
  | _ => none

end Passage

/-- The last thing that passages say, or what holds before them. -/
def lastOf {α : Type} (f : Passage → Option α) (ps : List Passage) (before : α) : α :=
  (ps.filterMap f).getLast?.getD before

/-- The directive neither leaves the script nor opens a lesson. -/
def Directive.isSetup : Directive → Bool
  | .title _ | .text | .hint | .imeMode _ | .keyboard | .zenkaku | .unknown _ => true
  | _ => false

theorem lastOf_cons {α : Type} (f : Passage → Option α) (passage : Passage) (ps : List Passage) (before : α) :
    lastOf f (passage :: ps) before = lastOf f ps ((f passage).getD before) := by
  unfold lastOf
  rw [List.filterMap_cons]
  cases f passage with
  | none => rfl
  | some a => simp [List.getLast?_cons]

section

variable {line : Text} {rest : List Text} {d : Directive}

theorem passages_content (h : directive? line = none) : passages (line :: rest) = passages rest := by
  rw [passages, h]

theorem passages_directive (rest : List Text) (h : directive? line = some d) :
    passages (line :: rest) = ⟨d, leading rest⟩ :: passages rest := by
  rw [passages, h]

theorem leading_content (h : directive? line = none) : leading (line :: rest) = line ++ leading rest := by
  simp [leading, h]

theorem leading_directive (h : directive? line = some d) : leading (line :: rest) = [] := by
  simp [leading, h]

end

theorem Text.trimEnd_cons {c : Char} (h : isBlank c = false) (t : Text) : ∃ rest, Text.trimEnd (c :: t) = c :: rest := by
  have hkept : ∀ u : Text, ∃ rest, (u ++ [c]).dropWhile isBlank = rest ++ [c] := by
    intro u
    induction u with
    | nil => exact ⟨[], by simp [h]⟩
    | cons d u ih =>
      rw [List.cons_append, List.dropWhile_cons]
      split
      · exact ih
      · exact ⟨d :: u, rfl⟩
  obtain ⟨rest, hrest⟩ := hkept t.reverse
  refine ⟨rest.reverse, ?_⟩
  rw [Text.trimEnd, List.reverse_cons, hrest]
  simp

/-- Content lines are read as they are. -/
theorem readLine_content {line : Text} (h : directive? line = none) : Player.readLine line = line := by
  unfold directive? Player.readLine at *
  split
  · -- a line with a marker keeps it when it is trimmed, so it has a directive
    rename_i hmarker
    rw [if_pos hmarker] at h
    obtain ⟨rest, rfl⟩ := List.head?_eq_some_iff.1 hmarker
    obtain ⟨body, hbody⟩ := Text.trimEnd_cons (c := Directive.marker) (by decide) rest
    have hread : Directive.read? (Directive.marker :: body) = some (.ofBody body) := rfl
    rw [hbody, hread] at h
    cases h
  · rfl

namespace Player

variable {p : Player} {library : Library} {typing : Typing}

/-! ## Reading one line -/

theorem not_isEmpty_of_drop {line : Text} {rest : List Text} (h : p.lines.drop p.position = line :: rest) :
    ¬p.lines.isEmpty := by
  intro hnil
  simp [List.isEmpty_iff.1 hnil] at h

theorem takeLine_of_drop {line : Text} {rest : List Text} (h : p.lines.drop p.position = line :: rest) :
    p.takeLine = (readLine line, { p with position := p.position + 1 }) ∧
      p.lines.drop (p.position + 1) = rest := by
  have hlt : p.position < p.lines.length := by
    by_contra hge
    rw [List.drop_eq_nil_of_le (by omega)] at h
    cases h
  rw [List.drop_eq_getElem_cons hlt] at h
  obtain ⟨rfl, rfl⟩ := List.cons.inj h
  constructor
  · simp [takeLine, hlt]
  · rfl

theorem readNext_content (library : Library) (typing : Typing) {line : Text} {rest : List Text} (content : Text)
    (h : p.lines.drop p.position = line :: rest) (hline : directive? line = none) : ∃ content',
    p.readNext library typing content = (content', .ongoing { p with position := p.position + 1 }) ∧
      (p.mode = .text ∨ p.mode = .hint → content' = content ++ line) := by
  have hread : Directive.read? (readLine line) = none := hline
  unfold readNext
  rw [(takeLine_of_drop h).1]
  dsimp only
  rw [hread]
  dsimp only
  split
  · exact ⟨_, rfl, fun _ => by rw [readLine_content hline]⟩
  · exact ⟨_, rfl, fun _ => by rw [readLine_content hline]⟩
  · rename_i htext hhint
    refine ⟨_, rfl, ?_⟩
    rintro (hmode | hmode)
    · exact absurd hmode htext
    · exact absurd hmode hhint

theorem readNext_directive (library : Library) (typing : Typing) {line : Text} {rest : List Text} {d : Directive}
    (content : Text) (h : p.lines.drop p.position = line :: rest) (hline : directive? line = some d) :
    p.readNext library typing content =
      ([], ({ p with position := p.position + 1 }.endBlock typing content).follow library typing d) := by
  have hread : Directive.read? (readLine line) = some d := hline
  unfold readNext
  rw [(takeLine_of_drop h).1]
  dsimp only
  rw [hread]

/-! ## The round that begins -/

/-- The round that begins after some lines without a way out, from a position on, for a player that has collected
content lines of the block it may be in. -/
def beginning (p : Player) (typing : Typing) (stop : Nat) (content : Text) (before : List Text) : Player :=
  let ps := passages before
  let text := lastOf Passage.text? ps (if p.mode = .text then (content ++ leading before).trimEnd else p.text)
  { p with
    mode := .practice
    position := stop
    title := lastOf Passage.title? ps p.title
    text
    hint := lastOf Passage.hint? ps (if p.mode = .hint then (content ++ leading before).trimEnd else p.hint)
    imeMode := lastOf Passage.imeMode? ps p.imeMode
    showsKeyboard := p.showsKeyboard || ps.any (·.directive = .keyboard)
    zenkaku := p.zenkaku || ps.any (·.directive = .zenkaku)
    target := .ofText typing text
    session := {}
    pool := {} }

theorem beginning_content {line content content' : Text} {rest : List Text} (stop : Nat)
    (hline : directive? line = none) (hcontent : p.mode = .text ∨ p.mode = .hint → content' = content ++ line) :
    p.beginning typing stop content' rest = p.beginning typing stop content (line :: rest) := by
  simp only [beginning, passages_content hline, leading_content hline, ← List.append_assoc]
  by_cases htext : p.mode = .text
  · simp [htext, hcontent (.inl htext)]
  · by_cases hhint : p.mode = .hint
    · simp [hhint, hcontent (.inr hhint)]
    · simp [htext, hhint]

/-- A directive ends the block that content lines were collected for. -/
theorem beginning_endBlock {line content : Text} {rest : List Text} {d : Directive} (stop : Nat)
    (hm : p.mode.isReading = true) (hline : directive? line = some d) :
    (p.endBlock typing content).beginning typing stop [] (line :: rest) =
      p.beginning typing stop content (line :: rest) := by
  rcases Mode.cases_of_isReading hm with hm | hm | hm
  · simp [endBlock, beginning, hm]
  · simp [endBlock, beginning, hm, leading_directive hline, setText]
  · simp [endBlock, beginning, hm, leading_directive hline]

/-- A directive that sets something up, and what is left of the lines after it. -/
theorem beginning_follow (library : Library) (typing : Typing) {line : Text} (rest : List Text) {d : Directive}
    (stop : Nat) (hm : p.mode = .run) (hline : directive? line = some d) (hsetup : d.isSetup = true) : ∃ q,
    p.follow library typing d = .ongoing q ∧ q.mode.isReading = true ∧ q.lines = p.lines ∧
      q.position = p.position ∧
      q.beginning typing stop [] rest = p.beginning typing stop [] (line :: rest) := by
  have hpassages := passages_directive rest hline
  cases d with
  | random | start | showScore | up | next | menu => cases hsetup
  | title | imeMode | keyboard | zenkaku | unknown =>
    refine ⟨_, rfl, isReading_of_run hm, rfl, rfl, ?_⟩
    simp [beginning, hpassages, lastOf_cons, hm, Passage.text?, Passage.hint?, Passage.title?, Passage.imeMode?]
  | text | hint =>
    refine ⟨_, rfl, rfl, rfl, rfl, ?_⟩
    simp [beginning, hpassages, lastOf_cons, hm, Passage.text?, Passage.hint?, Passage.title?, Passage.imeMode?]

/-- One line that is no way out: the round that begins is still the same. -/
theorem beginning_readNext (library : Library) (typing : Typing) {line : Text} {rest : List Text}
    (before : List Text) (stop : Nat) (content : Text) (hm : p.mode.isReading = true)
    (h : p.lines.drop p.position = line :: rest)
    (hsetup : ∀ d, directive? line = some d → d.isSetup = true) : ∃ content' q,
    p.readNext library typing content = (content', .ongoing q) ∧ q.mode.isReading = true ∧ q.lines = p.lines ∧
      q.position = p.position + 1 ∧
      q.beginning typing stop content' before = p.beginning typing stop content (line :: before) := by
  cases hline : directive? line with
  | none =>
    obtain ⟨content', hread, hcontent⟩ := readNext_content library typing content h hline
    exact ⟨content', _, hread, hm, rfl, rfl, beginning_content stop hline hcontent⟩
  | some d =>
    have hrun := mode_endBlock (p := { p with position := p.position + 1 }) typing content hm
    obtain ⟨q, hfollow, hq, hlines, hposition, hbegins⟩ := beginning_follow library typing
      before stop hrun hline (hsetup d hline)
    refine ⟨[], q, ?_, hq, ?_, ?_, ?_⟩
    · rw [readNext_directive library typing content h hline, hfollow]
    · rw [hlines, (endBlock_frame _ typing content).1]
    · rw [hposition, position_endBlock]
    · rw [hbegins]
      exact beginning_endBlock (p := { p with position := p.position + 1 }) stop hm hline

/-- The line that starts the round. -/
theorem readNext_start (library : Library) (typing : Typing) {line : Text} {rest : List Text} (content : Text)
    (hm : p.mode.isReading = true) (h : p.lines.drop p.position = line :: rest)
    (hline : directive? line = some .start) : p.readNext library typing content =
      ([], .started (p.beginning typing (p.position + 1) content [])) := by
  rw [readNext_directive library typing content h hline]
  rcases Mode.cases_of_isReading hm with hm | hm | hm
  · simp [endBlock, hm, follow, beginning, startRound, setText, lastOf, passages]
  · simp [endBlock, hm, follow, beginning, startRound, setText, lastOf, passages, leading]
  · simp [endBlock, hm, follow, beginning, startRound, setText, lastOf, passages, leading]

/-- A script without a way out before its first round comes to that round. -/
theorem scanFrom_start (library : Library) (typing : Typing) {before after : List Text} {line : Text}
    (opens visits stop : Nat) (content : Text) (p : Player) (hm : p.mode.isReading = true)
    (hlines : p.lines.drop p.position = before ++ line :: after) (hstart : directive? line = some .start)
    (hsetup : ∀ l ∈ before, ∀ d, directive? l = some d → d.isSetup = true) (hvisits : before.length < visits)
    (hstop : stop = p.position + before.length + 1) :
    scanFrom library typing (opens + 1) visits content p = (true, p.beginning typing stop content before) := by
  induction before generalizing p content visits with
  | nil =>
    obtain ⟨more, rfl⟩ : ∃ more, visits = more + 1 := ⟨visits - 1, by omega⟩
    subst hstop
    have hl := not_isEmpty_of_drop hlines
    exact scanFrom_started _ _ (by simp [hm]) hl (readNext_start library typing content hm hlines hstart)
  | cons first before ih =>
    obtain ⟨more, rfl⟩ : ∃ more, visits = more + 1 := ⟨visits - 1, by omega⟩
    have hl := not_isEmpty_of_drop hlines
    rw [List.forall_mem_cons] at hsetup
    rw [List.length_cons] at hvisits hstop
    obtain ⟨content', q, hread, hq, hlinesq, hposition, hbegins⟩ := beginning_readNext library typing
      before stop content hm hlines hsetup.1
    rw [scanFrom_ongoing _ _ (by simp [hm]) hl hread, ← hbegins]
    refine ih more content' q hq ?_ hsetup.2 (by omega) (by omega)
    rw [hlinesq, hposition]
    exact (takeLine_of_drop hlines).2

/-- What opening a lesson leaves for its first round. -/
theorem open_of_file {p : Player} {library : Library} {name content : Text}
    (hfile : library (resolve p.lessonDir name).2 = some content) : ∃ q, p.open? library name = some q ∧
      q.mode = .run ∧ q.lines = content.linesKeepingBreaks ∧ q.position = 0 ∧ q.lesson = name ∧
      q.title = p.title ∧ q.imeMode = p.imeMode ∧ q.text = [] ∧ q.hint = [] ∧ q.showsKeyboard = false ∧
      q.zenkaku = false := by
  unfold open?
  dsimp only
  rw [hfile, Option.map_some]
  exact ⟨_, rfl, rfl, rfl, rfl, rfl, rfl, rfl, rfl, rfl, rfl, rfl⟩

end Player

/-! ## Opening a lesson -/

theorem any_passages (lines : List Text) (d : Directive) :
    (passages lines).any (·.directive = d) = true ↔ ∃ l ∈ lines, directive? l = some d := by
  induction lines with
  | nil => simp [passages]
  | cons line rest ih =>
    cases hline : directive? line with
    | none => simp [passages_content hline, ih, hline]
    | some d' => simp [passages_directive _ hline, ih, hline]

/-- A lesson whose first way out is a start is opened and read on. Then its round has begun: with the text of the last
text passage before the start and the hint of the last hint passage, each without the white space at its end, the
last title and mode of the input method, if there are any, and what was shown and typed full-width from then on. -/
theorem open_run_begins (desk : Desk) (name content line : Text) (before after : List Text) (clock clock' : Timestamp)
    (now : Instant) (hfile : desk.library (Player.resolve desk.player.lessonDir name).2 = some content)
    (hlines : content.linesKeepingBreaks = before ++ line :: after) (hstart : directive? line = some .start)
    (hsetup : ∀ l ∈ before, ∀ d, directive? l = some d → d.isSetup = true) :
    ∃ opened q, desk.perform clock (.open name) = .ok (some true, opened) ∧
      opened.perform clock' (.run now) = .ok (some true, desk.withPlayer q) ∧
      q.mode = .practice ∧ q.lesson = name ∧
      q.text = lastOf Passage.text? (passages before) [] ∧
      q.hint = lastOf Passage.hint? (passages before) [] ∧
      q.title = lastOf Passage.title? (passages before) desk.player.title ∧
      q.imeMode = lastOf Passage.imeMode? (passages before) desk.player.imeMode ∧
      (q.showsKeyboard = true ↔ ∃ l ∈ before, directive? l = some .keyboard) ∧
      (q.zenkaku = true ↔ ∃ l ∈ before, directive? l = some .zenkaku) ∧
      q.target = .ofText desk.typing q.text ∧ q.session = {} := by
  obtain ⟨p, hopen, hm, hl, hposition, hlesson, htitle, hime, htext, hhint, hkeyboard, hzenkaku⟩ :=
    Player.open_of_file hfile
  have hdrop : p.lines.drop p.position = before ++ line :: after := by rw [hl, hposition, List.drop_zero, hlines]
  have hvisits : before.length < p.maxVisits := by
    rw [Player.maxVisits, hl, hlines, List.length_append, List.length_cons]
    omega
  have hbegins : p.scan desk.library desk.typing =
      (true, p.beginning desk.typing (before.length + 1) [] before) :=
    Player.scanFrom_start desk.library desk.typing 16 p.maxVisits (before.length + 1) [] p
      (Player.isReading_of_run hm) hdrop hstart hsetup hvisits (by omega)
  refine ⟨desk.withPlayer p, p.beginning desk.typing (before.length + 1) [] before, ?_, ?_, rfl, hlesson, ?_, ?_, ?_,
    ?_, ?_, ?_, rfl, rfl⟩
  · rw [Desk.perform, hopen]
    rfl
  · have hempty : ¬(desk.withPlayer p).player.lines.isEmpty := by
      show ¬p.lines.isEmpty
      simp [hl, hlines]
    have hmode : (desk.withPlayer p).player.mode ≠ .practice := by
      show p.mode ≠ .practice
      simp [hm]
    rw [Desk.perform, (desk.withPlayer p).run_scan now clock' hempty hmode hbegins]
    rfl
  · simp [Player.beginning, hm, htext]
  · simp [Player.beginning, hm, hhint]
  · rw [Player.beginning, htitle]
  · rw [Player.beginning, hime]
  · rw [Player.beginning, hkeyboard, Bool.false_or, any_passages]
  · rw [Player.beginning, hzenkaku, Bool.false_or, any_passages]

namespace TwoTexts

/-- Lines with a text that a directive without effect ends, a hint, and another text with a blank line at its end. -/
def before : List Text :=
  ["x\n", ":title  One \n", ":text\n", "a\n", ":?\n", "b\n", ":hint\n", "h\n", ":zenkaku\n", ":text\n", "c\n",
    " \n"].map String.toList

def lesson : Text := (before ++ [":start\n".toList]).flatten

def desk : Desk where
  player := { lessonDir := [], finishDelay := .ofMillis 1000, source := ⟨1, 2, 3, 4⟩ }
  typing := {}
  log := { path := [] }
  disk := ⟨[([['a']], .file (Utf8.encode lesson))], []⟩

def clock : Timestamp := ⟨⟨2024, 2, 3, by decide⟩, 5400, 375000000, by decide, by decide⟩

theorem isSetup : ∀ l ∈ before, ∀ d, directive? l = some d → d.isSetup = true := by
  intro l hl d hd
  have hall : (before.all fun l => (directive? l).all Directive.isSetup) = true := by decide +kernel
  simpa [hd] using List.all_eq_true.1 hall l hl

end TwoTexts

/-- The second text counts, and it does so without the blank line. -/
theorem open_run_begins_twoTexts :
    TwoTexts.desk.library (Player.resolve TwoTexts.desk.player.lessonDir ['a']).2 = some TwoTexts.lesson ∧
      TwoTexts.lesson.linesKeepingBreaks = TwoTexts.before ++ [":start\n".toList] ∧
      ∃ opened q, TwoTexts.desk.perform TwoTexts.clock (.open ['a']) = .ok (some true, opened) ∧
        opened.perform TwoTexts.clock (.run .zero) = .ok (some true, TwoTexts.desk.withPlayer q) ∧
        q.mode = .practice ∧ q.text = ['c'] ∧ q.hint = ['h'] ∧ q.title = "One".toList ∧ q.imeMode = ['A'] ∧
        q.showsKeyboard = false ∧ q.zenkaku = true := by
  have hfile : TwoTexts.desk.library (Player.resolve TwoTexts.desk.player.lessonDir ['a']).2 =
      some TwoTexts.lesson := by
    decide +kernel
  have hlines : TwoTexts.lesson.linesKeepingBreaks = TwoTexts.before ++ [":start\n".toList] := by decide +kernel
  obtain ⟨opened, q, hopen, hrun, hm, -, htext, hhint, htitle, hime, hkeyboard, hzenkaku, -⟩ :=
    open_run_begins TwoTexts.desk ['a'] TwoTexts.lesson ":start\n".toList TwoTexts.before [] TwoTexts.clock
      TwoTexts.clock .zero hfile hlines (by decide +kernel) TwoTexts.isSetup
  refine ⟨hfile, hlines, opened, q, hopen, hrun, hm, htext.trans ?_, hhint.trans ?_, htitle.trans ?_, hime.trans ?_,
    Bool.eq_false_iff.2 fun h => ?_, hzenkaku.2 ?_⟩
  · decide +kernel
  · decide +kernel
  · decide +kernel
  · decide +kernel
  · exact absurd (hkeyboard.1 h) (by decide +kernel)
  · decide +kernel

end KanaTutor
