/-
Going back from an entry of a menu. The way back keeps the name of the lesson with the menu, and not its file. The name
is looked for in the directory of the entry, because a lesson that is opened in a directory makes all names be looked
for there. So the file of the lesson with the menu is read again if its name leads there from any directory, or if the
entry is in the same one.
-/
import KanaTutor.Proofs.Lesson.Staying

namespace KanaTutor

/-! ## The lesson that was read -/

/-- The file has been read with the text on one of the occasions, or could have been. -/
def Shown (os : List Occasion) (path : Path) (content : Text) : Prop :=
  ∃ o ∈ os, ∃ library, o.Reads library ∧ library path = some content

/-- The lesson has been read on one of the occasions, and a menu is one that it declares. -/
structure Player.ReadOn (os : List Occasion) (p : Player) : Prop where
  lines : p.lines ≠ [] → ∃ content, Shown os p.path content ∧ p.lines = content.linesKeepingBreaks
  menu : p.mode = .menu → ∃ targets, Declares p.lines targets

theorem Declares.ne_nil {lines targets : List Text} (h : Declares lines targets) : lines ≠ [] := by
  obtain ⟨line, hline, -⟩ := h
  exact List.ne_nil_of_mem hline

namespace Player

variable {os : List Occasion} {o : Occasion} {library : Library} {p q : Player}

theorem ReadOn.kept (h : p.ReadOn os) (hq : p.Kept q) : q.ReadOn os where
  lines := by
    rw [hq.lines, hq.path]
    exact h.lines
  menu := fun hm => by
    rw [hq.lines]
    exact h.menu (hq.menu hm)

theorem ReadOn.stays (h : p.ReadOn os) (hq : p.Stays library q) : q.ReadOn os := by
  cases hq with
  | kept hq => exact h.kept hq
  | lost hq => exact ⟨(h.kept hq).lines, (h.kept hq).menu⟩
  | offered hq hmenu => exact ⟨(h.kept hq).lines, fun _ => ⟨_, hq.lines ▸ hmenu⟩⟩

theorem Opened.readOn (h : p.Opened library) (ho : o ∈ os) (hreads : o.Reads library) : p.ReadOn os where
  lines := fun _ => by
    obtain ⟨content, hread, hlines⟩ := h.lines
    exact ⟨content, ⟨o, ho, library, hreads, hread⟩, hlines⟩
  menu := fun hm => by
    rw [h.mode] at hm
    cases hm

theorem ReadOn.next (h : p.ReadOn os) (ho : o ∈ os) (hnext : o.next? p = some q) : q.ReadOn os := by
  refine next_preserves ?_ ?_ h hnext
  · exact fun library _ p q hp hq => hp.stays hq
  · exact fun _ library hreads q hq => hq.readOn ho hreads

/-- Whatever happens, the lesson that a player is in has been read on one of the occasions. -/
theorem ReadOn.after {here : List Occasion} (h : p.ReadOn os) (hhere : here ⊆ os) (hq : p.after? here = some q) :
    q.ReadOn os := by
  induction here generalizing p with
  | nil =>
    cases hq
    exact h
  | cons o here ih =>
    obtain ⟨next, hnext, hafter⟩ := Option.bind_eq_some_iff.1 hq
    obtain ⟨ho, hhere⟩ := List.cons_subset.1 hhere
    exact ih (h.next ho hnext) hhere hafter

theorem readOn_new (os : List Occasion) (lessonDir : Path) (finishDelay : Duration) (source : Xoshiro) :
    (Player.new lessonDir finishDelay source).ReadOn os :=
  ⟨fun h => absurd rfl h, nofun⟩

end Player

/-! ## Staying in a lesson -/

/-- The file has the text on the occasion, also after a round has been recorded. -/
def Occasion.Holds (o : Occasion) (path : Path) (script : Text) : Prop :=
  ∀ library, o.Reads library → library path = some script

/-- None of the occasions opens a lesson when its turn comes. -/
def OpensNothing (p : Player) : List Occasion → Prop
  | [] => True
  | o :: os => ¬(o.desk p).Opens o.clock o.command ∧ ∀ q, o.next? p = some q → OpensNothing q os

namespace Player

/-- In a lesson that declares no menu, and from where the lesson to go back to can be read, nothing about the place and
the way back changes until a lesson is opened. -/
theorem Kept.of_stays {library : Library} {here x y : Player} {name : Text} {trail : Trail}
    (hplain : ∀ targets, ¬Declares here.lines targets) (hup : here.trail.up? here.lesson = some (name, trail))
    (hread : library (resolve here.lessonDir name).2 ≠ none) (h : here.Kept x) (hs : x.Stays library y) :
    here.Kept y := by
  cases h.stays hs with
  | kept h => exact h
  | lost _ hup' hnone =>
    rw [hup] at hup'
    cases hup'
    exact absurd hnone hread
  | offered _ hmenu => exact absurd hmenu (hplain _)

theorem Kept.after {here x y : Player} {name script : Text} {trail : Trail} {os : List Occasion}
    (hplain : ∀ targets, ¬Declares here.lines targets) (hup : here.trail.up? here.lesson = some (name, trail))
    (hholds : ∀ o ∈ os, o.Holds (resolve here.lessonDir name).2 script) (h : here.Kept x)
    (hopens : OpensNothing x os) (hy : x.after? os = some y) : here.Kept y := by
  induction os generalizing x with
  | nil =>
    cases hy
    exact h
  | cons o os ih =>
    obtain ⟨next, hnext, hafter⟩ := Option.bind_eq_some_iff.1 hy
    obtain ⟨ho, hos⟩ := List.forall_mem_cons.1 hholds
    have hstays : ∀ library, o.Reads library → ∀ x y, here.Kept x → x.Stays library y → here.Kept y :=
      fun library hreads x y hx => hx.of_stays hplain hup (by rw [ho library hreads]; exact Option.some_ne_none _)
    have hkept := next_preserves hstays (fun hlesson => absurd hlesson hopens.1) h hnext
    exact ih hos hkept (hopens.2 next hnext) hafter

end Player

/-! ## Names and directories -/

namespace Player

/-- The name says itself in which directory the lesson is. -/
def namesDirectory (name : Text) : Bool :=
  match Path.parent? name with
  | some (_ :: _) => true
  | _ => false

/-- A name leads to the same file from two directories if it names its own, or joins to the same path with both. -/
theorem path_resolve_eq_iff (dir dir' : Path) (name : Text) :
    (resolve dir name).2 = (resolve dir' name).2 ↔
      namesDirectory name = true ∨ Path.join dir name = Path.join dir' name := by
  unfold resolve namesDirectory
  rcases Path.parent? name with _ | _ | _ <;> simp

/-- A lesson that can be read is opened with its lines, in the directory that its name leads to. -/
structure Enters (p : Player) (name content : Text) (q : Player) : Prop where
  lines : q.lines = content.linesKeepingBreaks
  lesson : q.lesson = name
  lessonDir : q.lessonDir = (resolve p.lessonDir name).1
  trail : q.trail = p.trail

theorem enters_open {library : Library} {p : Player} {name content : Text}
    (hread : library (resolve p.lessonDir name).2 = some content) :
    ∃ q, p.open? library name = some q ∧ p.Enters name content q := by
  rw [open?]
  dsimp only
  rw [hread]
  exact ⟨_, rfl, rfl, rfl, rfl, rfl⟩

theorem Enters.path {p q : Player} {name content : Text} (h : p.Enters name content q) :
    q.path = (resolve p.lessonDir name).2 := by
  rw [Player.path, h.lesson, h.lessonDir, resolve_resolve]

/-- An entry of the menu that names a lesson that can be read opens it. -/
theorem enters_select {library : Library} {p q : Player} {index : Nat} {target content : Text} (hmenu : p.mode = .menu)
    (htarget : p.trail.menu[index]? = some target) (hentry : target ∉ ["stats".toList, "up".toList, "quit".toList])
    (hread : library (resolve p.lessonDir target).2 = some content) (hselect : p.select? library index = some q) :
    q.Opened library ∧ p.Enters target content q := by
  simp only [List.mem_cons, List.not_mem_nil, or_false, not_or] at hentry
  obtain ⟨hstats, hup, hquit⟩ := hentry
  obtain ⟨opened, hopen, henters⟩ := enters_open hread
  rw [select?, if_neg (not_not_intro hmenu), htarget, Option.map_some, if_neg hstats, if_neg hup, if_neg hquit,
    player_openOrStay, hopen] at hselect
  cases hselect
  exact ⟨opened_open hopen, henters⟩

/-- Going back opens the lesson to go back to, if that can be read. -/
theorem enters_up {library : Library} {p : Player} {name content : Text} {trail : Trail}
    (hup : p.trail.up? p.lesson = some (name, trail)) (hread : library (resolve p.lessonDir name).2 = some content) :
    (p.up library).Opened library ∧ { p with trail }.Enters name content (p.up library) := by
  obtain ⟨q, hopen, henters⟩ := enters_open (p := { p with trail }) hread
  have hmade : p.up library = q := by
    show (p.goUp library).player = q
    rw [player_goUp hup, hopen]
    rfl
  rw [hmade]
  exact ⟨opened_open hopen, henters⟩

end Player

/-! ## Going back to the menu -/

/-- For every player that offers a menu, after whatever has happened, and every entry that opens a lesson without a
menu: as long as the way back begins with the lesson of the menu, that lesson is the one to go back to. Its name is
looked for in the directory of the entry, which leads to the file that the lesson was read from exactly if the name
names its own directory, or if it joins to the same path with both directories. If it does, going back and escaping read
that file again, whatever the learner does in the meantime that opens no lesson. -/
theorem up_of_entry {lessonDir : Path} {finishDelay : Duration} {source : Xoshiro} {os here : List Occasion}
    {p q x : Player} {index : Nat} {target content script : Text} {library : Library}
    (hafter : (Player.new lessonDir finishDelay source).after? os = some p) (hmenu : p.mode = .menu)
    (hback : p.trail.back.head? = some p.lesson) (hscript : ∀ o ∈ os ++ here, o.Holds p.path script)
    (hlibrary : library p.path = some script) (htarget : p.trail.menu[index]? = some target)
    (hentry : target ∉ ["stats".toList, "up".toList, "quit".toList])
    (hread : library (Player.resolve p.lessonDir target).2 = some content)
    (hplain : ∀ targets, ¬Declares content.linesKeepingBreaks targets) (hselect : p.select? library index = some q)
    (hopens : OpensNothing q here) (hx : q.after? here = some x) :
    p.lines = script.linesKeepingBreaks ∧ q.lines = content.linesKeepingBreaks ∧
    q.trail.up? q.lesson = some (p.lesson, { p.trail with back := p.trail.back.tail }) ∧
    q.lessonDir = (Player.resolve p.lessonDir target).1 ∧
    ((Player.resolve q.lessonDir p.lesson).2 = p.path ↔ Player.namesDirectory p.lesson = true ∨
      Path.join q.lessonDir p.lesson = Path.join p.lessonDir p.lesson) ∧
    ((Player.resolve q.lessonDir p.lesson).2 = p.path →
      (x.up library).Opened library ∧ (x.up library).lesson = p.lesson ∧ (x.up library).path = p.path ∧
        (x.up library).lines = p.lines ∧ x.escape library = x.up library) := by
  -- the lesson with the menu has been read from the file
  have hreadOn : p.ReadOn os := (Player.readOn_new os lessonDir finishDelay source).after (List.Subset.refl os) hafter
  obtain ⟨targets, hdeclares⟩ := hreadOn.menu hmenu
  obtain ⟨shown, ⟨o, ho, found, hreads, hfound⟩, hlines⟩ := hreadOn.lines hdeclares.ne_nil
  rw [hscript o (List.mem_append_left _ ho) found hreads] at hfound
  cases hfound
  -- the entry is another lesson, because it declares no menu
  have hne : p.lesson ≠ target := by
    rintro rfl
    have hsame : some script = some content := hlibrary.symm.trans hread
    cases hsame
    exact hplain targets (hlines ▸ hdeclares)
  obtain ⟨hopened, henters⟩ := Player.enters_select hmenu htarget hentry hread hselect
  have hup : q.trail.up? q.lesson = some (p.lesson, { p.trail with back := p.trail.back.tail }) := by
    obtain ⟨rest, hrest⟩ := List.head?_eq_some_iff.1 hback
    rw [henters.trail, henters.lesson, Trail.up?, hrest]
    exact if_pos hne
  have hiff := Player.path_resolve_eq_iff q.lessonDir p.lessonDir p.lesson
  refine ⟨hlines, henters.lines, hup, henters.lessonDir, hiff, fun hsame => ?_⟩
  have hholds : ∀ o ∈ here, o.Holds (Player.resolve q.lessonDir p.lesson).2 script := by
    intro o ho
    rw [hsame]
    exact hscript o (List.mem_append_right _ ho)
  have hnone : ∀ targets, ¬Declares q.lines targets := by
    rw [henters.lines]
    exact hplain
  -- the learner is still in the lesson of the entry
  have hkept : q.Kept x := (Player.Kept.refl q).after hnone hup hholds hopens hx
  have hupx : x.trail.up? x.lesson = some (p.lesson, { p.trail with back := p.trail.back.tail }) := by
    rw [hkept.trail, hkept.lesson, hup]
  have hfile : (Player.resolve x.lessonDir p.lesson).2 = p.path := by rw [hkept.lessonDir, hsame]
  have hreadx : library (Player.resolve x.lessonDir p.lesson).2 = some script := by rw [hfile, hlibrary]
  obtain ⟨hback, hentersx⟩ := Player.enters_up hupx hreadx
  refine ⟨hback, hentersx.lesson, hentersx.path.trans hfile, hentersx.lines.trans hlines.symm, ?_⟩
  -- there are no statistics without a menu
  have hstats : x.mode ≠ .stats := by
    intro hm
    have hrun := hopened.mode
    rcases hkept.stats hm with hm | hm
    · rw [hrun] at hm
      cases hm
    · rw [hrun] at hm
      cases hm
  rw [Player.escape, if_neg hstats]

/-! ## A namesake in another directory -/

namespace Namesake

def script : Text := ":title main\n:menu other/a a\n".toList

/-- The script of the entries. -/
def plain : Text := "x\n".toList

/-- A lesson whose menu offers one of its own directory and one of another, in which there is a lesson of its name. -/
def disk : Disk :=
  ⟨[(["lessons".toList], .directory), (["lessons".toList, ['m']], .file (Utf8.encode script)),
    (["lessons".toList, ['a']], .file (Utf8.encode plain)), (["other".toList], .directory),
    (["other".toList, ['a']], .file (Utf8.encode plain)),
    (["other".toList, ['m']], .file (Utf8.encode ":title other\n:menu stats\n".toList))], []⟩

def asked (command : Command) : Occasion := ⟨command, OtherDirectory.clock, {}, { path := [] }, disk⟩

def opened : Player :=
  { OtherDirectory.idle with lines := [":title main\n".toList, ":menu other/a a\n".toList], lesson := ['m'] }

def choosing : Player :=
  { opened with
    mode := .menu, position := 2, title := "main".toList, trail := ⟨[['m']], ["other/a".toList, ['a']]⟩ }

/-- The player in the entry of the lesson's own directory, and in that of the other one. -/
def near : Player := { choosing with mode := .run, lines := [plain], position := 0, lesson := ['a'] }

def far : Player := { near with lesson := "other/a".toList, lessonDir := "other".toList }

theorem scan_opened : opened.scan disk.readText? {} = (false, choosing) := by
  have htitle : opened.readNext disk.readText? {} [] =
      ([], .ongoing { opened with position := 1, title := "main".toList }) := rfl
  have hmenu : ({ opened with position := 1, title := "main".toList } : Player).readNext disk.readText? {} [] =
      ([], .ongoing choosing) := rfl
  show Player.scanFrom _ _ (16 + 1) (4 + 1) _ _ = _
  rw [Player.scanFrom_ongoing 16 4 (by decide) (by decide) htitle,
    Player.scanFrom_ongoing 16 3 (by decide) (by decide) hmenu, Player.scanFrom_of_not_reading rfl]

theorem after_run : OtherDirectory.idle.after? ([.open ['m'], .run .zero].map asked) = some choosing := by
  have hopen : (asked (.open ['m'])).next? OtherDirectory.idle = some opened := by decide +kernel
  have hnext : (asked (.run .zero)).next? opened = some choosing :=
    Occasion.next_scan rfl (by decide) (by decide) scan_opened
  rw [List.map_cons, after_cons hopen, List.map_cons, after_cons hnext]
  rfl

/-- No round is recorded, and the file stays as it is. -/
theorem holds_asked (command : Command) : (asked command).Holds choosing.path script := by
  have hread : disk.readText? choosing.path = some script := by decide +kernel
  rintro library (rfl | ⟨r, rfl⟩)
  · exact hread
  · exact hread

theorem not_declares (targets : List Text) : ¬Declares plain.linesKeepingBreaks targets := by
  rintro ⟨line, hline, hmenu⟩
  obtain rfl : line = plain := List.mem_singleton.1 hline
  cases hmenu

theorem opensNothing_near : OpensNothing near [asked (.append ['y'] .zero)] := by
  refine ⟨?_, fun _ _ => trivial⟩
  intro hopens
  cases hopens with
  | moved hmove => cases hmove

end Namesake

open Namesake in
theorem up_of_entry_near :
    OtherDirectory.idle.after? ([.open ['m'], .run .zero].map asked) = some choosing ∧ choosing.mode = .menu ∧
    choosing.trail.back.head? = some choosing.lesson ∧
    (∀ o ∈ [.open ['m'], .run .zero].map asked ++ [asked (.append ['y'] .zero)], o.Holds choosing.path script) ∧
    disk.readText? choosing.path = some script ∧ choosing.trail.menu[1]? = some ['a'] ∧
    ['a'] ∉ ["stats".toList, "up".toList, "quit".toList] ∧
    disk.readText? (Player.resolve choosing.lessonDir ['a']).2 = some plain ∧
    (∀ targets, ¬Declares plain.linesKeepingBreaks targets) ∧
    choosing.select? disk.readText? 1 = some near ∧ OpensNothing near [asked (.append ['y'] .zero)] ∧
    near.after? [asked (.append ['y'] .zero)] = some near ∧
    (Player.resolve near.lessonDir choosing.lesson).2 = choosing.path ∧
    (near.up disk.readText?).path = choosing.path ∧ (near.up disk.readText?).lines = choosing.lines ∧
    near.escape disk.readText? = near.up disk.readText? := by
  have hscript : ∀ o ∈ [.open ['m'], .run .zero].map asked ++ [asked (.append ['y'] .zero)],
      o.Holds choosing.path script := by
    intro o ho
    obtain ⟨command, rfl⟩ : ∃ command, o = asked command := by
      simp only [List.map_cons, List.map_nil, List.cons_append, List.nil_append, List.mem_cons, List.not_mem_nil,
        or_false] at ho
      rcases ho with rfl | rfl | rfl
      · exact ⟨_, rfl⟩
      · exact ⟨_, rfl⟩
      · exact ⟨_, rfl⟩
    exact holds_asked command
  have hlibrary : disk.readText? choosing.path = some script := by decide +kernel
  have hread : disk.readText? (Player.resolve choosing.lessonDir ['a']).2 = some plain := by decide +kernel
  have hselect : choosing.select? disk.readText? 1 = some near := by decide +kernel
  have hx : near.after? [asked (.append ['y'] .zero)] = some near := by decide +kernel
  have hsame : (Player.resolve near.lessonDir choosing.lesson).2 = choosing.path := rfl
  obtain ⟨-, -, -, -, -, hreturns⟩ := up_of_entry after_run rfl rfl hscript hlibrary rfl (by decide) hread not_declares
    hselect opensNothing_near hx
  obtain ⟨-, -, hpath, hlines, hescape⟩ := hreturns hsame
  exact ⟨after_run, rfl, rfl, hscript, hlibrary, rfl, by decide, hread, not_declares, hselect, opensNothing_near, hx,
    hsame, hpath, hlines, hescape⟩

open Namesake in
/-- A lesson of another directory, opened from a menu. Going back from there reads the file of that directory with the
name of the lesson with the menu, and not the file that the menu was declared in. -/
theorem up_of_entry_far :
    OtherDirectory.idle.after? ([.open ['m'], .run .zero].map asked) = some choosing ∧ choosing.mode = .menu ∧
    choosing.path = "lessons/m".toList ∧ disk.readText? choosing.path = some script ∧
    choosing.lines = script.linesKeepingBreaks ∧ choosing.select? disk.readText? 0 = some far ∧
    far.lines = plain.linesKeepingBreaks ∧ (far.up disk.readText?).path = "other/m".toList ∧
    (far.up disk.readText?).lines = [":title other\n".toList, ":menu stats\n".toList] := by
  refine ⟨after_run, rfl, rfl, ?_, ?_, ?_, ?_, ?_, ?_⟩
  · decide +kernel
  · decide +kernel
  · decide +kernel
  · decide +kernel
  · decide +kernel
  · decide +kernel

end KanaTutor
