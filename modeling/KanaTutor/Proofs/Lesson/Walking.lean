/-
The way through a menu. Each lesson ends by going on to the next entry of the menu it was opened from, and whatever
happens in between keeps the learner there. As long as the next entry names a lesson, the walk is in the entry that
follows, and this is what the induction on the walk carries, with the entries that were passed in front.

The next entry is taken from the menu as it is. The entries that stand for the statistics, for going back and for the
end name no lesson, but they are opened like the others: so only a walk that meets none of them gets to the end of the
menu and goes back from there.
-/
import KanaTutor.Proofs.Lesson.GoingBack

namespace KanaTutor

/-- The entries of a menu that name no lesson. -/
def Trail.reserved : List Text := ["stats".toList, "up".toList, "quit".toList]

/-- Going on to the next entry of the menu. -/
abbrev Move.onward : Move := .scriptNext none

/-- Lessons that can be read in turn, each from the directory that the one before it leads to. -/
def ReadInTurn (library : Library) : Path → List Text → Prop
  | _, [] => True
  | dir, name :: rest =>
    library (Player.resolve dir name).2 ≠ none ∧ ReadInTurn library (Player.resolve dir name).1 rest

namespace Player

/-- The player is in the lesson of the file that its name leads to. -/
def HasRead (library : Library) (p : Player) : Prop :=
  ∃ content, library p.path = some content ∧ p.lines = content.linesKeepingBreaks

/-- A walk goes on again and again, and in between the player stays in its lesson. The names are those of the lessons
that it is in afterwards. -/
inductive Walks (library : Library) (typing : Typing) : Player → List Text → Player → Prop where
  | stays {p q : Player} : p.Kept q → Walks library typing p [] q
  | goesOn {p x y q : Player} {names : List Text} : p.Kept x → Move.onward.make library typing x = y →
      Walks library typing y names q → Walks library typing p (y.lesson :: names) q

end Player

/-! ## The next entry -/

theorem Trail.nextAfter?_append {current : Text} {before rest : List Text} (h : current ∉ before) :
    nextAfter? current (before ++ current :: rest) = rest.head? := by
  induction before with
  | nil => simp [nextAfter?]
  | cons entry before ih =>
    rw [List.mem_cons, not_or] at h
    rw [List.cons_append, nextAfter?, if_neg (Ne.symm h.1), ih h.2]

namespace Player

variable {library : Library} {typing : Typing} {p q x : Player} {name : Text} {before rest : List Text}

/-- The player is in the lesson of an entry of the menu, which is the first of its name. -/
structure StandsAt (p : Player) (before : List Text) (name : Text) (rest : List Text) : Prop where
  lesson : p.lesson = name
  menu : p.trail.menu = before ++ name :: rest
  first : name ∉ before

theorem StandsAt.kept (h : p.StandsAt before name rest) (hx : p.Kept x) : x.StandsAt before name rest where
  lesson := hx.lesson.trans h.lesson
  menu := by rw [hx.trail, h.menu]
  first := h.first

theorem StandsAt.next? (h : p.StandsAt before name rest) : p.trail.next? p.lesson = rest.head? := by
  rw [Trail.next?, h.lesson, h.menu, Trail.nextAfter?_append h.first]

theorem StandsAt.destination? {entry : Text} (h : p.StandsAt before name (entry :: rest)) :
    Move.onward.destination? p = some (entry, p.trail) := by
  rw [Move.destination?, h.next?]
  rfl

theorem HasRead.kept (h : p.HasRead library) (hx : p.Kept x) : x.HasRead library := by
  obtain ⟨content, hread, hlines⟩ := h
  exact ⟨content, by rw [hx.path, hread], hx.lines.trans hlines⟩

/-- Going on from an entry opens the next one, if that can be read. -/
theorem onward_of_standsAt {entry : Text} (typing : Typing) (h : p.StandsAt before name (entry :: rest))
    (hfirst : entry ∉ before ++ [name]) (hread : library (resolve p.lessonDir entry).2 ≠ none) :
    (Move.onward.make library typing p).StandsAt (before ++ [name]) entry rest ∧
    (Move.onward.make library typing p).HasRead library ∧
    (Move.onward.make library typing p).trail = p.trail ∧
    (Move.onward.make library typing p).lessonDir = (resolve p.lessonDir entry).1 := by
  obtain ⟨content, hcontent⟩ := Option.ne_none_iff_exists'.1 hread
  obtain ⟨q, hopen, henters⟩ := enters_open hcontent
  have hmake : Move.onward.make library typing p = q := by
    rw [Move.make_eq library typing h.destination?, hopen]
    rfl
  rw [hmake]
  have hmenu : q.trail.menu = before ++ [name] ++ entry :: rest := by rw [henters.trail, h.menu]; simp
  exact ⟨⟨henters.lesson, hmenu, hfirst⟩, (opened_open hopen).lines, henters.trail, henters.lessonDir⟩

/-- Going on to an entry that cannot be read changes nothing. -/
theorem onward_of_unreadable {entry : Text} (typing : Typing) (h : p.StandsAt before name (entry :: rest))
    (hread : library (resolve p.lessonDir entry).2 = none) : Move.onward.make library typing p = p := by
  rw [Move.make_eq library typing h.destination?, open?]
  simp [hread]

/-- Going on from the last entry goes back. -/
theorem onward_of_last (library : Library) (typing : Typing) (h : p.StandsAt before name []) :
    Move.onward.make library typing p = p.up library := by
  show ((p.goNext library none).outcome).player = _
  rw [player_outcome, goNext, h.next?]
  rfl

/-! ## Walks -/

/-- Lessons that were not passed are not passed either when another one is. -/
theorem not_mem_passed {lessons : List Text} (h : ∀ entry ∈ lessons, entry ∉ before) (hname : name ∉ lessons) :
    ∀ entry ∈ lessons, entry ∉ before ++ [name] := by
  intro entry hentry hin
  rcases List.mem_append.1 hin with hin | hin
  · exact h entry hentry hin
  · rw [List.mem_singleton.1 hin] at hentry
    exact hname hentry

/-- A walk through lessons that can be read is in one after the other. -/
theorem Walks.standsAt {lessons tail names : List Text} (hwalk : Walks library typing p names q)
    (hstands : p.StandsAt before name (lessons ++ tail)) (hread : p.HasRead library)
    (hturn : ReadInTurn library p.lessonDir lessons) (hnew : ∀ entry ∈ lessons, entry ∉ before ++ [name])
    (hdistinct : lessons.Nodup) (hlength : names.length ≤ lessons.length) :
    names = lessons.take names.length ∧ q.trail = p.trail ∧ q.HasRead library ∧
      ∃ passed here, q.StandsAt passed here (lessons.drop names.length ++ tail) := by
  induction hwalk generalizing before name lessons with
  | stays hkept => exact ⟨rfl, hkept.trail, hread.kept hkept, before, name, hstands.kept hkept⟩
  | goesOn hkept hmake hwalk ih =>
    cases lessons with
    | nil => cases hlength
    | cons entry lessons =>
      obtain ⟨hentry, hturn⟩ := hturn
      rw [← hkept.lessonDir] at hentry hturn
      obtain ⟨hnotin, hnew⟩ := List.forall_mem_cons.1 hnew
      obtain ⟨hne, hdistinct⟩ := List.nodup_cons.1 hdistinct
      obtain ⟨hstands, hread, htrail, hdir⟩ :=
        onward_of_standsAt typing (hstands.kept hkept) hnotin hentry
      rw [hmake] at hstands hread htrail hdir
      rw [← hdir] at hturn
      obtain ⟨hnames, htrail', hread', hthere⟩ :=
        ih hstands hread hturn (not_mem_passed hnew hne) hdistinct (Nat.le_of_succ_le_succ hlength)
      refine ⟨?_, htrail'.trans (htrail.trans hkept.trail), hread', hthere⟩
      rw [List.length_cons, List.take_succ_cons, ← hnames, hstands.lesson]

end Player

/-- For every menu, with entries that name no lesson in front of the first one that does, and lessons after that one
that are different and can be read in turn. A walk from the first lesson is in one lesson after the other, in the order
of the menu, and keeps the trail. When it is in the last of them, going on goes back, if this is the end of the menu:
then the walk has been in all lessons of the menu, once in each. If it is not, the entry that follows is what going on
leads to, also if it names no lesson, and if it cannot be read, the walk gets no further. -/
theorem walk_through_menu {library : Library} {typing : Typing} {start p q : Player}
    {before lessons tail names : List Text} {first : Text}
    (hmenu : start.trail.menu = before ++ first :: (lessons ++ tail)) (hbefore : ∀ entry ∈ before, entry ∈ Trail.reserved)
    (hlessons : ∀ entry ∈ first :: lessons, entry ∉ Trail.reserved) (hdistinct : (first :: lessons).Nodup)
    (hopen : start.open? library first = some p) (hturn : ReadInTurn library p.lessonDir lessons)
    (hwalk : p.Walks library typing names q) (hlength : names.length ≤ lessons.length) :
    names = lessons.take names.length ∧ q.HasRead library ∧ q.trail = start.trail ∧
    (names.length = lessons.length →
      (tail = [] → start.trail.menu.filter (· ∉ Trail.reserved) = first :: names ∧
        Move.onward.make library typing q = q.up library) ∧
      ∀ entry more, tail = entry :: more → Move.onward.destination? q = some (entry, q.trail) ∧
        (library (Player.resolve q.lessonDir entry).2 = none → Move.onward.make library typing q = q)) := by
  obtain ⟨hnotin, hnew⟩ := List.forall_mem_cons.1 hlessons
  obtain ⟨hne, hdistinct⟩ := List.nodup_cons.1 hdistinct
  have hstands : p.StandsAt before first (lessons ++ tail) := by
    obtain ⟨content, -, rfl⟩ := Option.map_eq_some_iff.1 hopen
    exact ⟨rfl, hmenu, fun hin => hnotin (hbefore first hin)⟩
  have hnew' : ∀ entry ∈ lessons, entry ∉ before ++ [first] :=
    Player.not_mem_passed (fun entry hentry hin => hnew entry hentry (hbefore entry hin)) hne
  have htrail : p.trail = start.trail := by
    obtain ⟨content, -, rfl⟩ := Option.map_eq_some_iff.1 hopen
    rfl
  obtain ⟨hnames, hsame, hread, passed, here, hthere⟩ :=
    hwalk.standsAt hstands (Player.opened_open hopen).lines hturn hnew' hdistinct hlength
  refine ⟨hnames, hread, hsame.trans htrail, fun hall => ?_⟩
  rw [hall, List.take_length] at hnames
  rw [hall, List.drop_length, List.nil_append] at hthere
  constructor
  · rintro rfl
    refine ⟨?_, Player.onward_of_last library typing hthere⟩
    have hnone : before.filter (· ∉ Trail.reserved) = [] := by simpa using hbefore
    have hboth : (first :: lessons).filter (· ∉ Trail.reserved) = first :: lessons := by simpa using hlessons
    rw [hmenu, List.append_nil, List.filter_append, hnone, hboth, hnames]
    rfl
  · rintro entry more rfl
    exact ⟨hthere.destination?, Player.onward_of_unreadable typing hthere⟩

/-! ## A menu of three lessons, and one that ends with the statistics -/

namespace ThreeLessons

/-- Lessons of two directories. The third one is offered without its directory, which is that of the second one. -/
def disk : Disk :=
  ⟨[(["lessons".toList], .directory), (["lessons".toList, ['a']], .file (Utf8.encode ":next\n".toList)),
    (["other".toList], .directory), (["other".toList, ['b']], .file (Utf8.encode ":next\n".toList)),
    (["other".toList, ['c']], .file (Utf8.encode ":next\n".toList))], []⟩

def choosing : Player :=
  { OtherDirectory.idle with
    mode := .menu, lesson := ['m'], trail := ⟨[['m']], ["stats".toList, ['a'], "other/b".toList, ['c']]⟩ }

def first : Player := { choosing with mode := .run, lines := [":next\n".toList], lesson := ['a'] }

def second : Player := { first with lesson := "other/b".toList, lessonDir := "other".toList }

def third : Player := { second with lesson := ['c'] }

theorem walk : first.Walks disk.readText? {} ["other/b".toList, ['c']] third := by
  have hsecond : Move.onward.make disk.readText? {} first = second := by decide +kernel
  have hthird : Move.onward.make disk.readText? {} second = third := by decide +kernel
  exact .goesOn (.refl first) hsecond (.goesOn (.refl second) hthird (.stays (.refl third)))

end ThreeLessons

open ThreeLessons in
theorem walk_through_menu_three :
    choosing.trail.menu = ["stats".toList] ++ ['a'] :: (["other/b".toList, ['c']] ++ []) ∧
    (∀ entry ∈ ["stats".toList], entry ∈ Trail.reserved) ∧
    (∀ entry ∈ [['a'], "other/b".toList, ['c']], entry ∉ Trail.reserved) ∧
    [['a'], "other/b".toList, ['c']].Nodup ∧ choosing.open? disk.readText? ['a'] = some first ∧
    ReadInTurn disk.readText? first.lessonDir ["other/b".toList, ['c']] ∧
    choosing.trail.menu.filter (· ∉ Trail.reserved) = [['a'], "other/b".toList, ['c']] ∧
    Move.onward.make disk.readText? {} third = third.up disk.readText? := by
  have hbefore : ∀ entry ∈ ["stats".toList], entry ∈ Trail.reserved := by decide
  have hlessons : ∀ entry ∈ [['a'], "other/b".toList, ['c']], entry ∉ Trail.reserved := by decide
  have hdistinct : [['a'], "other/b".toList, ['c']].Nodup := by decide
  have hopen : choosing.open? disk.readText? ['a'] = some first := by decide +kernel
  have hturn : ReadInTurn disk.readText? first.lessonDir ["other/b".toList, ['c']] := by
    refine ⟨?_, ?_, trivial⟩
    · decide +kernel
    · decide +kernel
  have hmenu : choosing.trail.menu = ["stats".toList] ++ ['a'] :: (["other/b".toList, ['c']] ++ []) := rfl
  obtain ⟨-, -, -, hlast⟩ := walk_through_menu hmenu hbefore hlessons hdistinct hopen hturn walk (Nat.le_refl _)
  obtain ⟨hall, hback⟩ := (hlast rfl).1 rfl
  exact ⟨hmenu, hbefore, hlessons, hdistinct, hopen, hturn, hall, hback⟩

namespace StatsLast

/-- A lesson whose menu offers one lesson and, behind it, the statistics. -/
def disk : Disk :=
  ⟨[(["lessons".toList], .directory), (["lessons".toList, ['m']], .file (Utf8.encode ":menu a stats\n".toList)),
    (["lessons".toList, ['a']], .file (Utf8.encode ":next\n".toList))], []⟩

def asked (command : Command) : Occasion := ⟨command, OtherDirectory.clock, {}, { path := [] }, disk⟩

def opened : Player := { OtherDirectory.idle with lines := [":menu a stats\n".toList], lesson := ['m'] }

def choosing : Player :=
  { opened with mode := .menu, position := 1, trail := ⟨[['m']], [['a'], "stats".toList]⟩ }

def there : Player := { choosing with mode := .run, lines := [":next\n".toList], position := 0, lesson := ['a'] }

theorem after_select : OtherDirectory.idle.after? ([.open ['m'], .run .zero, .select 0].map asked) = some there := by
  have hopen : (asked (.open ['m'])).next? OtherDirectory.idle = some opened := by decide +kernel
  have hrun : (asked (.run .zero)).next? opened = some choosing :=
    Occasion.next_scan rfl (by decide) (by decide) (Player.scan_of_stop rfl (by decide) rfl rfl)
  have hselect : (asked (.select 0)).next? choosing = some there := by decide +kernel
  rw [List.map_cons, after_cons hopen, List.map_cons, after_cons hrun, List.map_cons, after_cons hselect]
  rfl

end StatsLast

open StatsLast in
/-- In the only lesson of the menu, going on leads to the statistics as if they were a lesson, and not back. -/
theorem onward_to_reserved :
    OtherDirectory.idle.after? ([.open ['m'], .run .zero, .select 0].map asked) = some there ∧
    there.trail.menu.filter (· ∉ Trail.reserved) = [there.lesson] ∧
    Move.onward.destination? there = some ("stats".toList, there.trail) ∧
    Move.onward.make disk.readText? {} there = there ∧ (there.up disk.readText?).lesson = ['m'] := by
  refine ⟨after_select, ?_, ?_, ?_, ?_⟩
  · decide
  · decide
  · decide +kernel
  · decide +kernel

end KanaTutor
