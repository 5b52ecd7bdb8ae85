/-
The way back when the current lesson stands at its end more than once. A lesson whose menu comes up again, after the
statistics or when its script is read anew, is put on the way back each time. Going back takes one entry of the current
lesson off and leads to the entry before it, which may be the current lesson too: so it takes them off in twos, and gets
to another lesson only when one of them is left, or none.
-/
import KanaTutor.Proofs.Lesson.Moves
import Mathlib.Data.List.TakeWhile

namespace KanaTutor

namespace Trail

/-! ## Entries of the current lesson -/

/-- How often the current lesson stands at the end of the way back. -/
def repeats (trail : Trail) (current : Text) : Nat := (trail.back.takeWhile (· = current)).length

/-- The way back before those entries. -/
def others (trail : Trail) (current : Text) : List Text := trail.back.dropWhile (· = current)

/-- The lesson and the trail after going back a number of times, each time from the lesson that was reached. -/
def climb (trail : Trail) (current : Text) : Nat → Option (Text × Trail)
  | 0 => some (current, trail)
  | n + 1 => (climb trail current n).bind fun (name, reached) => reached.up? name

variable {trail : Trail} {current name : Text} {rest : List Text}

theorem back_eq (trail : Trail) (current : Text) :
    trail.back = List.replicate (trail.repeats current) current ++ trail.others current := by
  have hsame : trail.back.takeWhile (· = current) = List.replicate (trail.repeats current) current := by
    refine List.eq_replicate_iff.2 ⟨rfl, fun entry hentry => ?_⟩
    simpa using List.mem_takeWhile_imp hentry
  rw [← hsame, others, List.takeWhile_append_dropWhile]

theorem ne_of_others (h : trail.others current = name :: rest) : name ≠ current := by
  have hhead := List.head?_dropWhile_not (· = current) trail.back
  rw [show trail.back.dropWhile (· = current) = name :: rest from h] at hhead
  simpa using hhead

/-! ## Going back once -/

theorem up?_eq_none_iff (trail : Trail) (current : Text) : trail.up? current = none ↔ trail.back = [] := by
  unfold up?
  split
  · rename_i hback
    simp [hback]
  · rename_i top rest hback
    rw [hback]
    split
    · simp
    · split <;> simp

/-- One entry of the current lesson is passed over, and what comes before it is not looked at. -/
theorem up?_of_one (h : trail.back = current :: name :: rest) :
    trail.up? current = some (name, { trail with back := rest }) := by
  rw [up?, h]
  exact if_neg (not_not_intro rfl)

theorem up?_of_none (h : trail.back = name :: rest) (hne : name ≠ current) :
    trail.up? current = some (name, { trail with back := rest }) := by
  rw [up?, h]
  exact if_pos hne

/-- Where going back leads with at most one entry of the current lesson before another one. -/
theorem up?_of_few (hothers : trail.others current = name :: rest) (hfew : trail.repeats current ≤ 1) :
    trail.up? current = some (name, { trail with back := rest }) := by
  have hback := back_eq trail current
  rw [hothers] at hback
  rcases Nat.le_one_iff_eq_zero_or_eq_one.1 hfew with hzero | hone
  · rw [hzero] at hback
    exact up?_of_none hback (ne_of_others hothers)
  · rw [hone] at hback
    exact up?_of_one hback

/-- Where going back leads with more entries of the current lesson. -/
theorem up?_of_many (hmany : 2 ≤ trail.repeats current) : trail.up? current =
    some (current, { trail with back := List.replicate (trail.repeats current - 2) current ++ trail.others current }) := by
  have hback := back_eq trail current
  obtain ⟨k, hk⟩ := Nat.exists_eq_add_of_le' hmany
  rw [hk, List.replicate_succ, List.replicate_succ] at hback
  rw [hk, Nat.add_sub_cancel]
  exact up?_of_one hback

/-- Only the current lesson is on the way back. -/
theorem up?_of_no_others (hothers : trail.others current = []) (hback : trail.back ≠ []) :
    (trail.up? current).map Prod.fst = some current := by
  have heq := back_eq trail current
  rw [hothers, List.append_nil] at heq
  rcases Nat.lt_or_ge (trail.repeats current) 2 with hfew | hmany
  · have hone : trail.repeats current = 1 := by
      have hzero : trail.repeats current ≠ 0 := by
        intro hzero
        rw [hzero] at heq
        exact hback heq
      omega
    rw [hone] at heq
    rw [up?, heq]
    simp
  · rw [up?_of_many hmany]
    rfl

/-! ## Going back again and again -/

theorem repeats_replicate (k : Nat) (hne : name ≠ current) (rest menu : List Text) :
    repeats ⟨List.replicate k current ++ name :: rest, menu⟩ current = k ∧
      others ⟨List.replicate k current ++ name :: rest, menu⟩ current = name :: rest := by
  have hall : ∀ entry ∈ List.replicate k current, decide (entry = current) = true := by
    intro entry hentry
    exact decide_eq_true (List.eq_of_mem_replicate hentry)
  unfold repeats others
  dsimp only
  rw [List.takeWhile_append_of_pos hall, List.dropWhile_append_of_pos hall,
    List.takeWhile_cons_of_neg (by simpa using hne), List.dropWhile_cons_of_neg (by simpa using hne)]
  simp

/-- The current lesson is reached again and again until at most one entry of it is left. -/
theorem climb_repeats (hothers : trail.others current = name :: rest) {n : Nat} (hn : 2 * n ≤ trail.repeats current) :
    trail.climb current n = some (current,
      { trail with back := List.replicate (trail.repeats current - 2 * n) current ++ name :: rest }) := by
  induction n with
  | zero =>
    have hback := back_eq trail current
    rw [hothers] at hback
    rw [climb, Nat.mul_zero, Nat.sub_zero, ← hback]
  | succ n ih =>
    obtain ⟨hrepeats, hrest⟩ := repeats_replicate (trail.repeats current - 2 * n) (ne_of_others hothers) rest trail.menu
    rw [climb, ih (by omega), Option.bind_some]
    dsimp only
    rw [up?_of_many (by rw [hrepeats]; omega), hrepeats, hrest, Nat.sub_sub]
    rfl

/-- The other lesson is reached then. -/
theorem climb_others (hothers : trail.others current = name :: rest) :
    trail.climb current (trail.repeats current / 2 + 1) = some (name, { trail with back := rest }) := by
  obtain ⟨hrepeats, hrest⟩ := repeats_replicate (trail.repeats current - 2 * (trail.repeats current / 2))
    (ne_of_others hothers) rest trail.menu
  rw [climb, climb_repeats hothers (by omega), Option.bind_some]
  exact up?_of_few hrest (by rw [hrepeats]; omega)

/-- For every trail and every current lesson. There is no lesson to go back to exactly if the way back is empty, and if
only the current lesson is on it, going back leads to that. Else it leads to the last other lesson, and takes that and
all behind it off, exactly if the current lesson stands behind it at most once; and exactly if it does twice or more,
going back leads to the current lesson again. It does so once for every two entries, and then leads to the other one. -/
theorem up?_of_repeats (trail : Trail) (current : Text) :
    (trail.up? current = none ↔ trail.back = []) ∧
    (trail.others current = [] → trail.back ≠ [] → (trail.up? current).map Prod.fst = some current) ∧
    ∀ name rest, trail.others current = name :: rest →
      (trail.up? current = some (name, { trail with back := rest }) ↔ trail.repeats current ≤ 1) ∧
      ((trail.up? current).map Prod.fst = some current ↔ 2 ≤ trail.repeats current) ∧
      (∀ n, 2 * n ≤ trail.repeats current → (trail.climb current n).map Prod.fst = some current) ∧
      trail.climb current (trail.repeats current / 2 + 1) = some (name, { trail with back := rest }) := by
  refine ⟨up?_eq_none_iff trail current, up?_of_no_others, fun name rest hothers => ?_⟩
  have hne := ne_of_others hothers
  refine ⟨⟨fun hup => ?_, up?_of_few hothers⟩, ⟨fun hup => ?_, fun hmany => ?_⟩, fun n hn => ?_, climb_others hothers⟩
  · by_contra hmany
    rw [up?_of_many (by omega)] at hup
    cases hup
    exact hne rfl
  · by_contra hfew
    rw [up?_of_few hothers (by omega)] at hup
    cases hup
    exact hne rfl
  · rw [up?_of_many hmany]
    rfl
  · rw [climb_repeats hothers hn]
    rfl

/-- Three entries of the current lesson before another one, and the current lesson alone. -/
theorem up?_of_repeats_thrice :
    others ⟨[['m'], ['m'], ['m'], ['x']], []⟩ ['m'] = [['x']] ∧ repeats ⟨[['m'], ['m'], ['m'], ['x']], []⟩ ['m'] = 3 ∧
    (up? ⟨[['m'], ['m'], ['m'], ['x']], []⟩ ['m']).map Prod.fst = some ['m'] ∧
    climb ⟨[['m'], ['m'], ['m'], ['x']], []⟩ ['m'] 2 = some (['x'], ⟨[], []⟩) ∧
    others ⟨[['m'], ['m']], []⟩ ['m'] = [] ∧ (up? ⟨[['m'], ['m']], []⟩ ['m']).map Prod.fst = some ['m'] := by
  have hothers : others ⟨[['m'], ['m'], ['m'], ['x']], []⟩ ['m'] = [['x']] := rfl
  have halone : others ⟨[['m'], ['m']], []⟩ ['m'] = [] := rfl
  obtain ⟨-, -, hrepeated⟩ := up?_of_repeats ⟨[['m'], ['m'], ['m'], ['x']], []⟩ ['m']
  obtain ⟨-, hagain, -, hclimb⟩ := hrepeated ['x'] [] hothers
  obtain ⟨-, hself, -⟩ := up?_of_repeats ⟨[['m'], ['m']], []⟩ ['m']
  exact ⟨hothers, rfl, hagain.2 (by decide), hclimb, halone, hself halone (by simp)⟩

end Trail

/-! ## A menu that comes up twice -/

namespace MenuAgain

/-- A lesson whose menu offers another one, whose menu offers the statistics. -/
def disk : Disk :=
  ⟨[(["lessons".toList], .directory), (["lessons".toList, ['x']], .file (Utf8.encode ":menu m\n".toList)),
    (["lessons".toList, ['m']], .file (Utf8.encode ":menu stats\n".toList))], []⟩

def asked (command : Command) : Occasion := ⟨command, OtherDirectory.clock, {}, { path := [] }, disk⟩

def outer : Player := { OtherDirectory.idle with lines := [":menu m\n".toList], lesson := ['x'] }

def outerMenu : Player := { outer with mode := .menu, position := 1, trail := ⟨[['x']], [['m']]⟩ }

def inner : Player := { outerMenu with mode := .run, lines := [":menu stats\n".toList], position := 0, lesson := ['m'] }

def innerMenu : Player := { inner with mode := .menu, position := 1, trail := ⟨[['m'], ['x']], ["stats".toList]⟩ }

def looking : Player := { innerMenu with mode := .stats }

/-- The player that has left the statistics. -/
def back : Player := { innerMenu with mode := .run }

def again : Player := { innerMenu with trail := ⟨[['m'], ['m'], ['x']], ["stats".toList]⟩ }

theorem after_stats : OtherDirectory.idle.after?
    ([.open ['x'], .run .zero, .select 0, .run .zero, .select 0, .escape, .run .zero].map asked) = some again := by
  have hopen : (asked (.open ['x'])).next? OtherDirectory.idle = some outer := by decide +kernel
  have houter : (asked (.run .zero)).next? outer = some outerMenu :=
    Occasion.next_scan rfl (by decide) (by decide) (Player.scan_of_stop rfl (by decide) rfl rfl)
  have hselect : (asked (.select 0)).next? outerMenu = some inner := by decide +kernel
  have hinner : (asked (.run .zero)).next? inner = some innerMenu :=
    Occasion.next_scan rfl (by decide) (by decide) (Player.scan_of_stop rfl (by decide) rfl rfl)
  have hlooking : (asked (.select 0)).next? innerMenu = some looking := by decide +kernel
  have hback : (asked .escape).next? looking = some back := by decide +kernel
  have hagain : (asked (.run .zero)).next? back = some again :=
    Occasion.next_scan rfl (by decide) (by decide) (Player.scan_of_stop rfl (by decide) rfl rfl)
  simp only [List.map_cons, after_cons hopen, after_cons houter, after_cons hselect, after_cons hinner,
    after_cons hlooking, after_cons hback, after_cons hagain]
  rfl

end MenuAgain

open MenuAgain in
/-- A player that goes back from a lesson whose menu has come up twice opens the lesson again that it is in, although
there is another one to go back to. -/
theorem up_reopens :
    OtherDirectory.idle.after?
      ([.open ['x'], .run .zero, .select 0, .run .zero, .select 0, .escape, .run .zero].map asked) = some again ∧
    again.lesson = ['m'] ∧ again.trail.others again.lesson = [['x']] ∧
    again.trail.up? again.lesson ≠ some (['x'], { again.trail with back := [] }) ∧
    (again.up disk.readText?).lesson = ['m'] ∧ (again.up disk.readText?).trail.back = [['x']] := by
  refine ⟨after_stats, rfl, rfl, ?_, ?_, ?_⟩
  · decide
  · decide +kernel
  · decide +kernel

end KanaTutor
