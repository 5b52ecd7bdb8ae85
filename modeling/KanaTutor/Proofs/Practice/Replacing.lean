/-
Typed text that is deleted and replaced, as an input method does with what it converts. Deleting leaves the clock as it
is, also when nothing is left. But what is typed or pending next in an empty session starts the clock again. So the
clock goes on exactly if something is left, and if not, the time until then is lost while the keystrokes still count.
-/
import KanaTutor.Proofs.Practice.Clock

namespace KanaTutor.Session

/-! ## Sessions that can be reached -/

/-- A new session to which something was done at some times. Every look at its clock may be at another target. -/
inductive Reached : List Instant → Session → Prop where
  | new : Reached [] {}
  | step {times : List Instant} {s : Session} (plain : Text) (step : Step) : Reached times s →
      Reached (times ++ step.instant?.toList) (step.after plain s)

section

variable {times : List Instant} {s : Session}

/-- The clock was started when something was done. -/
theorem Reached.start_mem (h : Reached times s) {start : Instant} (hstart : s.startedAt = some start) :
    start ∈ times := by
  induction h with
  | new => cases hstart
  | @step times s plain step h ih =>
    generalize hafter : step.after plain s = s' at hstart
    cases ticks hafter with
    | goesOn hask hrestarts hsame hsame' hempty => exact List.mem_append_left _ (ih (hsame.symm.trans hstart))
    | begins => cases hstart
    | starts hask hrestarts hnow hsome hnone =>
      obtain rfl := Option.some.inj (hsome.symm.trans hstart)
      rw [hnow]
      exact List.mem_append_right _ (List.mem_singleton_self _)
    | looks question now =>
      rw [startedAt_poll] at hstart
      exact List.mem_append_left _ (ih hstart)

theorem Reached.clocked (h : Reached times s) (htimes : Ordered times) : Clocked s times := by
  induction h with
  | new => exact clocked_new []
  | step plain step h ih => exact (ih (List.pairwise_append.1 htimes).1).after rfl htimes

end

/-! ## Input after something was deleted -/

/-- Something is typed or pending at a time. -/
inductive Step.IsInput (now : Instant) : Step → Prop where
  | append (t : Text) : IsInput now (.append t now)
  | setPreedit (p : Preedit) : IsInput now (.setPreedit p now)

section

variable {s left : Session} {offset : Int} {count : Nat} {now : Instant} {input : Step} {plain : Text}

/-- What is typed or pending in a session that is not empty afterwards: the clock goes on if the session was not empty
before, and starts if it was. -/
theorem clock_of_input (hinput : input.IsInput now) (hsome : (input.after plain left).isEmpty = false) :
    (left.isEmpty = false → (input.after plain left).startedAt = left.startedAt) ∧
    (left.isEmpty = true → (input.after plain left).startedAt = some now ∧ (input.after plain left).finishedAt = none) ∧
    (input.after plain left).touches = left.touches := by
  have hsettled : ∃ edited, input.after plain left = settle left edited now ∧ edited.startedAt = left.startedAt ∧
      edited.touches = left.touches := by
    cases hinput with
    | append t => exact ⟨_, rfl, rfl, rfl⟩
    | setPreedit p => exact ⟨_, rfl, rfl, rfl⟩
  obtain ⟨edited, hafter, hstart, htouches⟩ := hsettled
  rw [hafter, isEmpty_settle] at hsome
  rw [hafter, settle, hsome]
  cases hleft : left.isEmpty with
  | true => simp [htouches]
  | false => simp [hstart, htouches]

/-- What is deleted does not depend on when the match was seen. -/
theorem delete?_finishedAt (s : Session) (finish : Option Instant) (offset : Int) (count : Nat) :
    delete? { s with finishedAt := finish } offset count =
      (s.delete? offset count).map fun left => { left with finishedAt := finish } := by
  unfold delete?
  dsimp only
  split <;> rfl

theorem isEmpty_input_finishedAt (hinput : input.IsInput now) (plain : Text) (left : Session) (finish : Option Instant) :
    (input.after plain { left with finishedAt := finish }).isEmpty = (input.after plain left).isEmpty := by
  cases hinput with
  | append t => rw [Step.after, Step.after, append, append, isEmpty_settle, isEmpty_settle]; rfl
  | setPreedit p => rw [Step.after, Step.after, setPreedit, setPreedit, isEmpty_settle, isEmpty_settle]; rfl

theorem startedAt_delete (h : s.delete? offset count = some left) : left.startedAt = s.startedAt := by
  have hafter : Step.after [] s (.delete offset count) = left := by rw [Step.after, h, Option.getD_some]
  rw [← hafter]
  exact startedAt_after rfl

/-- The same is left after a look at the clock, but for when the match was seen. -/
theorem delete?_poll (h : s.delete? offset count = some left) (plain : Text) (u : Instant) : ∃ finish,
    (s.poll plain u).delete? offset count = some { left with finishedAt := finish } := by
  unfold poll
  split
  · exact ⟨left.finishedAt, h⟩
  · exact ⟨_, by rw [delete?_finishedAt, h]; rfl⟩

/-- What a look before the deleting and one after the input tell. -/
theorem durations_of_replaced (hinput : input.IsInput now) {u v : Instant} {looked : Session}
    (hlooked : (s.poll plain u).delete? offset count = some looked) :
    durations plain s [.ask .duration u, .delete offset count, input, .ask .duration v] =
      [(s.poll plain u).elapsed u, ((input.after plain looked).poll plain v).elapsed v] := by
  have hasks : input.duration? plain looked = none := by cases hinput <;> rfl
  simp only [durations, Step.after, hlooked, Option.getD_some, hasks]
  rfl

/-- The clock goes on from one look to the other, if something is left in between. -/
theorem runsOn_of_replaced (hinput : input.IsInput now) {u v : Instant} {looked : Session}
    (hlooked : (s.poll plain u).delete? offset count = some looked) (hleft : looked.isEmpty = false)
    (hsome : (input.after plain looked).isEmpty = false) :
    RunsOn plain s [.ask .duration u, .delete offset count, input, .ask .duration v] := by
  have hdelete : Step.after plain (s.poll plain u) (.delete offset count) = looked := by
    rw [Step.after, hlooked, Option.getD_some]
  refine ⟨startedAt_poll s plain u, ?_⟩
  show RunsOn plain (s.poll plain u) _
  refine ⟨startedAt_after rfl, ?_⟩
  rw [hdelete]
  exact ⟨(clock_of_input hinput hsome).1 hleft, startedAt_poll _ plain v, trivial⟩

/-- A clock that has just been started tells the time since then. -/
theorem elapsed_poll_of_started (hstart : s.startedAt = some now) (hfinish : s.finishedAt = none) (plain : Text)
    (v : Instant) : (s.poll plain v).elapsed v = v.since now := by
  have hstart' : (s.poll plain v).startedAt = some now := (startedAt_poll s plain v).trans hstart
  rw [elapsed_of_started hstart', finishedAt_poll hstart, hfinish]
  split <;> rfl

end

/-- For every session that can be reached and was started, everything that can be deleted from it, and everything that
is typed or pending later and leaves it not empty. The keystrokes are kept. The clock goes on from the same start exactly
if the deleting has left something, and then it tells no less afterwards than it told before. If nothing was left, it
starts at the time of the input and tells the time since then. -/
theorem clock_of_replaced {times : List Instant} {s left : Session} {offset : Int} {count : Nat} {now : Instant}
    {input : Step} (hs : Reached times s) (hstarted : s.startedAt ≠ none) (hdelete : s.delete? offset count = some left)
    (hinput : input.IsInput now) (hlater : ∀ time ∈ times, time.nanos < now.nanos) (plain : Text)
    (hsome : (input.after plain left).isEmpty = false) :
    (input.after plain left).touches = s.touches ∧
    ((input.after plain left).startedAt = s.startedAt ↔ left.isEmpty = false) ∧
    (left.isEmpty = true → (input.after plain left).startedAt = some now) ∧
    ∀ u v, Ordered (times ++ [u, now, v]) → ∃ before after,
      durations plain s [.ask .duration u, .delete offset count, input, .ask .duration v] = [before, after] ∧
      (left.isEmpty = false → before.nanos ≤ after.nanos) ∧ (left.isEmpty = true → after = v.since now) := by
  obtain ⟨start, hstart⟩ := Option.ne_none_iff_exists'.1 hstarted
  obtain ⟨hon, hanew, htouches⟩ := clock_of_input hinput hsome
  refine ⟨htouches.trans (delete_frame hdelete).1, ⟨fun hsame => ?_, fun hleft => ?_⟩, fun hleft => (hanew hleft).1, ?_⟩
  · -- the input is later than the start
    by_contra hleft
    have hnow := (hanew (by simpa using hleft)).1
    obtain rfl := Option.some.inj (hnow.symm.trans (hsame.trans hstart))
    exact absurd (hlater _ (hs.start_mem hstart)) (Nat.lt_irrefl _)
  · exact (hon hleft).trans (startedAt_delete hdelete)
  · intro u v htimes
    obtain ⟨finish, hlooked⟩ := delete?_poll hdelete plain u
    have hsome' := (isEmpty_input_finishedAt hinput plain left finish).trans hsome
    refine ⟨_, _, durations_of_replaced hinput hlooked, fun hleft => ?_, fun hleft => ?_⟩
    · have hclocked := hs.clocked (List.pairwise_append.1 htimes).1
      have hinstants : instants [.ask .duration u, .delete offset count, input, .ask .duration v] = [u, now, v] := by
        cases hinput <;> rfl
      rw [← hinstants] at htimes
      have hmono := (hclocked.durations_mono htimes (runsOn_of_replaced hinput hlooked hleft hsome')).2
      rw [durations_of_replaced hinput hlooked] at hmono
      exact List.rel_of_pairwise_cons hmono (List.mem_singleton_self _)
    · obtain ⟨-, hanew', -⟩ := clock_of_input hinput hsome'
      obtain ⟨hstart', hfinish'⟩ := hanew' hleft
      exact elapsed_poll_of_started hstart' hfinish' plain v

namespace Converted

open Retyped (second)

/-- Two letters are typed with three keystrokes. -/
def twoLetters : Session := ⟨['a', 'b'], {}, some (second 1), none, 3⟩

theorem reached : Reached [second 1] twoLetters :=
  .step [] .touch (.step [] .touch (.step [] .touch (.step [] (.append ['a', 'b'] (second 1)) .new)))

/-- The session without its second letter, and without both. -/
def shortened : Session := { twoLetters with typed := ['a'] }

def emptied : Session := { twoLetters with typed := [] }

end Converted

open Converted Retyped in
/-- The second letter is replaced. -/
theorem clock_of_replaced_second : Reached [second 1] twoLetters ∧ twoLetters.startedAt ≠ none ∧
    twoLetters.delete? (-1) 1 = some shortened ∧ Step.IsInput (second 4) (.append ['c'] (second 4)) ∧
    (∀ time ∈ [second 1], time.nanos < (second 4).nanos) ∧ (shortened.append ['c'] (second 4)).isEmpty = false ∧
    (shortened.append ['c'] (second 4)).startedAt = some (second 1) ∧
    (shortened.append ['c'] (second 4)).touches = 3 ∧ ∃ before after,
      durations ['a', 'c'] twoLetters [.ask .duration (second 2), .delete (-1) 1, .append ['c'] (second 4),
        .ask .duration (second 6)] = [before, after] ∧ before.nanos ≤ after.nanos := by
  have hdelete : twoLetters.delete? (-1) 1 = some shortened := by decide
  have hlater : ∀ time ∈ [second 1], time.nanos < (second 4).nanos := by decide
  have hsome : (Step.after ['a', 'c'] shortened (.append ['c'] (second 4))).isEmpty = false := rfl
  obtain ⟨htouches, hstart, -, hdurations⟩ :=
    clock_of_replaced reached nofun hdelete (.append ['c']) hlater ['a', 'c'] hsome
  obtain ⟨before, after, htold, hle, -⟩ := hdurations (second 2) (second 6) (by unfold Ordered; decide)
  exact ⟨reached, nofun, hdelete, .append ['c'], hlater, hsome, hstart.2 rfl, htouches, before, after, htold, hle rfl⟩

open Converted Retyped in
/-- When both letters are replaced, the clock starts anew, and tells less than it told before for all keystrokes. -/
theorem clock_restarts_of_replaced : Reached [second 1] twoLetters ∧ twoLetters.delete? (-2) 2 = some emptied ∧
    emptied.startedAt = some (second 1) ∧ (emptied.append ['c'] (second 61)).startedAt = some (second 61) ∧
    (emptied.append ['c'] (second 61)).touches = twoLetters.touches ∧
    durations ['c'] twoLetters [.ask .duration (second 60), .delete (-2) 2, .append ['c'] (second 61),
      .ask .duration (second 61)] = [second 59, second 0] := by
  refine ⟨reached, ?_, rfl, rfl, rfl, ?_⟩
  · decide
  · decide

end KanaTutor.Session
