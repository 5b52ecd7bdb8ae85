/-
What the grace delay is counted from. A session remembers one instant, and all looks at its clock share it. It is that
of the first look of the present streak: of the looks that all saw a match, since one that saw none, or since the
session began anew or its clock started. A match that is broken and mended between two looks does not end the streak.
-/
import KanaTutor.Proofs.Practice.Clock
import Mathlib.Data.List.DropRight

namespace KanaTutor.Session

/-! ## Sights -/

/-- What is seen of a match: a look sees it, or sees that there is none, or the session begins anew or its clock
starts. -/
inductive Sight where
  | matched (now : Instant)
  | unmatched
  | restarted
deriving DecidableEq

/-- When a match is seen. -/
def Sight.matched? : Sight → Option Instant
  | matched now => some now
  | _ => none

/-- What is seen by a step. -/
def Step.sight? (plain : Text) (s : Session) : Step → Option Sight
  | ask _ now => some (if s.isMatch plain then .matched now else .unmatched)
  | step => if step.restarts s then some .restarted else none

/-- What is seen by steps. -/
def sights (plain : Text) (s : Session) : List Step → List Sight
  | [] => []
  | step :: steps => (step.sight? plain s).toList ++ sights plain (step.after plain s) steps

/-- When the looks of the present streak were: those that see a match, with nothing else after them. -/
def streak (seen : List Sight) : List Instant :=
  (seen.rtakeWhile fun sight => sight.matched?.isSome).filterMap Sight.matched?

theorem sights_append (plain : Text) (s : Session) (steps more : List Step) :
    sights plain s (steps ++ more) = sights plain s steps ++ sights plain (afterAll plain s steps) more := by
  induction steps generalizing s with
  | nil => rfl
  | cons step steps ih =>
    rw [List.cons_append, sights, sights, ih, List.append_assoc]
    rfl

theorem streak_matched (seen : List Sight) (now : Instant) :
    streak (seen ++ [.matched now]) = streak seen ++ [now] := by
  rw [streak, List.rtakeWhile_concat_pos _ _ _ rfl, List.filterMap_append]
  rfl

theorem streak_of_not_matched (seen : List Sight) {sight : Sight} (h : sight.matched? = none) :
    streak (seen ++ [sight]) = [] := by
  rw [streak, List.rtakeWhile_concat_neg _ _ _ (by rw [h]; exact Bool.false_ne_true)]
  rfl

theorem sight_of_not_ask {plain : Text} {s : Session} {step : Step} (h : step.isAsk = false) :
    step.sight? plain s = if step.restarts s then some .restarted else none := by
  cases step with
  | ask question now => cases h
  | _ => rfl

/-! ## What a session remembers -/

/-- A session whose clock was started remembers the first look of the streak, and one that was not remembers none. -/
structure Remembers (s : Session) (seen : List Sight) : Prop where
  timed : s.Timed
  first : s.startedAt ≠ none → s.finishedAt = (streak seen).head?

theorem remembers_new (seen : List Sight) : Remembers {} seen := ⟨timed_new, fun h => absurd rfl h⟩

section

variable {plain : Text} {s s' : Session} {step : Step} {seen : List Sight}

theorem Remembers.poll (h : Remembers s seen) (plain : Text) (now : Instant) :
    Remembers (s.poll plain now) (seen ++ [if s.isMatch plain then .matched now else .unmatched]) := by
  refine ⟨timed_poll plain now h.timed, fun hstarted => ?_⟩
  rw [startedAt_poll] at hstarted
  obtain ⟨start, hstart⟩ := Option.ne_none_iff_exists'.1 hstarted
  rw [finishedAt_poll hstart]
  split
  · -- a streak that has begun keeps its first look, and this is the first look of another one
    rw [streak_matched, h.first hstarted]
    cases streak seen with
    | nil => rfl
    | cons first rest => rfl
  · rw [streak_of_not_matched seen rfl]
    rfl

/-- What a step leaves in the session is the first look of the streak after it. -/
theorem Remembers.after (h : Remembers s seen) (hafter : step.after plain s = s') :
    Remembers s' (seen ++ (step.sight? plain s).toList) := by
  cases ticks hafter with
  | goesOn hask hrestarts hstart hfinish =>
    rw [sight_of_not_ask hask, hrestarts, if_neg Bool.false_ne_true, Option.toList_none, List.append_nil]
    refine ⟨fun hnone => ?_, fun hstarted => ?_⟩
    · rw [hfinish]
      exact h.timed (hstart.symm.trans hnone)
    · rw [hfinish]
      exact h.first (hstart ▸ hstarted)
  | begins => exact remembers_new _
  | starts hask hrestarts hnow hstart hfinish =>
    rw [sight_of_not_ask hask, hrestarts, if_pos rfl, Option.toList_some]
    refine ⟨fun _ => hfinish, fun _ => ?_⟩
    rw [hfinish, streak_of_not_matched seen rfl]
    rfl
  | looks question now => exact h.poll plain now

theorem Remembers.afterAll {steps : List Step} (h : Remembers s seen) :
    Remembers (Session.afterAll plain s steps) (seen ++ sights plain s steps) := by
  induction steps generalizing s seen with
  | nil => rwa [sights, List.append_nil]
  | cons step steps ih =>
    rw [sights, ← List.append_assoc]
    exact ih (h.after rfl)

end

/-! ## The grace delay -/

/-- For every target, all that is done to a new session, at any times, every grace and every time of a look: the look
finds the session finished exactly if its clock was started, the target is typed and nothing is pending, and the grace
has passed since the first look of the streak that this look belongs to. -/
theorem isFinished_iff (plain : Text) (steps : List Step) (grace : Duration) (now : Instant) :
    ((afterAll plain {} steps).poll plain now).isFinished grace now = true ↔
      (afterAll plain {} steps).startedAt ≠ none ∧
      (afterAll plain {} steps).typed = plain ∧ (afterAll plain {} steps).preedit.text = [] ∧
      ∃ first, (streak (sights plain {} (steps ++ [.ask (.finished grace) now]))).head? = some first ∧
        grace.nanos ≤ (now.since first).nanos := by
  have hbefore : Remembers (afterAll plain {} steps) (sights plain {} steps) := (remembers_new []).afterAll
  have hnow := hbefore.poll plain now
  have hsights : sights plain {} (steps ++ [.ask (.finished grace) now]) = sights plain {} steps ++
      [if (afterAll plain {} steps).isMatch plain then .matched now else .unmatched] := sights_append ..
  rw [← hsights] at hnow
  generalize afterAll plain {} steps = s at hbefore hnow
  constructor
  · intro hfinished
    obtain ⟨htyped, hpending⟩ := match_of_isFinished hbefore.timed hfinished
    unfold isFinished at hfinished
    split at hfinished
    · cases hfinished
    · rename_i first hfirst
      have hstarted : (s.poll plain now).startedAt ≠ none := fun hnone => nomatch hfirst.symm.trans (hnow.timed hnone)
      rw [hnow.first hstarted] at hfirst
      exact ⟨by rwa [startedAt_poll] at hstarted, htyped, hpending, first, hfirst, of_decide_eq_true hfinished⟩
  · rintro ⟨hstarted, -, -, first, hfirst, hgrace⟩
    rw [← startedAt_poll s plain now] at hstarted
    rw [isFinished, hnow.first hstarted, hfirst]
    exact decide_eq_true hgrace

/-- A match that is broken and mended again between two looks is finished with the grace after the first of them. -/
example : ((afterAll ['a'] {} [.append ['a'] ⟨0⟩, .ask .timedOut ⟨1⟩, .append ['b'] ⟨2⟩, .backspace]).poll ['a']
    ⟨6⟩).isFinished ⟨5⟩ ⟨6⟩ = true := by decide

end KanaTutor.Session
