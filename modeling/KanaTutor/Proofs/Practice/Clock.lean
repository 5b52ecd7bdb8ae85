/-
The clock of a session, over all that can be done to one. What is typed or pending has started the clock, and where the
match was seen first lies between the start and the last time at which anything was done. What the clock has told so far
is a bound below: `elapsed` at the last instant never gets less as long as the clock goes on from the same start.
-/
import KanaTutor.Proofs.Lesson.Overtime

namespace KanaTutor.Session

/-! ## Steps -/

/-- What the clock is asked. -/
inductive Question where
  | duration
  | finished (grace : Duration)
  | timedOut
deriving DecidableEq

/-- What is done to a session. -/
inductive Step where
  | append (t : Text) (now : Instant)
  | backspace
  | delete (offset : Int) (count : Nat)
  | setPreedit (p : Preedit) (now : Instant)
  | touch
  | reset
  | ask (question : Question) (now : Instant)
deriving DecidableEq

namespace Step

/-- The session after a step, at the target `plain`. Every question is a look at the clock. -/
def after (plain : Text) (s : Session) : Step → Session
  | append t now => s.append t now
  | backspace => s.backspace
  | delete offset count => (s.delete? offset count).getD s
  | setPreedit p now => s.setPreedit p now
  | touch => s.touch
  | reset => {}
  | ask _ now => s.poll plain now

/-- When a step is done, if the session takes notice of it. -/
def instant? : Step → Option Instant
  | append _ now => some now
  | setPreedit _ now => some now
  | ask _ now => some now
  | _ => none

/-- The duration that a step asks for. -/
def duration? (plain : Text) (s : Session) : Step → Option Duration
  | ask .duration now => some ((s.poll plain now).elapsed now)
  | _ => none

/-- The step is a question. -/
def isAsk : Step → Bool
  | ask _ _ => true
  | _ => false

/-- The step begins the session anew, or starts its clock: it is a reset, or something is typed or pending now and was
not before, or the other way round. Deleting does neither. -/
def restarts (s : Session) : Step → Bool
  | append t now => s.isEmpty != (s.append t now).isEmpty
  | backspace => s.isEmpty != s.backspace.isEmpty
  | setPreedit p now => s.isEmpty != (s.setPreedit p now).isEmpty
  | reset => true
  | delete _ _ | touch | ask _ _ => false

end Step

/-- The session after steps. -/
def afterAll (plain : Text) (s : Session) (steps : List Step) : Session :=
  steps.foldl (fun s step => step.after plain s) s

/-- When the steps are done. -/
def instants (steps : List Step) : List Instant := steps.filterMap Step.instant?

/-- The durations that the steps ask for. -/
def durations (plain : Text) (s : Session) : List Step → List Duration
  | [] => []
  | step :: steps => (step.duration? plain s).toList ++ durations plain (step.after plain s) steps

/-- The clock goes on from the same start. -/
def RunsOn (plain : Text) (s : Session) : List Step → Prop
  | [] => True
  | step :: steps => (step.after plain s).startedAt = s.startedAt ∧ RunsOn plain (step.after plain s) steps

theorem instants_cons (step : Step) (steps : List Step) :
    instants (step :: steps) = step.instant?.toList ++ instants steps := by
  unfold instants
  cases h : step.instant? with
  | none => rw [List.filterMap_cons_none h]; rfl
  | some now => rw [List.filterMap_cons_some h]; rfl

theorem instants_append (steps more : List Step) : instants (steps ++ more) = instants steps ++ instants more :=
  List.filterMap_append

/-! ## What a step does to the clock -/

/-- The clock goes on, or the session begins anew, or its clock starts, or it is looked at. -/
inductive Ticks (plain : Text) (s : Session) : Step → Session → Prop
  | goesOn {step : Step} {s' : Session} (hask : step.isAsk = false) (hrestarts : step.restarts s = false)
      (hstart : s'.startedAt = s.startedAt) (hfinish : s'.finishedAt = s.finishedAt)
      (hempty : s'.isEmpty = false → s.isEmpty = false) : Ticks plain s step s'
  | begins {step : Step} (hask : step.isAsk = false) (hrestarts : step.restarts s = true) : Ticks plain s step {}
  | starts {step : Step} {s' : Session} {now : Instant} (hask : step.isAsk = false)
      (hrestarts : step.restarts s = true) (hnow : step.instant? = some now) (hstart : s'.startedAt = some now)
      (hfinish : s'.finishedAt = none) : Ticks plain s step s'
  | looks (question : Question) (now : Instant) : Ticks plain s (.ask question now) (s.poll plain now)

theorem ticks_settle {plain : Text} {s edited : Session} {step : Step} {now : Instant} (hask : step.isAsk = false)
    (hrestarts : step.restarts s = (s.isEmpty != (settle s edited now).isEmpty)) (hnow : step.instant? = some now)
    (hstart : edited.startedAt = s.startedAt) (hfinish : edited.finishedAt = s.finishedAt) :
    Ticks plain s step (settle s edited now) := by
  rw [isEmpty_settle] at hrestarts
  unfold settle
  split
  · rename_i hs hedited
    rw [hs, hedited] at hrestarts
    exact .begins hask hrestarts
  · rename_i hs hedited
    rw [hs, hedited] at hrestarts
    exact .starts hask hrestarts hnow rfl rfl
  · rename_i hreset hstarts
    have hempty : s.isEmpty = edited.isEmpty := by
      cases hs : s.isEmpty with
      | false => cases he : edited.isEmpty with
        | false => rfl
        | true => exact absurd he (hreset hs)
      | true => cases he : edited.isEmpty with
        | false => exact absurd he (hstarts hs)
        | true => rfl
    rw [hempty, bne_self_eq_false] at hrestarts
    exact .goesOn hask hrestarts hstart hfinish fun he => hempty.trans he

theorem ticks_backspace (plain : Text) (s : Session) : Ticks plain s .backspace s.backspace := by
  by_cases htyped : s.typed.isEmpty = true
  · have hsame : s.backspace = s := by rw [backspace, if_pos htyped]
    rw [hsame]
    exact .goesOn rfl (by rw [Step.restarts, hsame, bne_self_eq_false]) rfl rfl id
  · have hs : s.isEmpty = false := by simp [isEmpty, htyped]
    have hbackspace : s.backspace =
        if isEmpty { s with typed := s.typed.dropLast } then {} else { s with typed := s.typed.dropLast } := by
      rw [backspace, if_neg htyped]
    by_cases hempty : isEmpty { s with typed := s.typed.dropLast } = true
    · rw [if_pos hempty] at hbackspace
      have hrestarts : Step.restarts s .backspace = true := by rw [Step.restarts, hbackspace, hs]; rfl
      rw [hbackspace]
      exact .begins rfl hrestarts
    · rw [if_neg hempty] at hbackspace
      have hrestarts : Step.restarts s .backspace = false := by
        rw [Step.restarts, hbackspace, hs, Bool.eq_false_iff.2 hempty]; rfl
      rw [hbackspace]
      exact .goesOn rfl hrestarts rfl rfl fun _ => hs

/-- Deleting can leave the session empty, but its clock goes on. -/
theorem ticks_delete (plain : Text) (s : Session) (offset : Int) (count : Nat) :
    Ticks plain s (.delete offset count) ((s.delete? offset count).getD s) := by
  unfold delete?
  dsimp only
  split
  · refine .goesOn rfl rfl rfl rfl fun hempty => ?_
    rw [Option.getD_some, isEmpty] at hempty
    rw [isEmpty]
    cases htyped : s.typed with
    | nil => rwa [htyped, List.take_nil, List.drop_nil] at hempty
    | cons c typed => rfl
  · exact .goesOn rfl rfl rfl rfl id

theorem ticks {plain : Text} {s s' : Session} {step : Step} (h : step.after plain s = s') : Ticks plain s step s' := by
  subst h
  cases step with
  | append t now => exact ticks_settle rfl rfl rfl rfl rfl
  | setPreedit p now => exact ticks_settle rfl rfl rfl rfl rfl
  | backspace => exact ticks_backspace plain s
  | delete offset count => exact ticks_delete plain s offset count
  | touch => exact .goesOn rfl rfl rfl rfl id
  | reset => exact .begins rfl rfl
  | ask question now => exact .looks question now

theorem isEmpty_poll (s : Session) (plain : Text) (now : Instant) : (s.poll plain now).isEmpty = s.isEmpty := by
  obtain ⟨htyped, hpreedit, -, -⟩ := poll_frame s plain now
  rw [isEmpty, isEmpty, htyped, hpreedit]

theorem startedAt_poll (s : Session) (plain : Text) (now : Instant) : (s.poll plain now).startedAt = s.startedAt :=
  (poll_frame s plain now).2.2.2

/-- A look at a clock that was started keeps when the match was seen first, which may be now. -/
theorem finishedAt_poll {s : Session} {start : Instant} (h : s.startedAt = some start) (plain : Text) (now : Instant) :
    (s.poll plain now).finishedAt = if s.isMatch plain then some (s.finishedAt.getD now) else none := by
  rw [poll, h]

theorem poll_of_not_started {s : Session} (h : s.startedAt = none) (plain : Text) (now : Instant) :
    s.poll plain now = s := by
  rw [poll, h]

theorem elapsed_of_started {s : Session} {start : Instant} (h : s.startedAt = some start) (now : Instant) :
    s.elapsed now = (s.finishedAt.getD now).since start := by
  rw [elapsed, h]

theorem elapsed_of_not_started {s : Session} (h : s.startedAt = none) (now : Instant) : s.elapsed now = .zero := by
  rw [elapsed, h]

/-- The start changes only when the session begins anew or its clock starts. -/
theorem startedAt_after {plain : Text} {s : Session} {step : Step} (h : step.restarts s = false) :
    (step.after plain s).startedAt = s.startedAt := by
  generalize hafter : step.after plain s = s'
  cases ticks hafter with
  | goesOn _ _ hstart => exact hstart
  | begins _ hrestarts => exact nomatch h.symm.trans hrestarts
  | starts _ hrestarts => exact nomatch h.symm.trans hrestarts
  | looks question now => exact startedAt_poll s plain now

/-! ## Times that do not go back -/

/-- The clock of a session in which something was done at some times: what is typed or pending has started it, and it
started, and the match was seen first, not after the last of them. -/
structure Clocked (s : Session) (times : List Instant) : Prop where
  started : s.isEmpty = false → s.startedAt ≠ none
  start : ∀ start, s.startedAt = some start → ∃ last, times.getLast? = some last ∧ start.nanos ≤ last.nanos
  finish : ∀ finish, s.finishedAt = some finish → ∃ start last, s.startedAt = some start ∧
    times.getLast? = some last ∧ start.nanos ≤ finish.nanos ∧ finish.nanos ≤ last.nanos

/-- The times do not go back. -/
def Ordered (times : List Instant) : Prop := times.Pairwise (·.nanos ≤ ·.nanos)

theorem clocked_new (times : List Instant) : Clocked {} times :=
  ⟨fun h => Bool.noConfusion h, fun _ h => (nomatch h), fun _ h => (nomatch h)⟩

/-- The last of the times does not go back when there are more of them. -/
theorem exists_later {times more : List Instant} (h : Ordered (times ++ more)) {last : Instant}
    (hlast : times.getLast? = some last) :
    ∃ later, (times ++ more).getLast? = some later ∧ last.nanos ≤ later.nanos := by
  rw [List.getLast?_append]
  cases hmore : more.getLast? with
  | none => exact ⟨last, hlast, Nat.le_refl _⟩
  | some later =>
    exact ⟨later, rfl, (List.pairwise_append.1 h).2.2 _ (List.mem_of_getLast? hlast) _ (List.mem_of_getLast? hmore)⟩

section

variable {plain : Text} {s s' : Session} {step : Step} {times : List Instant}

/-- A step keeps the clock. -/
theorem Clocked.after (h : Clocked s times) (hafter : step.after plain s = s')
    (htimes : Ordered (times ++ step.instant?.toList)) : Clocked s' (times ++ step.instant?.toList) := by
  have hstart : ∀ start, s.startedAt = some start →
      ∃ last, (times ++ step.instant?.toList).getLast? = some last ∧ start.nanos ≤ last.nanos := by
    intro start hstart
    obtain ⟨last, hlast, hle⟩ := h.start start hstart
    obtain ⟨later, hlater, hle'⟩ := exists_later htimes hlast
    exact ⟨later, hlater, Nat.le_trans hle hle'⟩
  have hfinish : ∀ finish, s.finishedAt = some finish → ∃ start last, s.startedAt = some start ∧
      (times ++ step.instant?.toList).getLast? = some last ∧ start.nanos ≤ finish.nanos ∧ finish.nanos ≤ last.nanos := by
    intro finish hfinish
    obtain ⟨start, last, hs, hlast, hle, hle'⟩ := h.finish finish hfinish
    obtain ⟨later, hlater, hle''⟩ := exists_later htimes hlast
    exact ⟨start, later, hs, hlater, hle, Nat.le_trans hle' hle''⟩
  cases ticks hafter with
  | goesOn hask hrestarts hsame hsame' hempty =>
    refine ⟨fun he => ?_, ?_, ?_⟩
    · rw [hsame]
      exact h.started (hempty he)
    · rw [hsame]
      exact hstart
    · rw [hsame, hsame']
      exact hfinish
  | begins => exact clocked_new _
  | starts hask hrestarts hnow hsome hnone =>
    refine ⟨fun _ => by rw [hsome]; exact Option.some_ne_none _, fun start hs => ?_, fun finish hf => ?_⟩
    · obtain rfl := Option.some.inj (hs.symm.trans hsome)
      exact ⟨start, by rw [hnow, Option.toList_some, List.getLast?_concat], Nat.le_refl _⟩
    · exact nomatch hnone.symm.trans hf
  | looks question now =>
    refine ⟨fun he => ?_, fun start hs => hstart start ((startedAt_poll s plain now).symm.trans hs), fun finish hf => ?_⟩
    · rw [startedAt_poll]
      exact h.started ((isEmpty_poll s plain now).symm.trans he)
    · rw [startedAt_poll]
      cases hs : s.startedAt with
      | none =>
        rw [poll_of_not_started hs] at hf
        exact hs ▸ hfinish finish hf
      | some start =>
        rw [finishedAt_poll hs] at hf
        split at hf
        · cases hseen : s.finishedAt with
          | some seen =>
            rw [hseen] at hf
            cases hf
            exact hs ▸ hfinish _ hseen
          | none =>
            -- the match is seen first now
            rw [hseen] at hf
            cases hf
            obtain ⟨last, hlast, hle⟩ := hstart start hs
            have hnow : (times ++ (Step.ask question now).instant?.toList).getLast? = some now := List.getLast?_concat
            obtain rfl := Option.some.inj (hnow.symm.trans hlast)
            exact ⟨start, now, rfl, hnow, hle, Nat.le_refl _⟩
        · cases hf

/-- Steps keep the clock. -/
theorem Clocked.afterAll {steps : List Step} (h : Clocked s times) (htimes : Ordered (times ++ instants steps)) :
    Clocked (Session.afterAll plain s steps) (times ++ instants steps) := by
  induction steps generalizing s times with
  | nil => rwa [instants, List.filterMap_nil, List.append_nil]
  | cons step steps ih =>
    rw [instants_cons, ← List.append_assoc] at htimes ⊢
    exact ih (h.after rfl (List.pairwise_append.1 htimes).1) htimes

/-! ## Durations -/

/-- What the clock would tell at the last of some times. -/
def reading (s : Session) (times : List Instant) : Nat := (s.elapsed (times.getLast?.getD .zero)).nanos

/-- As long as the clock goes on from the same start, it does not go back. -/
theorem Clocked.reading_le (h : Clocked s times) (hafter : step.after plain s = s')
    (htimes : Ordered (times ++ step.instant?.toList)) (hsame : s'.startedAt = s.startedAt) :
    reading s times ≤ reading s' (times ++ step.instant?.toList) := by
  unfold reading
  cases hstart : s.startedAt with
  | none =>
    rw [elapsed_of_not_started hstart]
    exact Nat.zero_le _
  | some start =>
    rw [hstart] at hsame
    obtain ⟨last, hlast, -⟩ := h.start start hstart
    obtain ⟨later, hlater, hle⟩ := exists_later htimes hlast
    -- the time goes to where the match was seen first, or to the last instant
    have hto : (s.finishedAt.getD last).nanos ≤ last.nanos := by
      cases hfinish : s.finishedAt with
      | none => exact Nat.le_refl _
      | some finish =>
        obtain ⟨_, last', -, hlast', -, hle'⟩ := h.finish finish hfinish
        obtain rfl := Option.some.inj (hlast.symm.trans hlast')
        exact hle'
    have hgetD : (s.finishedAt.getD last).nanos ≤ (s.finishedAt.getD later).nanos := by
      cases hfinish : s.finishedAt with
      | none => exact hle
      | some finish => exact Nat.le_refl _
    rw [elapsed_of_started hstart, elapsed_of_started hsame, hlast, hlater, Option.getD_some, Option.getD_some]
    refine Nat.sub_le_sub_right ?_ _
    cases ticks hafter with
    | goesOn hask hrestarts hsame hsame' hempty => rwa [hsame']
    | begins => cases hsame
    | starts hask hrestarts hnow hsome hnone =>
      rw [hnone]
      exact Nat.le_trans hto hle
    | looks question now =>
      rw [finishedAt_poll hstart]
      have hnow : (times ++ (Step.ask question now).instant?.toList).getLast? = some now := List.getLast?_concat
      obtain rfl := Option.some.inj (hnow.symm.trans hlater)
      split
      · exact hgetD
      · exact Nat.le_trans hto hle

/-- What the clock tells is its reading after it was looked at. -/
theorem reading_of_duration {d : Duration} (hd : step.duration? plain s = some d) :
    d.nanos = reading (step.after plain s) (times ++ step.instant?.toList) := by
  unfold Step.duration? at hd
  split at hd
  · rename_i now
    cases hd
    have hnow : (times ++ (Step.ask .duration now).instant?.toList).getLast? = some now := List.getLast?_concat
    rw [reading, hnow]
    rfl
  · cases hd

/-- The clock tells no less than its reading before, and no less than it told before. -/
theorem Clocked.durations_mono {steps : List Step} (h : Clocked s times)
    (htimes : Ordered (times ++ instants steps)) (hruns : RunsOn plain s steps) :
    (∀ d ∈ durations plain s steps, reading s times ≤ d.nanos) ∧
      (durations plain s steps).Pairwise (·.nanos ≤ ·.nanos) := by
  induction steps generalizing s times with
  | nil => exact ⟨fun d hd => absurd hd List.not_mem_nil, .nil⟩
  | cons step steps ih =>
    obtain ⟨hsame, hruns⟩ := hruns
    rw [instants_cons, ← List.append_assoc] at htimes
    have htimes' := (List.pairwise_append.1 htimes).1
    have hle := h.reading_le rfl htimes' hsame
    obtain ⟨hbound, hmono⟩ := ih (h.after rfl htimes') htimes hruns
    have htold : ∀ d ∈ (step.duration? plain s).toList,
        d.nanos = reading (step.after plain s) (times ++ step.instant?.toList) := by
      intro d hd
      exact reading_of_duration (Option.mem_toList.1 hd)
    rw [durations]
    refine ⟨fun d hd => ?_, List.pairwise_append.2 ⟨?_, hmono, fun d hd e he => ?_⟩⟩
    · rcases List.mem_append.1 hd with hd | hd
      · rw [htold d hd]
        exact hle
      · exact Nat.le_trans hle (hbound d hd)
    · cases step.duration? plain s with
      | none => exact .nil
      | some d => exact List.pairwise_singleton _ _
    · rw [htold d hd]
      exact hbound e he

end

/-! ## Looks at a match -/

/-- A session that was not started, or whose match has been seen, is not changed by looks at its match. -/
def Seen (s : Session) (plain : Text) : Prop :=
  s.isMatch plain = true ∧ (s.startedAt ≠ none → s.finishedAt ≠ none)

theorem seen_poll {s : Session} {plain : Text} (h : s.isMatch plain = true) (now : Instant) :
    (s.poll plain now).Seen plain :=
  ⟨by rwa [isMatch_poll], fun hstarted => watched_poll s plain now (by rwa [isMatch_poll]) hstarted⟩

theorem Seen.poll {s : Session} {plain : Text} (h : s.Seen plain) (now : Instant) : s.poll plain now = s := by
  obtain ⟨hmatch, hseen⟩ := h
  unfold Session.poll
  split
  · rfl
  · rename_i start hstart
    obtain ⟨finish, hfinish⟩ := Option.ne_none_iff_exists'.1 (hseen (by rw [hstart]; exact Option.some_ne_none _))
    rw [if_pos hmatch, hfinish]
    show ({ s with finishedAt := some finish } : Session) = s
    rw [← hfinish]

theorem Seen.elapsed {s : Session} {plain : Text} (h : s.Seen plain) (now now' : Instant) :
    s.elapsed now = s.elapsed now' := by
  cases hstart : s.startedAt with
  | none => rw [elapsed_of_not_started hstart, elapsed_of_not_started hstart]
  | some start =>
    obtain ⟨finish, hfinish⟩ := Option.ne_none_iff_exists'.1 (h.2 (by rw [hstart]; exact Option.some_ne_none _))
    rw [elapsed_of_started hstart, elapsed_of_started hstart, hfinish]
    rfl

theorem Seen.durations {s : Session} {plain : Text} (h : s.Seen plain) {looks : List Step}
    (hlooks : ∀ step ∈ looks, step.isAsk = true) : ∀ d ∈ durations plain s looks, d = s.elapsed .zero := by
  induction looks with
  | nil => exact fun d hd => absurd hd List.not_mem_nil
  | cons step looks ih =>
    obtain ⟨hask, hrest⟩ := List.forall_mem_cons.1 hlooks
    cases step with
    | ask question now =>
      intro d hd
      rw [Session.durations, Step.after, h.poll] at hd
      rcases List.mem_append.1 hd with hd | hd
      · cases question with
        | duration =>
          rw [Step.duration?, h.poll] at hd
          obtain rfl := List.mem_singleton.1 hd
          exact h.elapsed now .zero
        | finished grace => cases hd
        | timedOut => cases hd
      · exact ih hrest d hd
    | _ => cases hask

/-- Looks at a match, and nothing else, tell one duration. -/
theorem durations_of_isMatch {s : Session} {plain : Text} (h : s.isMatch plain = true) {looks : List Step}
    (hlooks : ∀ step ∈ looks, step.isAsk = true) : ∃ d, ∀ d' ∈ durations plain s looks, d' = d := by
  cases looks with
  | nil => exact ⟨.zero, fun d hd => absurd hd List.not_mem_nil⟩
  | cons step looks =>
    cases step with
    | ask question now =>
      -- the match is seen by the first look, which tells what it would tell again
      have hseen := seen_poll h now
      have hagain : durations plain s (.ask question now :: looks) =
          durations plain (s.poll plain now) (.ask question now :: looks) := by
        rw [durations, durations, Step.after, Step.after, hseen.poll]
        cases question with
        | duration => rw [Step.duration?, Step.duration?, hseen.poll]
        | finished grace => rfl
        | timedOut => rfl
      rw [hagain]
      exact ⟨_, hseen.durations hlooks⟩
    | _ => cases (List.forall_mem_cons.1 hlooks).1

/-! ## All that can be done to a session -/

theorem typed_or_pending_iff (s : Session) : (s.typed ≠ [] ∨ s.preedit.text ≠ []) ↔ s.isEmpty = false := by
  unfold isEmpty
  cases s.typed <;> cases s.preedit.text <;> simp

/-- For every target and all that is done to a new session at times that do not go back. What is typed or pending has
started the clock. The match was seen first between the start and the last of the times. The durations that are told do
not get less as long as the clock goes on from the same start, and looks at a match, with nothing done in between, tell
one duration. -/
theorem clocked_afterAll (plain : Text) (steps : List Step)
    (htimes : (instants steps).Pairwise (·.nanos ≤ ·.nanos)) :
    ((afterAll plain {} steps).typed ≠ [] ∨ (afterAll plain {} steps).preedit.text ≠ [] →
      (afterAll plain {} steps).startedAt ≠ none) ∧
    (∀ finish, (afterAll plain {} steps).finishedAt = some finish →
      ∃ start last, (afterAll plain {} steps).startedAt = some start ∧ (instants steps).getLast? = some last ∧
        start.nanos ≤ finish.nanos ∧ finish.nanos ≤ last.nanos) ∧
    (∀ before on, steps = before ++ on → RunsOn plain (afterAll plain {} before) on →
      (durations plain (afterAll plain {} before) on).Pairwise (·.nanos ≤ ·.nanos)) ∧
    ∀ before looks, steps = before ++ looks → (∀ step ∈ looks, step.isAsk = true) →
      (afterAll plain {} before).isMatch plain = true →
      ∃ d, ∀ d' ∈ durations plain (afterAll plain {} before) looks, d' = d := by
  have hclocked : Clocked (afterAll plain {} steps) (instants steps) := (clocked_new []).afterAll htimes
  refine ⟨fun h => hclocked.started ((typed_or_pending_iff _).1 h), hclocked.finish, ?_, ?_⟩
  · rintro before on rfl hruns
    rw [instants_append] at htimes
    have hbefore : Clocked (afterAll plain {} before) (instants before) :=
      (clocked_new []).afterAll (List.pairwise_append.1 htimes).1
    exact (hbefore.durations_mono htimes hruns).2
  · rintro before looks rfl hlooks hmatch
    exact durations_of_isMatch hmatch hlooks

namespace Retyped

def second (n : Nat) : Instant := .ofWholeSeconds n

/-- A letter is typed. -/
def begun : List Step := [.append ['a'] (second 1)]

/-- The second letter is typed, taken back and typed again. -/
def retyped : List Step := [.ask .duration (second 2), .append ['b'] (second 3), .ask .duration (second 4),
  .ask .duration (second 6), .backspace, .ask .duration (second 7), .append ['b'] (second 7)]

/-- Nothing is done any more. -/
def watched : List Step := [.ask .timedOut (second 8), .ask .duration (second 9), .ask (.finished (second 1)) (second 10),
  .ask .duration (second 12)]

end Retyped

open Retyped in
/-- A second letter that is typed twice: the clock stops at the second match when this is seen. -/
theorem clocked_afterAll_retyped :
    (instants (begun ++ (retyped ++ watched))).Pairwise (·.nanos ≤ ·.nanos) ∧
    RunsOn ['a', 'b'] (afterAll ['a', 'b'] {} begun) (retyped ++ watched) ∧
    durations ['a', 'b'] (afterAll ['a', 'b'] {} begun) (retyped ++ watched) = [1, 3, 3, 6, 7, 7].map second ∧
    (afterAll ['a', 'b'] {} (begun ++ retyped)).isMatch ['a', 'b'] = true ∧
    (afterAll ['a', 'b'] {} (begun ++ (retyped ++ watched))).startedAt ≠ none ∧
    ([1, 3, 3, 6, 7, 7].map second).Pairwise (·.nanos ≤ ·.nanos) ∧
    ∃ d, ∀ d' ∈ durations ['a', 'b'] (afterAll ['a', 'b'] {} (begun ++ retyped)) watched, d' = d := by
  have htimes : (instants (begun ++ (retyped ++ watched))).Pairwise (·.nanos ≤ ·.nanos) := by decide
  have hruns : RunsOn ['a', 'b'] (afterAll ['a', 'b'] {} begun) (retyped ++ watched) :=
    ⟨rfl, rfl, rfl, rfl, rfl, rfl, rfl, rfl, rfl, rfl, rfl, trivial⟩
  have hdurations : durations ['a', 'b'] (afterAll ['a', 'b'] {} begun) (retyped ++ watched) =
      [1, 3, 3, 6, 7, 7].map second := by decide
  have hmatch : (afterAll ['a', 'b'] {} (begun ++ retyped)).isMatch ['a', 'b'] = true := by decide
  obtain ⟨hstarted, -, hmono, hlooks⟩ := clocked_afterAll ['a', 'b'] (begun ++ (retyped ++ watched)) htimes
  refine ⟨htimes, hruns, hdurations, hmatch, hstarted (by decide), ?_,
    hlooks _ watched (List.append_assoc ..).symm (by decide) hmatch⟩
  rw [← hdurations]
  exact hmono _ _ rfl hruns

end KanaTutor.Session
