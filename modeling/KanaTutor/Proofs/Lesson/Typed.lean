/-
A round whose text is typed as it should be is recorded once. It does not matter in what pieces the text
is typed, or how often the clock is looked at in between: the time counts from the first piece to the first
look at the whole text.
-/
import KanaTutor.Proofs.Lesson.Looks

namespace KanaTutor

/-! ## Sequences of occasions -/

/-- Nothing happens on the occasions but a change of the player. -/
structure Silent (os : List Occasion) (p q : Player) : Prop where
  happens : ∀ os', history p (os ++ os') = history q os'
  logged : ∀ log disk os', loggedAfter p log disk (os ++ os') = loggedAfter q log disk os'

theorem Occasion.Quiet.silent {o : Occasion} {p q : Player} (h : o.Quiet p q) : Silent [o] p q where
  happens os' := by
    have hnext : o.next? p = some q := h.next o.log o.disk
    have hnone : o.happenings p = [] := h.happens o.log o.disk
    rw [List.singleton_append, history_cons hnext, Occasion.moments, hnone]
    rfl
  logged log disk os' := by
    have hnone : recordsIn ((o.finding log disk).happenings p) = [] := by rw [h.happens]; rfl
    obtain ⟨q', hq', hlogged⟩ := loggedAfter_of_none hnone
    rw [h.next] at hq'
    cases hq'
    exact hlogged os'

theorem Silent.nil (p : Player) : Silent [] p p := ⟨fun _ => rfl, fun _ _ _ => rfl⟩

theorem Silent.trans {os os' : List Occasion} {p q r : Player} (h : Silent os p q) (h' : Silent os' q r) :
    Silent (os ++ os') p r where
  happens rest := by rw [List.append_assoc, h.happens, h'.happens]
  logged log disk rest := by rw [List.append_assoc, h.logged, h'.logged]

theorem Silent.cons {o : Occasion} {os : List Occasion} {p q r : Player} (h : o.Quiet p q) (hs : Silent os q r) :
    Silent (o :: os) p r :=
  h.silent.trans hs

theorem blank_append {os : List Occasion} {last : Occasion} {now : Instant}
    (hos : ∀ o ∈ os, o.command.isBlank = true) (hlast : last.command = .run now) :
    ∀ o ∈ os ++ [last], o.command.isBlank = true := by
  intro o hmem
  rcases List.mem_append.1 hmem with hmem | hmem
  · exact hos o hmem
  · rw [List.mem_singleton.1 hmem, hlast]
    rfl

/-- Nothing is recorded on occasions on which nothing is typed. -/
theorem records_of_settled {p : Player} {os : List Occasion} (h : p.Settled)
    (hos : ∀ o ∈ os, o.command.isBlank = true) :
    recordsIn ((history p os).map (·.what)) = [] := by
  induction os generalizing p with
  | nil => rfl
  | cons o os ih =>
    obtain ⟨hblank, hos⟩ := List.forall_mem_cons.1 hos
    have hrecords : recordsIn (o.happenings p) = [] := Desk.recordsIn_of_settled o.clock o.command h
    rcases history_cases p o os with ⟨q, hq, hhistory⟩ | ⟨-, hhistory⟩
    · rw [hhistory, List.map_append, recordsIn_append, what_moments, hrecords, List.nil_append]
      exact ih (Occasion.settled_next hblank h hq) hos
    · rw [hhistory, what_moments]
      exact hrecords

theorem loggedAfter_of_settled {p : Player} {os : List Occasion} (h : p.Settled)
    (hos : ∀ o ∈ os, o.command.isBlank = true) (log : Log) (disk : Disk) :
    loggedAfter p log disk os = .ok (log, disk) := by
  induction os generalizing p with
  | nil => rfl
  | cons o os ih =>
    obtain ⟨hblank, hos⟩ := List.forall_mem_cons.1 hos
    have hnone : recordsIn ((o.finding log disk).happenings p) = [] := Desk.recordsIn_of_settled o.clock o.command h
    obtain ⟨q, hq, hlogged⟩ := loggedAfter_of_none hnone
    rw [hlogged]
    exact ih (Occasion.settled_next (o := o.finding log disk) hblank h hq) hos

/-- One record is made on the occasions, on `o`, and no other. With the log and the disk handed on from each
occasion to the next, it is all that the log and the disk get. -/
structure RecordedOnce (p : Player) (r : Occasion → Record) (os : List Occasion) (o : Occasion) : Prop where
  happens : ∃ q rest, history p os = ⟨o, q, .recorded (r o)⟩ :: rest ∧ recordsIn (rest.map (·.what)) = []
  logged : ∀ log disk, loggedAfter p log disk os = log.recordAll disk [r (o.finding log disk)]

theorem Silent.recordedOnce {p q : Player} {r : Occasion → Record} {os os' : List Occasion} {o : Occasion}
    (h : Silent os p q) (hrecorded : RecordedOnce q r os' o) : RecordedOnce p r (os ++ os') o where
  happens := by rw [h.happens]; exact hrecorded.happens
  logged log disk := by rw [h.logged]; exact hrecorded.logged log disk

section Practising

variable {p : Player} (hl : p.lines ≠ []) (hm : p.mode = .practice) (hz : p.zenkaku = false)
include hl hm hz

omit hz in
theorem silent_blank {os : List Occasion} (hos : ∀ o ∈ os, o.command.isBlank = true) :
    Silent os (p.on {}) (p.on {}) := by
  induction os with
  | nil => exact Silent.nil _
  | cons o os ih =>
    obtain ⟨hblank, hos⟩ := List.forall_mem_cons.1 hos
    refine Silent.cons ?_ (ih hos)
    rcases Command.cases_of_isBlank hblank with ⟨now, hc⟩ | ⟨now, hc⟩
    · exact Occasion.quiet_run hc hl hm (Session.poll_new _ now) (Session.not_timedOut_new now) rfl
    · exact Occasion.quiet_append_of_width hc hm fun _ => rfl

/-- While the text is typed, and the clock is looked at only before it is complete, nothing happens. -/
theorem silent_typing {os : List Occasion} {d : Text} {start : Instant} (hd : d ≠ [])
    (htyping : ∀ o ∈ os, o.command.isTyping = true)
    (hchunks : d ++ os.flatMap (·.command.chunk) = p.target.plain)
    (hincomplete : ∀ pre o post, os = pre ++ o :: post → o.command.isRun = true →
      post.flatMap (·.command.chunk) ≠ [])
    (htime : ∀ o ∈ os, (o.command.instant.since start).nanos < Session.timeLimit.nanos) :
    Silent os (p.on (.running d start none)) (p.on (.running p.target.plain start none)) := by
  -- what is typed so far grows by each piece, and what is still to come completes the text
  induction os generalizing d with
  | nil =>
    rw [← hchunks, List.flatMap_nil, List.append_nil]
    exact Silent.nil _
  | cons o os ih =>
    obtain ⟨ho, htyping⟩ := List.forall_mem_cons.1 htyping
    obtain ⟨hnow, htime⟩ := List.forall_mem_cons.1 htime
    have hlater : ∀ pre o' post, os = pre ++ o' :: post → o'.command.isRun = true →
        post.flatMap (·.command.chunk) ≠ [] := by
      rintro pre o' post rfl hrun
      exact hincomplete (o :: pre) o' post rfl hrun
    rw [List.flatMap_cons] at hchunks
    cases hc : o.command with
    | run now =>
      rw [hc] at hchunks hnow
      have hne : d ≠ p.target.plain := by
        intro heq
        rw [← heq] at hchunks
        exact hincomplete [] o os rfl (by rw [hc]; rfl) (List.append_right_eq_self.1 hchunks)
      have hpoll := Session.poll_running_ne hne start none now
      exact Silent.cons (Occasion.quiet_run hc hl hm hpoll (Session.not_timedOut_running hnow) rfl)
        (ih hd htyping hchunks hlater htime)
    | append t now =>
      rw [hc] at hchunks
      have hquiet : o.Quiet (p.on (.running d start none)) (p.on ((Session.running d start none).append t now)) :=
        Occasion.quiet_append hc hm hz
      rw [Session.append_running hd] at hquiet
      refine Silent.cons hquiet (ih (List.append_ne_nil_of_left_ne_nil hd t) htyping ?_ hlater htime)
      rw [List.append_assoc]
      exact hchunks
    | _ => rw [hc] at ho; cases ho

omit hz in
/-- A look at the clock when the time has come makes the one record; later nothing is typed. -/
theorem recordedOnce_of_look {o : Occasion} {os : List Occasion} {s : Session} {t : Text}
    {start finish now : Instant} (hc : o.command = .run now)
    (hpoll : s.poll p.target.plain now = .running t start (some finish))
    (htime : (finish.since start).nanos < Session.timeLimit.nanos)
    (hdelay : p.finishDelay.nanos ≤ (now.since finish).nanos)
    (hos : ∀ o ∈ os, o.command.isBlank = true) :
    RecordedOnce (p.on s) (·.recordOf p (finish.since start)) (o :: os) o := by
  constructor
  · obtain ⟨⟨rest, hhappens, hrest⟩, hsettled⟩ := Occasion.recorded_run hc hl hm hpoll htime hdelay
    have hmoments : o.moments (p.on s) =
        ⟨o, p.on s, .recorded (o.recordOf p (finish.since start))⟩ :: rest.map (⟨o, p.on s, ·⟩) := by
      rw [Occasion.moments, hhappens, List.map_cons]
    have hothers : recordsIn ((rest.map fun what => (⟨o, p.on s, what⟩ : Moment)).map (·.what)) = [] := by
      rw [List.map_map]
      exact (congrArg recordsIn (List.map_id rest)).trans hrest
    rcases history_cases (p.on s) o os with ⟨q, hq, hhistory⟩ | ⟨-, hhistory⟩
    · refine ⟨p.on s, _, by rw [hhistory, hmoments, List.cons_append], ?_⟩
      rw [List.map_append, recordsIn_append, hothers, records_of_settled (hsettled q hq) hos]
      rfl
    · exact ⟨p.on s, _, by rw [hhistory, hmoments], hothers⟩
  · intro log disk
    have hfound : (o.finding log disk).command = .run now := hc
    obtain ⟨⟨rest, hhappens, hrest⟩, hsettled⟩ := Occasion.recorded_run hfound hl hm hpoll htime hdelay
    rw [loggedAfter_cons fun q hq => loggedAfter_of_settled (hsettled q hq) hos]
    have hrecords : recordsIn ((o.finding log disk).happenings (p.on s)) =
        [(o.finding log disk).recordOf p (finish.since start)] := by
      rw [hhappens]
      show _ :: recordsIn rest = _
      rw [hrest]
    rw [← hrecords]
    exact Desk.logged_perform ..

omit hz in
/-- Once the whole text has been seen, the round is recorded at the first look at the clock after the
delay. -/
theorem recordedOnce_of_waiting {os : List Occasion} {last : Occasion} {start seen now : Instant}
    (hos : ∀ o ∈ os, o.command.isBlank = true) (hlast : last.command = .run now)
    (htime : (seen.since start).nanos < Session.timeLimit.nanos)
    (hdelay : p.finishDelay.nanos ≤ (now.since seen).nanos) (hplain : p.target.plain ≠ []) :
    ∃ o ∈ os ++ [last], RecordedOnce (p.on (.running p.target.plain start (some seen)))
      (·.recordOf p (seen.since start)) (os ++ [last]) o := by
  induction os with
  | nil =>
    have hpoll := Session.poll_running p.target.plain start (some seen) now
    have hnone : ∀ o ∈ ([] : List Occasion), o.command.isBlank = true := fun _ hmem => nomatch hmem
    exact ⟨last, List.mem_singleton_self last, recordedOnce_of_look hl hm hlast hpoll htime hdelay hnone⟩
  | cons o os ih =>
    obtain ⟨hblank, hos⟩ := List.forall_mem_cons.1 hos
    obtain ⟨o', hmem, honce⟩ := ih hos
    rcases Command.cases_of_isBlank hblank with ⟨look, hc⟩ | ⟨now, hc⟩
    · have hpoll := Session.poll_running p.target.plain start (some seen) look
      by_cases hdue : p.finishDelay.nanos ≤ (look.since seen).nanos
      · refine ⟨o, List.mem_cons_self, ?_⟩
        exact recordedOnce_of_look hl hm hc hpoll htime hdue (blank_append hos hlast)
      · -- it is too early, and the match is remembered as it was
        have hearly : (Session.running p.target.plain start (some seen)).isFinished p.finishDelay look = false :=
          decide_eq_false hdue
        have hquiet := Occasion.quiet_run hc hl hm hpoll (Session.not_timedOut_running htime) hearly
        exact ⟨o', List.mem_cons_of_mem o hmem, hquiet.silent.recordedOnce honce⟩
    · have hquiet : o.Quiet (p.on (.running p.target.plain start (some seen)))
          (p.on ((Session.running p.target.plain start (some seen)).append [] now)) :=
        Occasion.quiet_append_of_width hc hm fun _ => rfl
      rw [Session.append_running hplain, List.append_nil] at hquiet
      exact ⟨o', List.mem_cons_of_mem o hmem, hquiet.silent.recordedOnce honce⟩

end Practising

/-! ## Rounds that are typed out -/

/-- A text is typed on occasions, in pieces that may be empty, and the lesson may go on in between. The
first piece that is not empty is typed at `start`. On these occasions the lesson does not go on after the
last piece that is not empty; it next does at `seen`. The clock never goes back. -/
structure TypedOut (plain : Text) (start seen : Instant) (os : List Occasion) : Prop where
  typing : ∀ o ∈ os, o.command.isTyping = true
  chunks : os.flatMap (·.command.chunk) = plain
  first : ∃ pre o post, os = pre ++ o :: post ∧ pre.flatMap (·.command.chunk) = [] ∧
    o.command.chunk ≠ [] ∧ o.command.instant = start
  incomplete : ∀ pre o post, os = pre ++ o :: post → o.command.isRun = true →
    post.flatMap (·.command.chunk) ≠ []
  ordered : (os.map (·.command.instant) ++ [seen]).Pairwise (·.nanos ≤ ·.nanos)

theorem TypedOut.silent {p : Player} {start seen : Instant} {os : List Occasion} (hl : p.lines ≠ [])
    (hm : p.mode = .practice) (hz : p.zenkaku = false) (h : TypedOut p.target.plain start seen os)
    (htime : (seen.since start).nanos < Session.timeLimit.nanos) :
    Silent os (p.on {}) (p.on (.running p.target.plain start none)) := by
  obtain ⟨pre, o, post, rfl, hpre, ho, hstart⟩ := h.first
  have hblank : ∀ o ∈ pre, o.command.isBlank = true := by
    intro o' hmem
    exact Command.isBlank_of_chunk (h.typing o' (List.mem_append_left _ hmem)) (List.flatMap_eq_nil_iff.1 hpre o' hmem)
  have hchunks : o.command.chunk ++ post.flatMap (·.command.chunk) = p.target.plain := by
    rw [← h.chunks, List.flatMap_append, hpre, List.flatMap_cons]
    rfl
  have hseen : ∀ o' ∈ post, (o'.command.instant.since start).nanos < Session.timeLimit.nanos := by
    intro o' hmem
    have hle := (List.pairwise_append.1 h.ordered).2.2 o'.command.instant
      (List.mem_map_of_mem (List.mem_append_right _ (List.mem_cons_of_mem _ hmem))) seen (List.mem_singleton_self _)
    refine Nat.lt_of_le_of_lt ?_ htime
    exact Nat.sub_le_sub_right hle start.nanos
  have hpost : Silent post (p.on (.running o.command.chunk start none)) (p.on (.running p.target.plain start none)) := by
    refine silent_typing hl hm hz ho (fun o' hmem => ?_) hchunks ?_ hseen
    · exact h.typing o' (List.mem_append_right _ (List.mem_cons_of_mem _ hmem))
    · rintro pre' o' post' rfl hrun
      exact h.incomplete (pre ++ o :: pre') o' post' (by simp) hrun
  -- before the first piece nothing changes, and the first piece starts the clock
  refine Silent.trans (silent_blank hl hm hblank) (Silent.cons ?_ hpost)
  cases hc : o.command with
  | append t now =>
    rw [hc] at ho hstart
    cases (hstart : now = start)
    have hquiet : o.Quiet (p.on {}) (p.on (Session.append {} t now)) := Occasion.quiet_append hc hm hz
    rw [Session.append_new (show t ≠ [] from ho)] at hquiet
    exact hquiet
  | _ => rw [hc] at ho; exact absurd rfl ho

/-- A round that is typed out is recorded once, when the lesson goes on after the delay, with the time from
the first piece of the text to the first look at the whole of it. Without a delay that look records it. -/
theorem recorded_of_typedOut {p : Player} {start seen later : Instant} {os between : List Occasion}
    {look last : Occasion} (hp : p.JustStarted) (hz : p.zenkaku = false) (hplain : p.target.plain ≠ [])
    (htyped : TypedOut p.target.plain start seen os) (hlook : look.command = .run seen)
    (htime : (seen.since start).nanos < Session.timeLimit.nanos)
    (hbetween : ∀ o ∈ between, o.command.isBlank = true)
    (hlast : last.command = .run later) (hdelay : p.finishDelay.nanos ≤ (later.since seen).nanos) :
    (∃ o ∈ look :: (between ++ [last]),
      RecordedOnce p (·.recordOf p (seen.since start)) (os ++ look :: (between ++ [last])) o) ∧
    (p.finishDelay = .zero →
      RecordedOnce p (·.recordOf p (seen.since start)) (os ++ [look]) look ∧
      RecordedOnce p (·.recordOf p (seen.since start)) (os ++ look :: (between ++ [last])) look) := by
  obtain ⟨typing, hbegun⟩ := hp.begun
  have hfresh : p.on {} = p := by rw [← hbegun.session]; rfl
  have hsilent := htyped.silent hbegun.lines hbegun.mode hz htime
  rw [hfresh] at hsilent
  have hpoll := Session.poll_running p.target.plain start none seen
  have hnow : p.finishDelay.nanos = 0 → ∀ os', (∀ o ∈ os', o.command.isBlank = true) →
      RecordedOnce p (·.recordOf p (seen.since start)) (os ++ look :: os') look := by
    intro hzero os' hos'
    refine hsilent.recordedOnce (recordedOnce_of_look hbegun.lines hbegun.mode hlook hpoll htime ?_ hos')
    rw [hzero]
    exact Nat.zero_le _
  have hblank := blank_append hbetween hlast
  constructor
  · by_cases hzero : p.finishDelay.nanos = 0
    · exact ⟨look, List.mem_cons_self, hnow hzero _ hblank⟩
    · -- with a delay the first look at the whole text only stops the clock
      have hearly : ¬p.finishDelay.nanos ≤ (seen.since seen).nanos := by
        show ¬p.finishDelay.nanos ≤ seen.nanos - seen.nanos
        omega
      have hquiet := Occasion.quiet_run hlook hbegun.lines hbegun.mode hpoll
        (Session.not_timedOut_running htime) (decide_eq_false hearly)
      obtain ⟨o, hmem, honce⟩ :=
        recordedOnce_of_waiting hbegun.lines hbegun.mode hbetween hlast htime hdelay hplain
      exact ⟨o, List.mem_cons_of_mem look hmem, hsilent.recordedOnce (hquiet.silent.recordedOnce honce)⟩
  · intro hdelay
    have hzero : p.finishDelay.nanos = 0 := by rw [hdelay]; rfl
    exact ⟨hnow hzero [] (fun _ hmem => nomatch hmem), hnow hzero _ hblank⟩

namespace OneLetter

theorem justStarted : (practising {}).JustStarted := by
  refine ⟨[], .ofMillis 1000, ⟨1, 2, 3, 4⟩, [asked (.open ['a'])], asked (.run .zero), opened, ['x'], {}, ?_, ?_, next_run⟩
  · show (Option.bind _ _) = _
    rw [show Player.new [] (.ofMillis 1000) ⟨1, 2, 3, 4⟩ = idle from rfl, next_open]
    rfl
  · have hmoment : ⟨asked (.run .zero), opened, .started ['x'] {}⟩ ∈ (asked (.run .zero)).moments opened := by
      rw [moments_run]
      exact List.mem_singleton_self _
    obtain ⟨what, hwhat, heq⟩ := List.mem_map.1 hmoment
    cases heq
    exact hwhat

/-- The letter is typed after a second, with an empty piece and a look at the clock before it. -/
def typing : List Occasion := [.append [] .zero, .run .zero, .append ['x'] (.ofMillis 1000)].map asked

theorem typedOut_typing : TypedOut ['x'] (.ofMillis 1000) (.ofMillis 3000) typing where
  typing := by decide
  chunks := rfl
  first := ⟨[asked (.append [] .zero), asked (.run .zero)], asked (.append ['x'] (.ofMillis 1000)), [], rfl, rfl,
    List.cons_ne_nil _ _, rfl⟩
  incomplete := by
    intro pre o post hsplit hrun
    rcases pre with _ | ⟨first, _ | ⟨second, _ | ⟨third, pre⟩⟩⟩
    · cases hsplit
      cases hrun
    · cases hsplit
      exact List.cons_ne_nil _ _
    · cases hsplit
      cases hrun
    · have hlength := congrArg List.length hsplit
      simp [typing] at hlength
  ordered := by decide

end OneLetter

/-- Two seconds pass until the whole text is seen, and one more until the round is recorded. -/
theorem recorded_of_typedOut_letter :
    ∃ p : Player, p.JustStarted ∧ p.zenkaku = false ∧ p.target.plain ≠ [] ∧
      TypedOut p.target.plain (.ofMillis 1000) (.ofMillis 3000) OneLetter.typing ∧
      ∃ o ∈ [.run (.ofMillis 3000), .run (.ofMillis 4000)].map OneLetter.asked,
        RecordedOnce p (·.recordOf p (.ofMillis 2000))
          (OneLetter.typing ++ [.run (.ofMillis 3000), .run (.ofMillis 4000)].map OneLetter.asked) o := by
  have hnonempty : (OneLetter.practising {}).target.plain ≠ [] := List.cons_ne_nil _ _
  obtain ⟨honce, -⟩ :=
    @recorded_of_typedOut (OneLetter.practising {}) (.ofMillis 1000) (.ofMillis 3000) (.ofMillis 4000) OneLetter.typing
      [] (OneLetter.asked (.run (.ofMillis 3000))) (OneLetter.asked (.run (.ofMillis 4000))) OneLetter.justStarted
      rfl hnonempty OneLetter.typedOut_typing rfl (by decide) (fun _ hmem => nomatch hmem) rfl (by decide)
  exact ⟨_, OneLetter.justStarted, rfl, hnonempty, OneLetter.typedOut_typing, honce⟩

/-- An empty piece that is typed after the whole text was seen does not count: the time is not that up to
the look at the clock that follows it. -/
theorem recorded_before_empty_piece :
    (OneLetter.practising {}).JustStarted ∧
    ∃ o, RecordedOnce (OneLetter.practising {}) (·.recordOf (OneLetter.practising {}) (.ofMillis 1000))
        ([.append ['x'] .zero, .run (.ofMillis 1000), .append [] (.ofMillis 1500), .run (.ofMillis 1500),
          .run (.ofMillis 2500)].map OneLetter.asked) o ∧
      (o.recordOf (OneLetter.practising {}) (.ofMillis 1000)).duration ≠ (Duration.ofMillis 1500).since .zero := by
  have hx : (OneLetter.asked (.append ['x'] .zero)).Quiet (OneLetter.practising {})
      (OneLetter.practising (.running ['x'] .zero none)) :=
    @Occasion.quiet_append _ (OneLetter.practising {}) {} .zero ['x'] rfl rfl rfl
  have hlook : (OneLetter.asked (.run (.ofMillis 1000))).Quiet (OneLetter.practising (.running ['x'] .zero none))
      (OneLetter.practising (.running ['x'] .zero (some (.ofMillis 1000)))) :=
    @Occasion.quiet_run _ (OneLetter.practising {}) (.running ['x'] .zero none) (.ofMillis 1000) _ rfl
      (List.cons_ne_nil _ _) rfl rfl (by decide) (by decide)
  obtain ⟨o, -, honce⟩ :=
    @recordedOnce_of_waiting (OneLetter.practising {}) (List.cons_ne_nil _ _) rfl
      ([.append [] (.ofMillis 1500), .run (.ofMillis 1500)].map OneLetter.asked)
      (OneLetter.asked (.run (.ofMillis 2500))) .zero (.ofMillis 1000) (.ofMillis 2500) (by decide) rfl (by decide)
      (by decide) (List.cons_ne_nil _ _)
  refine ⟨OneLetter.justStarted, o, (hx.silent.trans hlook.silent).recordedOnce honce, ?_⟩
  show Duration.ofMillis 1000 ≠ (Duration.ofMillis 1500).since .zero
  decide

end KanaTutor
