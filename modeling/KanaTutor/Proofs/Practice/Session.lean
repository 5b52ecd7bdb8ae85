/-
What the operations of a session do to its keystrokes and its clock. Keystrokes are forgotten only when a
session that held something is emptied, and a session that has been matched has been started.
-/
import KanaTutor.Practice.Session

namespace KanaTutor.Session

/-- A session that was not started was not finished either. -/
def Timed (s : Session) : Prop := s.startedAt = none → s.finishedAt = none

theorem timed_new : ({} : Session).Timed := fun _ => rfl

/-- An edit empties a session that held something. -/
def empties (before after : Session) : Bool := !before.isEmpty && after.isEmpty

/-! ## Edits -/

theorem isEmpty_settle (before after : Session) (now : Instant) : (settle before after now).isEmpty = after.isEmpty := by
  unfold settle
  split
  · rename_i h
    rw [h]; rfl
  · rfl
  · rfl

theorem touches_settle (before after : Session) (now : Instant) :
    (settle before after now).touches = if empties before after then 0 else after.touches := by
  unfold settle empties
  cases before.isEmpty <;> cases after.isEmpty <;> rfl

theorem timed_settle {before after : Session} (now : Instant) (h : after.Timed) : (settle before after now).Timed := by
  unfold settle
  split
  · exact timed_new
  · exact fun h => nomatch h
  · exact h

theorem not_empties_append (s : Session) (t : Text) : empties s { s with typed := s.typed ++ t } = false := by
  unfold empties isEmpty
  cases s.typed with
  | nil => cases s.preedit.text <;> simp
  | cons => simp

@[simp] theorem touches_append (s : Session) (t : Text) (now : Instant) : (s.append t now).touches = s.touches := by
  rw [append, touches_settle, not_empties_append]; rfl

theorem timed_append {s : Session} (t : Text) (now : Instant) (h : s.Timed) : (s.append t now).Timed :=
  timed_settle now h

theorem touches_setPreedit (s : Session) (p : Preedit) (now : Instant) :
    (s.setPreedit p now).touches = if empties s (s.setPreedit p now) then 0 else s.touches := by
  have he : empties s (s.setPreedit p now) = empties s { s with preedit := p } := by
    rw [empties, setPreedit, isEmpty_settle, empties]
  rw [he, setPreedit, touches_settle]

theorem timed_setPreedit {s : Session} (p : Preedit) (now : Instant) (h : s.Timed) : (s.setPreedit p now).Timed :=
  timed_settle now h

theorem touches_backspace (s : Session) :
    s.backspace.touches = if empties s s.backspace then 0 else s.touches := by
  unfold backspace
  split
  · rw [empties, Bool.not_and_self]; rfl
  · rename_i htyped
    have hs : s.isEmpty = false := by simp [isEmpty, htyped]
    dsimp only
    split
    · rw [empties, hs]; rfl
    · rename_i hafter
      rw [empties, Bool.eq_false_iff.2 hafter, Bool.and_false]; rfl

theorem timed_backspace {s : Session} (h : s.Timed) : s.backspace.Timed := by
  unfold backspace
  split
  · exact h
  · dsimp only
    split
    · exact timed_new
    · exact h

theorem delete_frame {s s' : Session} {offset : Int} {count : Nat} (h : s.delete? offset count = some s') :
    s'.touches = s.touches ∧ (s.Timed → s'.Timed) := by
  unfold delete? at h
  dsimp only at h
  split at h
  · cases h
    exact ⟨rfl, id⟩
  · cases h

/-! ## The clock -/

theorem poll_frame (s : Session) (plain : Text) (now : Instant) :
    (s.poll plain now).typed = s.typed ∧ (s.poll plain now).preedit = s.preedit ∧
      (s.poll plain now).touches = s.touches ∧ (s.poll plain now).startedAt = s.startedAt := by
  unfold poll
  split <;> exact ⟨rfl, rfl, rfl, rfl⟩

theorem timed_poll {s : Session} (plain : Text) (now : Instant) (h : s.Timed) : (s.poll plain now).Timed := by
  unfold poll
  split
  · exact h
  · rename_i start hstart
    exact fun hnone => nomatch hstart.symm.trans hnone

/-- A session is finished only while it matches its target. -/
theorem match_of_isFinished {s : Session} {plain : Text} {grace : Duration} {now : Instant} (hs : s.Timed)
    (h : (s.poll plain now).isFinished grace now = true) : s.typed = plain ∧ s.preedit.text = [] := by
  cases hstart : s.startedAt with
  | none =>
    rw [poll, hstart, isFinished, hs hstart] at h
    exact nomatch h
  | some start =>
    have hm : s.isMatch plain = true := by
      cases hm : s.isMatch plain with
      | true => rfl
      | false =>
        rw [poll, hstart, isFinished, hm] at h
        exact nomatch h
    simpa [isMatch] using hm

/-! ## Typing and nothing else -/

/-- A session in which a text is typed and nothing else is done; it is finished if the match was seen. -/
def running (t : Text) (start : Instant) (finishedAt : Option Instant) : Session := ⟨t, {}, some start, finishedAt, 0⟩

theorem append_nil_new (now : Instant) : append {} [] now = {} := rfl

theorem append_new {t : Text} (ht : t ≠ []) (now : Instant) : append {} t now = running t now none := by
  cases t with
  | nil => exact absurd rfl ht
  | cons c t => rfl

theorem append_running {d : Text} (hd : d ≠ []) (t : Text) (start : Instant) (finishedAt : Option Instant)
    (now : Instant) : (running d start finishedAt).append t now = running (d ++ t) start finishedAt := by
  cases d with
  | nil => exact absurd rfl hd
  | cons c d => rfl

theorem poll_new (plain : Text) (now : Instant) : poll {} plain now = {} := rfl

theorem poll_running_ne {d plain : Text} (h : d ≠ plain) (start : Instant) (finishedAt : Option Instant)
    (now : Instant) : (running d start finishedAt).poll plain now = running d start none := by
  have hm : (running d start finishedAt).isMatch plain = false := by
    rw [isMatch, running, decide_eq_false h]; rfl
  show ({ running d start finishedAt with finishedAt := _ } : Session) = _
  rw [hm]
  rfl

theorem poll_running (plain : Text) (start : Instant) (finishedAt : Option Instant) (now : Instant) :
    (running plain start finishedAt).poll plain now = running plain start (some (finishedAt.getD now)) := by
  have hm : (running plain start finishedAt).isMatch plain = true := by
    rw [isMatch, running, decide_eq_true rfl]; rfl
  show ({ running plain start finishedAt with finishedAt := _ } : Session) = _
  rw [hm]
  rfl

theorem not_timedOut_new (now : Instant) : isTimedOut {} now = false := rfl

theorem not_timedOut_running {d : Text} {start now : Instant} {finishedAt : Option Instant}
    (h : ((finishedAt.getD now).since start).nanos < timeLimit.nanos) :
    (running d start finishedAt).isTimedOut now = false :=
  decide_eq_false (Nat.not_le_of_lt h)

end KanaTutor.Session
