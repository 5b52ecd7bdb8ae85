/-
Records are read as they are written, whatever the name of their lesson. Only the time of a round is rounded: it is
written with one decimal place.
-/
import KanaTutor.Proofs.Stats.Days
import KanaTutor.Proofs.Time.Stamps

namespace KanaTutor.Record

/-! ## Times -/

/-- What is left of a number of seconds beside whole minutes. -/
theorem rest_lt (r : Rat) : (roundHalfEven ((r - 60 * (r / 60).floor) * 10)).toNat < 1000 := by
  have hfloor := Rat.lt_floor_add_one (r / 60)
  rw [div_lt_iff₀ (by norm_num)] at hfloor
  have hround : roundHalfEven ((r - 60 * (r / 60).floor) * 10) ≤ 600 := by
    refine roundHalfEven_le ?_
    push_cast at hfloor ⊢
    linarith
  omega

/-- Digits, and seconds with one decimal place, are read as a time if there is room for the seconds. -/
theorem readTime?_fixed {minutes : Nat} {r : Rat} (hword : minutes < wordBound)
    (hroom : minutes * 60 % wordBound + 128 < wordBound) (hr : (roundHalfEven (r * 10)).toNat < 1000) :
    ∃ e, readTime? (Natural.writePadded 2 minutes ++ ':' :: Natural.padStart '0' 4 (writeFixed 1 r)) =
      some (.ok e) := by
  have hchars := chars_writeFixed 4 1 r
  have hblank : ∀ c ∈ Natural.padStart '0' 4 (writeFixed 1 r), isBlank c = false := by
    intro c hc
    rcases hchars c hc with h | rfl
    · exact isBlank_of_isDigit h
    · rfl
  have hcolon : (Natural.padStart '0' 4 (writeFixed 1 r)).contains ':' = false := by
    rw [← Bool.not_eq_true, List.contains_iff_mem]
    intro hc
    rcases hchars _ hc with h | h
    · exact absurd h (by decide)
    · exact absurd h (by decide)
  have hcut := Text.cutAt_append (not_mem_of_isDigit (@Natural.isDigit_writePadded 2 minutes)
    (show ':'.isDigit = false from rfl)) (Natural.padStart '0' 4 (writeFixed 1 r))
  have htrim : (Natural.writePadded 2 minutes).trim = Natural.writePadded 2 minutes :=
    Text.trim_of_not_blank fun c hc => isBlank_of_isDigit (Natural.isDigit_writePadded c hc)
  -- the seconds are a small number, and so the sum stays below the bound
  have hsmall := Double.atMost_tenths hr
  obtain ⟨hfinite, hnonneg, -⟩ := Double.finite_of_atMost hsmall
  obtain ⟨seconds, hseconds, hle⟩ := Duration.ofSeconds_ok (k := 7) (by decide) hsmall
  obtain ⟨e, he⟩ : ∃ e, (Duration.ofWholeSeconds (minutes * 60 % wordBound)).add seconds = .ok e := by
    refine ⟨_, if_pos ?_⟩
    show minutes * 60 % wordBound * Duration.perSecond + seconds.nanos < wordBound * Duration.perSecond
    unfold Duration.perSecond at hle ⊢
    omega
  refine ⟨e, ?_⟩
  rw [readTime?, hcut]
  simp only [Option.bind_eq_bind, Option.bind_some, hcolon, Bool.false_eq_true, if_false, htrim,
    Text.trim_of_not_blank hblank, Natural.readWord?_writePadded 2 hword, read?_writeFixed, hfinite, hnonneg,
    decide_true, Bool.and_true, if_true, hseconds]
  rw [ok_bind, he]

/-- Every time that is written is read again, as some duration. -/
theorem readTime?_write (d : Duration) : ∃ e, readTime? (writeTime d.seconds) = some (.ok e) := by
  obtain ⟨hword, hroom⟩ := d.minutes_le
  exact readTime?_fixed hword (by omega) (rest_lt (Double.magnitude d.seconds))

/-! ## Lines -/

theorem unquoted_quoted (lesson : Text) : unquoted ('"' :: lesson ++ ['"']) = lesson := by
  have hstart : Text.afterStart? ('"' :: lesson ++ ['"']) ['"'] = some (lesson ++ ['"']) := rfl
  have hend : Text.beforeEnd? (lesson ++ ['"']) ['"'] = some lesson := by
    rw [Text.beforeEnd?, List.isSuffixOf?, List.reverse_append]
    exact congrArg some (List.reverse_reverse lesson)
  rw [unquoted, hstart, Option.bind_some, hend]
  rfl

theorem trim_quoted (lesson : Text) : Text.trim ('"' :: lesson ++ ['"']) = '"' :: lesson ++ ['"'] := by
  refine Text.trim_of_ends (by rintro _ ⟨⟩; rfl) fun c hc => ?_
  rw [List.getLast?_append] at hc
  cases hc
  rfl

/-- The line of a record, field by field. -/
theorem write_eq (r : Record) : r.write = r.timestamp.write ++ ',' :: (((('"' :: r.lesson ++ ['"']) ++
    ',' :: writeTime r.duration.seconds) ++ ',' :: Natural.write r.correct) ++ ',' :: Natural.write r.touches) := by
  unfold write
  simp

theorem comma_not_mem_writeTime (x : Float) : ',' ∉ writeTime x := by
  intro hc
  rcases List.mem_append.1 hc with hc | hc
  · exact absurd (Natural.isDigit_writePadded _ hc) (by decide)
  · rcases List.mem_cons.1 hc with hc | hc
    · exact absurd hc (by decide)
    · rcases chars_writeFixed _ _ _ _ hc with hc | hc
      · exact absurd hc (by decide)
      · exact absurd hc (by decide)

theorem fields?_write (r : Record) : fields? r.write = some (r.timestamp.write, '"' :: r.lesson ++ ['"'],
    writeTime r.duration.seconds, Natural.write r.correct, Natural.write r.touches) := by
  have hstamp : ',' ∉ r.timestamp.write := by
    intro hc
    rcases r.timestamp.chars_write _ hc with hc | hc
    · exact absurd hc (by decide)
    · exact absurd hc (by decide)
  have hcount : ∀ n, ',' ∉ Natural.write n := fun n => not_mem_of_isDigit Natural.isDigit_write rfl
  rw [write_eq, fields?, Text.cutAt_append hstamp]
  simp only [Option.bind_eq_bind, Option.bind_some, Text.cutAtLast_append (hcount _),
    Text.cutAtLast_append (comma_not_mem_writeTime _)]

theorem trim_write (r : Record) : r.write.trim = r.write := by
  have hne : Natural.write r.touches ≠ [] := Nat.toDigits_ne_nil
  refine Text.trim_of_ends (fun c hc => ?_) (fun c hc => ?_)
  · rw [write_eq] at hc
    exact r.timestamp.isBlank_head_write _ c hc
  · have hlast : c ∈ (Natural.write r.touches).getLast? := by
      rwa [write, List.append_cons, List.getLast?_append, List.getLast?_eq_some_getLast hne, Option.some_or,
        ← List.getLast?_eq_some_getLast hne] at hc
    exact isBlank_of_isDigit (Natural.isDigit_write c (List.mem_of_mem_getLast? hlast))

/-- A record at a whole second, with counts that are words, is read as it is written but for its time. -/
theorem read_write {r : Record} (hnano : r.timestamp.nano = 0) (hcorrect : r.correct < wordBound)
    (htouches : r.touches < wordBound) : ∃ d, read r.write = .ok { r with duration := d } := by
  obtain ⟨d, hd⟩ := readTime?_write r.duration
  have htrim : ∀ n, (Natural.write n).trim = Natural.write n :=
    fun n => Text.trim_of_not_blank fun c hc => isBlank_of_isDigit (Natural.isDigit_write c hc)
  refine ⟨d, ?_⟩
  rw [read, trim_write]
  simp only [fields?_write, Option.bind_eq_bind, Option.bind_some, Timestamp.read?_write hnano, hd, trim_quoted,
    unquoted_quoted, htrim, Natural.readWord?_write hcorrect, Natural.readWord?_write htouches]

/-- A line is free of control characters if the name of its lesson is. -/
theorem not_control_write {r : Record} (h : ∀ c ∈ r.lesson, isControl c = false) :
    ∀ c ∈ r.write, isControl c = false := by
  have hdigits : ∀ n, ∀ c ∈ Natural.write n, isControl c = false :=
    fun _ c hc => isControl_of_isDigit (Natural.isDigit_write c hc)
  have hstamp : ∀ c ∈ r.timestamp.write, isControl c = false := by
    intro c hc
    rcases r.timestamp.chars_write c hc with hc | hc
    · exact isControl_of_isDigit hc
    · exact (by simp [isControl] : ∀ c ∈ ['+', '-', ':', ' '], isControl c = false) c hc
  have htime : ∀ c ∈ writeTime r.duration.seconds, isControl c = false := by
    refine List.forall_mem_append.2 ⟨fun c hc => isControl_of_isDigit (Natural.isDigit_writePadded c hc), ?_⟩
    refine List.forall_mem_cons.2 ⟨by decide, fun c hc => ?_⟩
    rcases chars_writeFixed _ _ _ c hc with hc | rfl
    · exact isControl_of_isDigit hc
    · rfl
  have hopen : ∀ c ∈ ",\"".toList, isControl c = false := by simp [isControl]
  have hclose : ∀ c ∈ "\",".toList, isControl c = false := by simp [isControl]
  unfold write
  simp only [List.forall_mem_append, List.forall_mem_cons]
  exact ⟨⟨⟨⟨⟨⟨hstamp, hopen⟩, h⟩, hclose⟩, htime⟩, by decide, hdigits _⟩, by decide, hdigits _⟩

theorem not_control_sanitize (lesson : Text) : ∀ c ∈ sanitize lesson, isControl c = false := by
  intro c hc
  obtain ⟨d, -, rfl⟩ := List.mem_map.1 hc
  split
  · rfl
  · split
    · rfl
    · rename_i hcontrol
      exact Bool.eq_false_iff.2 hcontrol

/-! ## Rounds -/

/-- The line of a round is a single line, and what is read from it is the record of the round but for the time, for
every timestamp and every name of a lesson. -/
theorem read_write_ofRound (t : Timestamp) (lesson : Text) (result : RoundResult)
    (hcorrect : result.correct < wordBound) (htouches : result.touches < wordBound) :
    (∀ c ∈ (ofRound t lesson result).write, isControl c = false) ∧ '\n' ∉ (ofRound t lesson result).write ∧
      ∃ d, read (ofRound t lesson result).write = .ok { ofRound t lesson result with duration := d } := by
  have hcontrol := not_control_write (r := ofRound t lesson result) (not_control_sanitize lesson)
  exact ⟨hcontrol, fun hc => absurd (hcontrol _ hc) (by decide), read_write rfl hcorrect htouches⟩

/-- The record of a round in a leap second, in a lesson whose name has quotes, a comma and a line break. -/
def quotedRound : Record :=
  ofRound ⟨⟨2015, 7, 1, by decide⟩, 32399, 1500000000, by decide, by decide⟩ "\"a,\nb\" ".toList
    ⟨150, 160, .ofMillis 90250⟩

theorem read_write_quotedRound :
    150 < wordBound ∧ 160 < wordBound ∧ (∀ c ∈ quotedRound.write, isControl c = false) ∧ '\n' ∉ quotedRound.write ∧
      ∃ d, read quotedRound.write = .ok { quotedRound with duration := d } :=
  ⟨by decide, by decide, read_write_ofRound _ _ _ (by decide) (by decide)⟩

end KanaTutor.Record
