/-
Readings over their bases. A layout counts characters while it takes one segment after the other, and the plain text is
put together from the same segments. The induction on the segments therefore keeps the text in front of them: what is
laid out at its end lies behind it, and leaves it alone when readings are put in the place of what they lie over.
-/
import KanaTutor.Proofs.Ruby.Splitting
import KanaTutor.Ruby.Span

namespace KanaTutor.Ruby

/-! ## What a reading lies over -/

namespace Span

/-- The position after the last character under the reading. -/
def stop (s : Span) : Nat := s.start + s.length

/-- The characters of a text under the reading. -/
def under (s : Span) (t : Text) : Text := (t.drop s.start).take s.length

/-- The text with the reading in the place of the characters under it. -/
def replaceIn (s : Span) (t : Text) : Text := t.take s.start ++ s.reading ++ t.drop s.stop

end Span

/-- The text with every reading in the place of the characters under it. The last one comes first, so that the others
are still in their places. -/
def replaceAll (spans : List Span) (t : Text) : Text := spans.foldr Span.replaceIn t

section

variable (front base reading tag rest : Text)

theorem under_append :
    Span.under ⟨front.length, base.length, reading, tag⟩ (front ++ (base ++ rest)) = base := by
  rw [Span.under, List.drop_left, List.take_left]

theorem replaceIn_append :
    Span.replaceIn ⟨front.length, base.length, reading, tag⟩ (front ++ (base ++ rest)) = front ++ (reading ++ rest) := by
  have hdrop : (front ++ (base ++ rest)).drop (front.length + base.length) = rest := by
    rw [← List.append_assoc, ← List.length_append, List.drop_left]
  rw [Span.replaceIn, Span.stop, hdrop, List.take_left, List.append_assoc]

end

/-! ## Segments laid out one after the other -/

theorem plain_layOut (start : Nat) (ss : List Segment) : (layOut start ss).plain = ss.flatMap Segment.base := by
  induction ss generalizing start with
  | nil => rfl
  | cons s ss ih =>
    rw [List.flatMap_cons]
    cases s with
    | plain t => exact congrArg (t ++ ·) (ih _)
    | annotated base reading => exact congrArg (base ++ ·) (ih _)

/-- Readings lie over the text that is laid out. -/
theorem within_layOut {s : Span} {start : Nat} {ss : List Segment} (h : s ∈ (layOut start ss).spans) :
    start ≤ s.start ∧ s.stop ≤ start + (layOut start ss).plain.length := by
  induction ss generalizing start with
  | nil => cases h
  | cons segment ss ih =>
    cases segment with
    | plain t =>
      obtain ⟨hstart, hstop⟩ := ih h
      simp only [layOut, List.length_append]
      omega
    | annotated base reading =>
      simp only [layOut, List.length_append]
      rcases List.mem_cons.1 h with rfl | h
      · simp only [Span.stop]
        omega
      · obtain ⟨hstart, hstop⟩ := ih h
        omega

/-- A reading ends before the next one begins. -/
theorem apart_layOut (start : Nat) (ss : List Segment) :
    (layOut start ss).spans.Pairwise fun a b => a.stop ≤ b.start := by
  induction ss generalizing start with
  | nil => exact .nil
  | cons segment ss ih =>
    cases segment with
    | plain t => exact ih _
    | annotated base reading =>
      refine .cons (fun s hs => ?_) (ih _)
      exact (within_layOut hs).1

/-- The readings are those of the runs, and lie over their bases. The runs are counted from anywhere. -/
theorem runs_layOut (front : Text) (ss : List Segment) (n : Nat) :
    (layOut front.length ss).spans.map (fun s => (s.under (front ++ (layOut front.length ss).plain), s.reading)) =
      (runsFrom n ss).map fun run => (run.base, run.reading) := by
  induction ss generalizing front n with
  | nil => rfl
  | cons segment ss ih =>
    cases segment with
    | plain t =>
      have hrest := ih (front ++ t) (n + t.length)
      rwa [List.length_append, List.append_assoc] at hrest
    | annotated base reading =>
      have hrest := ih (front ++ base) (n + (Segment.annotated base reading).encode.length)
      rw [List.length_append, List.append_assoc] at hrest
      simp only [layOut, runsFrom, List.map_cons]
      rw [under_append, hrest]

/-- With the readings in the place of their bases, the text is read as its segments are. -/
theorem replaceAll_layOut (front : Text) (ss : List Segment) :
    replaceAll (layOut front.length ss).spans (front ++ (layOut front.length ss).plain) =
      front ++ ss.flatMap Segment.reading := by
  induction ss generalizing front with
  | nil => rfl
  | cons segment ss ih =>
    rw [List.flatMap_cons]
    cases segment with
    | plain t =>
      have hrest := ih (front ++ t)
      rwa [List.length_append, List.append_assoc, List.append_assoc] at hrest
    | annotated base reading =>
      have hrest := ih (front ++ base)
      rw [List.length_append, List.append_assoc, List.append_assoc] at hrest
      -- the readings behind this one are in place already
      show Span.replaceIn ⟨front.length, base.length, reading, []⟩
        (replaceAll (layOut (front.length + base.length) ss).spans _) = _
      simp only [layOut]
      rw [hrest, replaceIn_append]
      rfl

/-! ## Texts laid out -/

/-- For every text, the layout has its plain text. The readings come in order, none begins before the one before it has
ended, and the last one ends within the text. They are those of the runs of the text, each over the base of its run;
with every reading in the place of what it lies over, the plain text becomes the reading of the text. -/
theorem layout_ofText (t : Text) :
    (Layout.ofText t).plain = plain t ∧
    ((Layout.ofText t).spans.Pairwise fun a b => a.stop ≤ b.start) ∧
    (∀ s ∈ (Layout.ofText t).spans, s.stop ≤ (plain t).length) ∧
    (Layout.ofText t).spans.map (fun s => (s.under (plain t), s.reading)) =
      (runsFrom 0 (segments t)).map (fun run => (run.base, run.reading)) ∧
    Text.hiragana (replaceAll (Layout.ofText t).spans (plain t)) = reading t := by
  have hplain : (Layout.ofText t).plain = plain t := plain_layOut 0 (segments t)
  rw [← hplain]
  refine ⟨rfl, apart_layOut 0 (segments t), fun s hs => ?_, runs_layOut [] (segments t) 0, ?_⟩
  · obtain ⟨-, hstop⟩ := within_layOut hs
    rwa [Nat.zero_add] at hstop
  · have hread := replaceAll_layOut [] (segments t)
    exact congrArg Text.hiragana hread

/-- A run without a base is put in behind the one before it. -/
example : replaceAll (layOut 0 [.annotated ['木'] ['キ'], .annotated [] ['ね'], .plain ['が']]).spans ['木', 'が'] =
    ['キ', 'ね', 'が'] := by decide

end KanaTutor.Ruby
