/-
Styled text laid out. Whether a character belongs to a tag depends on all that stands before it, also across the borders
of segments, but only on what is shown there: readings are not looked at. So the segments are taken one after the other
with the style that the text in front of them leaves, and each keeps what is visible of it and the tag that is open at
its end. A styled text is laid out like the segments that are left, each reading with the tag of its base.

In a flat document every tag stands in a segment of its own, as far as the style is concerned, and leaves nothing of it:
the segments that are left are those of the document without its tags.
-/
import KanaTutor.Proofs.Ruby.Spans

namespace KanaTutor.Ruby

/-! ## Tags in a text -/

/-- A tag, by what stands in it. -/
def tagOf (inside : Text) : Text := '<' :: (inside ++ ['>'])

namespace Style

theorem read_cons (s : Style) (c : Char) (t : Text) : s.read (c :: t) =
    (((s.step c).1.read t).1, if (s.step c).2 then c :: ((s.step c).1.read t).2 else ((s.step c).1.read t).2) := rfl

theorem read_append (s : Style) (t u : Text) :
    s.read (t ++ u) = (((s.read t).1.read u).1, (s.read t).2 ++ ((s.read t).1.read u).2) := by
  induction t generalizing s with
  | nil => rfl
  | cons c t ih =>
    rw [List.cons_append, read_cons, read_cons, ih]
    split <;> rfl

/-- Text without tags is visible, and leaves the style as it is. -/
theorem read_shown {t : Text} (h : '<' ∉ t) (tag : Text) : (shown tag).read t = (shown tag, t) := by
  induction t with
  | nil => rfl
  | cons c t ih =>
    rw [List.mem_cons, not_or] at h
    have hstep : (shown tag).step c = (shown tag, true) := if_neg (Ne.symm h.1)
    rw [read_cons, hstep, ih h.2]
    rfl

theorem read_inside {inside : Text} (h : '>' ∉ inside) (tag : Text) :
    (opening tag).read (inside ++ ['>']) = (shown (tag ++ inside ++ ['>']), []) ∧
      closing.read (inside ++ ['>']) = (shown [], []) := by
  induction inside generalizing tag with
  | nil => exact ⟨by simp [read, step], rfl⟩
  | cons c inside ih =>
    rw [List.mem_cons, not_or] at h
    obtain ⟨hopening, hclosing⟩ := ih h.2 (tag ++ [c])
    have hstep : (opening tag).step c = (opening (tag ++ [c]), false) ∧ closing.step c = (closing, false) := by
      simp [step, Ne.symm h.1]
    rw [List.cons_append, read_cons, read_cons, hstep.1, hstep.2, hopening, hclosing]
    simp

/-- Outside of blocks a tag opens one. -/
theorem read_tagOf_outside {inside : Text} (h : '>' ∉ inside) :
    (shown []).read (tagOf inside) = (shown (tagOf inside), []) := by
  have hinside := (read_inside h ['<']).1
  rw [tagOf, read_cons]
  exact hinside

/-- In a block a tag ends it. -/
theorem read_tagOf_block {inside tag : Text} (h : '>' ∉ inside) (htag : tag ≠ []) :
    (shown tag).read (tagOf inside) = (shown [], []) := by
  have hstep : (shown tag).step '<' = (closing, false) := by simp [step, htag]
  rw [tagOf, read_cons, hstep, (read_inside h []).2]
  rfl

end Style

/-! ## Segments without their tags -/

/-- What is visible of segments, each with the tag that is open at its end. -/
def untagged (s : Style) : List Segment → List (Segment × Text)
  | [] => []
  | .plain t :: rest => (.plain (s.read t).2, (s.read t).1.tag) :: untagged (s.read t).1 rest
  | .annotated base reading :: rest =>
    (.annotated (s.read base).2 reading, (s.read base).1.tag) :: untagged (s.read base).1 rest

/-- The tags that go with the readings. -/
def readingTags (ss : List (Segment × Text)) : List Text := (ss.filter (!·.1.isPlain)).map (·.2)

/-- The span without its style. -/
def Span.bare (s : Span) : Span := { s with tag := [] }

section

variable (start : Nat) (s : Style) (ss : List Segment)

theorem markup_layOutStyled : (layOutStyled start s ss).markup = ss.flatMap Segment.base := by
  induction ss generalizing start s with
  | nil => rfl
  | cons segment ss ih =>
    rw [List.flatMap_cons]
    cases segment with
    | plain t => exact congrArg (t ++ ·) (ih _ _)
    | annotated base reading => exact congrArg (base ++ ·) (ih _ _)

theorem plain_layOutStyled :
    (layOutStyled start s ss).plain = (layOut start ((untagged s ss).map (·.1))).plain := by
  induction ss generalizing start s with
  | nil => rfl
  | cons segment ss ih =>
    cases segment with
    | plain t => exact congrArg ((s.read t).2 ++ ·) (ih _ _)
    | annotated base reading => exact congrArg ((s.read base).2 ++ ·) (ih _ _)

theorem bare_layOutStyled : (layOutStyled start s ss).spans.map Span.bare =
    (layOut start ((untagged s ss).map (·.1))).spans := by
  induction ss generalizing start s with
  | nil => rfl
  | cons segment ss ih =>
    cases segment with
    | plain t => exact ih _ _
    | annotated base reading => exact congrArg (_ :: ·) (ih _ _)

theorem tags_layOutStyled : (layOutStyled start s ss).spans.map Span.tag = readingTags (untagged s ss) := by
  induction ss generalizing start s with
  | nil => rfl
  | cons segment ss ih =>
    cases segment with
    | plain t => exact ih _ _
    | annotated base reading => exact congrArg (_ :: ·) (ih _ _)

end

theorem map_fst_under (ss : List Segment) (tag : Text) : (ss.map (·, tag)).map (·.1) = ss := by
  rw [List.map_map]
  exact List.map_id ss

/-- Segments without tags are left as they are, under the tag in front of them. -/
theorem untagged_append {ss : List Segment} (h : ∀ s ∈ ss, '<' ∉ s.base) (tag : Text) (rest : List Segment) :
    untagged (.shown tag) (ss ++ rest) = ss.map (·, tag) ++ untagged (.shown tag) rest := by
  induction ss with
  | nil => rfl
  | cons s ss ih =>
    obtain ⟨hs, hss⟩ := List.forall_mem_cons.1 h
    have hread := Style.read_shown hs tag
    cases s <;>
    · simp only [Segment.base] at hread
      simp [untagged, hread, ih hss, Style.tag]

theorem untagged_eq_self {ss : List Segment} (h : ∀ s ∈ ss, '<' ∉ s.base) :
    untagged (.shown []) ss = ss.map (·, []) := by
  have happend := untagged_append h [] []
  rwa [List.append_nil, untagged, List.append_nil] at happend

/-! ## Borders of segments -/

theorem layOut_joined (start : Nat) (ss : List Segment) : layOut start (joined ss) = layOut start ss := by
  refine apply_joined layOut ?_ ?_ ?_ start ss
  · intro start ss
    rfl
  · intro start t u ss
    simp [layOut, Nat.add_assoc]
  · intro s ss us h start
    cases s <;> simp only [layOut, h]

theorem layOutStyled_joined (start : Nat) (s : Style) (ss : List Segment) :
    layOutStyled start s (joined ss) = layOutStyled start s ss := by
  refine apply_joined (fun (a : Nat × Style) ss => layOutStyled a.1 a.2 ss) ?_ ?_ ?_ (start, s) ss
  · intro a ss
    rfl
  · intro a t u ss
    simp [layOutStyled, Style.read_append, Nat.add_assoc]
  · intro s ss us h a
    have hrest : ∀ start s, layOutStyled start s ss = layOutStyled start s us := fun start s => h (start, s)
    cases s <;> simp only [layOutStyled, hrest]

/-! ## Flat documents -/

/-- A part of a document: a segment outside of blocks, or a block of segments between an opening and a closing tag. -/
inductive Part where
  | single (s : Segment)
  | block (opening : Text) (body : List Segment) (closing : Text)
deriving DecidableEq, Repr

namespace Part

/-- A part as it is written. -/
def written : Part → Text
  | single s => s.encode
  | block opening body closing => tagOf opening ++ body.flatMap Segment.encode ++ tagOf closing

/-- The segments of a part without its tags. -/
def body : Part → List Segment
  | single s => [s]
  | block _ body _ => body

/-- The tag that opens a part, or none. -/
def tag : Part → Text
  | single _ => []
  | block opening _ _ => tagOf opening

/-- A part as it is written without its tags. -/
def unstyled (p : Part) : Text := p.body.flatMap Segment.encode

/-- The tag of a part for each of its readings. -/
def tags (p : Part) : List Text := (p.body.filter (!·.isPlain)).map fun _ => p.tag

end Part

/-- The text can stand in a tag. -/
def IsInside (inside : Text) : Prop := ∀ c ∈ inside, isMarker c = false ∧ c ≠ '>'

instance : DecidablePred IsInside := List.decidableBAll fun c => isMarker c = false ∧ c ≠ '>'

/-- The segment can be told from what is written, and no tag begins in what is shown of it. -/
def Segment.IsShown (s : Segment) : Prop := s.IsClear ∧ '<' ∉ s.base

instance : DecidablePred Segment.IsShown := fun s => inferInstanceAs (Decidable (s.IsClear ∧ '<' ∉ s.base))

namespace Part

/-- No tag stands in another one, or in a segment. -/
def IsFlat : Part → Prop
  | single s => s.IsShown
  | block opening body closing => IsInside opening ∧ IsInside closing ∧ ∀ s ∈ body, s.IsShown

instance : DecidablePred IsFlat
  | single s => inferInstanceAs (Decidable s.IsShown)
  | block opening body closing =>
    inferInstanceAs (Decidable (IsInside opening ∧ IsInside closing ∧ ∀ s ∈ body, s.IsShown))

theorem isShown_of_isFlat {p : Part} (h : p.IsFlat) : ∀ s ∈ p.body, s.IsShown := by
  cases p with
  | single s => exact List.forall_mem_singleton.2 h
  | block opening body closing => exact h.2.2

/-- The segments of a part with its tags, each as a plain segment of its own. -/
def segments : Part → List Segment
  | single s => [s]
  | block opening body closing => .plain (tagOf opening) :: (body ++ [.plain (tagOf closing)])

theorem written_eq (p : Part) : p.written = p.segments.flatMap Segment.encode := by
  cases p <;> simp [written, segments, Segment.encode]

theorem isClear_tagOf {inside : Text} (h : IsInside inside) : (Segment.plain (tagOf inside)).IsClear := by
  intro c hc
  simp only [tagOf, List.mem_cons, List.mem_append, List.not_mem_nil, or_false] at hc
  rcases hc with rfl | hc | rfl
  · decide
  · exact (h c hc).1
  · decide

theorem isClear_segments {p : Part} (h : p.IsFlat) : ∀ s ∈ p.segments, s.IsClear := by
  cases p with
  | single s => exact List.forall_mem_singleton.2 h.1
  | block opening body closing =>
    obtain ⟨hopening, hclosing, hbody⟩ := h
    simp only [segments, List.forall_mem_cons, List.forall_mem_append]
    exact ⟨isClear_tagOf hopening, fun s hs => (hbody s hs).1, isClear_tagOf hclosing, by simp⟩

/-- What is left of a part: nothing of its tags, and its segments under the tag that opens it. -/
def left : Part → List (Segment × Text)
  | single s => [(s, [])]
  | block opening body _ =>
    (.plain [], tagOf opening) :: (body.map (·, tagOf opening) ++ [(.plain [], [])])

theorem untagged_segments {p : Part} (h : p.IsFlat) (rest : List Segment) :
    untagged (.shown []) (p.segments ++ rest) = p.left ++ untagged (.shown []) rest := by
  cases p with
  | single s => exact untagged_append (List.forall_mem_singleton.2 h.2) [] rest
  | block opening body closing =>
    obtain ⟨hopening, hclosing, hbody⟩ := h
    have hopens := Style.read_tagOf_outside fun hmem => (hopening _ hmem).2 rfl
    have hopened : tagOf opening ≠ [] := List.cons_ne_nil '<' (opening ++ ['>'])
    have hcloses := Style.read_tagOf_block (fun hmem => (hclosing _ hmem).2 rfl) hopened
    have hinside := untagged_append (fun s hs => (hbody s hs).2) (tagOf opening) (.plain (tagOf closing) :: rest)
    simp only [segments, left, List.cons_append, List.append_assoc, List.nil_append, untagged, hopens, hinside,
      hcloses]
    rfl

theorem joined_left (p : Part) {us vs : List Segment} (h : joined us = joined vs) :
    joined (p.left.map (·.1) ++ us) = joined (p.body ++ vs) := by
  cases p with
  | single s => exact joined_append_congr h [s]
  | block opening body closing =>
    -- the empty segments of the tags join whatever is next to them
    have hend : joined (.plain [] :: us) = joined vs := h
    simp only [left, Part.body, List.map_cons, List.map_append, map_fst_under, List.map_nil, List.cons_append,
      List.append_assoc, List.nil_append]
    exact joined_append_congr hend body

theorem readingTags_left (p : Part) : readingTags p.left = p.tags := by
  cases p with
  | single s => cases s <;> rfl
  | block opening body closing =>
    simp [readingTags, left, tags, Part.body, Part.tag, List.filter_map, Function.comp_def, Segment.isPlain]

end Part

section

variable {doc : List Part} (h : ∀ p ∈ doc, p.IsFlat)

include h

theorem segments_written : segments (doc.flatMap Part.written) = joined (doc.flatMap Part.segments) := by
  have hclear : ∀ s ∈ doc.flatMap Part.segments, s.IsClear := by
    rw [List.forall_mem_flatMap]
    exact fun p hp => Part.isClear_segments (h p hp)
  rw [← segments_flatMap_encode hclear, List.flatMap_assoc]
  exact congrArg segments (List.flatMap_congr fun p _ => p.written_eq)

theorem segments_unstyled : segments (doc.flatMap Part.unstyled) = joined (doc.flatMap Part.body) := by
  have hclear : ∀ s ∈ doc.flatMap Part.body, s.IsClear := by
    rw [List.forall_mem_flatMap]
    exact fun p hp s hs => (Part.isShown_of_isFlat (h p hp) s hs).1
  rw [← segments_flatMap_encode hclear, List.flatMap_assoc]
  rfl

theorem untagged_document : untagged (.shown []) (doc.flatMap Part.segments) = doc.flatMap Part.left := by
  induction doc with
  | nil => rfl
  | cons p doc ih =>
    obtain ⟨hp, hdoc⟩ := List.forall_mem_cons.1 h
    rw [List.flatMap_cons, List.flatMap_cons, Part.untagged_segments hp, ih hdoc]

end

theorem joined_document (doc : List Part) :
    joined ((doc.flatMap Part.left).map (·.1)) = joined (doc.flatMap Part.body) := by
  induction doc with
  | nil => rfl
  | cons p doc ih =>
    rw [List.flatMap_cons, List.flatMap_cons, List.map_append]
    exact p.joined_left ih

theorem readingTags_document (doc : List Part) : readingTags (doc.flatMap Part.left) = doc.flatMap Part.tags := by
  induction doc with
  | nil => rfl
  | cons p doc ih =>
    rw [List.flatMap_cons, List.flatMap_cons, ← ih, ← p.readingTags_left]
    simp [readingTags]

/-! ## Texts laid out -/

theorem not_mem_base_of_not_mem {t : Text} (h : '<' ∉ t) : ∀ s ∈ segments t, '<' ∉ s.base := by
  intro s hs hmem
  refine h ?_
  rw [← encode_segments t]
  refine List.mem_flatMap.2 ⟨s, hs, ?_⟩
  cases s with
  | plain t => exact hmem
  | annotated base reading => exact List.mem_cons_of_mem _ (by simp_all [Segment.base])

theorem map_bare_eq_self {spans : List Span} (h : ∀ tag ∈ spans.map Span.tag, tag = []) :
    spans.map Span.bare = spans := by
  refine (List.map_congr_left fun s hs => ?_).trans (List.map_id spans)
  have htag : s.tag = [] := h s.tag (List.mem_map_of_mem hs)
  cases s
  cases htag
  rfl

/-- The readings of a styled text lie where those of the segments without their tags lie. -/
theorem order_ofMarkup (t : Text) : ((Layout.ofMarkup t).spans.Pairwise fun a b => a.stop ≤ b.start) ∧
    ∀ s ∈ (Layout.ofMarkup t).spans, s.stop ≤ (Layout.ofMarkup t).plain.length := by
  constructor
  · have hapart := apart_layOut 0 ((untagged (.shown []) (segments t)).map (·.1))
    rwa [← bare_layOutStyled, List.pairwise_map] at hapart
  · intro s hs
    have hbare : s.bare ∈ (Layout.ofMarkup t).spans.map Span.bare := List.mem_map_of_mem hs
    rw [Layout.ofMarkup, bare_layOutStyled] at hbare
    have hstop := (within_layOut hbare).2
    rwa [← plain_layOutStyled, Nat.zero_add] at hstop

theorem ofMarkup_of_not_mem {t : Text} (h : '<' ∉ t) : (Layout.ofMarkup t).plain = (Layout.ofText t).plain ∧
    (Layout.ofMarkup t).spans = (Layout.ofText t).spans := by
  have huntagged := untagged_eq_self (not_mem_base_of_not_mem h)
  constructor
  · rw [Layout.ofMarkup, plain_layOutStyled, huntagged, map_fst_under]
    rfl
  · have htags : ∀ tag ∈ (Layout.ofMarkup t).spans.map Span.tag, tag = [] := by
      intro tag htag
      rw [Layout.ofMarkup, tags_layOutStyled, huntagged] at htag
      obtain ⟨_, hleft, rfl⟩ := List.mem_map.1 htag
      obtain ⟨s, -, rfl⟩ := List.mem_map.1 (List.mem_filter.1 hleft).1
      rfl
    rw [← map_bare_eq_self htags, Layout.ofMarkup, bare_layOutStyled, huntagged, map_fst_under]
    rfl

theorem layOut_left (doc : List Part) :
    layOut 0 ((doc.flatMap Part.left).map (·.1)) = layOut 0 (joined (doc.flatMap Part.body)) := by
  rw [← layOut_joined, joined_document]

/-- For every text, the markup of its layout is the plain text, and its readings come in order, none begins before the
one before it has ended, and the last one ends within what is shown. Where no tag begins in a text, it is laid out as
one without style. What is shown of a flat document, and where its readings are, is the same with its tags and without
them, and each reading has the tag of its block. -/
theorem layout_ofMarkup :
    (∀ t : Text, (Layout.ofMarkup t).markup = plain t ∧
      ((Layout.ofMarkup t).spans.Pairwise fun a b => a.stop ≤ b.start) ∧
      ∀ s ∈ (Layout.ofMarkup t).spans, s.stop ≤ (Layout.ofMarkup t).plain.length) ∧
    (∀ t : Text, '<' ∉ t → (Layout.ofMarkup t).plain = (Layout.ofText t).plain ∧
      (Layout.ofMarkup t).spans = (Layout.ofText t).spans) ∧
    ∀ doc : List Part, (∀ p ∈ doc, p.IsFlat) →
      (Layout.ofMarkup (doc.flatMap Part.written)).plain = (Layout.ofText (doc.flatMap Part.unstyled)).plain ∧
      (Layout.ofMarkup (doc.flatMap Part.written)).spans.map Span.bare =
        (Layout.ofText (doc.flatMap Part.unstyled)).spans ∧
      (Layout.ofMarkup (doc.flatMap Part.written)).spans.map Span.tag = doc.flatMap Part.tags := by
  refine ⟨fun t => ⟨markup_layOutStyled 0 _ _, order_ofMarkup t⟩, fun t ht => ofMarkup_of_not_mem ht, ?_⟩
  intro doc hdoc
  rw [Layout.ofMarkup, Layout.ofText, segments_written hdoc, segments_unstyled hdoc, layOutStyled_joined]
  refine ⟨?_, ?_, ?_⟩
  · rw [plain_layOutStyled, untagged_document hdoc, layOut_left]
  · rw [bare_layOutStyled, untagged_document hdoc, layOut_left]
  · rw [tags_layOutStyled, untagged_document hdoc, readingTags_document]

namespace Styled

/-- Two blocks next to each other, of which the second begins with a reading of nothing, between text and a run. One
reading looks as if it began a tag. -/
def document : List Part :=
  [.single (.plain ['こ', '>']),
    .block ['b'] [.annotated ['本'] ['ほ', '<', 'ん'], .plain ['は']] ['/', 'b'],
    .block ['i', '<'] [.annotated [] ['ね'], .annotated ['木'] ['き']] [],
    .single (.annotated ['葉'] ['は'])]

end Styled

theorem layout_ofMarkup_twoBlocks :
    ('<' ∉ (Segment.annotated ['木'] ['き']).encode ∧
      (Layout.ofMarkup (Segment.annotated ['木'] ['き']).encode).spans =
        (Layout.ofText (Segment.annotated ['木'] ['き']).encode).spans) ∧
    (∀ p ∈ Styled.document, p.IsFlat) ∧
    (Layout.ofMarkup (Styled.document.flatMap Part.written)).plain = ['こ', '>', '本', 'は', '木', '葉'] ∧
    (Layout.ofMarkup (Styled.document.flatMap Part.written)).spans.map Span.bare =
      [⟨2, 1, ['ほ', '<', 'ん'], []⟩, ⟨4, 0, ['ね'], []⟩, ⟨4, 1, ['き'], []⟩, ⟨5, 1, ['は'], []⟩] ∧
    (Layout.ofMarkup (Styled.document.flatMap Part.written)).spans.map Span.tag =
      [['<', 'b', '>'], ['<', 'i', '<', '>'], ['<', 'i', '<', '>'], []] := by
  have hmem : '<' ∉ (Segment.annotated ['木'] ['き']).encode := by decide
  have hflat : ∀ p ∈ Styled.document, p.IsFlat := by decide
  obtain ⟨hplain, hbare, htags⟩ := layout_ofMarkup.2.2 _ hflat
  refine ⟨⟨hmem, (layout_ofMarkup.2.1 _ hmem).2⟩, hflat, ?_, ?_, ?_⟩
  · rw [hplain, Layout.ofText, segments_unstyled hflat]
    decide
  · rw [hbare, Layout.ofText, segments_unstyled hflat]
    decide
  · rw [htags]
    decide

end KanaTutor.Ruby
