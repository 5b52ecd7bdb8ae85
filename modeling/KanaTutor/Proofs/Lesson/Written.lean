/-
Directives that are written and read. A line is read back as the directive it was written for, whatever white space
stands in front of its arguments and at its end. This rests on the keywords: none of them begins another one, so at most
one of them begins a line, and it does not matter in what order they are tried.
-/
import KanaTutor.Proofs.Lesson.Passages
import KanaTutor.Proofs.Number.Decimal
import KanaTutor.Proofs.Text.Cutting

namespace KanaTutor

namespace Directive

/-! ## Writing -/

/-- The keyword of a directive. -/
def keyword : Directive → String
  | .title _ => "title"
  | .text => "text"
  | .hint => "hint"
  | .imeMode _ => "ime_mode"
  | .keyboard => "keyboard"
  | .random _ _ => "random"
  | .start => "start"
  | .showScore => "show_score"
  | .up => "up"
  | .next _ => "next"
  | .menu _ => "menu"
  | .zenkaku => "zenkaku"
  | .unknown _ => ""

/-- The arguments of a directive. -/
def arguments : Directive → List Text
  | .title t => [t]
  | .imeMode mode => if mode.isEmpty then [] else [mode]
  | .random (some lines) rounds => [Natural.write lines, Natural.write rounds]
  | .next target => target.toList
  | .menu targets => targets
  | .text | .hint | .keyboard | .random none _ | .start | .showScore | .up | .zenkaku | .unknown _ => []

/-- The directive can be written with its keyword and its arguments. -/
def IsCanonical : Directive → Prop
  | .title t => t.trim = t ∧ t ≠ []
  | .imeMode mode => mode.trim = mode
  | .random (some lines) rounds => lines < wordBound ∧ 1 ≤ rounds ∧ rounds < wordBound
  | .random none rounds => rounds = 1
  | .next target => ∀ name ∈ target, name.trim = name ∧ name ≠ []
  | .menu targets => ∀ name ∈ targets, name ≠ [] ∧ ∀ c ∈ name, isBlank c = false
  | .text | .hint | .keyboard | .start | .showScore | .up | .zenkaku => True
  | .unknown _ => False

/-- Arguments in a row, each behind a space and any further white space. -/
inductive Spaced : List Text → Text → Prop where
  | nil : Spaced [] []
  | cons {argument blank rest : Text} {arguments : List Text} : (∀ c ∈ blank, isBlank c = true) →
      Spaced arguments rest → Spaced (argument :: arguments) (' ' :: blank ++ argument ++ rest)

/-- The line is the marker, the keyword and the arguments of a directive, and any white space. -/
def IsWritten (d : Directive) (line : Text) : Prop :=
  ∃ row blank, Spaced d.arguments row ∧ (∀ c ∈ blank, isBlank c = true) ∧
    line = marker :: (d.keyword.toList ++ row ++ blank)

/-! ## Arguments -/

theorem Spaced.isBlank_head {arguments : List Text} {t : Text} (h : Spaced arguments t) :
    ∀ c ∈ t.head?, isBlank c = true := by
  cases h with
  | nil => nofun
  | cons => rintro c ⟨⟩; rfl

/-- Arguments that are words are the words of their row. -/
theorem Spaced.words {arguments : List Text} {t : Text} (h : Spaced arguments t)
    (hwords : ∀ argument ∈ arguments, argument ≠ [] ∧ ∀ c ∈ argument, isBlank c = false) :
    t.words = arguments := by
  induction h with
  | nil => rfl
  | cons hblank hrest ih =>
    obtain ⟨⟨hne, hargument⟩, hwords⟩ := List.forall_mem_cons.1 hwords
    rw [List.append_assoc, Text.words_append_of_blank (List.forall_mem_cons.2 ⟨rfl, hblank⟩),
      Text.words_append hne hargument hrest.isBlank_head, ih hwords]

/-- A single argument is what is left of its row when it is trimmed. -/
theorem Spaced.trim {argument t : Text} (h : Spaced [argument] t) (htrim : argument.trim = argument) :
    t.trim = argument := by
  cases h with
  | cons hblank hrest =>
    cases hrest
    rw [List.append_nil, Text.trim_append_of_blank (List.forall_mem_cons.2 ⟨rfl, hblank⟩), htrim]

/-- A row ends as its last argument does. -/
theorem Spaced.isBlank_getLast {arguments : List Text} {t : Text} (h : Spaced arguments t)
    (hends : ∀ argument ∈ arguments, argument ≠ [] ∧ ∀ c ∈ argument.getLast?, isBlank c = false) :
    ∀ c ∈ t.getLast?, isBlank c = false := by
  induction h with
  | nil => nofun
  | @cons argument blank rest _ hblank hrest ih =>
    obtain ⟨⟨hne, hargument⟩, hends⟩ := List.forall_mem_cons.1 hends
    intro c hc
    cases rest with
    | nil =>
      rw [List.append_nil, List.getLast?_append_of_ne_nil _ hne] at hc
      exact hargument c hc
    | cons d rest =>
      rw [List.getLast?_append_of_ne_nil _ (List.cons_ne_nil d rest)] at hc
      exact ih hends c hc

/-- The arguments of a directive that can be written do not end with white space. -/
theorem IsCanonical.ends {d : Directive} (h : d.IsCanonical) :
    ∀ argument ∈ d.arguments, argument ≠ [] ∧ ∀ c ∈ argument.getLast?, isBlank c = false := by
  have htrimmed : ∀ {t : Text}, t.trim = t → ∀ c ∈ t.getLast?, isBlank c = false := by
    intro t ht
    rw [← ht]
    exact Text.isBlank_getLast_trimEnd _
  have hnumber : ∀ n, Natural.write n ≠ [] ∧ ∀ c ∈ (Natural.write n).getLast?, isBlank c = false :=
    fun n => ⟨Nat.toDigits_ne_nil, fun c hc =>
      isBlank_of_isDigit (Natural.isDigit_write c (List.mem_of_mem_getLast? hc))⟩
  match d, h with
  | .title t, h => simpa [arguments] using ⟨h.2, htrimmed h.1⟩
  | .imeMode [], h => simp [arguments]
  | .imeMode (c :: mode), h => simpa [arguments] using htrimmed h
  | .random (some lines) rounds, h => simpa [arguments] using ⟨hnumber lines, hnumber rounds⟩
  | .next none, h => simp [arguments]
  | .next (some name), h =>
    obtain ⟨htrim, hne⟩ := h name rfl
    simpa [arguments] using ⟨hne, htrimmed htrim⟩
  | .menu targets, h =>
    intro name hname
    obtain ⟨hne, hword⟩ := h name hname
    exact ⟨hne, fun c hc => hword c (List.mem_of_mem_getLast? hc)⟩
  | .text, _ | .hint, _ | .keyboard, _ | .random none _, _ | .start, _ | .showScore, _ | .up, _ | .zenkaku, _ =>
    simp [arguments]

/-! ## Keywords -/

/-- The directive that is made of a line after its marker, if keywords are tried in some order. -/
def tried (order : List (String × (Text → Directive))) (body : Text) : Directive :=
  (order.findSome? fun k => (body.afterStart? k.1.toList).map k.2).getD (.unknown body)

theorem afterStart?_eq_some_iff {t beginning rest : Text} :
    t.afterStart? beginning = some rest ↔ t = beginning ++ rest := by
  rw [Text.afterStart?, List.isPrefixOf?_eq_some_iff_append_eq, eq_comm]

theorem afterStart?_eq_none_iff {t beginning : Text} : t.afterStart? beginning = none ↔ ¬beginning <+: t := by
  rw [Option.eq_none_iff_forall_ne_some]
  simp only [ne_eq, afterStart?_eq_some_iff]
  exact not_exists.symm.trans (not_congr (exists_congr fun _ => eq_comm))

/-- No two keywords begin the same text. -/
theorem eq_of_prefix {k k' : String × (Text → Directive)} {body : Text} (hk : k ∈ keywords) (hk' : k' ∈ keywords)
    (h : k.1.toList <+: body) (h' : k'.1.toList <+: body) : k = k' := by
  have hfree : ∀ k ∈ keywords.map (·.1), ∀ k' ∈ keywords.map (·.1), k.toList <+: k'.toList → k = k' := by decide
  have hnodup : (keywords.map (·.1)).Nodup := by decide
  refine List.inj_on_of_nodup_map hnodup hk hk' ?_
  rcases List.prefix_or_prefix_of_prefix h h' with hle | hle
  · exact hfree _ (List.mem_map_of_mem hk) _ (List.mem_map_of_mem hk') hle
  · exact (hfree _ (List.mem_map_of_mem hk') _ (List.mem_map_of_mem hk) hle).symm

section

variable {order : List (String × (Text → Directive))}

/-- The keyword that begins a line decides, whichever are tried before it. -/
theorem tried_of_keyword (horder : order.Perm keywords) {k : String × (Text → Directive)} (hk : k ∈ order)
    {body rest : Text} (hbody : body = k.1.toList ++ rest) : tried order body = k.2 rest := by
  have hmake : (body.afterStart? k.1.toList).map k.2 = some (k.2 rest) := by
    rw [afterStart?_eq_some_iff.2 hbody, Option.map_some]
  rcases hfind : order.findSome? fun k' => (body.afterStart? k'.1.toList).map k'.2 with _ | d
  · rw [List.findSome?_eq_none_iff.1 hfind k hk] at hmake
    cases hmake
  · -- the keyword that was found is the same one
    obtain ⟨k', hk', hd⟩ := List.exists_of_findSome?_eq_some hfind
    obtain ⟨rest', hrest', -⟩ := Option.map_eq_some_iff.1 hd
    have hprefix : k'.1.toList <+: body := ⟨rest', (afterStart?_eq_some_iff.1 hrest').symm⟩
    obtain rfl := eq_of_prefix (horder.mem_iff.1 hk') (horder.mem_iff.1 hk) hprefix ⟨rest, hbody.symm⟩
    rw [tried, hfind, Option.getD_some]
    exact Option.some.inj (hd.symm.trans hmake)

theorem tried_of_none {body : Text} (h : ∀ k ∈ order, ¬k.1.toList <+: body) : tried order body = .unknown body := by
  have hnone : (order.findSome? fun k => (body.afterStart? k.1.toList).map k.2) = none := by
    rw [List.findSome?_eq_none_iff]
    intro k hk
    rw [afterStart?_eq_none_iff.2 (h k hk), Option.map_none]
  rw [tried, hnone, Option.getD_none]

/-- It does not matter in what order the keywords are tried. -/
theorem tried_eq_ofBody (horder : order.Perm keywords) (body : Text) : tried order body = ofBody body := by
  show tried order body = tried keywords body
  by_cases hbegins : ∃ k ∈ keywords, k.1.toList <+: body
  · obtain ⟨k, hk, rest, hbody⟩ := hbegins
    rw [tried_of_keyword horder (horder.mem_iff.2 hk) hbody.symm, tried_of_keyword (.refl _) hk hbody.symm]
  · push Not at hbegins
    rw [tried_of_none hbegins, tried_of_none fun k hk => hbegins k (horder.mem_iff.1 hk)]

end

/-! ## Reading -/

/-- A keyword of the table makes of the row of its arguments the directive that they were written for. -/
theorem IsCanonical.exists_keyword {d : Directive} (h : d.IsCanonical) {row : Text} (hrow : Spaced d.arguments row) :
    ∃ k ∈ keywords, ∃ rest, d.keyword.toList ++ row = k.1.toList ++ rest ∧ k.2 rest = d := by
  match d, h, hrow with
  | .title t, ⟨htrim, _⟩, @Spaced.cons _ blank _ _ hblank .nil =>
    -- the space of the argument belongs to this keyword
    refine ⟨_, List.mem_of_getElem? (i := 0) rfl, blank ++ t, by simp [keyword], ?_⟩
    show Directive.title (blank ++ t).trim = _
    rw [Text.trim_append_of_blank hblank, htrim]
  | .text, _, .nil => exact ⟨_, List.mem_of_getElem? (i := 1) rfl, [], rfl, rfl⟩
  | .hint, _, .nil => exact ⟨_, List.mem_of_getElem? (i := 2) rfl, [], rfl, rfl⟩
  | .imeMode [], _, .nil => exact ⟨_, List.mem_of_getElem? (i := 3) rfl, [], rfl, rfl⟩
  | .imeMode (c :: mode), htrim, hrow =>
    refine ⟨_, List.mem_of_getElem? (i := 3) rfl, row, rfl, ?_⟩
    exact congrArg Directive.imeMode (hrow.trim htrim)
  | .keyboard, _, .nil => exact ⟨_, List.mem_of_getElem? (i := 4) rfl, [], rfl, rfl⟩
  | .random none rounds, hrounds, .nil =>
    refine ⟨_, List.mem_of_getElem? (i := 5) rfl, [], rfl, ?_⟩
    exact congrArg (Directive.random none) hrounds.symm
  | .random (some lines) rounds, ⟨hlines, hpos, hrounds⟩, hrow =>
    refine ⟨_, List.mem_of_getElem? (i := 5) rfl, row, rfl, ?_⟩
    show ofRandomArguments row = _
    have hnumber : ∀ n, Natural.write n ≠ [] ∧ ∀ c ∈ Natural.write n, isBlank c = false :=
      fun n => ⟨Nat.toDigits_ne_nil, fun c hc => isBlank_of_isDigit (Natural.isDigit_write c hc)⟩
    have hwords : row.words = [Natural.write lines, Natural.write rounds] := by
      refine hrow.words ?_
      simpa [arguments] using ⟨hnumber lines, hnumber rounds⟩
    rw [ofRandomArguments, hwords]
    simp [Natural.readWord?_write hlines, Natural.readWord?_write hrounds, hpos]
  | .start, _, .nil => exact ⟨_, List.mem_of_getElem? (i := 6) rfl, [], rfl, rfl⟩
  | .showScore, _, .nil => exact ⟨_, List.mem_of_getElem? (i := 7) rfl, [], rfl, rfl⟩
  | .up, _, .nil => exact ⟨_, List.mem_of_getElem? (i := 8) rfl, [], rfl, rfl⟩
  | .next none, _, .nil => exact ⟨_, List.mem_of_getElem? (i := 9) rfl, [], rfl, rfl⟩
  | .next (some name), hname, hrow =>
    obtain ⟨htrim, hne⟩ := hname name rfl
    refine ⟨_, List.mem_of_getElem? (i := 9) rfl, row, rfl, ?_⟩
    show Directive.next (if row.trim.isEmpty then none else some row.trim) = _
    rw [hrow.trim htrim, if_neg (by simpa using hne)]
  | .menu targets, hwords, hrow =>
    refine ⟨_, List.mem_of_getElem? (i := 10) rfl, row, rfl, ?_⟩
    exact congrArg Directive.menu (hrow.words hwords)
  | .zenkaku, _, .nil => exact ⟨_, List.mem_of_getElem? (i := 11) rfl, [], rfl, rfl⟩

/-- A written line is read without the white space at its end, however much there is. -/
theorem readLine_of_canonical {d : Directive} (h : d.IsCanonical) {row blank : Text} (hrow : Spaced d.arguments row)
    (hblank : ∀ c ∈ blank, isBlank c = true) :
    Player.readLine (marker :: (d.keyword.toList ++ row ++ blank)) = marker :: (d.keyword.toList ++ row) := by
  have hkeyword : Text.trimEnd (marker :: d.keyword.toList) = marker :: d.keyword.toList := by
    cases d <;> (dsimp only [keyword]; decide)
  have hends : ∀ c ∈ (marker :: (d.keyword.toList ++ row)).getLast?, isBlank c = false := by
    rw [← List.cons_append]
    cases row with
    | nil =>
      rw [List.append_nil, ← hkeyword]
      exact Text.isBlank_getLast_trimEnd _
    | cons c row =>
      rw [List.getLast?_append_of_ne_nil _ (List.cons_ne_nil c row)]
      exact hrow.isBlank_getLast h.ends
  rw [Player.readLine, List.head?_cons, if_pos rfl, ← List.cons_append, Text.trimEnd_append_of_blank _ hblank,
    Text.trimEnd_of_getLast hends]

/-- A directive is read from every line that it is written as. -/
theorem directive?_of_canonical {d : Directive} (h : d.IsCanonical) {line : Text} (hline : IsWritten d line) :
    directive? line = some d := by
  obtain ⟨row, blank, hrow, hblank, rfl⟩ := hline
  obtain ⟨k, hk, rest, hbody, hmade⟩ := h.exists_keyword hrow
  rw [directive?, readLine_of_canonical h hrow hblank, hbody]
  show some (tried keywords (k.1.toList ++ rest)) = some d
  rw [tried_of_keyword (.refl _) hk rfl, hmade]

/-- A line has a directive exactly if it begins with the marker. -/
theorem read?_eq_none_iff {line : Text} : read? line = none ↔ ¬[marker] <+: line := by
  rw [read?, Option.map_eq_none_iff, afterStart?_eq_none_iff]

/-- What a keyword makes is a directive with this keyword; the title's is told from the space behind it. -/
theorem keyword_made {k : String × (Text → Directive)} (hk : k ∈ keywords) (rest : Text) :
    (k.2 rest).keyword.toList = Text.trimEnd k.1.toList := by
  have hrandom : (ofRandomArguments rest).keyword = "random" := by
    unfold ofRandomArguments
    split <;> rfl
  simp only [keywords, List.mem_cons, List.not_mem_nil, or_false] at hk
  rcases hk with rfl | rfl | rfl | rfl | rfl | rfl | rfl | rfl | rfl | rfl | rfl | rfl
  case inr.inr.inr.inr.inr.inl =>
    dsimp only
    rw [hrandom]
    decide
  all_goals
    dsimp only [keyword]
    decide

/-- Whatever can be written is read back, from every line that it is written as. No directive is read exactly from the
lines that do not begin with the marker. In all others the keyword that begins the line decides, the only one that
does, and without one the line is unknown; in whatever order the keywords are tried, the line is read as the same
directive. -/
theorem reading_written :
    (∀ d line, d.IsCanonical → IsWritten d line → directive? line = some d) ∧
    (∀ line, read? line = none ↔ ¬[marker] <+: line) ∧
    ∀ order, order.Perm keywords → ∀ body, read? (marker :: body) = some (tried order body) ∧
      (∀ k ∈ order, ∀ rest, body = k.1.toList ++ rest → tried order body = k.2 rest ∧
        (tried order body).keyword.toList = Text.trimEnd k.1.toList ∧
        ∀ k' ∈ order, k'.1.toList <+: body → k' = k) ∧
      ((∀ k ∈ order, ¬k.1.toList <+: body) → tried order body = .unknown body) := by
  refine ⟨fun d line hd hline => directive?_of_canonical hd hline, fun line => read?_eq_none_iff, ?_⟩
  intro order horder body
  refine ⟨?_, ?_, tried_of_none⟩
  · rw [tried_eq_ofBody horder]
    rfl
  · intro k hk rest hbody
    have hmade := tried_of_keyword horder hk hbody
    refine ⟨hmade, ?_, ?_⟩
    · rw [hmade]
      exact keyword_made (horder.mem_iff.1 hk) rest
    · intro k' hk' hbegins
      exact eq_of_prefix (horder.mem_iff.1 hk') (horder.mem_iff.1 hk) hbegins ⟨rest, hbody.symm⟩

/-- A menu is read back with its names far apart, and a line without a space behind its keyword is not a title. -/
theorem reading_written_menu :
    (menu [['a'], ['b']]).IsCanonical ∧ IsWritten (menu [['a'], ['b']]) ":menu \u3000a \tb\u00a0".toList ∧
    directive? ":menu \u3000a \tb\u00a0".toList = some (menu [['a'], ['b']]) ∧
    keywords.reverse.Perm keywords ∧ (∀ k ∈ keywords.reverse, ¬k.1.toList <+: "title".toList) ∧
    tried keywords.reverse "title".toList = .unknown "title".toList ∧
    tried keywords.reverse "show_score".toList = .showScore := by
  have hd : (menu [['a'], ['b']]).IsCanonical := by
    simp [IsCanonical, isBlank]
  have hline : IsWritten (menu [['a'], ['b']]) ":menu \u3000a \tb\u00a0".toList := by
    refine ⟨" \u3000a \tb".toList, ['\u00a0'], ?_, by simp [isBlank], rfl⟩
    have hlast : Spaced [['b']] " \tb".toList := @Spaced.cons _ ['\t'] _ _ (by simp [isBlank]) .nil
    exact @Spaced.cons _ ['\u3000'] _ _ (by simp [isBlank]) hlast
  have horder : keywords.reverse.Perm keywords := List.reverse_perm keywords
  have hnone : ∀ k ∈ keywords.reverse, ¬k.1.toList <+: "title".toList := by
    simp [keywords]
  refine ⟨hd, hline, reading_written.1 _ _ hd hline, horder, hnone, (reading_written.2.2 _ horder _).2.2 hnone, ?_⟩
  have hk : ("show_score", fun _ => showScore) ∈ keywords.reverse := List.mem_of_getElem? (i := 4) rfl
  exact ((reading_written.2.2 _ horder _).2.1 _ hk [] rfl).1

end Directive

end KanaTutor
