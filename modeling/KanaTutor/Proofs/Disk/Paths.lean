/-
Directories of paths. The directory part of a path is what is left of it in front of its last name, so the path leads
where that one name leads from the directory, and so does a name that is seen from a directory. Slashes and dots that
say nothing may stand anywhere in a path, and do not count as names.
-/
import KanaTutor.Proofs.Disk.Files
import KanaTutor.Proofs.Text.Octets
import Mathlib.Data.List.Induction

namespace KanaTutor

namespace Path

/-! ## Pieces -/

theorem pieces_eq_splitOn (p : Path) : pieces p = List.splitOn '/' p := by
  induction p with
  | nil => rfl
  | cons c p ih =>
    rw [pieces, ih, List.splitOn_cons_eq_if_modifyHead]
    cases h : List.splitOn '/' p with
    | nil => exact absurd h (List.splitOn_ne_nil _ _)
    | cons piece others => simp only [beq_iff_eq, List.modifyHead_cons]

theorem pieces_ne_nil (p : Path) : pieces p ≠ [] := by
  rw [pieces_eq_splitOn]
  exact List.splitOn_ne_nil _ _

theorem pieces_append (p q : Path) : pieces (p ++ '/' :: q) = pieces p ++ pieces q := by
  simp only [pieces_eq_splitOn, List.splitOn_append_cons_self]

theorem intercalate_pieces (p : Path) : List.intercalate ['/'] (pieces p) = p := by
  rw [pieces_eq_splitOn, List.intercalate_splitOn]

theorem slash_not_mem (p : Path) : ∀ piece ∈ pieces p, '/' ∉ piece := by
  induction p with
  | nil => simp [pieces]
  | cons c p ih =>
    cases h : pieces p with
    | nil => exact absurd h (pieces_ne_nil p)
    | cons piece others =>
      rw [h] at ih
      obtain ⟨hpiece, hothers⟩ := List.forall_mem_cons.1 ih
      rw [pieces, h]
      dsimp only
      split
      · exact List.forall_mem_cons.2 ⟨by simp, ih⟩
      · rename_i hc
        refine List.forall_mem_cons.2 ⟨?_, hothers⟩
        simp [hpiece, Ne.symm hc]

theorem intercalate_append {xs ys : List Text} (hx : xs ≠ []) (hy : ys ≠ []) :
    List.intercalate ['/'] (xs ++ ys) = List.intercalate ['/'] xs ++ '/' :: List.intercalate ['/'] ys := by
  induction xs with
  | nil => exact absurd rfl hx
  | cons x xs ih =>
    cases xs with
    | nil =>
      rw [List.singleton_append, List.intercalate_cons_of_ne_nil hy, List.intercalate_singleton, List.append_assoc,
        List.singleton_append]
    | cons z xs =>
      have hne : z :: xs ≠ [] := List.cons_ne_nil z xs
      rw [List.cons_append, List.intercalate_cons_of_ne_nil (List.append_ne_nil_of_left_ne_nil hne ys), ih hne,
        List.intercalate_cons_of_ne_nil hne]
      simp only [List.append_assoc]

/-- A path can be cut at every slash. -/
theorem cut_pieces {p : Path} {xs ys : List Text} (h : pieces p = xs ++ ys) (hx : xs ≠ []) (hy : ys ≠ []) :
    p = List.intercalate ['/'] xs ++ '/' :: List.intercalate ['/'] ys ∧ pieces (List.intercalate ['/'] ys) = ys := by
  have hslash : ∀ y ∈ ys, '/' ∉ y := by
    intro y hmem
    exact slash_not_mem p y (by rw [h]; exact List.mem_append_right _ hmem)
  refine ⟨?_, ?_⟩
  · rw [← intercalate_append hx hy, ← h, intercalate_pieces]
  · rw [pieces_eq_splitOn, List.splitOn_intercalate '/' hslash hy]

/-! ## Names -/

/-- How many names there are in a path. -/
def names (p : Path) : Nat := (pieces p).countP isName

theorem upToName_concat (pieces : List Text) (x : Text) :
    upToName (pieces ++ [x]) = if isName x then pieces ++ [x] else upToName pieces := by
  rw [upToName, List.reverse_append, List.reverse_singleton, List.singleton_append, List.dropWhile_cons]
  cases isName x with
  | true => simp
  | false => rfl

/-- The pieces up to the last name end with it, and there is none behind it. -/
theorem upToName_cases (pieces : List Text) :
    (upToName pieces = [] ∧ ∀ x ∈ pieces, isName x = false) ∨
      ∃ front name back, pieces = front ++ name :: back ∧ upToName pieces = front ++ [name] ∧ isName name = true ∧
        ∀ x ∈ back, isName x = false := by
  induction pieces using List.reverseRecOn with
  | nil => exact .inl ⟨rfl, by simp⟩
  | append_singleton pieces x ih =>
    rw [upToName_concat]
    cases hx : isName x with
    | true => exact .inr ⟨pieces, x, [], rfl, rfl, hx, by simp⟩
    | false =>
      rcases ih with ⟨hnil, hnone⟩ | ⟨front, name, back, rfl, hupTo, hname, hback⟩
      · refine .inl ⟨hnil, ?_⟩
        simpa [or_imp, forall_and, hx] using hnone
      · refine .inr ⟨front, name, back ++ [x], by simp, hupTo, hname, ?_⟩
        simpa [or_imp, forall_and, hx] using hback

/-! ## The directory part -/

/-- The directory part of a name, if it has one. -/
def directory? (name : Path) : Option Path := (parent? name).filter (!·.isEmpty)

/-- The path is what another one is from a directory. -/
inductive Beneath (dir file : Path) : Path → Prop where
  | slash : dir ≠ [] → Beneath dir file (dir ++ '/' :: file)
  | atSlash {front : Path} : dir = front ++ ['/'] → Beneath dir file (dir ++ file)

theorem Beneath.ne_nil {dir file p : Path} (h : Beneath dir file p) : dir ≠ [] := by
  cases h with
  | slash hdir => exact hdir
  | atSlash hslash => simp [hslash]

theorem beneath_join {dir name : Path} (hdir : dir ≠ []) (hname : isAbsolute name = false) :
    Beneath dir name (join dir name) := by
  rw [join, hname, Bool.false_or, if_neg (by simpa using hdir)]
  split
  · rename_i hlast
    obtain ⟨front, hfront⟩ := List.getLast?_eq_some_iff.1 hlast
    exact .atSlash hfront
  · exact .slash hdir

theorem countP_isName {pieces : List Text} (h : ∀ x ∈ pieces, isName x = false) : pieces.countP isName = 0 :=
  List.countP_eq_zero.2 fun x hx => by simp [h x hx]

/-- What follows of a path from a slash on, if there is one name in it. -/
theorem beneath_cut {p : Path} {xs front back : List Text} {name : Text} (h : pieces p = xs ++ (front ++ name :: back))
    (hx : xs ≠ []) (hfront : ∀ x ∈ front, isName x = false) (hname : isName name = true)
    (hback : ∀ x ∈ back, isName x = false) :
    ∃ file, p = List.intercalate ['/'] xs ++ '/' :: file ∧ names file = 1 := by
  obtain ⟨hp, hfile⟩ := cut_pieces h hx (by simp)
  refine ⟨_, hp, ?_⟩
  rw [names, hfile, List.countP_append, List.countP_cons_of_pos hname, countP_isName hfront, countP_isName hback]

theorem intercalate_ne_nil {name : Text} (h : isName name = true) (front : List Text) :
    List.intercalate ['/'] (front ++ [name]) ≠ [] := by
  cases front with
  | nil =>
    rw [List.nil_append, List.intercalate_singleton]
    rintro rfl
    cases h
  | cons x front =>
    rw [intercalate_append (List.cons_ne_nil x front) (List.cons_ne_nil name [])]
    simp

theorem directory?_of_nil {name : Path} (h : parent? name = some []) : directory? name = none := by
  rw [directory?, h]
  rfl

theorem directory?_of_parent? {name dir : Path} (h : parent? name = some dir) (hdir : dir ≠ []) :
    directory? name = some dir := by
  rw [directory?, h, Option.filter_some, if_pos (by simpa using hdir)]

/-- What is known of the directory part: what follows it is one name; and if there is no such part, the path has at most
one name, from the root directory none at all. -/
def Splits (name : Path) : Prop :=
  (directory? name = none ∧ names name ≤ 1 ∧ (isAbsolute name = true → names name = 0)) ∨
    ∃ dir file, directory? name = some dir ∧ Beneath dir file name ∧ names file = 1

theorem isAbsolute_of_isName {name : Path} {first : Text} {rest : List Text} (hpieces : pieces name = first :: rest)
    (hfirst : isName first = true) : isAbsolute name = false := by
  cases name with
  | nil => rfl
  | cons c name =>
    refine decide_eq_false ?_
    rintro habsolute
    cases habsolute
    have hslash : pieces ('/' :: name) = [] :: pieces name := pieces_append [] name
    rw [hslash] at hpieces
    cases hpieces
    cases hfirst

theorem splits_of_name {name : Path} {first : Text} {rest : List Text} (hpieces : pieces name = first :: rest)
    (hfirst : isName first = true) : name.Splits := by
  have hparent : parent? name = some (List.intercalate ['/'] (upToName (upToName (first :: rest)).dropLast)) := by
    rw [parent?, hpieces]
    exact if_pos hfirst
  rcases upToName_cases (first :: rest) with ⟨-, hnone⟩ | ⟨front, last, back, hsplit, hupTo, hlast, hback⟩
  · rw [hnone first (List.mem_cons_self ..)] at hfirst
    cases hfirst
  · rw [hupTo, List.dropLast_concat] at hparent
    rw [hsplit] at hpieces
    rcases upToName_cases front with ⟨hnil, hnone⟩ | ⟨dirs, dir, between, rfl, hdir, hname, hbetween⟩
    · rw [hnil, List.intercalate_nil] at hparent
      have hrelative : isAbsolute name = false := isAbsolute_of_isName (hpieces.trans hsplit.symm) hfirst
      refine .inl ⟨directory?_of_nil hparent, Nat.le_of_eq ?_, by simp [hrelative]⟩
      rw [names, hpieces, List.countP_append, List.countP_cons_of_pos hlast, countP_isName hnone, countP_isName hback]
    · rw [hdir] at hparent
      have hne := intercalate_ne_nil hname dirs
      have hcut : pieces name = (dirs ++ [dir]) ++ (between ++ last :: back) := by simp [hpieces]
      obtain ⟨file, heq, hfile⟩ := beneath_cut hcut (by simp) hbetween hlast hback
      exact .inr ⟨_, file, directory?_of_parent? hparent hne, heq ▸ .slash hne, hfile⟩

theorem splits_of_not_name {name : Path} {first : Text} {rest : List Text} (hpieces : pieces name = first :: rest)
    (hfirst : isName first = false) : name.Splits := by
  rcases upToName_cases rest with ⟨hnil, hnone⟩ | ⟨front, last, back, rfl, hupTo, hlast, hback⟩
  · have hparent : parent? name = if first.isEmpty then none else some [] := by
      simp only [parent?, hpieces, hfirst, hnil]
      rfl
    have hnames : names name = 0 := by
      rw [names, hpieces, List.countP_cons_of_neg (by simp [hfirst]), countP_isName hnone]
    refine .inl ⟨?_, by omega, fun _ => hnames⟩
    rw [directory?, hparent]
    split <;> rfl
  · obtain ⟨x, body, hbody⟩ := List.exists_cons_of_ne_nil (List.concat_ne_nil last front)
    have hdrop : (x :: body).dropLast = front := by rw [← hbody, List.dropLast_concat]
    rw [hbody] at hupTo
    rcases upToName_cases front with ⟨hnil, hnone⟩ | ⟨dirs, dir, between, rfl, hdir, hname, hbetween⟩
    · have hparent : parent? name = some (if first.isEmpty then ['/'] else first) := by
        simp only [parent?, hpieces, hfirst, hupTo, hdrop, hnil, Bool.false_eq_true, if_false]
      have hcut : pieces name = [first] ++ (front ++ last :: back) := hpieces
      obtain ⟨file, heq, hfile⟩ := beneath_cut hcut (by simp) hnone hlast hback
      rw [List.intercalate_singleton] at heq
      -- all that is in front of the name is the root directory, or a dot
      cases first with
      | nil =>
        have hslash : ['/'] = [] ++ ['/'] := rfl
        exact .inr ⟨_, file, directory?_of_parent? hparent (by simp), heq ▸ .atSlash hslash, hfile⟩
      | cons c first =>
        have hne := List.cons_ne_nil c first
        exact .inr ⟨_, file, directory?_of_parent? hparent hne, heq ▸ .slash hne, hfile⟩
    · obtain ⟨y, above, habove⟩ := List.exists_cons_of_ne_nil (List.concat_ne_nil dir dirs)
      rw [habove] at hdir
      have hparent : parent? name = some (List.intercalate ['/'] (first :: dirs ++ [dir])) := by
        rw [List.cons_append, habove]
        simp only [parent?, hpieces, hfirst, hupTo, hdrop, hdir, Bool.false_eq_true, if_false]
      have hne := intercalate_ne_nil hname (first :: dirs)
      have hcut : pieces name = (first :: dirs ++ [dir]) ++ (between ++ last :: back) := by simp [hpieces]
      obtain ⟨file, heq, hfile⟩ := beneath_cut hcut (by simp) hbetween hlast hback
      exact .inr ⟨_, file, directory?_of_parent? hparent hne, heq ▸ .slash hne, hfile⟩

theorem splits (name : Path) : name.Splits := by
  cases hpieces : pieces name with
  | nil => exact absurd hpieces (pieces_ne_nil name)
  | cons first rest =>
    cases hfirst : isName first with
    | true => exact splits_of_name hpieces hfirst
    | false => exact splits_of_not_name hpieces hfirst

end Path

namespace Disk

variable {disk : Disk}

/-! ## Ways along paths -/

theorem walk_append (disk : Disk) (loc : Location) (front back : List Text) :
    disk.walk loc (front ++ back) = (disk.walk loc front).bind fun loc => disk.walk loc back := by
  induction front generalizing loc with
  | nil => rfl
  | cons piece front ih =>
    rw [List.cons_append, walk, walk]
    cases disk.entry? loc with
    | none => rfl
    | some entry =>
      cases entry with
      | file content => rfl
      | directory =>
        dsimp only
        split_ifs
        · exact ih loc
        · exact ih loc.dropLast
        · exact ih _
        · rfl

/-- A piece that is no name leads nowhere else. -/
theorem walk_of_not_name (disk : Disk) (loc : Location) {piece next : Text} (h : Path.isName piece = false)
    (rest : List Text) : disk.walk loc (piece :: next :: rest) = disk.walk loc (next :: rest) := by
  simp only [walk, h]
  cases disk.entry? loc with
  | none => rfl
  | some entry => cases entry <;> rfl

theorem isPossible_of_append {p q : Path} (h : isPossible (p ++ q) = true) : isPossible p = true := by
  simp only [isPossible, Utf8.encode_append, List.length_append, List.contains_append, Bool.and_eq_true,
    decide_eq_true_eq, Bool.not_or, Bool.not_eq_true'] at h ⊢
  exact ⟨by omega, h.2.1⟩

theorem locate_of_possible {p : Path} (hne : p ≠ []) (hpossible : isPossible p = true) :
    disk.locate p = disk.walk (disk.startOf p) (Path.pieces p) := by
  rw [locate, if_neg (by simpa using hne), if_neg (by simp [hpossible])]

theorem startOf_append {p : Path} (hne : p ≠ []) (q : Path) : disk.startOf (p ++ q) = disk.startOf p := by
  cases p with
  | nil => exact absurd rfl hne
  | cons c p => rfl

/-- A path leads where it leads from the directory. -/
theorem locate_beneath {dir file p : Path} (h : Path.Beneath dir file p) (hpossible : isPossible p = true) :
    disk.locate p = (disk.locate dir).bind fun loc => disk.walk loc (Path.pieces file) := by
  have hdir := h.ne_nil
  have hprefix : ∃ q, p = dir ++ q := by
    cases h with
    | slash => exact ⟨_, rfl⟩
    | atSlash => exact ⟨_, rfl⟩
  obtain ⟨q, hq⟩ := hprefix
  have hdirPossible : isPossible dir = true := isPossible_of_append (hq ▸ hpossible)
  have hp : p ≠ [] := by simp [hq, hdir]
  have hstart : disk.startOf p = disk.startOf dir := by rw [hq, startOf_append hdir]
  rw [locate_of_possible hp hpossible, locate_of_possible hdir hdirPossible, hstart, ← walk_append]
  cases h with
  | slash => rw [Path.pieces_append]
  | atSlash hslash =>
    rename_i front
    subst hslash
    have hdirPieces : Path.pieces (front ++ ['/']) = Path.pieces front ++ [[]] := Path.pieces_append front []
    have hpieces : Path.pieces (front ++ ['/'] ++ file) = Path.pieces front ++ Path.pieces file := by
      rw [List.append_assoc, List.singleton_append, Path.pieces_append]
    rw [hpieces, hdirPieces, List.append_assoc, walk_append, walk_append]
    cases hfile : Path.pieces file with
    | nil => exact absurd hfile (Path.pieces_ne_nil file)
    | cons piece rest =>
      have hempty : Path.isName [] = false := rfl
      simp only [List.singleton_append, walk_of_not_name disk _ hempty]

theorem possible_of_locate {p : Path} {loc : Location} (h : disk.locate p = .ok loc) :
    p ≠ [] ∧ isPossible p = true := by
  unfold locate at h
  split_ifs at h with hempty hpossible
  exact ⟨by simpa using hempty, by simpa using hpossible⟩

/-- The directory part of a path that leads somewhere is there. -/
theorem exists?_of_beneath {dir file p : Path} {loc : Location} (h : Path.Beneath dir file p)
    (hlocate : disk.locate p = .ok loc) : disk.exists? dir = true := by
  rw [locate_beneath h (possible_of_locate hlocate).2] at hlocate
  unfold exists?
  cases hdir : disk.locate dir with
  | error e =>
    rw [hdir] at hlocate
    cases hlocate
  | ok l =>
    rw [hdir] at hlocate
    -- the first piece after it is looked for in a directory
    obtain ⟨piece, rest, hpieces⟩ := List.exists_cons_of_ne_nil (Path.pieces_ne_nil file)
    replace hlocate : disk.walk l (Path.pieces file) = .ok loc := hlocate
    rw [hpieces, walk] at hlocate
    dsimp only
    cases hentry : disk.entry? l with
    | none =>
      rw [hentry] at hlocate
      cases hlocate
    | some entry => rfl

/-- A way without names ends in a directory. -/
theorem walk_of_no_names {loc found : Location} {p : Path} (hnames : Path.names p = 0)
    (hwalk : disk.walk loc (Path.pieces p) = .ok found) : disk.entry? found = some .directory := by
  have hnone : ∀ x ∈ Path.pieces p, Path.isName x = false := by
    intro x hx
    simpa using List.countP_eq_zero.1 hnames x hx
  have hne := Path.pieces_ne_nil p
  generalize Path.pieces p = pieces at hnone hne hwalk
  induction pieces with
  | nil => exact absurd rfl hne
  | cons piece rest ih =>
    obtain ⟨hpiece, hrest⟩ := List.forall_mem_cons.1 hnone
    cases rest with
    | nil =>
      rw [walk] at hwalk
      split at hwalk
      · cases hwalk
      · cases hwalk
      · rename_i hentry
        rw [hpiece] at hwalk
        cases hwalk
        exact hentry
    | cons next rest =>
      rw [walk_of_not_name disk loc hpiece] at hwalk
      exact ih hrest (List.cons_ne_nil next rest) hwalk

/-! ## Lessons in directories -/

/-- The location of a directory. An empty path stands for the working directory. -/
def directoryAt (disk : Disk) (dir : Path) : Except DiskError Location :=
  if dir.isEmpty then .ok disk.workingDir else disk.locate dir

/-- The path leads to what has one name in the directory. -/
def LiesIn (disk : Disk) (dir p : Path) : Prop :=
  ∃ file, Path.names file = 1 ∧
    disk.locate p = (disk.directoryAt dir).bind fun loc => disk.walk loc (Path.pieces file)

theorem directoryAt_of_ne_nil {dir : Path} (h : dir ≠ []) : disk.directoryAt dir = disk.locate dir :=
  if_neg (by simpa using h)

theorem holds_of_readText? {p : Path} {content : Text} (h : disk.readText? p = some content) :
    ∃ loc octets, disk.Holds p loc octets := by
  unfold readText? at h
  cases hread : disk.read p with
  | error e => rw [hread] at h; cases h
  | ok octets =>
    obtain ⟨loc, hholds⟩ := holds_of_read hread
    exact ⟨loc, octets, hholds⟩

/-- A file that is read for a name with a directory part lies in that directory. -/
theorem liesIn_of_directory {dir file name : Path} {content : Text} (hbeneath : Path.Beneath dir file name)
    (hfile : Path.names file = 1) (h : disk.readText? name = some content) : disk.LiesIn dir name := by
  obtain ⟨loc, octets, hholds⟩ := holds_of_readText? h
  refine ⟨file, hfile, ?_⟩
  rw [directoryAt_of_ne_nil hbeneath.ne_nil, locate_beneath hbeneath (possible_of_locate hholds.located).2]

theorem locate_join (disk : Disk) {dir name : Path} (hname : Path.isAbsolute name = false)
    (hne : Path.join dir name ≠ []) (hpossible : isPossible (Path.join dir name) = true) :
    disk.locate (Path.join dir name) = (disk.directoryAt dir).bind fun loc => disk.walk loc (Path.pieces name) := by
  cases dir with
  | nil =>
    have hjoin : Path.join [] name = name := by simp [Path.join]
    rw [hjoin] at hne hpossible ⊢
    rw [locate_of_possible hne hpossible, startOf, hname]
    rfl
  | cons c dir =>
    have hdir := List.cons_ne_nil c dir
    rw [directoryAt_of_ne_nil hdir, locate_beneath (Path.beneath_join hdir hname) hpossible]

/-- A file that is read for a name without directory part lies in the directory that the name is seen from. -/
theorem liesIn_of_bare {dir name : Path} {content : Text} (hnames : Path.names name ≤ 1)
    (habsolute : Path.isAbsolute name = true → Path.names name = 0)
    (h : disk.readText? (Path.join dir name) = some content) : disk.LiesIn dir (Path.join dir name) := by
  obtain ⟨loc, octets, hholds⟩ := holds_of_readText? h
  obtain ⟨hne, hpossible⟩ := possible_of_locate hholds.located
  -- a way without names leads to a directory, and there is a file
  have hfile : ∀ start, Path.names name = 0 → disk.walk start (Path.pieces name) ≠ .ok loc := by
    intro start hnone hwalk
    have hentry := hholds.entry
    rw [walk_of_no_names hnone hwalk] at hentry
    cases hentry
  cases hname : Path.isAbsolute name with
  | true =>
    have hjoin : Path.join dir name = name := by simp [Path.join, hname]
    rw [hjoin] at hholds hne hpossible
    have hwalk := hholds.located
    rw [locate_of_possible hne hpossible] at hwalk
    exact absurd hwalk (hfile _ (habsolute hname))
  | false =>
    have hway := locate_join disk hname hne hpossible
    refine ⟨name, ?_, hway⟩
    have hone : Path.names name ≠ 0 := by
      intro hnone
      have hlocated := hway.symm.trans hholds.located
      cases hdir : disk.directoryAt dir with
      | error e => rw [hdir] at hlocated; cases hlocated
      | ok start =>
        rw [hdir] at hlocated
        exact hfile start hnone hlocated
    omega

end Disk

end KanaTutor
