/-
Files that stay where they are: a path leads to the same file after directories have been made, and after the file
itself has been written to. All that a way along a path depends on is where the directories are.
-/
import KanaTutor.Disk.Basic
import Mathlib.Tactic.SplitIfs

namespace KanaTutor.Disk

/-! ## Entries -/

theorem entry?_put {loc : Location} (h : loc ≠ []) (disk : Disk) (entry : Entry) (l : Location) :
    entry? (disk.put loc entry) l = if l = loc then some entry else disk.entry? l := by
  unfold entry? put
  split_ifs with hempty hloc hloc
  · subst hloc
    exact absurd (List.isEmpty_iff.1 hempty) h
  · rfl
  · subst hloc
    exact congrArg (Option.map Prod.snd) (List.find?_cons_of_pos (decide_eq_true rfl))
  · dsimp only
    rw [List.find?_cons_of_neg (by simp [Ne.symm hloc]), List.find?_filter]
    congr 2
    funext e
    by_cases he : e.1 = l
    · simp [he, hloc]
    · simp [he]

/-! ## Ways -/

/-- A way along a path needs nothing but the directories on it. -/
theorem walk_of_directories {disk disk' : Disk}
    (h : ∀ l, disk.entry? l = some .directory → disk'.entry? l = some .directory) {loc found : Location}
    {pieces : List Text} (hwalk : disk.walk loc pieces = .ok found) : disk'.walk loc pieces = .ok found := by
  induction pieces generalizing loc with
  | nil => exact hwalk
  | cons piece rest ih =>
    rw [walk] at hwalk ⊢
    split at hwalk
    · cases hwalk
    · cases hwalk
    · rename_i hdirectory
      rw [h loc hdirectory]
      dsimp only
      split_ifs at hwalk ⊢
      · exact ih hwalk
      · exact ih hwalk
      · exact ih hwalk

theorem locate_of_directories {disk disk' : Disk} (hdir : disk'.workingDir = disk.workingDir)
    (h : ∀ l, disk.entry? l = some .directory → disk'.entry? l = some .directory) {p : Path} {loc : Location}
    (hlocate : disk.locate p = .ok loc) : disk'.locate p = .ok loc := by
  have hstart : disk'.startOf p = disk.startOf p := by
    unfold startOf
    rw [hdir]
  unfold locate at hlocate ⊢
  rw [hstart]
  split_ifs at hlocate ⊢
  exact walk_of_directories h hlocate

/-! ## Files -/

/-- The path leads to a location, and there is a file with the content. -/
structure Holds (disk : Disk) (p : Path) (loc : Location) (content : Octets) : Prop where
  located : disk.locate p = .ok loc
  entry : disk.entry? loc = some (.file content)

section

variable {disk : Disk} {p : Path} {loc : Location} {content : Octets}

theorem holds_of_read (h : disk.read p = .ok content) : ∃ loc, disk.Holds p loc content := by
  unfold read at h
  cases hlocate : disk.locate p with
  | error e => rw [hlocate] at h; cases h
  | ok loc =>
    rw [hlocate] at h
    dsimp only [bind, Except.bind] at h
    split at h
    · cases h
    · cases h
    · rename_i hentry
      cases h
      exact ⟨loc, hlocate, hentry⟩

theorem Holds.read (h : disk.Holds p loc content) : disk.read p = .ok content := by
  rw [Disk.read, h.located]
  dsimp only [bind, Except.bind]
  rw [h.entry]

theorem Holds.locateFile (h : disk.Holds p loc content) : disk.locateFile p = .ok loc := by
  rw [Disk.locateFile, h.located]
  dsimp only [bind, Except.bind]
  rw [h.entry]

theorem Holds.ne_nil (h : disk.Holds p loc content) : loc ≠ [] := by
  rintro rfl
  cases h.entry

/-- What a file is replaced by is there. -/
theorem Holds.put (h : disk.Holds p loc content) (other : Octets) : (disk.put loc (.file other)).Holds p loc other := by
  have hdirectories : ∀ l, disk.entry? l = some .directory →
      entry? (disk.put loc (.file other)) l = some .directory := by
    intro l hl
    rw [entry?_put h.ne_nil, if_neg, hl]
    rintro rfl
    rw [h.entry] at hl
    cases hl
  refine ⟨locate_of_directories (by rfl) hdirectories h.located, ?_⟩
  rw [entry?_put h.ne_nil, if_pos rfl]

/-- What is written on after the end of a file is there. -/
theorem Holds.append (h : disk.Holds p loc content) (more : Octets) :
    (disk.append loc more).Holds p loc (content ++ more) := by
  rw [Disk.append, h.entry]
  exact h.put (content ++ more)

/-- What is in the file at a location, if there is one. -/
def contentOf (disk : Disk) (loc : Location) : Octets :=
  match disk.entry? loc with
  | some (.file content) => content
  | _ => []

theorem Holds.contentOf (h : disk.Holds p loc content) : disk.contentOf loc = content := by
  rw [Disk.contentOf, h.entry]

end

/-! ## New directories -/

/-- All that is on a disk is on the other one, in the same place. -/
structure Extends (disk disk' : Disk) : Prop where
  workingDir : disk'.workingDir = disk.workingDir
  entries : ∀ l entry, disk.entry? l = some entry → disk'.entry? l = some entry

theorem Extends.refl (disk : Disk) : disk.Extends disk := ⟨rfl, fun _ _ h => h⟩

theorem Extends.trans {disk disk' disk'' : Disk} (h : disk.Extends disk') (h' : disk'.Extends disk'') :
    disk.Extends disk'' :=
  ⟨h'.workingDir.trans h.workingDir, fun l entry hl => h'.entries l entry (h.entries l entry hl)⟩

theorem Extends.holds {disk disk' : Disk} (h : disk.Extends disk') {p : Path} {loc : Location} {content : Octets}
    (hfile : disk.Holds p loc content) : disk'.Holds p loc content :=
  ⟨locate_of_directories h.workingDir (fun l => h.entries l .directory) hfile.located, h.entries _ _ hfile.entry⟩

theorem extends_put {disk : Disk} {loc : Location} (h : disk.entry? loc = none) (entry : Entry) :
    disk.Extends (disk.put loc entry) := by
  have hne : loc ≠ [] := by
    rintro rfl
    cases h
  refine ⟨rfl, fun l e hl => ?_⟩
  rw [entry?_put hne, if_neg, hl]
  rintro rfl
  rw [h] at hl
  cases hl

/-- A file that can be written is there when nothing has been written after its end. -/
theorem holds_of_locateFile {disk : Disk} {p : Path} {loc : Location} (h : disk.locateFile p = .ok loc) :
    (disk.append loc []).Holds p loc (disk.contentOf loc) := by
  unfold locateFile at h
  cases hlocate : disk.locate p with
  | error e =>
    rw [hlocate] at h
    cases h
  | ok found =>
    rw [hlocate] at h
    dsimp only [bind, Except.bind] at h
    split at h
    · cases h
    · rename_i content hentry
      cases h
      have hholds : disk.Holds p loc content := ⟨hlocate, hentry⟩
      rw [hholds.contentOf]
      simpa using hholds.append []
    · rename_i hentry
      split_ifs at h
      cases h
      -- the file is made
      have hextends := extends_put hentry (.file [])
      rw [append, contentOf, hentry]
      refine ⟨locate_of_directories hextends.workingDir (fun l => hextends.entries l .directory) hlocate, ?_⟩
      rw [entry?_put, if_pos rfl]
      rintro rfl
      cases hentry

/-- Directories are made only where there is nothing. -/
theorem extends_makeAlong (disk : Disk) (loc : Location) (pieces : List Text) :
    disk.Extends (disk.makeAlong loc pieces).2 := by
  induction pieces generalizing disk loc with
  | nil => exact .refl disk
  | cons piece rest ih =>
    rw [makeAlong]
    split_ifs
    · exact ih disk loc
    · exact ih disk loc.dropLast
    · exact .refl disk
    · dsimp only
      split
      · exact ih disk _
      · exact .refl disk
      · rename_i hnone
        exact (extends_put hnone _).trans (ih _ _)

/-- No file is made with them. -/
theorem contentOf_makeAlong (disk : Disk) (loc : Location) (pieces : List Text) (l : Location) :
    contentOf (disk.makeAlong loc pieces).2 l = disk.contentOf l := by
  induction pieces generalizing disk loc with
  | nil => rfl
  | cons piece rest ih =>
    rw [makeAlong]
    split_ifs
    · exact ih disk loc
    · exact ih disk loc.dropLast
    · rfl
    · dsimp only
      split
      · exact ih disk _
      · rfl
      · rename_i hnone
        rw [ih, contentOf, contentOf, entry?_put (by simp)]
        split_ifs with hl
        · rw [hl, hnone]
        · rfl

theorem extends_makeDirectory (disk : Disk) (p : Path) : disk.Extends (disk.makeDirectory p).2 := by
  unfold makeDirectory
  split_ifs
  · exact extends_makeAlong ..
  · exact .refl disk

end KanaTutor.Disk
