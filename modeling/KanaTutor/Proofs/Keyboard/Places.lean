/-
The places of the keys. They are listed row by row, so a place later in the list is further down, or further right in
the same row; no place is listed twice, and each is listed with the key that stands there.

A walk over the keys changes them one after the other and carries along what it has to remember. If what it remembers
is a function of the keys it has passed, and so tells it what to make of each key at its place, the walk changes the
keyboard like a function of places and keys.
-/
import KanaTutor.Keyboard.Board
import Mathlib.Data.List.Basic

namespace KanaTutor.Board

/-! ## All places -/

/-- The place is in an earlier row than the other, or further left in the same row. -/
def Precedes (a b : Place) : Prop := a.1 < b.1 ∨ a.1 = b.1 ∧ a.2 < b.2

theorem mem_places {b : Board} {place : Place} {k : Keycap} : (place, k) ∈ b.places ↔ b.key? place = some k := by
  obtain ⟨row, column⟩ := place
  simp only [places, key?, List.mem_flatten, List.mem_mapIdx, Option.bind_eq_some_iff]
  constructor
  · rintro ⟨_, ⟨i, hi, rfl⟩, hmem⟩
    obtain ⟨j, hj, heq⟩ := List.mem_mapIdx.1 hmem
    cases heq
    exact ⟨b.rows[row], List.getElem?_eq_getElem hi, List.getElem?_eq_getElem hj⟩
  · rintro ⟨keys, hkeys, hk⟩
    obtain ⟨hi, rfl⟩ := List.getElem?_eq_some_iff.1 hkeys
    obtain ⟨hj, rfl⟩ := List.getElem?_eq_some_iff.1 hk
    exact ⟨_, ⟨row, hi, rfl⟩, List.mem_mapIdx.2 ⟨column, hj, rfl⟩⟩

theorem pairwise_mapIdx {α β : Type} {R : β → β → Prop} {f : Nat → α → β} {l : List α}
    (h : ∀ i j x y, i < j → R (f i x) (f j y)) : (l.mapIdx f).Pairwise R := by
  rw [List.pairwise_iff_getElem]
  intro i j hi hj hij
  rw [List.getElem_mapIdx, List.getElem_mapIdx]
  exact h i j _ _ hij

theorem places_ordered (b : Board) : b.places.Pairwise fun a c => Precedes a.1 c.1 := by
  rw [places, List.pairwise_flatten]
  constructor
  · intro keys hkeys
    obtain ⟨row, _, rfl⟩ := List.mem_mapIdx.1 hkeys
    exact pairwise_mapIdx fun i j x y hij => .inr ⟨rfl, hij⟩
  · refine pairwise_mapIdx fun i j x y hij a ha c hc => .inl ?_
    obtain ⟨_, _, rfl⟩ := List.mem_mapIdx.1 ha
    obtain ⟨_, _, rfl⟩ := List.mem_mapIdx.1 hc
    exact hij

theorem Precedes.ne {a b : Place} (h : Precedes a b) : a ≠ b := by
  rintro rfl
  unfold Precedes at h
  omega

theorem nodup_places (b : Board) : (b.places.map (·.1)).Nodup := by
  rw [List.Nodup, List.pairwise_map]
  exact b.places_ordered.imp Precedes.ne

/-- Some key is as asked for if it stands somewhere. -/
theorem exists_key_iff {b : Board} {p : Keycap → Prop} :
    (∃ row ∈ b.rows, ∃ k ∈ row, p k) ↔ ∃ place k, b.key? place = some k ∧ p k := by
  constructor
  · rintro ⟨keys, hkeys, k, hk, hp⟩
    obtain ⟨row, hrow⟩ := List.getElem?_of_mem hkeys
    obtain ⟨column, hcolumn⟩ := List.getElem?_of_mem hk
    exact ⟨(row, column), k, Option.bind_eq_some_iff.2 ⟨keys, hrow, hcolumn⟩, hp⟩
  · rintro ⟨place, k, hk, hp⟩
    obtain ⟨keys, hrow, hcolumn⟩ := Option.bind_eq_some_iff.1 hk
    exact ⟨keys, List.mem_of_getElem? hrow, k, List.mem_of_getElem? hcolumn, hp⟩

/-! ## Changed keys -/

theorem key?_mapKeys (f : Place → Keycap → Keycap) (b : Board) (place : Place) :
    (b.mapKeys f).key? place = (b.key? place).map (f place) := by
  simp only [key?, mapKeys, List.getElem?_mapIdx]
  cases b.rows[place.1]? <;> simp

theorem map_mapIdx_eq {α β γ : Type} {f : Nat → α → β} {g : β → γ} {h : α → γ} (hfg : ∀ i x, g (f i x) = h x)
    (l : List α) : (l.mapIdx f).map g = l.map h := by
  refine List.ext_getElem? fun i => ?_
  rw [List.getElem?_map, List.getElem?_mapIdx, List.getElem?_map, Option.map_map]
  exact congrArg (Option.map · l[i]?) (funext fun x => hfg i x)

/-- What a change leaves alone on every key is as before, key by key and row by row. -/
theorem map_rows_mapKeys {γ : Type} {f : Place → Keycap → Keycap} {g : Keycap → γ}
    (h : ∀ place k, g (f place k) = g k) (b : Board) : (b.mapKeys f).rows.map (·.map g) = b.rows.map (·.map g) :=
  map_mapIdx_eq (fun row keys => map_mapIdx_eq (fun column k => h (row, column) k) keys) b.rows

/-! ## A walk over the keys -/

section

variable {σ : Type}

/-- Changes the keys of a row from a column on, one after the other. -/
def walkRow (f : Place → Keycap → σ → Keycap × σ) (row column : Nat) (s : σ) : List Keycap → List Keycap × σ
  | [] => ([], s)
  | k :: keys =>
    let (k', s') := f (row, column) k s
    let (keys', last) := walkRow f row (column + 1) s' keys
    (k' :: keys', last)

/-- Changes the rows from one on. -/
def walkRows (f : Place → Keycap → σ → Keycap × σ) (row : Nat) (s : σ) :
    List (List Keycap) → List (List Keycap) × σ
  | [] => ([], s)
  | keys :: rows =>
    let (keys', s') := walkRow f row 0 s keys
    let (rows', last) := walkRows f (row + 1) s' rows
    (keys' :: rows', last)

/-- Changes all keys, and tells what is carried along at the end. -/
def walk (f : Place → Keycap → σ → Keycap × σ) (s : σ) (b : Board) : Board × σ :=
  let (rows, last) := walkRows f 0 s b.rows
  ({ b with rows }, last)

/-- After the keys passed the walk remembers `known` of them, and makes of the next key what the function does. -/
def Follows (f : Place → Keycap → σ → Keycap × σ) (known : List (Place × Keycap) → σ)
    (g : Place → Keycap → Keycap) (places : List (Place × Keycap)) : Prop :=
  ∀ passed place k ahead, places = passed ++ (place, k) :: ahead →
    f place k (known passed) = (g place k, known (passed ++ [(place, k)]))

variable {f : Place → Keycap → σ → Keycap × σ} {known : List (Place × Keycap) → σ}
  {g : Place → Keycap → Keycap} {places : List (Place × Keycap)}

/-- The keys of a row from a column on, with their places. -/
def placesOfRow (row column : Nat) (keys : List Keycap) : List (Place × Keycap) :=
  keys.mapIdx fun j k => ((row, column + j), k)

theorem placesOfRow_cons (row column : Nat) (k : Keycap) (keys : List Keycap) :
    placesOfRow row column (k :: keys) = ((row, column), k) :: placesOfRow row (column + 1) keys := by
  have hnext : ∀ j, column + 1 + j = column + (j + 1) := by omega
  simp only [placesOfRow, List.mapIdx_cons, hnext]
  rfl

theorem walkRow_eq (h : Follows f known g places) {row column : Nat} {keys : List Keycap}
    {passed ahead : List (Place × Keycap)} (hplaces : places = passed ++ (placesOfRow row column keys ++ ahead)) :
    walkRow f row column (known passed) keys =
      (keys.mapIdx fun j k => g (row, column + j) k, known (passed ++ placesOfRow row column keys)) := by
  induction keys generalizing column passed with
  | nil => simp [walkRow, placesOfRow]
  | cons k keys ih =>
    rw [placesOfRow_cons, List.cons_append] at hplaces
    have hrest : places = (passed ++ [((row, column), k)]) ++ (placesOfRow row (column + 1) keys ++ ahead) := by
      rw [hplaces, List.append_assoc, List.singleton_append]
    have hnext : ∀ j, column + 1 + j = column + (j + 1) := by omega
    rw [walkRow, h _ _ _ _ hplaces]
    simp only [ih hrest, placesOfRow_cons, List.mapIdx_cons, hnext, List.append_assoc, List.singleton_append]
    rfl

/-- The keys of the rows from one on, with their places. -/
def placesOfRows (row : Nat) (rows : List (List Keycap)) : List (Place × Keycap) :=
  (rows.mapIdx fun i keys => placesOfRow (row + i) 0 keys).flatten

theorem placesOfRows_cons (row : Nat) (keys : List Keycap) (rows : List (List Keycap)) :
    placesOfRows row (keys :: rows) = placesOfRow row 0 keys ++ placesOfRows (row + 1) rows := by
  have hnext : ∀ i, row + 1 + i = row + (i + 1) := by omega
  simp only [placesOfRows, List.mapIdx_cons, List.flatten_cons, hnext]
  rfl

theorem walkRows_eq (h : Follows f known g places) {row : Nat} {rows : List (List Keycap)}
    {passed : List (Place × Keycap)} (hplaces : places = passed ++ placesOfRows row rows) :
    walkRows f row (known passed) rows =
      (rows.mapIdx fun i keys => keys.mapIdx fun j k => g (row + i, j) k, known places) := by
  induction rows generalizing row passed with
  | nil =>
    rw [hplaces]
    simp [walkRows, placesOfRows]
  | cons keys rows ih =>
    rw [placesOfRows_cons] at hplaces
    have hrest : places = (passed ++ placesOfRow row 0 keys) ++ placesOfRows (row + 1) rows := by
      rw [hplaces, List.append_assoc]
    have hnext : ∀ i, row + 1 + i = row + (i + 1) := by omega
    rw [walkRows, walkRow_eq h hplaces]
    simp only [ih hrest, List.mapIdx_cons, hnext, Nat.zero_add]
    rfl

theorem walk_eq {b : Board} (h : Follows f known g b.places) : b.walk f (known []) = (b.mapKeys g, known b.places) := by
  have hplaces : b.places = [] ++ placesOfRows 0 b.rows := by
    simp only [places, placesOfRows, placesOfRow, Nat.zero_add, List.nil_append]
  rw [walk, walkRows_eq h hplaces]
  simp only [Nat.zero_add]
  rfl

end

end KanaTutor.Board
