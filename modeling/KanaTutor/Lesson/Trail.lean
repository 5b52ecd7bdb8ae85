/-
The way through the lessons: the lessons whose menus led here, and what the last menu offers.
-/
import KanaTutor.Text.Basic

namespace KanaTutor

/-- The lessons to go back to, the last one first, and the targets of the last menu. -/
structure Trail where
  back : List Text := []
  menu : List Text := []
deriving DecidableEq, Repr

namespace Trail

/-- A lesson offers a menu. -/
def enterMenu (trail : Trail) (current : Text) (targets : List Text) : Trail :=
  ⟨current :: trail.back, targets⟩

/-- The lesson to go back to, and the trail from there. The last lesson is passed over if it is the
current one and not the only one. -/
def up? (trail : Trail) (current : Text) : Option (Text × Trail) :=
  match trail.back with
  | [] => none
  | top :: rest =>
    if top ≠ current then some (top, { trail with back := rest })
    else
      match rest with
      | [] => some (current, trail)
      | second :: others => some (second, { trail with back := others })

/-- The target after the first one that is `current`. -/
def nextAfter? (current : Text) : List Text → Option Text
  | [] => none
  | target :: rest => if target = current then rest.head? else nextAfter? current rest

/-- The menu's target after the current lesson. -/
def next? (trail : Trail) (current : Text) : Option Text := nextAfter? current trail.menu

end Trail

end KanaTutor
