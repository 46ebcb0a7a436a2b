import Mathlib.Logic.Relation
import Deferred.Proofs.Entries

/-! Any number of visits to a cell. New ones come at any time, and each step of a visit sees the
cell as the others have left it. -/

namespace Deferred

/-- The cell and all visits that have ever begun, in this order. -/
structure Session (κ ν : Type) where
  cell : κ
  visits : List ν

namespace Session

variable {κ ν : Type}

/-- One step of some visit, where the moves of a single visit are given, or a fresh visit. -/
inductive Step (fresh : ν) (moves : ν → κ → ν → κ → Prop) (session : Session κ ν) :
    Session κ ν → Prop where
  | call : Step fresh moves session { session with visits := session.visits ++ [fresh] }
  | visit {index visit after cell} (here : session.visits[index]? = some visit)
      (step : moves visit session.cell after cell) :
      Step fresh moves session ⟨cell, session.visits.set index after⟩

/-- The session may go on to another one. -/
abbrev Steps (fresh : ν) (moves : ν → κ → ν → κ → Prop) : Session κ ν → Session κ ν → Prop :=
  Relation.ReflTransGen (Step fresh moves)

variable {fresh : ν} {moves : ν → κ → ν → κ → Prop} {session : Session κ ν}

/-- Moves of one visit that nobody comes between. -/
inductive Moves (moves : ν → κ → ν → κ → Prop) (visit : ν) (cell : κ) : ν → κ → Prop where
  | stay : Moves moves visit cell visit cell
  | move {between after : ν} {held rest : κ} (before : Moves moves visit cell between held)
      (step : moves between held after rest) : Moves moves visit cell after rest

theorem Moves.trans {first second last : ν} {cell held rest : κ}
    (before : Moves moves first cell second held) (after : Moves moves second held last rest) :
    Moves moves first cell last rest := by
  induction after with
  | stay => exact before
  | move _ step ih => exact ih.move step

theorem Steps.of_moves {index : Nat} {visit after : ν} {cell : κ}
    (here : session.visits[index]? = some visit)
    (steps : Moves moves visit session.cell after cell) :
    Steps fresh moves session ⟨cell, session.visits.set index after⟩ := by
  obtain ⟨bound, rfl⟩ := List.getElem?_eq_some_iff.mp here
  induction steps with
  | stay =>
    rw [List.set_getElem_self]
  | @move between after held rest _ step ih =>
    have there : (session.visits.set index between)[index]? = some between :=
      List.getElem?_set_self bound
    have moved : Step fresh moves ⟨held, session.visits.set index between⟩ _ := .visit there step
    rw [List.set_set] at moved
    exact ih.tail moved

end Session
end Deferred
