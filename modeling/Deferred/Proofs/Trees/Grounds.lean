import Mathlib.Data.Set.BooleanAlgebra
import Mathlib.Order.CompletePartialOrder
import Deferred.Merge

/-! The ground that merges share. Every run of a merge takes a hub of its own, so what a run holds
grows while it goes on: the inputs of a merge are started late, and may be merges themselves. What
is known of the ground is which hubs have been handed out by now, that setting one of them leaves
the others alone, and that it stays calm for as long as nobody cancels a scope.

A turn of one run leaves alone what others hold, and what it takes has not been handed out before.
This is all that runs beside each other need to know. -/

namespace Deferred

variable {σ : Type}

/-- A hub for items of some type, by the place where it is kept. -/
structure Hold (σ : Type) : Type 1 where
  item : Type
  hub : Place σ (Hub item)

/-- What is held is the same in both states. -/
def Hold.Same (hold : Hold σ) (state after : σ) : Prop :=
  hold.hub.get after = hold.hub.get state

/-- The hubs that have been handed out in a state, and whether the state is calm. -/
structure Sights (σ : Type) : Type 1 where
  taken : σ → Set (Hold σ)
  calm : σ → Prop

/-- Neither the hubs nor the calm have changed. -/
structure Sights.Still (sights : Sights σ) (state after : σ) : Prop where
  taken : sights.taken after = sights.taken state
  same : ∀ hold ∈ sights.taken state, hold.Same state after
  calm : sights.calm state → sights.calm after

structure Grounds (σ : Type) [Host σ] : Type 1 extends Sights σ where
  taken_set : ∀ hold value state, hold ∈ taken state →
    taken (hold.hub.set value state) = taken state
  same_set : ∀ hold value state, hold ∈ taken state → ∀ other ∈ taken state, other ≠ hold →
    other.Same state (hold.hub.set value state)
  calm_set : ∀ hold value state, hold ∈ taken state → calm state →
    calm (hold.hub.set value state)
  still_allow : ∀ count state, toSights.Still state (Host.allow count state)
  still_trace : ∀ event state, toSights.Still state (Host.trace event state)

namespace Grounds

variable [Host σ] (grounds : Grounds σ)

/-- Code of others, which leaves alone what is held. -/
structure Leaves (held : Set (Hold σ)) (state after : σ) : Prop where
  same : ∀ hold ∈ held, hold.Same state after
  taken : grounds.taken state ⊆ grounds.taken after
  calm : grounds.calm after

/-- What one who holds some hubs before and some after may do. -/
structure Moves (held kept : Set (Hold σ)) (state after : σ) : Prop where
  spares : ∀ hold ∈ grounds.taken state, hold ∉ held → hold.Same state after
  taken : grounds.taken state ⊆ grounds.taken after
  fresh : ∀ hold ∈ kept, hold ∉ held → hold ∉ grounds.taken state
  owned : kept ⊆ grounds.taken after
  calm : grounds.calm after

variable {grounds} {held kept others extra : Set (Hold σ)} {s t u : σ}

theorem Leaves.refl (calm : grounds.calm s) : grounds.Leaves held s s :=
  ⟨fun _ _ => rfl, subset_rfl, calm⟩

theorem Leaves.trans (first : grounds.Leaves held s t) (second : grounds.Leaves held t u) :
    grounds.Leaves held s u :=
  ⟨fun hold member => (second.same hold member).trans (first.same hold member),
    first.taken.trans second.taken, second.calm⟩

theorem Leaves.mono (leaves : grounds.Leaves held s t) (less : kept ⊆ held) :
    grounds.Leaves kept s t :=
  ⟨fun hold member => leaves.same hold (less member), leaves.taken, leaves.calm⟩

theorem Leaves.of_still (calm : grounds.calm s) (still : grounds.Still s t) :
    grounds.Leaves (grounds.taken s) s t :=
  ⟨still.same, still.taken.symm.subset, still.calm calm⟩

/-- One may leave everything alone. -/
theorem Leaves.moves (leaves : grounds.Leaves (grounds.taken s) s t)
    (owned : held ⊆ grounds.taken s) : grounds.Moves held held s t :=
  ⟨fun hold member _ => leaves.same hold member, leaves.taken,
    fun _ member apart => absurd member apart, owned.trans leaves.taken, leaves.calm⟩

theorem Moves.refl (calm : grounds.calm s) (owned : held ⊆ grounds.taken s) :
    grounds.Moves held held s s :=
  (Leaves.refl calm).moves owned

theorem Moves.trans (first : grounds.Moves held kept s t) (second : grounds.Moves kept extra t u) :
    grounds.Moves held extra s u := by
  refine ⟨fun hold member apart => ?_, first.taken.trans second.taken, fun hold member apart => ?_,
    second.owned, second.calm⟩
  · have unkept : hold ∉ kept := fun inside => first.fresh hold inside apart member
    exact (second.spares hold (first.taken member) unkept).trans (first.spares hold member apart)
  · by_cases inside : hold ∈ kept
    · exact first.fresh hold inside apart
    · exact fun before => second.fresh hold member inside (first.taken before)

theorem Moves.shrink (moves : grounds.Moves held kept s t) (less : extra ⊆ kept) :
    grounds.Moves held extra s t :=
  ⟨moves.spares, moves.taken, fun hold member => moves.fresh hold (less member),
    less.trans moves.owned, moves.calm⟩

theorem Moves.grow (moves : grounds.Moves held kept s t) (more : held ⊆ extra) :
    grounds.Moves extra kept s t :=
  ⟨fun hold member apart => moves.spares hold member fun inside => apart (more inside),
    moves.taken, fun hold member apart => moves.fresh hold member fun inside => apart (more inside),
    moves.owned, moves.calm⟩

/-- One moves as well if one holds something beside. -/
theorem Moves.union (moves : grounds.Moves held kept s t) (owned : others ⊆ grounds.taken s) :
    grounds.Moves (held ∪ others) (kept ∪ others) s t := by
  refine ⟨fun hold member apart => moves.spares hold member fun inside => apart (.inl inside),
    moves.taken, ?_, Set.union_subset moves.owned (owned.trans moves.taken), moves.calm⟩
  rintro hold (inside | inside) apart
  · exact moves.fresh hold inside fun before => apart (.inl before)
  · exact absurd (.inr inside) apart

theorem Moves.leaves (moves : grounds.Moves held kept s t) (owned : others ⊆ grounds.taken s)
    (apart : Disjoint held others) : grounds.Leaves others s t :=
  ⟨fun hold member => moves.spares hold (owned member) (Set.disjoint_right.mp apart member),
    moves.taken, moves.calm⟩

theorem Moves.disjoint (moves : grounds.Moves held kept s t) (owned : others ⊆ grounds.taken s)
    (apart : Disjoint held others) : Disjoint kept others :=
  Set.disjoint_right.mpr fun hold member inside =>
    moves.fresh hold inside (Set.disjoint_right.mp apart member) (owned member)

/-- What is handed out in a turn is all that the turn may add to what is held. -/
theorem Moves.within (moves : grounds.Moves kept extra s t) (within : kept ⊆ held) :
    extra ⊆ held ∪ (grounds.taken t \ grounds.taken s) := by
  intro hold member
  by_cases before : hold ∈ kept
  · exact .inl (within before)
  · exact .inr ⟨moves.owned member, moves.fresh hold member before⟩

theorem Moves.of_set {hold : Hold σ} (calm : grounds.calm s) (owned : held ⊆ grounds.taken s)
    (member : hold ∈ held) (value : Hub hold.item) :
    grounds.Moves held held s (hold.hub.set value s) := by
  have taken := grounds.taken_set hold value s (owned member)
  refine ⟨fun other there apart => ?_, taken.symm.subset, fun _ inside away => absurd inside away,
    owned.trans taken.symm.subset, grounds.calm_set hold value s (owned member) calm⟩
  exact grounds.same_set hold value s (owned member) other there fun same => apart (same ▸ member)

theorem leaves_allow (calm : grounds.calm s) (count : Nat) :
    grounds.Leaves (grounds.taken s) s (Host.allow count s) :=
  .of_still calm (grounds.still_allow count s)

theorem leaves_trace (calm : grounds.calm s) (event : Event) :
    grounds.Leaves (grounds.taken s) s (Host.trace event s) :=
  .of_still calm (grounds.still_trace event s)

/-- The hubs that are handed out are new, and nobody is disturbed. -/
structure Offers {α : Type} (grounds : Grounds σ) (hubs : Arena σ (Hub α)) : Prop where
  fresh : ∀ hub state, ⟨α, (hubs.fresh hub state).1⟩ ∉ grounds.taken state
  taken : ∀ hub state, grounds.taken (hubs.fresh hub state).2 =
    insert ⟨α, (hubs.fresh hub state).1⟩ (grounds.taken state)
  same : ∀ hub state, ∀ hold ∈ grounds.taken state, hold.Same state (hubs.fresh hub state).2
  holds : ∀ hub state, (hubs.fresh hub state).1.get (hubs.fresh hub state).2 = hub
  calm : ∀ hub state, grounds.calm state → grounds.calm (hubs.fresh hub state).2

theorem Offers.moves {α : Type} {hubs : Arena σ (Hub α)} (offers : grounds.Offers hubs)
    (calm : grounds.calm s) (hub : Hub α) :
    grounds.Moves ∅ {⟨α, (hubs.fresh hub s).1⟩} s (hubs.fresh hub s).2 := by
  refine ⟨fun hold member _ => offers.same hub s hold member, ?_, ?_, ?_, offers.calm hub s calm⟩
  · rw [offers.taken]
    exact Set.subset_insert _ _
  · rintro hold rfl -
    exact offers.fresh hub s
  · rw [offers.taken, Set.singleton_subset_iff]
    exact Set.mem_insert _ _

/-- The scope is not cancelled while it is calm. -/
def Keeps (grounds : Grounds σ) (scope : Scope σ) : Prop :=
  ∀ state, grounds.calm state → scope.cancellation.isCancelled state = false

/-- Code that comes to this value, wherever it is calm, and leaves all hubs alone. -/
def Total {α : Type} (grounds : Grounds σ) (code : Code σ α) (value : α) : Prop :=
  ∀ state, grounds.calm state →
    ∃ after, code state = (.ok value, after) ∧ grounds.Leaves (grounds.taken state) state after

end Grounds
end Deferred
