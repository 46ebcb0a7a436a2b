import Mathlib.Data.Set.Insert
import Deferred.Script.World

/-! The flags of a program. Each one is handed out lowered, in a place of its own, and what is done
to one of them leaves the others alone. That is all that is known of where they are kept, and it is
why cancellations that do not refer to one flag have nothing to do with each other. -/

namespace Deferred

variable {σ : Type}

/-! ### One flag -/

namespace Flag

/-- The flag when it was raised this many times. -/
def raisedTimes (count : Nat) : Flag := ⟨decide (0 < count), count⟩

theorem raise_raisedTimes (count : Nat) : (raisedTimes count).raise = raisedTimes (count + 1) := by
  simp [raise, raisedTimes]

/-- Whoever looked at the lowered flag is called as soon as it is raised. -/
theorem calls_raisedTimes (count : Nat) : (raisedTimes count).calls 0 = decide (0 < count) := by
  by_cases raised : 0 < count
  · simp [calls, raisedTimes, raised]
    omega
  · simp [calls, raisedTimes, raised]

end Flag

/-! ### All flags -/

/-- Where flags are kept: those handed out in a state, each in a place of its own. Neither the
others nor the allowance of a turn have to do with what such a place holds. -/
structure Flags (σ : Type) [Host σ] where
  arena : Arena σ Flag
  taken : σ → Set (Place σ Flag)
  get_fresh : ∀ flag state, (arena.fresh flag state).1.get (arena.fresh flag state).2 = flag
  notMem_fresh : ∀ flag state, (arena.fresh flag state).1 ∉ taken state
  taken_fresh : ∀ flag state,
    taken (arena.fresh flag state).2 = insert (arena.fresh flag state).1 (taken state)
  same_fresh : ∀ flag state, ∀ place ∈ taken state,
    place.get (arena.fresh flag state).2 = place.get state
  taken_set : ∀ flag state, ∀ place ∈ taken state, taken (place.set flag state) = taken state
  same_set : ∀ flag state, ∀ place ∈ taken state, ∀ other ∈ taken state, other ≠ place →
    other.get (place.set flag state) = other.get state
  taken_allow : ∀ count state, taken (Host.allow count state) = taken state
  same_allow : ∀ count state, ∀ place ∈ taken state,
    place.get (Host.allow count state) = place.get state

namespace Flags

variable [Host σ] (flags : Flags σ)

/-- Code that leaves all flags alone. It may have others handed out. -/
structure Still (state after : σ) : Prop where
  taken : flags.taken state ⊆ flags.taken after
  same : ∀ place ∈ flags.taken state, place.get after = place.get state

theorem still_refl (state : σ) : flags.Still state state :=
  ⟨subset_rfl, fun _ _ => rfl⟩

theorem still_allow (count : Nat) (state : σ) : flags.Still state (Host.allow count state) where
  taken := (flags.taken_allow count state).symm.subset
  same := flags.same_allow count state

theorem still_fresh (flag : Flag) (state : σ) :
    flags.Still state (flags.arena.fresh flag state).2 where
  taken := by
    rw [flags.taken_fresh]
    exact Set.subset_insert _ _
  same := flags.same_fresh flag state

theorem mem_fresh (flag : Flag) (state : σ) :
    (flags.arena.fresh flag state).1 ∈ flags.taken (flags.arena.fresh flag state).2 := by
  rw [flags.taken_fresh]
  exact Set.mem_insert _ _

end Flags

/-! ### The flags of a world -/

namespace Script

theorem Store.size_set {ρ : Type} [Inhabited ρ] (store : Store ρ) (index : Nat) (value : ρ) :
    (store.set index value).slots.size = max store.slots.size (index + 1) := by
  unfold Store.set
  split
  next inside =>
    rw [Array.size_setIfInBounds]
    omega
  next outside =>
    rw [Array.size_push, Array.size_append, Array.size_replicate]
    omega

theorem Shelf.get_set_ne {ρ : Type} [Inhabited ρ] (shelf : Shelf ρ) {index other : Nat}
    (apart : other ≠ index) (value : ρ) (world : World) :
    (shelf.place other).get ((shelf.place index).set value world) =
      (shelf.place other).get world := by
  change (shelf.read (shelf.update _ world)).get other = _
  rw [shelf.read_update]
  exact Store.get_set_ne _ value apart

namespace World

theorem flagPlace_injective {first second : Nat}
    (same : flagShelf.place first = flagShelf.place second) : first = second := by
  by_contra apart
  let world := (flagShelf.place first).set Flag.lowered.raise (initial false)
  have told : (flagShelf.place first).get world = (flagShelf.place second).get world := by
    rw [same]
  have here : (flagShelf.place first).get world = Flag.lowered.raise := Place.get_set _ _ _
  have there : (flagShelf.place second).get world = Flag.lowered :=
    flagShelf.get_set_ne (Ne.symm apart) _ _
  rw [here, there] at told
  cases told

def allFlags : Flags World where
  arena := flagShelf.arena
  taken world := { place | ∃ index < world.flags.slots.size, place = flagShelf.place index }
  get_fresh _ _ := Place.get_set _ _ _
  notMem_fresh _ world := by
    intro member
    obtain ⟨index, less, same⟩ := member
    exact less.ne (flagPlace_injective same).symm
  taken_fresh flag world := by
    have size : (world.flags.set world.flags.slots.size flag).slots.size =
        world.flags.slots.size + 1 := by
      rw [Store.size_set]
      omega
    ext place
    constructor
    · intro member
      obtain ⟨index, less, same⟩ := member
      have bound : index < world.flags.slots.size + 1 := size ▸ less
      rcases Nat.lt_succ_iff_lt_or_eq.mp bound with before | last
      · exact .inr ⟨index, before, same⟩
      · rw [same, last]
        exact .inl rfl
    · intro member
      rcases member with fresh | old
      · exact ⟨world.flags.slots.size, size ▸ Nat.lt_succ_self _, fresh⟩
      · obtain ⟨index, less, same⟩ := old
        exact ⟨index, size ▸ Nat.lt_succ_of_lt less, same⟩
  same_fresh flag world place member := by
    obtain ⟨index, less, same⟩ := member
    rw [same]
    exact flagShelf.get_set_ne less.ne flag world
  taken_set flag world place member := by
    obtain ⟨index, less, same⟩ := member
    have size : (world.flags.set index flag).slots.size = world.flags.slots.size := by
      rw [Store.size_set]
      omega
    rw [same]
    change { entry | ∃ other < (world.flags.set index flag).slots.size, _ } = _
    rw [size]
  same_set flag world place member other memberToo apart := by
    obtain ⟨index, -, same⟩ := member
    obtain ⟨second, -, sameToo⟩ := memberToo
    rw [same, sameToo] at apart ⊢
    apply flagShelf.get_set_ne
    intro one
    exact apart (congrArg flagShelf.place one)
  taken_allow _ _ := rfl
  same_allow _ _ place member := by
    obtain ⟨index, less, same⟩ := member
    rw [same]
    rfl

end World
end Script
end Deferred
