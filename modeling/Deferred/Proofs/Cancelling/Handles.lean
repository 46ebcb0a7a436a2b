import Mathlib.Data.List.Infix
import Mathlib.Logic.Relation
import Deferred.Proofs.Cancelling.Watches

/-! Programs that hand cancellations around. Handles are made anew or copied, surroundings are built
from tokens and lend theirs out, anybody cancels through any handle, and any number of waits are
begun, polled and dropped, in any order. Each handle goes back to one that was made anew, its
origin, and two handles refer to one flag just when they have one origin: this aliasing and the
number of times that each flag was raised are what every turn preserves. -/

namespace Deferred.Cancelling

variable {σ : Type}

/-- What one can cancel through: a token, or the surroundings of merged feeds. -/
inductive Handle (σ : Type) where
  | token (own : Cancellation σ)
  | scope (around : Scope σ)

namespace Handle

def cancellation : Handle σ → Cancellation σ
  | token own => own
  | scope around => around.cancellation

def cancel : Handle σ → StateM σ Unit
  | token own => own.cancel
  | scope around => around.cancel

theorem cancel_apply (handle : Handle σ) (state : σ) :
    (handle.cancel state).2 =
      handle.cancellation.flag.set (handle.cancellation.flag.get state).raise state := by
  cases handle <;> rfl

end Handle

/-- A handle with its origin, which is the position of the handle made anew that it was copied
from, at once or by way of other copies. A handle made anew is its own origin. -/
structure Copy (σ : Type) where
  handle : Handle σ
  origin : Nat

namespace Copy

def cancellation (copy : Copy σ) : Cancellation σ := copy.handle.cancellation

def place (copy : Copy σ) : Place σ Flag := copy.cancellation.flag

def isCancelled (copy : Copy σ) (state : σ) : Bool := copy.cancellation.isCancelled state

end Copy

/-- A wait, with the handle whose cancellation it waits for. -/
structure Watch (σ : Type) where
  source : Copy σ
  watching : Watching σ

/-- The handles that were ever made, the waits that were ever begun, and the handles through which
was cancelled so far. -/
structure Program (σ : Type) where
  state : σ
  copies : List (Copy σ)
  watches : List (Watch σ)
  cancels : List (Copy σ)

namespace Program

def start (state : σ) : Program σ := ⟨state, [], [], []⟩

def enlist (now : Program σ) (handle : Handle σ) (origin : Nat) (state : σ) : Program σ :=
  { now with state, copies := now.copies ++ [⟨handle, origin⟩] }

def move (now : Program σ) (index : Nat) (watch : Watch σ) (watching : Watching σ) (state : σ) :
    Program σ :=
  { now with state, watches := now.watches.set index { watch with watching } }

/-- One turn. A poll may be cut in two, so that others come between noting the version and testing
the flag; a poll of a wait that nothing has opened would change nothing and is no turn. Other code
leaves the flags alone, and may begin a turn with a new allowance. -/
inductive Turn [Host σ] (flags : Flags σ) (now : Program σ) : Program σ → Prop where
  | token {own state} (made : Cancellation.new flags.arena now.state = (own, state)) :
      Turn flags now (now.enlist (.token own) now.copies.length state)
  | scope {around state} (made : Scope.new flags.arena now.state = (around, state)) :
      Turn flags now (now.enlist (.scope around) now.copies.length state)
  | copy {handle origin} (here : ⟨handle, origin⟩ ∈ now.copies) :
      Turn flags now (now.enlist handle origin now.state)
  | surround {own origin} (here : ⟨.token own, origin⟩ ∈ now.copies) :
      Turn flags now (now.enlist (.scope ⟨own⟩) origin now.state)
  | lend {around origin} (here : ⟨.scope around, origin⟩ ∈ now.copies) :
      Turn flags now (now.enlist (.token around.cancellation) origin now.state)
  | cancel {copy} (here : copy ∈ now.copies) :
      Turn flags now { now with
        state := (copy.handle.cancel now.state).2
        cancels := now.cancels ++ [copy] }
  | begin {copy} (here : copy ∈ now.copies) :
      Turn flags now { now with
        watches := now.watches ++
          [⟨copy, .resting (.stopped .passed copy.cancellation.cancelled)⟩] }
  | poll {index watch wait resume} (here : now.watches[index]? = some watch)
      (rests : watch.watching = .resting (.stopped wait resume))
      (opens : wait.opens now.state = true) :
      Turn flags now (now.move index watch (.resting (resume now.state).running)
        (resume now.state).state)
  | note {index watch wait resume} (here : now.watches[index]? = some watch)
      (rests : watch.watching = .resting (.stopped wait resume))
      (opens : wait.opens now.state = true)
      (looks : resume now.state = watch.source.cancellation.look now.state) :
      Turn flags now (now.move index watch
        (.looking (watch.source.place.get now.state).version) now.state)
  | test {index watch seen} (here : now.watches[index]? = some watch)
      (looks : watch.watching = .looking seen) :
      Turn flags now (now.move index watch
        (.resting (watch.source.cancellation.test seen now.state).running)
        (watch.source.cancellation.test seen now.state).state)
  | drop {index watch wait resume} (here : now.watches[index]? = some watch)
      (rests : watch.watching = .resting (.stopped wait resume)) :
      Turn flags now (now.move index watch (.resting .dropped) (wait.release now.state))
  | other {state} (still : flags.Still now.state state) :
      Turn flags now { now with state }

abbrev Turns [Host σ] (flags : Flags σ) : Program σ → Program σ → Prop :=
  Relation.ReflTransGen (Turn flags)

/-- Somebody has cancelled through a handle of this origin. -/
def Cancelled (now : Program σ) (origin : Nat) : Prop :=
  ∃ copy ∈ now.cancels, copy.origin = origin

theorem cancelled_append_iff {now later : Program σ} {more : List (Copy σ)}
    (grown : later.cancels = now.cancels ++ more) {origin : Nat} :
    later.Cancelled origin ↔
      now.Cancelled origin ∨ ∃ other ∈ more, other.origin = origin := by
  rw [Cancelled, Cancelled, grown]
  simp only [List.mem_append, or_and_right, exists_or]

/-- How often was cancelled through handles of this origin. -/
def raises (now : Program σ) (origin : Nat) : Nat :=
  now.cancels.countP fun copy => copy.origin == origin

theorem raises_pos_iff {now : Program σ} {origin : Nat} :
    0 < now.raises origin ↔ now.Cancelled origin := by
  simp [raises, Cancelled, List.countP_pos_iff]

theorem raises_concat (now : Program σ) (state : σ) (copy : Copy σ) (origin : Nat) :
    raises { now with state, cancels := now.cancels ++ [copy] } origin =
      now.raises origin + if copy.origin = origin then 1 else 0 := by
  simp [raises, List.countP_append, List.countP_singleton]

/-! ### What every turn preserves -/

structure Sound [Host σ] (flags : Flags σ) (now : Program σ) : Prop where
  taken : ∀ copy ∈ now.copies, copy.place ∈ flags.taken now.state
  shared : ∀ copy ∈ now.copies, ∀ other ∈ now.copies,
    copy.place = other.place ↔ copy.origin = other.origin
  early : ∀ copy ∈ now.copies, copy.origin < now.copies.length
  cancels : ∀ copy ∈ now.cancels, copy ∈ now.copies
  held : ∀ copy ∈ now.copies,
    copy.place.get now.state = .raisedTimes (now.raises copy.origin)
  watches : ∀ watch ∈ now.watches, watch.source ∈ now.copies ∧
    watch.watching.Stands watch.source.cancellation (now.raises watch.source.origin)

variable [Host σ] {flags : Flags σ} {now next later : Program σ}

theorem sound_start (state : σ) : (start state : Program σ).Sound flags :=
  ⟨nofun, nofun, nofun, nofun, nofun, nofun⟩

theorem Sound.other (sound : now.Sound flags) {state : σ} (still : flags.Still now.state state) :
    Sound flags { now with state } :=
  { sound with
    taken := fun copy member => still.taken (sound.taken copy member)
    held := fun copy member =>
      (still.same copy.place (sound.taken copy member)).trans (sound.held copy member) }

/-- A wait goes on, in a turn that leaves the flags alone. -/
theorem Sound.move (sound : now.Sound flags) {index : Nat} {watch : Watch σ}
    (here : now.watches[index]? = some watch) {watching : Watching σ} {state : σ}
    (stands : watching.Stands watch.source.cancellation (now.raises watch.source.origin))
    (still : flags.Still now.state state) : (now.move index watch watching state).Sound flags := by
  have source := (sound.watches watch (List.mem_of_getElem? here)).1
  refine { sound.other still with watches := ?_ }
  intro entry member
  rcases List.mem_or_eq_of_mem_set member with old | rfl
  · exact sound.watches entry old
  · exact ⟨source, stands⟩

theorem Sound.begin (sound : now.Sound flags) {copy : Copy σ} (here : copy ∈ now.copies) :
    Sound flags { now with
      watches := now.watches ++
        [⟨copy, .resting (.stopped .passed copy.cancellation.cancelled)⟩] } := by
  refine { sound with watches := ?_ }
  intro entry member
  rcases List.mem_append.mp member with old | new
  · exact sound.watches entry old
  · rw [List.mem_singleton.mp new]
    exact ⟨here, .begun⟩

omit [Host σ] in
theorem mem_enlist {handle : Handle σ} {origin : Nat} {state : σ} {copy : Copy σ}
    (member : copy ∈ (now.enlist handle origin state).copies) :
    copy ∈ now.copies ∨ copy = ⟨handle, origin⟩ := by
  simpa [enlist] using member

theorem Sound.early_enlist (sound : now.Sound flags) {handle : Handle σ} {origin : Nat} {state : σ}
    (bound : origin ≤ now.copies.length) :
    ∀ copy ∈ (now.enlist handle origin state).copies,
      copy.origin < (now.enlist handle origin state).copies.length := by
  intro copy member
  have length : (now.enlist handle origin state).copies.length = now.copies.length + 1 := by
    simp [enlist]
  rw [length]
  rcases mem_enlist member with old | rfl
  · have before := sound.early copy old
    omega
  · exact Nat.lt_succ_of_le bound

/-- The waits and the cancels are those of before, and so are the handles that they refer to. -/
theorem Sound.watches_enlist (sound : now.Sound flags) {handle : Handle σ} {origin : Nat}
    {state : σ} : ∀ watch ∈ now.watches,
      watch.source ∈ (now.enlist handle origin state).copies ∧
        watch.watching.Stands watch.source.cancellation (now.raises watch.source.origin) := by
  intro watch member
  obtain ⟨source, stands⟩ := sound.watches watch member
  exact ⟨List.mem_append_left _ source, stands⟩

/-- A copy refers to the flag that is there already. -/
theorem Sound.copy (sound : now.Sound flags) {copy : Copy σ} (here : copy ∈ now.copies)
    {handle : Handle σ} (same : handle.cancellation = copy.cancellation) :
    (now.enlist handle copy.origin now.state).Sound flags := by
  have place : Copy.place ⟨handle, copy.origin⟩ = copy.place := congrArg Cancellation.flag same
  -- Every fact about the new copy is one about the copy that it was made from.
  have as_copy : ∀ entry ∈ (now.enlist handle copy.origin now.state).copies,
      ∃ old ∈ now.copies, entry.place = old.place ∧ entry.origin = old.origin := by
    intro entry member
    rcases mem_enlist member with old | rfl
    · exact ⟨entry, old, rfl, rfl⟩
    · exact ⟨copy, here, place, rfl⟩
  constructor
  case taken =>
    intro entry member
    obtain ⟨old, there, samePlace, -⟩ := as_copy entry member
    rw [samePlace]
    exact sound.taken old there
  case shared =>
    intro entry member other memberToo
    obtain ⟨old, there, samePlace, sameOrigin⟩ := as_copy entry member
    obtain ⟨oldToo, thereToo, samePlaceToo, sameOriginToo⟩ := as_copy other memberToo
    rw [samePlace, samePlaceToo, sameOrigin, sameOriginToo]
    exact sound.shared old there oldToo thereToo
  case early => exact sound.early_enlist (sound.early copy here).le
  case cancels =>
    intro entry member
    exact List.mem_append_left _ (sound.cancels entry member)
  case held =>
    intro entry member
    obtain ⟨old, there, samePlace, sameOrigin⟩ := as_copy entry member
    rw [samePlace, sameOrigin]
    exact sound.held old there
  case watches => exact sound.watches_enlist

theorem Sound.not_cancelled_of_young (sound : now.Sound flags) {origin : Nat}
    (young : now.copies.length ≤ origin) : ¬now.Cancelled origin := by
  intro cancelled
  obtain ⟨copy, member, same⟩ := cancelled
  have early := sound.early copy (sound.cancels copy member)
  omega

theorem Sound.apart_fresh (sound : now.Sound flags) (flag : Flag) {copy : Copy σ}
    (here : copy ∈ now.copies) : copy.place ≠ (flags.arena.fresh flag now.state).1 := by
  intro same
  have member := sound.taken copy here
  rw [same] at member
  exact flags.notMem_fresh flag now.state member

/-- A handle that is made anew refers to a flag of its own, which nobody has raised. -/
theorem Sound.make (sound : now.Sound flags) {handle : Handle σ}
    (made : handle.cancellation.flag = (flags.arena.fresh .lowered now.state).1) :
    (now.enlist handle now.copies.length
      (flags.arena.fresh .lowered now.state).2).Sound flags := by
  let fresh : Copy σ := ⟨handle, now.copies.length⟩
  have still := flags.still_fresh .lowered now.state
  have apart : ∀ copy ∈ now.copies, copy.place ≠ fresh.place ∧ copy.origin ≠ fresh.origin := by
    intro copy member
    have place : fresh.place = (flags.arena.fresh .lowered now.state).1 := made
    rw [place]
    exact ⟨sound.apart_fresh .lowered member, (sound.early copy member).ne⟩
  constructor
  case taken =>
    intro copy member
    rcases mem_enlist member with old | rfl
    · exact still.taken (sound.taken copy old)
    · rw [Copy.place, Copy.cancellation, made]
      exact flags.mem_fresh .lowered now.state
  case shared =>
    intro copy member other memberToo
    rcases mem_enlist member with old | rfl <;> rcases mem_enlist memberToo with oldToo | rfl
    · exact sound.shared copy old other oldToo
    · exact iff_of_false (apart copy old).1 (apart copy old).2
    · exact iff_of_false (apart other oldToo).1.symm (apart other oldToo).2.symm
    · exact iff_of_true rfl rfl
  case early => exact sound.early_enlist le_rfl
  case cancels =>
    intro copy member
    exact List.mem_append_left _ (sound.cancels copy member)
  case held =>
    intro copy member
    rcases mem_enlist member with old | rfl
    · exact (still.same copy.place (sound.taken copy old)).trans (sound.held copy old)
    · have never : now.raises now.copies.length = 0 := by
        apply Nat.eq_zero_of_not_pos
        rw [raises_pos_iff]
        exact sound.not_cancelled_of_young le_rfl
      change handle.cancellation.flag.get _ = .raisedTimes (now.raises now.copies.length)
      rw [made, never]
      exact flags.get_fresh .lowered now.state
  case watches => exact sound.watches_enlist

/-- A cancel raises the flag that all copies of the origin share, and no other. -/
theorem Sound.cancel (sound : now.Sound flags) {copy : Copy σ} (here : copy ∈ now.copies) :
    Sound flags { now with
      state := (copy.handle.cancel now.state).2
      cancels := now.cancels ++ [copy] } := by
  have after : (copy.handle.cancel now.state).2 =
      copy.place.set (copy.place.get now.state).raise now.state :=
    copy.handle.cancel_apply now.state
  have place := sound.taken copy here
  have taken := flags.taken_set (copy.place.get now.state).raise now.state copy.place place
  constructor
  case taken =>
    intro entry member
    rw [after, taken]
    exact sound.taken entry member
  case shared => exact sound.shared
  case early => exact sound.early
  case cancels =>
    intro entry member
    rcases List.mem_append.mp member with old | new
    · exact sound.cancels entry old
    · rw [List.mem_singleton.mp new]
      exact here
  case held =>
    intro entry member
    rw [raises_concat, after]
    by_cases same : copy.origin = entry.origin
    · have one := (sound.shared copy here entry member).mpr same
      rw [if_pos same, ← one, copy.place.get_set, sound.held copy here, Flag.raise_raisedTimes,
        same]
    · have apart : entry.place ≠ copy.place := fun one =>
        same ((sound.shared copy here entry member).mp one.symm)
      rw [if_neg same, flags.same_set _ _ _ place _ (sound.taken entry member) apart]
      exact sound.held entry member
  case watches =>
    intro watch member
    obtain ⟨source, stands⟩ := sound.watches watch member
    refine ⟨source, stands.mono ?_⟩
    rw [raises_concat]
    exact Nat.le_add_right _ _

/-- A poll leaves the flags alone, as all that it does is to pay. -/
theorem still_of_leaves {cancellation : Cancellation σ} {count : Nat} {state : σ}
    {poll : Poll σ Unit} (leaves : Watching.Leaves cancellation count state poll) :
    flags.Still state poll.state := by
  rcases leaves.state with same | paid
  · rw [same]
    exact flags.still_refl state
  · rw [paid]
    exact flags.still_allow _ state

/-- One case for each kind of turn: flags are handed out only for handles made anew, and raised only
where somebody cancels. -/
theorem Turn.sound (turn : Turn flags now next) (sound : now.Sound flags) : next.Sound flags := by
  cases turn with
  | token made | scope made =>
    obtain ⟨rfl, rfl⟩ := Prod.mk.inj made
    apply sound.make
    rfl
  | copy here | surround here | lend here =>
    apply sound.copy here
    rfl
  | cancel here => exact sound.cancel here
  | begin here => exact sound.begin here
  | @poll index watch wait resume here rests opens =>
    obtain ⟨source, stands⟩ := sound.watches watch (List.mem_of_getElem? here)
    rw [rests] at stands
    have leaves := stands.poll (sound.held watch.source source) opens
    exact sound.move here leaves.stands (still_of_leaves leaves)
  | @note index watch wait resume here rests opens looks =>
    obtain ⟨source, -⟩ := sound.watches watch (List.mem_of_getElem? here)
    apply sound.move here _ (flags.still_refl now.state)
    rw [sound.held watch.source source]
    exact .looking le_rfl
  | @test index watch seen here looks =>
    obtain ⟨source, stands⟩ := sound.watches watch (List.mem_of_getElem? here)
    rw [looks] at stands
    cases stands with
    | looking noted =>
      have leaves := Watching.leaves_test (sound.held watch.source source) noted
      exact sound.move here leaves.stands (still_of_leaves leaves)
  | @drop index watch wait resume here rests =>
    obtain ⟨source, stands⟩ := sound.watches watch (List.mem_of_getElem? here)
    rw [rests] at stands
    rw [stands.release]
    exact sound.move here .dropped (flags.still_refl now.state)
  | other still => exact sound.other still

theorem Turns.sound (turns : Turns flags now later) (sound : now.Sound flags) :
    later.Sound flags := by
  induction turns with
  | refl => exact sound
  | tail _ turn ih => exact turn.sound ih

end Program
end Deferred.Cancelling
