import Deferred.Proofs.Boundary.Built
import Deferred.Proofs.Likeness.Actions

/-! Whatever is built of code that is blind to a likeness is blind to it, as long as no gate and no
sink is part of it. A join asks for more: what it comes to depends on which branch is polled first.
-/

namespace Deferred

variable {σ : Type} [Host σ] {like : Likeness σ} {joins : Prop}

/-- Code of the user's that cannot tell states that are alike apart. Joins are part of what is built
only if they are allowed. -/
def Manner.blind (like : Likeness σ) (joins : Prop) : Manner σ where
  code := Code.Blind like
  future _ := Future.Blind like
  flow _ := False
  place := Place.Blind like
  joins := joins
  gates := False
  sinks := False

section
variable {α β : Type}

protected theorem Code.Blind.pure (value : α) : Code.Blind like (pure value) :=
  fun _ _ _ alike => ⟨rfl, alike⟩

theorem Code.Blind.bind {code : Code σ α} {next : α → Code σ β} (blind : code.Blind like)
    (follows : ∀ value, (next value).Blind like) : (code >>= next).Blind like := by
  intro i s t alike
  obtain ⟨same, alike⟩ := blind i s t alike
  cases first : code s with
  | mk answer after =>
    cases second : code t with
    | mk other later =>
      rw [first, second] at same alike
      obtain rfl : answer = other := same
      cases answer with
      | ok value =>
        rw [Code.bind_of_ok first, Code.bind_of_ok second]
        exact follows value i after later alike
      | error payload =>
        rw [Code.bind_of_error first, Code.bind_of_error second]
        exact ⟨rfl, alike⟩

/-- Code that only hands back a future. -/
theorem Manner.gives_pure {future : Future σ α} (blind : future.Blind like) :
    (Manner.blind like joins).Gives (Future.Blind like) (pure future) := by
  refine ⟨Code.Blind.pure future, ?_⟩
  rintro _ ⟨_, _, ⟨⟩⟩
  exact blind

end

/-- To be blind to a likeness is a quality, and roomy ones have room for joins. -/
def Quality.blind (roomy : joins → like.roomy) : Quality (.blind like joins) where
  code := Code.Blind like
  future := Future.Calm like
  action := Action.Blind like
  feed _ := True
  given := id
  code_bind := .bind
  pure := .pure
  bind := .bind
  trace := .trace
  sleep := .sleep
  step place := .step place
  contain_bind := .contain_bind
  contained := .contained
  reported := .reported
  awaited := Action.Blind.awaited
  lazily := .lazily
  building := .building
  both allowed := .both (roomy allowed)
  cachedAlone := False.elim
  gather := False.elim
  visit := False.elim
  own _ := trivial
  ofList _ := trivial
  never := trivial
  ofAttempt _ := trivial
  map _ _ := trivial
  filter _ _ := trivial
  append _ _ := trivial
  merge _ _ := trivial

theorem Built.blind (roomy : joins → like.roomy) {ρ : Type} {action : Action σ ρ}
    (built : Built (.blind like joins) action) : action.Blind like :=
  built.has (.blind roomy)

end Deferred
