import Deferred.Proofs.Likeness.Branches

/-! Actions that are blind to the difference of states that are alike. The call hands back one
future, whichever of the two states it is made in, and that future is calm. -/

namespace Deferred

variable {σ α β ρ τ : Type}

variable [Host σ] {like : Likeness σ}

def Action.Blind (like : Likeness σ) (action : Action σ ρ) : Prop :=
  ∀ i s t, like.pace.alike i s t → ∃ future after later,
    action.call s = (.ok future, after) ∧ action.call t = (.ok future, later) ∧
      like.pace.alike i after later ∧ future.Calm like

namespace Action.Blind

theorem awaited {action : Action σ ρ} (blind : action.Blind like) : action.awaited.Calm like := by
  intro i s t alike
  obtain ⟨future, after, later, called, again, alike, calm⟩ := blind i s t alike
  rw [awaited_of_call called, awaited_of_call again]
  exact calm i after later alike

theorem lazily {future : Future σ ρ} (calm : future.Calm like) :
    (Action.lazily future).Blind like :=
  fun _ s t alike => ⟨future, s, t, rfl, rfl, alike, calm⟩

/-- A call that builds a future with code of the user's. -/
theorem building {build : Code σ (Future σ α)}
    {next : Except Error (Future σ α) → Code σ (Future σ ρ)} (blind : build.Blind like)
    (caught : ∀ error, ∃ future, next (.error error) = pure future ∧ future.Calm like)
    (goesOn : ∀ built, build.Returns built →
      ∃ future, next (.ok built) = pure future ∧ future.Calm like) :
    Action.Blind like ⟨liftM (contain build) >>= next⟩ := by
  intro i s t alike
  obtain ⟨same, alike⟩ := blind.contain i s t alike
  have called : ∀ state, (liftM (contain build) : Code σ _) state =
      (.ok (contain build state).1, (contain build state).2) := fun _ => rfl
  have handsBack : ∃ future, next (contain build s).1 = pure future ∧ future.Calm like := by
    cases answer : (contain build s).1 with
    | error error => exact caught error
    | ok built => exact goesOn built (Code.returns_of_contain answer)
  obtain ⟨future, hands, calm⟩ := handsBack
  refine ⟨future, _, _, ?_, ?_, alike, calm⟩
  · exact (Code.bind_of_ok (called s)).trans (by rw [hands]; rfl)
  · exact (Code.bind_of_ok (called t)).trans (by rw [← same, hands]; rfl)

/-- Two calls, one after the other, and then both futures side by side. -/
theorem both {left : Action σ α} {right : Action σ β} {combine : α → β → Future σ ρ}
    (roomy : like.roomy) (first : left.Blind like) (second : right.Blind like)
    (follows : ∀ a b, (combine a b).Calm like) :
    Action.Blind like ⟨do
      let first ← left.call
      let second ← right.call
      return do
        let (a, b) ← Future.both first second
        combine a b⟩ := by
  intro i s t alike
  obtain ⟨future, sl, tl, calledS, calledT, alike, calm⟩ := first i s t alike
  obtain ⟨other, sr, tr, nextS, nextT, alike, calmNext⟩ := second i sl tl alike
  let joined : Future σ ρ := do
    let (a, b) ← Future.both future other
    combine a b
  refine ⟨joined, sr, tr, ?_, ?_, alike, ?_⟩
  · exact (Code.bind_of_ok calledS).trans (Code.bind_of_ok nextS)
  · exact (Code.bind_of_ok calledT).trans (Code.bind_of_ok nextT)
  · exact (calm.both roomy calmNext).bind fun ⟨a, b⟩ => follows a b

end Action.Blind
end Deferred
