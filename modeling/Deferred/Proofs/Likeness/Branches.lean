import Deferred.Future.Concurrent
import Deferred.Proofs.Likeness.Futures

/-! Branches side by side. Which branch is polled when depends on the waits alone, so that two
branches that are blind to a difference of states are so together. This holds where the likeness is
roomy: a branch that has to stop because the allowance has run out keeps the other from going first.
Nothing is then asked any more, since whatever else is polled in this turn stops as well. -/

namespace Deferred

variable {σ α β : Type}

/-- The right branch is polled where the left one waits, and leaves everything where it stops. -/
theorem Poll.HaltsIn.besideWaiting {there : σ → Prop} {right : Poll σ β}
    (halts : right.HaltsIn there) (wait : Wait σ) (left : σ → Poll σ α)
    (leftFirst : σ → Wait σ → (σ → Poll σ β) → Poll σ (α × β)) :
    (Poll.besideWaiting wait left leftFirst right).HaltsIn there := by
  induction right with
  | ready | panic => exact False.elim halts
  | waiting => exact halts
  | spawn _ _ state ih => exact ih state halts

variable [Host σ] {like : Likeness σ}

namespace Likeness

/-- Branches that wait next to each other. They go on in step when they may. -/
structure Resumes (like : Likeness σ) (wait other : Wait σ) (resume next : σ → Poll σ α) :
    Prop where
  waits : like.Waits wait other
  resumes : ∀ i s t, like.pace.alike i s t → wait.opens s = true →
    (resume s).InStep like.pace (Pace.returns _) i (next t)

theorem Waits.either {a b c d : Wait σ} (left : like.Waits a b) (right : like.Waits c d) :
    like.Waits (a.either c) (b.either d) where
  deadline := by simp only [Wait.either, left.deadline, right.deadline]
  opens alike := by simp only [Wait.either, left.opens alike, right.opens alike]
  releases alike := right.releases (left.releases alike)
  first := like.either left.first right.first
  second := like.either left.second right.second

/-- What a branch waits for, which is nothing at all before its first poll. -/
def Stops (like : Likeness σ) (wait other : Wait σ) : Prop :=
  wait = .passed ∧ other = .passed ∨ like.Waits wait other

theorem Stops.opens {wait other : Wait σ} (stops : like.Stops wait other) {i : like.pace.Index}
    {s t : σ} (alike : like.pace.alike i s t) : wait.opens s = other.opens t := by
  rcases stops with ⟨rfl, rfl⟩ | waits
  · rfl
  · exact waits.opens alike.1

theorem Stops.waits {wait other : Wait σ} (stops : like.Stops wait other) {s : σ}
    (closed : ¬wait.opens s = true) : like.Waits wait other := by
  rcases stops with ⟨rfl, -⟩ | waits
  · exact absurd rfl closed
  · exact waits

end Likeness

namespace Poll.InStep

open Likeness

variable {i : like.pace.Index} {first second : Poll σ α}

theorem map_returns (inStep : first.InStep like.pace (Pace.returns _) i second) (f : α → β) :
    (first.map f).InStep like.pace (Pace.returns _) i (second.map f) := by
  refine inStep.bind ?_ ?_
  · rintro i value _ s t ⟨_, ⟨⟩, ⟨⟩, alike⟩
    exact .ready ⟨_, rfl, rfl, alike⟩
  · rintro i _ _ s t ⟨_, ⟨⟩, -⟩

/-- The right branch only goes on to where it stops, which leaves the left one waiting. -/
theorem besideWaiting_halts {there : σ → Prop} {right mate : Poll σ β}
    (inStep : right.InStep like.pace (Pace.returns _) i mate) (wait : Wait σ)
    (left : σ → Poll σ α) (leftFirst : σ → Wait σ → (σ → Poll σ β) → Poll σ (α × β))
    (patient : ∀ wait : Wait σ, ¬like.pace.late wait)
    (comes : ∀ s t, like.pace.alike i s t → there s)
    (excuses : ∀ s, like.pace.excused i s → there s) :
    (Poll.besideWaiting wait left leftFirst right).HaltsIn there := by
  induction inStep with
  | ready ended =>
    obtain ⟨_, -, -, alike⟩ := ended
    exact comes _ _ alike
  | panic ended =>
    obtain ⟨_, ⟨⟩, -⟩ := ended
  | waiting alike => exact comes _ _ alike
  | spawn _ _ ih => exact ih comes excuses
  | excused excused => exact (excused.mono excuses).besideWaiting wait left leftFirst
  | behind late => exact absurd late (patient _)
  | ahead slow => exact absurd slow (patient _)

variable (roomy : like.roomy)
include roomy

theorem besideWaiting {wait other : Wait σ} {left next : σ → Poll σ α}
    {leftFirst nextFirst : σ → Wait σ → (σ → Poll σ β) → Poll σ (α × β)}
    (resumes : like.Resumes wait other left next)
    (goesFirst : ∀ i s t a b right mate, like.pace.alike i s t → wait.opens s = true →
      like.Resumes a b right mate →
      (leftFirst s a right).InStep like.pace (Pace.returns _) i (nextFirst t b mate))
    {right mate : Poll σ β} (inStep : right.InStep like.pace (Pace.returns _) i mate) :
    (Poll.besideWaiting wait left leftFirst right).InStep like.pace (Pace.returns _) i
      (Poll.besideWaiting other next nextFirst mate) := by
  induction inStep with
  | ready ended =>
    obtain ⟨value, ⟨⟩, ⟨⟩, alike⟩ := ended
    refine .waiting alike resumes.waits ?_
    intro i s t alike opens
    exact (resumes.resumes i s t alike opens).map_returns _
  | panic ended =>
    obtain ⟨_, ⟨⟩, -⟩ := ended
  | @waiting i a b resume follow s t alike waits goesOn ih =>
    refine .waiting alike (resumes.waits.either waits) ?_
    intro i s t alike opens
    rw [← resumes.waits.opens alike.1]
    split
    next opensLeft => exact goesFirst i s t a b resume follow alike opensLeft ⟨waits, goesOn⟩
    next closed =>
      refine ih i s t alike ?_
      simpa [Wait.either, closed] using opens
  | spawn tasks _ ih => exact .spawn tasks ih
  | excused excused => exact .excused (excused.besideWaiting wait left leftFirst)
  | behind late => exact absurd roomy late.1
  | ahead slow => exact absurd roomy slow.1

/-- The left branch stops with nothing left. So does the right one if it is polled at all. -/
theorem beside_halts {i : like.pace.Index} {left : Poll σ α}
    (halts : left.HaltsIn (like.pace.excused i)) (other : Wait σ) (right mate : σ → Poll σ β)
    (resumes : ∀ i s t, like.pace.alike i s t → other.opens s = true →
      (right s).InStep like.pace (Pace.returns _) i (mate t)) :
    (left.beside other right).HaltsIn (like.pace.excused i) := by
  induction left with
  | ready | panic => exact False.elim halts
  | waiting wait resume s =>
    obtain ⟨-, none, t, alike⟩ := halts
    unfold Poll.beside
    split
    next opens =>
      have here : like.pace.alike (i.1, 0) s t := ⟨alike, Nat.le_of_eq none⟩
      exact besideWaiting_halts (resumes _ s t here opens) wait resume _
        (fun _ late => late.1 roomy) (fun _ _ alike => ⟨roomy, Nat.le_zero.mp alike.2, _, alike.1⟩)
        fun _ excused => excused
    next => exact ⟨roomy, none, t, alike⟩
  | spawn _ _ state ih => exact ih state halts

/-- The left branch is polled, and the right one after it if it may. -/
theorem beside {other mate : Wait σ} {right next : σ → Poll σ β} (stops : like.Stops other mate)
    (resumes : ∀ i s t, like.pace.alike i s t → other.opens s = true →
      (right s).InStep like.pace (Pace.returns _) i (next t))
    (inStep : first.InStep like.pace (Pace.returns _) i second) :
    (first.beside other right).InStep like.pace (Pace.returns _) i (second.beside mate next) := by
  induction inStep generalizing other mate right next with
  | ready ended =>
    obtain ⟨value, ⟨⟩, ⟨⟩, alike⟩ := ended
    unfold Poll.beside
    rw [← stops.opens alike]
    split
    next opensRight => exact (resumes _ _ _ alike opensRight).map_returns _
    next closed =>
      refine .waiting alike (stops.waits closed) ?_
      intro i s t alike opensRight
      exact (resumes i s t alike opensRight).map_returns _
  | panic ended =>
    obtain ⟨_, ⟨⟩, -⟩ := ended
  | @waiting i a b resume follow s t alike waitsLeft goesOn ih =>
    have goesFirst : ∀ i s t c d (right mate : σ → Poll σ β), like.pace.alike i s t →
        a.opens s = true → like.Resumes c d right mate →
        ((resume s).beside c right).InStep like.pace (Pace.returns _) i
          ((follow t).beside d mate) := by
      intro i s t c d right mate alike opensLeft late
      exact ih i s t alike opensLeft (.inr late.waits) late.resumes
    unfold Poll.beside
    dsimp only
    rw [← stops.opens alike]
    split
    next opensRight =>
      exact besideWaiting roomy ⟨waitsLeft, goesOn⟩ goesFirst (resumes _ s t alike opensRight)
    next closed =>
      have waits := stops.waits closed
      refine .waiting alike (waitsLeft.either waits) ?_
      intro i s t alike opensAny
      rw [← waitsLeft.opens alike.1]
      split
      next opensLeft =>
        exact goesFirst i s t other mate right next alike opensLeft ⟨waits, resumes⟩
      next closedLeft =>
        refine besideWaiting roomy ⟨waitsLeft, goesOn⟩ goesFirst (resumes i s t alike ?_)
        simpa [Wait.either, closedLeft] using opensAny
  | spawn tasks _ ih => exact .spawn tasks (ih stops resumes)
  | excused excused => exact .excused (beside_halts roomy excused other right next resumes)
  | behind late => exact absurd roomy late.1
  | ahead slow => exact absurd roomy slow.1

end Poll.InStep

theorem Future.Calm.both {left : Future σ α} {right : Future σ β} (roomy : like.roomy)
    (first : left.Calm like) (second : right.Calm like) : (Future.both left right).Calm like := by
  intro i s t alike
  exact .beside roomy (.inl ⟨rfl, rfl⟩) (fun i s t alike _ => second i s t alike)
    (first i s t alike)

end Deferred
