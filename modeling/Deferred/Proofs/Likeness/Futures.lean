import Deferred.Search
import Deferred.Proofs.Boundary.Futures
import Deferred.Proofs.Pace.InStep

/-! Likenesses of states. A computation is blind to the difference of states that are alike if it
is in step with itself from such states: it comes to the same results at the same waits, and leaves
states that are alike again. What the two states have in common is a parameter; it is at least the
time.

The allowance may differ. In a roomy likeness the first state never has more of it, and the first
computation is excused once it has used it up. In a likeness that is not roomy nothing is known of
the allowance. Each computation is then put off where its own has run out, which makes no difference
to one that does one thing after the other. -/

namespace Deferred

variable {σ α β ρ : Type} [Host σ]

structure Likeness (σ : Type) [Host σ] where
  Index : Type
  alike : Index → σ → σ → Prop
  waits : Wait σ → Prop
  tasks : (σ → Task σ) → Prop
  roomy : Prop
  now : ∀ {i s t}, alike i s t → Host.now s = Host.now t
  richer : ∀ {i s t}, roomy → alike i s t → Host.allowance s ≤ Host.allowance t
  record : ∀ {i s t} error, alike i s t → alike i (Host.record error s) (Host.record error t)
  trace : ∀ {i s t} event, alike i s t → alike i (Host.trace event s) (Host.trace event t)
  spend : ∀ {i s t}, alike i s t → alike i (Host.spend s) (Host.spend t)
  clock : ∀ time, waits (.clock time)
  either : ∀ {first second}, waits first → waits second → waits (first.either second)

/-- Nothing but the next turn is waited for. -/
structure Wait.IsTurn (wait : Wait σ) : Prop where
  deadline : wait.deadline = none
  opens : ∀ state, wait.opens state = decide (0 < Host.allowance state)

namespace Likeness

variable (like : Likeness σ)

/-- Waits that are the same for states that are alike. -/
structure Waits (wait other : Wait σ) : Prop where
  deadline : wait.deadline = other.deadline
  opens : ∀ {i s t}, like.alike i s t → wait.opens s = other.opens t
  releases : ∀ {i s t}, like.alike i s t → like.alike i (wait.release s) (other.release t)
  first : like.waits wait
  second : like.waits other

/-- The number bounds the allowance of the first state, which only falls in the course of a poll. -/
def pace : Pace σ σ where
  Index := like.Index × Nat
  alike i s t := like.alike i.1 s t ∧ Host.allowance s ≤ i.2
  waits := like.Waits
  tasks child task := like.tasks child ∧ child = task
  excused i s := like.roomy ∧ Host.allowance s = 0 ∧ ∃ t, like.alike i.1 s t
  late wait := ¬like.roomy ∧ wait.IsTurn
  slow wait := ¬like.roomy ∧ wait.IsTurn

variable {like} {i : like.pace.Index} {s t : σ}

theorem alike_record (error : Error) (alike : like.pace.alike i s t) :
    like.pace.alike i (Host.record error s) (Host.record error t) :=
  ⟨like.record error alike.1, Nat.le_trans (Nat.le_of_eq (Host.allowance_record error s)) alike.2⟩

theorem alike_trace (event : Event) (alike : like.pace.alike i s t) :
    like.pace.alike i (Host.trace event s) (Host.trace event t) :=
  ⟨like.trace event alike.1, Nat.le_trans (Nat.le_of_eq (Host.allowance_trace event s)) alike.2⟩

theorem alike_spend (alike : like.pace.alike i s t) :
    like.pace.alike i (Host.spend s) (Host.spend t) := by
  refine ⟨like.spend alike.1, ?_⟩
  calc Host.allowance (Host.spend s)
    _ = Host.allowance s - 1 := Host.allowance_allow _ s
    _ ≤ Host.allowance s := Nat.sub_le _ 1
    _ ≤ i.2 := alike.2

end Likeness

/-- The code does the same in states that are alike, and does not add to the allowance. -/
def Code.Blind (like : Likeness σ) (code : Code σ α) : Prop :=
  ∀ i s t, like.pace.alike i s t →
    (code s).1 = (code t).1 ∧ like.pace.alike i (code s).2 (code t).2

theorem Code.Blind.contain {like : Likeness σ} {code : Code σ α} (blind : code.Blind like)
    (i : like.pace.Index) (s t : σ) (alike : like.pace.alike i s t) :
    (contain code s).1 = (contain code t).1 ∧
      like.pace.alike i (contain code s).2 (contain code t).2 := by
  have does := blind i s t alike
  unfold Deferred.contain
  generalize code s = first at does
  generalize code t = second at does
  obtain ⟨answer, after⟩ := first
  obtain ⟨_, later⟩ := second
  obtain ⟨rfl, alike⟩ := does
  cases answer with
  | ok value => exact ⟨rfl, alike⟩
  | error payload => exact ⟨rfl, Likeness.alike_record _ alike⟩

def Place.Blind (like : Likeness σ) (place : Place σ ρ) : Prop :=
  ∀ i s t, like.pace.alike i s t →
    place.get s = place.get t ∧ ∀ value, like.pace.alike i (place.set value s) (place.set value t)

namespace Future

def Blind (like : Likeness σ) (future : Future σ α) : Prop :=
  ∀ i s t, like.pace.alike i s t → (future s).InStep like.pace (Pace.same _) i (future t)

/-- Blind, and never panicking. -/
def Calm (like : Likeness σ) (future : Future σ α) : Prop :=
  ∀ i s t, like.pace.alike i s t → (future s).InStep like.pace (Pace.returns _) i (future t)

namespace Calm

variable {like : Likeness σ}

theorem blind {future : Future σ α} (calm : future.Calm like) : future.Blind like := by
  intro i s t alike
  refine (calm i s t alike).mono ?_
  rintro i _ _ s t ⟨value, rfl, rfl, alike⟩
  exact ⟨rfl, alike⟩

protected theorem pure (value : α) : (Pure.pure value : Future σ α).Calm like :=
  fun _ _ _ alike => .ready ⟨value, rfl, rfl, alike⟩

protected theorem bind {future : Future σ α} {next : α → Future σ β} (calm : future.Calm like)
    (follows : ∀ value, (next value).Calm like) : (future >>= next).Calm like := by
  intro i s t alike
  refine (calm i s t alike).bind ?_ ?_
  · rintro i value _ s t ⟨_, ⟨⟩, ⟨⟩, alike⟩
    exact follows value i s t alike
  · rintro i _ _ s t ⟨_, ⟨⟩, -⟩

protected theorem trace (event : Event) : (Future.trace event).Calm like :=
  fun _ _ _ alike => .ready ⟨(), rfl, rfl, Likeness.alike_trace event alike⟩

protected theorem record (error : Error) : (Future.record error).Calm like :=
  fun _ _ _ alike => .ready ⟨error, rfl, rfl, Likeness.alike_record error alike⟩

theorem spend : (Future.spend : Future σ Unit).Calm like :=
  fun _ _ _ alike => .ready ⟨(), rfl, rfl, Likeness.alike_spend alike⟩

/-- Where the first allowance has run out the first computation is put off or excused. Where the
second one has run out the second computation is put off, since the first has no more of it. -/
theorem afford : (Future.afford : Future σ Unit).Calm like := by
  intro i s t alike
  have turn : (Wait.turn : Wait σ).IsTurn := ⟨rfl, fun _ => rfl⟩
  have ready : ∀ {i s t}, like.pace.alike i s t →
      (Poll.ready () s).InStep like.pace (Pace.returns _) i (.ready () t) :=
    fun alike => .ready ⟨(), rfl, rfl, alike⟩
  have behind : ∀ {i s t}, ¬like.roomy → like.pace.alike i s t →
      (Poll.waiting .turn (fun s => .ready () s) s).InStep like.pace (Pace.returns _) i
        (.ready () t) :=
    fun patient alike => .behind ⟨patient, turn⟩ alike fun _ _ alike _ => ready alike
  unfold Future.afford
  by_cases some : 0 < Host.allowance s
  · rw [if_pos some]
    split
    next => exact ready alike
    next none =>
      have patient : ¬like.roomy := fun roomy =>
        none (Nat.lt_of_lt_of_le some (like.richer roomy alike.1))
      exact .ahead ⟨patient, turn⟩ alike fun _ _ alike _ => ready alike
  · rw [if_neg some]
    by_cases roomy : like.roomy
    · exact .excused ⟨roomy, Nat.eq_zero_of_not_pos some, t, alike.1⟩
    · split
      next => exact behind roomy alike
      next => exact .ahead ⟨roomy, turn⟩ alike fun _ _ alike _ => behind roomy alike

theorem pay : (Future.pay : Future σ Unit).Calm like :=
  afford.bind fun _ => spend

theorem sleep (millis : Nat) : (Future.sleep millis : Future σ Unit).Calm like := by
  intro i s t alike
  unfold Future.sleep
  split
  next => exact pay i s t alike
  next =>
    rw [like.now alike.1]
    have waits : like.Waits (.clock (Host.now t + millis)) (.clock (Host.now t + millis)) := by
      refine ⟨rfl, ?_, id, like.clock _, like.clock _⟩
      intro i s t alike
      show decide (_ ≤ Host.now s) = decide (_ ≤ Host.now t)
      rw [like.now alike]
    exact .waiting alike waits fun i s t alike _ => pay i s t alike

theorem step {place : Place σ ρ} (blind : place.Blind like) (f : ρ → α × ρ) :
    (liftM (place.step f) : Future σ α).Calm like := by
  intro i s t alike
  obtain ⟨same, sets⟩ := blind i s t alike
  show (Poll.ready _ (place.set _ s)).InStep _ _ _ (.ready _ (place.set _ t))
  rw [same]
  exact .ready ⟨_, rfl, rfl, sets _⟩

/-- What follows contained code need only be calm for the values that the code may return. -/
theorem contain_bind {code : Code σ α} {next : Except Error α → Future σ β}
    (blind : code.Blind like) (fine : ∀ value, code.Returns value → (next (.ok value)).Calm like)
    (caught : ∀ error, (next (.error error)).Calm like) :
    (liftM (contain code) >>= next : Future σ β).Calm like := by
  intro i s t alike
  obtain ⟨same, alike⟩ := blind.contain i s t alike
  show (next (contain code s).1 (contain code s).2).InStep _ _ _
    (next (contain code t).1 (contain code t).2)
  rw [← same]
  cases answer : (contain code s).1 with
  | error error => exact caught error i _ _ alike
  | ok value => exact fine value (Code.returns_of_contain answer) i _ _ alike

theorem contained {future : Future σ α} (blind : future.Blind like) :
    future.contained.Calm like := by
  intro i s t alike
  refine (blind i s t alike).contained ?_ ?_
  · rintro i value _ s t ⟨⟨⟩, alike⟩
    exact ⟨_, rfl, rfl, alike⟩
  · rintro i payload _ s t ⟨⟨⟩, alike⟩
    exact ⟨_, rfl, rfl, Likeness.alike_record _ alike⟩

/-- An error that the future returns is recorded, and so is a panic. -/
theorem reported {ε : Type} [IsError ε] {future : Future σ (Except ε α)}
    {next : Except Error (Except ε α) → Future σ β} (blind : future.Blind like)
    (fine : ∀ value, (next (.ok (.ok value))).Calm like)
    (returned : ∀ reason, ∃ rest, next (.ok (.error reason)) =
      Future.record (Error.new reason) >>= rest ∧ ∀ error, (rest error).Calm like)
    (caught : ∀ error, (next (.error error)).Calm like) :
    (future.contained >>= next).Calm like := by
  refine (contained blind).bind ?_
  rintro (error | reason | value)
  · exact caught error
  · obtain ⟨rest, same, calm⟩ := returned reason
    rw [same]
    exact (Calm.record _).bind calm
  · exact fine value

end Calm
end Future
end Deferred
