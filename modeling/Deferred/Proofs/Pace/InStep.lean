import Deferred.Future

/-! Two computations in step, each in a state of its own. From states that are alike they stop in
states that are alike, at waits that are alike, and end with results that belong together. What that
means is a parameter. So is whether one of them may be put off where the other is not, and whether
the first is excused once it has stopped in a certain way: nothing is then asked of what follows. -/

namespace Deferred

variable {σ τ α β γ δ : Type}

/-- How two computations are compared. States are alike in more than one way, so that an index may
keep what is not to change in the course of one poll. -/
structure Pace (σ τ : Type) where
  Index : Type
  alike : Index → σ → τ → Prop
  waits : Wait σ → Wait τ → Prop
  tasks : (σ → Task σ) → (τ → Task τ) → Prop
  excused : Index → σ → Prop
  late : Wait σ → Prop
  slow : Wait τ → Prop

/-- How the ends of two computations belong together: their results or panics, and the states. -/
abbrev Pace.Ends (pace : Pace σ τ) (α β : Type) : Type :=
  pace.Index → Except Payload α → Except Payload β → σ → τ → Prop

/-- Both come to the same result or panic, in states that are alike. -/
def Pace.same (pace : Pace σ τ) : pace.Ends α α :=
  fun i a b s t => a = b ∧ pace.alike i s t

/-- Both come to the same result, and neither panics. -/
def Pace.returns (pace : Pace σ τ) : pace.Ends α α :=
  fun i a b s t => ∃ value, a = .ok value ∧ b = .ok value ∧ pace.alike i s t

namespace Poll

/-- The computation stops at a wait, and does so in a state like this. -/
def HaltsIn (there : σ → Prop) : Poll σ α → Prop
  | ready _ _ => False
  | panic _ _ => False
  | waiting _ _ state => there state
  | spawn _ rest state => (rest state).HaltsIn there

namespace HaltsIn

variable {there : σ → Prop} {poll : Poll σ α}

theorem nowhere (none : ∀ state, ¬there state) (halts : poll.HaltsIn there) : False := by
  induction poll with
  | ready | panic => exact halts
  | waiting _ _ state => exact none state halts
  | spawn _ _ state ih => exact ih state halts

theorem mono {later : σ → Prop} (weaker : ∀ state, there state → later state)
    (halts : poll.HaltsIn there) : poll.HaltsIn later := by
  induction poll with
  | ready | panic => exact False.elim halts
  | waiting _ _ state => exact weaker state halts
  | spawn _ _ state ih => exact ih state halts

theorem bind {next : α → σ → Poll σ β} (halts : poll.HaltsIn there) :
    (poll.bind next).HaltsIn there := by
  induction poll with
  | ready | panic => exact False.elim halts
  | waiting => exact halts
  | spawn _ _ state ih => exact ih state halts

theorem contained [Host σ] (halts : poll.HaltsIn there) : poll.contained.HaltsIn there := by
  induction poll with
  | ready | panic => exact False.elim halts
  | waiting => exact halts
  | spawn _ _ state ih => exact ih state halts

theorem holding {release : σ → σ} (halts : poll.HaltsIn there) :
    (poll.holding release).HaltsIn there := by
  induction poll with
  | ready | panic => exact False.elim halts
  | waiting => exact halts
  | spawn _ _ state ih => exact ih state halts

end HaltsIn

inductive InStep (pace : Pace σ τ) (ends : pace.Ends α β) :
    pace.Index → Poll σ α → Poll τ β → Prop where
  | ready {i a b s t} (ended : ends i (.ok a) (.ok b) s t) :
      InStep pace ends i (.ready a s) (.ready b t)
  | panic {i p q s t} (ended : ends i (.error p) (.error q) s t) :
      InStep pace ends i (.panic p s) (.panic q t)
  | waiting {i wait other resume next s t} (alike : pace.alike i s t)
      (waits : pace.waits wait other)
      (resumes : ∀ i s t, pace.alike i s t → wait.opens s = true →
        InStep pace ends i (resume s) (next t)) :
      InStep pace ends i (.waiting wait resume s) (.waiting other next t)
  | spawn {i child task rest next s t} (tasks : pace.tasks child task)
      (goesOn : InStep pace ends i (rest s) (next t)) :
      InStep pace ends i (.spawn child rest s) (.spawn task next t)
  | excused {i first other} (excused : first.HaltsIn (pace.excused i)) :
      InStep pace ends i first other
  /-- The first is put off. The second has come as far, and goes on from there. -/
  | behind {i wait resume s t other} (late : pace.late wait) (alike : pace.alike i s t)
      (resumes : ∀ i s, pace.alike i s t → wait.opens s = true →
        InStep pace ends i (resume s) other) :
      InStep pace ends i (.waiting wait resume s) other
  | ahead {i other wait next s t} (slow : pace.slow wait) (alike : pace.alike i s t)
      (resumes : ∀ i t, pace.alike i s t → wait.opens t = true →
        InStep pace ends i other (next t)) :
      InStep pace ends i other (.waiting wait next t)

namespace InStep

variable {pace : Pace σ τ} {ends : pace.Ends α β} {later : pace.Ends γ δ} {i : pace.Index}
  {first : Poll σ α} {second : Poll τ β}

theorem mono {other : pace.Ends α β} (inStep : first.InStep pace ends i second)
    (weaker : ∀ i a b s t, ends i a b s t → other i a b s t) :
    first.InStep pace other i second := by
  induction inStep with
  | ready ended => exact .ready (weaker _ _ _ _ _ ended)
  | panic ended => exact .panic (weaker _ _ _ _ _ ended)
  | waiting alike waits _ ih => exact .waiting alike waits ih
  | spawn tasks _ ih => exact .spawn tasks ih
  | excused excused => exact .excused excused
  | behind late alike _ ih => exact .behind late alike ih
  | ahead slow alike _ ih => exact .ahead slow alike ih

/-- Two computations in sequence, which are in step one after the other. -/
theorem bind {next : α → σ → Poll σ γ} {follow : β → τ → Poll τ δ}
    (inStep : first.InStep pace ends i second)
    (goesOn : ∀ i a b s t, ends i (.ok a) (.ok b) s t →
      (next a s).InStep pace later i (follow b t))
    (panics : ∀ i p q s t, ends i (.error p) (.error q) s t → later i (.error p) (.error q) s t) :
    (first.bind next).InStep pace later i (second.bind follow) := by
  induction inStep with
  | ready ended => exact goesOn _ _ _ _ _ ended
  | panic ended => exact .panic (panics _ _ _ _ _ ended)
  | waiting alike waits _ ih => exact .waiting alike waits ih
  | spawn tasks _ ih => exact .spawn tasks ih
  | excused excused => exact .excused excused.bind
  | behind late alike _ ih => exact .behind late alike ih
  | ahead slow alike _ ih => exact .ahead slow alike ih

/-- A panic that is caught ends the computation like a value, once it has been recorded. -/
theorem contained [Host σ] [Host τ] {later : pace.Ends (Except Error α) (Except Error β)}
    (inStep : first.InStep pace ends i second)
    (returns : ∀ i a b s t, ends i (.ok a) (.ok b) s t → later i (.ok (.ok a)) (.ok (.ok b)) s t)
    (panics : ∀ i p q s t, ends i (.error p) (.error q) s t →
      later i (.ok (.error (.ofPanic p))) (.ok (.error (.ofPanic q)))
        (Host.record (.ofPanic p) s) (Host.record (.ofPanic q) t)) :
    first.contained.InStep pace later i second.contained := by
  induction inStep with
  | ready ended => exact .ready (returns _ _ _ _ _ ended)
  | panic ended => exact .ready (panics _ _ _ _ _ ended)
  | waiting alike waits _ ih => exact .waiting alike waits ih
  | spawn tasks _ ih => exact .spawn tasks ih
  | excused excused => exact .excused excused.contained
  | behind late alike _ ih => exact .behind late alike ih
  | ahead slow alike _ ih => exact .ahead slow alike ih

end InStep
end Poll
end Deferred
