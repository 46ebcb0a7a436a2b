import Deferred.Action
import Deferred.Proofs.Pace.InStep

/-! A cell of one's own. A cached action keeps its results in a cell that nobody else can reach, so
the state of the program is a pair: all that other code may touch, and the cell. An action that
knows nothing of the cell acts on the first part and takes the second along. Two programs whose
cells are of different kinds are in step for as long as the cells correspond. -/

namespace Deferred

variable {σ κ ι α ρ : Type}

instance [Host σ] : Host (σ × κ) where
  now s := Host.now s.1
  allowance s := Host.allowance s.1
  elapse time s := (Host.elapse time s.1, s.2)
  allow count s := (Host.allow count s.1, s.2)
  record error s := (Host.record error s.1, s.2)
  trace event s := (Host.trace event s.1, s.2)
  now_elapse time s := Host.now_elapse time s.1
  now_allow count s := Host.now_allow count s.1
  now_record error s := Host.now_record error s.1
  now_trace event s := Host.now_trace event s.1
  allowance_elapse time s := Host.allowance_elapse time s.1
  allowance_allow count s := Host.allowance_allow count s.1
  allowance_record error s := Host.allowance_record error s.1
  allowance_trace event s := Host.allowance_trace event s.1

/-- The cell as a place of the state. -/
def Place.own : Place (σ × κ) κ :=
  ⟨Prod.snd, fun cell s => (s.1, cell), fun _ _ => rfl⟩

/-- What other code does, which cannot reach the cell. -/
def outside (turn : σ → σ) (s : σ × κ) : σ × κ :=
  (turn s.1, s.2)

namespace Wait

def along (wait : Wait σ) : Wait (σ × κ) :=
  ⟨wait.deadline, fun s => wait.opens s.1, outside wait.release⟩

end Wait

def Task.along : Task σ → κ → Task (σ × κ)
  | done state, cell => .done (state, cell)
  | waiting wait resume state, cell =>
      .waiting wait.along (fun s => (resume s.1).along s.2) (state, cell)
  | spawn child rest state, cell =>
      .spawn (fun s => (child s.1).along s.2) (fun s => (rest s.1).along s.2) (state, cell)

/-- The computation in a state with a cell of which it knows nothing. -/
def Poll.along : Poll σ α → κ → Poll (σ × κ) α
  | ready value state, cell => .ready value (state, cell)
  | panic payload state, cell => .panic payload (state, cell)
  | waiting wait resume state, cell =>
      .waiting wait.along (fun s => (resume s.1).along s.2) (state, cell)
  | spawn child rest state, cell =>
      .spawn (fun s => (child s.1).along s.2) (fun s => (rest s.1).along s.2) (state, cell)

theorem Poll.HaltsIn.along {there : σ → Prop} {poll : Poll σ α} (halts : poll.HaltsIn there)
    (cell : κ) : (poll.along cell).HaltsIn fun s => there s.1 := by
  induction poll with
  | ready | panic => exact False.elim halts
  | waiting => exact halts
  | spawn _ _ state ih => exact ih state halts

def Future.along (future : Future σ α) : Future (σ × κ) α :=
  fun s => (future s.1).along s.2

def Action.along (action : Action σ ρ) : Action (σ × κ) ρ where
  call := fun s =>
    match action.call s.1 with
    | (.ok future, after) => (.ok future.along, (after, s.2))
    | (.error payload, after) => (.error payload, (after, s.2))

theorem Action.awaited_along (action : Action σ ρ) (s : σ × κ) :
    action.along.awaited s = (action.awaited s.1).along s.2 := by
  show (Future.ofCode action.along.call s).bind _ = ((Future.ofCode action.call s.1).bind _).along _
  unfold Future.ofCode Action.along
  dsimp only
  rcases action.call s.1 with ⟨payload | future, after⟩ <;> rfl

/-- Waits that open in the same states, and give back the same. -/
structure Wait.Like {σ τ : Type} (alike rest : σ → τ → Prop) (wait : Wait σ) (other : Wait τ) :
    Prop where
  deadline : wait.deadline = other.deadline
  opens : ∀ s t, alike s t → wait.opens s = other.opens t
  releases : ∀ s t, alike s t → rest (wait.release s) (other.release t)

/-- Both stop at the same points and neither is ever put off. What a computation that is dropped
leaves behind need not be alike in the same way. -/
abbrev Pace.strict {σ τ : Type} (alike rest : σ → τ → Prop)
    (tasks : (σ → Task σ) → (τ → Task τ) → Prop) : Pace σ τ where
  Index := Unit
  alike _ := alike
  waits := Wait.Like alike rest
  tasks := tasks
  excused _ _ := False
  late _ := False
  slow _ := False

/-- What both hold is given back by both where they are dropped or panic. -/
theorem Poll.InStep.holding {τ β : Type} {alike rest : σ → τ → Prop}
    {tasks : (σ → Task σ) → (τ → Task τ) → Prop}
    {ends later : (Pace.strict alike rest tasks).Ends α β}
    {i : (Pace.strict alike rest tasks).Index}
    {first : Poll σ α} {second : Poll τ β} {release : σ → σ} {free : τ → τ}
    (inStep : first.InStep (.strict alike rest tasks) ends i second)
    (releases : ∀ s t, rest s t → rest (release s) (free t))
    (values : ∀ i a b s t, ends i (.ok a) (.ok b) s t → later i (.ok a) (.ok b) s t)
    (panics : ∀ i p q s t, ends i (.error p) (.error q) s t →
      later i (.error p) (.error q) (release s) (free t)) :
    (first.holding release).InStep (.strict alike rest tasks) later i (second.holding free) := by
  induction inStep with
  | ready ended => exact .ready (values _ _ _ _ _ ended)
  | panic ended => exact .panic (panics _ _ _ _ _ ended)
  | waiting alike waits _ ih =>
    refine .waiting alike ⟨waits.deadline, waits.opens, ?_⟩ ih
    intro s t same
    exact releases _ _ (waits.releases s t same)
  | spawn tasks _ ih => exact .spawn tasks ih
  | excused excused => exact (excused.nowhere fun _ => id).elim
  | behind late => exact late.elim
  | ahead slow => exact slow.elim

/-- The same state, with cells that correspond. -/
def SameBeside (cells : κ → ι → Prop) (s : σ × κ) (t : σ × ι) : Prop :=
  s.1 = t.1 ∧ cells s.2 t.2

/-- One task, which knows nothing of either cell. -/
def SameTask (child : σ × κ → Task (σ × κ)) (task : σ × ι → Task (σ × ι)) : Prop :=
  ∃ own : σ → Task σ, child = (fun s => (own s.1).along s.2) ∧ task = fun t => (own t.1).along t.2

/-- Two programs that are in the same state but for their cells. -/
abbrev Pace.beside (σ : Type) (held rest : κ → ι → Prop) : Pace (σ × κ) (σ × ι) :=
  .strict (SameBeside held) (SameBeside rest) SameTask

/-- A computation that knows nothing of the cells is in step with itself. -/
theorem Poll.inStep_along {held rest : κ → ι → Prop} (frees : ∀ c d, held c d → rest c d)
    (poll : Poll σ α) {c : κ} {d : ι} (alike : held c d) :
    (poll.along c).InStep (Pace.beside σ held rest) (Pace.beside σ held rest).same ()
      (poll.along d) := by
  induction poll generalizing c d with
  | ready value state => exact .ready ⟨rfl, rfl, alike⟩
  | panic payload state => exact .panic ⟨rfl, rfl, alike⟩
  | waiting wait resume state ih =>
    refine .waiting ⟨rfl, alike⟩ ⟨rfl, ?_, ?_⟩ ?_
    · rintro ⟨s, c⟩ ⟨t, d⟩ ⟨rfl, -⟩
      rfl
    · rintro ⟨s, c⟩ ⟨t, d⟩ ⟨rfl, alike⟩
      exact ⟨rfl, frees c d alike⟩
    · rintro ⟨⟩ ⟨s, c⟩ ⟨t, d⟩ ⟨rfl, alike⟩ -
      exact ih s alike
  | spawn child rest state ih => exact .spawn ⟨child, rfl, rfl⟩ (ih state alike)

end Deferred
