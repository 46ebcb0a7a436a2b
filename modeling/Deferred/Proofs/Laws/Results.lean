import Deferred.Proofs.Laws.Pipelines

/-! Operations on results, and the operations on actions that go by the same names. The former
change a result at once; the latter change the result of every run, in the run. As long as the code
that they are given does not panic, running an action commutes with all of them: nobody can tell
whether it is the action that has been changed or what its run has come to. So a chain of operations
may be done on either side, and change sides anywhere.

A result that is converted to another form and back is what it was. -/

namespace Deferred

variable {σ α β ρ τ υ : Type}

/-! ### One operation -/

inductive Operation (σ : Type) : Type → Type → Type 1 where
  | map {α β : Type} (f : α → Code σ β) : Operation σ (Verdict α) (Verdict β)
  | mapError {α : Type} (f : Error → Code σ Error) : Operation σ (Verdict α) (Verdict α)
  | bind {α β : Type} (next : α → Code σ (Verdict β)) : Operation σ (Verdict α) (Verdict β)
  | resolve {α β : Type} (onSuccess : α → Code σ β) (onFailure : Error → Code σ β) :
      Operation σ (Verdict α) (Verdict β)
  | widen {α : Type} : Operation σ (Verdict α) (Finding α)
  | mapFound {α β : Type} (f : α → Code σ β) : Operation σ (Finding α) (Finding β)
  | bindFound {α β : Type} (next : α → Code σ (Finding β)) : Operation σ (Finding α) (Finding β)
  | resolveFinding {α β : Type} (onFound : α → Code σ β) (onAbsent : Unit → Code σ β)
      (onFailed : Error → Code σ β) : Operation σ (Finding α) (Verdict β)
  | narrow {α : Type} : Operation σ (Finding α) (Verdict α)

namespace Operation

/-- Done to an action, that is to the result of each of its runs. -/
def deferred [Host σ] : Operation σ ρ τ → Action σ ρ → Action σ τ
  | map f, attempt => Attempt.map attempt f
  | mapError f, attempt => Attempt.mapError attempt f
  | bind next, attempt => Attempt.bind attempt fun a => do return .ofVerdict (← next a)
  | resolve onSuccess onFailure, attempt => Attempt.resolve attempt onSuccess onFailure
  | widen, attempt => Attempt.widen attempt
  | mapFound f, search => Search.map search f
  | bindFound next, search => Search.bind search fun a => do return .ofFinding (← next a)
  | resolveFinding onFound onAbsent onFailed, search =>
      Search.resolve search onFound onAbsent onFailed
  | narrow, search => Search.narrow search

/-- Done to a result. -/
def atOnce : Operation σ ρ τ → ρ → Code σ τ
  | map f, verdict => verdict.mapM f
  | mapError f, verdict => verdict.mapErrorM f
  | bind next, verdict => verdict.bindM next
  | resolve onSuccess onFailure, verdict => do
      return .success (← verdict.handle onSuccess onFailure)
  | widen, verdict => return verdict.widen
  | mapFound f, finding => finding.mapM f
  | bindFound next, finding => finding.bindM next
  | resolveFinding onFound onAbsent onFailed, finding => do
      return .success (← finding.handle onFound onAbsent onFailed)
  | narrow, finding => return finding.narrow

/-- No code that the operation is given panics. -/
def NeverPanics : Operation σ ρ τ → Prop
  | map f => ∀ a, (f a).NeverPanics
  | mapError f => ∀ error, (f error).NeverPanics
  | bind next => ∀ a, (next a).NeverPanics
  | resolve onSuccess onFailure =>
      (∀ a, (onSuccess a).NeverPanics) ∧ ∀ error, (onFailure error).NeverPanics
  | widen => True
  | mapFound f => ∀ a, (f a).NeverPanics
  | bindFound next => ∀ a, (next a).NeverPanics
  | resolveFinding onFound onAbsent onFailed =>
      (∀ a, (onFound a).NeverPanics) ∧ (onAbsent ()).NeverPanics ∧
        ∀ error, (onFailed error).NeverPanics
  | narrow => True

end Operation

/-- Code that never panics goes on with its value, be it contained or not. -/
theorem Future.caught_then_eq_ofCode [Host σ] {code : Code σ α} (never : code.NeverPanics)
    {rest : Except Error α → Future σ β} {next : α → Code σ β}
    (goesOn : ∀ value, rest (.ok value) = ofCode (next value)) :
    caught code >>= rest = ofCode (code >>= next) := by
  funext state
  obtain ⟨value, after, ok⟩ := never state
  have follows : ofCode (code >>= next) state = ofCode (next value) after := by
    rw [ofCode, Code.bind_of_ok ok]
    rfl
  rw [caught_then, contain, ok, follows]
  exact congrFun (goesOn value) after

/-- Entering what only has a result is making that result. -/
theorem Carrier.enter_result [Host σ] {F : Type → Type} {carrier : Carrier σ F}
    {next : α → Code σ (F β)} {a : α} (never : (next a).NeverPanics) :
    carrier.enter (fun a => do return .lazily (pure (← next a))) a = Future.ofCode (next a) := by
  funext state
  obtain ⟨result, after, ok⟩ := never state
  have called : (do return .lazily (pure (← next a)) : Code σ (Action σ (F β))) state =
      (.ok (.lazily (pure result)), after) := Code.bind_of_ok ok
  refine (enter_of_ok called).trans ?_
  rw [Future.ofCode, ok]
  rfl

namespace Attempt

variable [Host σ] (attempt : Attempt σ α)

theorem awaited_map {f : α → Code σ β} (never : ∀ a, (f a).NeverPanics) :
    (attempt.map f).awaited =
      attempt.awaited >>= fun verdict => Future.ofCode (verdict.mapM f) := by
  refine bind_congr (x := attempt.awaited) fun verdict => ?_
  cases verdict with
  | success a => exact Future.caught_then_eq_ofCode (never a) fun _ => rfl
  | failure error => rfl

theorem awaited_mapError {f : Error → Code σ Error} (never : ∀ error, (f error).NeverPanics) :
    (attempt.mapError f).awaited =
      attempt.awaited >>= fun verdict => Future.ofCode (verdict.mapErrorM f) := by
  refine bind_congr (x := attempt.awaited) fun verdict => ?_
  cases verdict with
  | success a => rfl
  | failure error => exact Future.caught_then_eq_ofCode (never error) fun _ => rfl

theorem awaited_bind_ofVerdict {next : α → Code σ (Verdict β)}
    (never : ∀ a, (next a).NeverPanics) :
    (attempt.bind fun a => do return .ofVerdict (← next a)).awaited =
      attempt.awaited >>= fun verdict => Future.ofCode (verdict.bindM next) := by
  rw [bind_eq]
  refine bind_congr (x := attempt.awaited) fun verdict => ?_
  cases verdict with
  | success a => exact Carrier.enter_result (never a)
  | failure error => rfl

theorem awaited_resolve {onSuccess : α → Code σ β} {onFailure : Error → Code σ β}
    (success : ∀ a, (onSuccess a).NeverPanics) (failure : ∀ error, (onFailure error).NeverPanics) :
    (attempt.resolve onSuccess onFailure).awaited = attempt.awaited >>= fun verdict =>
      Future.ofCode (do return .success (← verdict.handle onSuccess onFailure)) := by
  refine bind_congr (x := attempt.awaited) fun verdict => ?_
  cases verdict with
  | success a => exact Future.caught_then_eq_ofCode (success a) fun _ => rfl
  | failure error => exact Future.caught_then_eq_ofCode (failure error) fun _ => rfl

end Attempt

namespace Search

variable [Host σ] (search : Search σ α)

theorem awaited_map {f : α → Code σ β} (never : ∀ a, (f a).NeverPanics) :
    (search.map f).awaited = search.awaited >>= fun finding => Future.ofCode (finding.mapM f) := by
  refine bind_congr (x := search.awaited) fun finding => ?_
  cases finding with
  | found a => exact Future.caught_then_eq_ofCode (never a) fun _ => rfl
  | absent => rfl
  | failed error => rfl

theorem awaited_bind_ofFinding {next : α → Code σ (Finding β)}
    (never : ∀ a, (next a).NeverPanics) :
    (search.bind fun a => do return .ofFinding (← next a)).awaited =
      search.awaited >>= fun finding => Future.ofCode (finding.bindM next) := by
  rw [bind_eq]
  refine bind_congr (x := search.awaited) fun finding => ?_
  cases finding with
  | found a => exact Carrier.enter_result (never a)
  | absent => rfl
  | failed error => rfl

theorem awaited_resolve {onFound : α → Code σ β} {onAbsent : Unit → Code σ β}
    {onFailed : Error → Code σ β} (found : ∀ a, (onFound a).NeverPanics)
    (absent : (onAbsent ()).NeverPanics) (failed : ∀ error, (onFailed error).NeverPanics) :
    (search.resolve onFound onAbsent onFailed).awaited = search.awaited >>= fun finding =>
      Future.ofCode (do return .success (← finding.handle onFound onAbsent onFailed)) := by
  refine bind_congr (x := search.awaited) fun finding => ?_
  cases finding with
  | found a => exact Future.caught_then_eq_ofCode (found a) fun _ => rfl
  | absent => exact Future.caught_then_eq_ofCode absent fun _ => rfl
  | failed error => exact Future.caught_then_eq_ofCode (failed error) fun _ => rfl

end Search

/-- It is the same to change an action and to change what its run has come to. -/
theorem Operation.awaited_deferred [Host σ] {operation : Operation σ ρ τ}
    (never : operation.NeverPanics) (action : Action σ ρ) :
    (operation.deferred action).awaited =
      action.awaited >>= fun result => Future.ofCode (operation.atOnce result) := by
  cases operation with
  | map f => exact Attempt.awaited_map action never
  | mapError f => exact Attempt.awaited_mapError action never
  | bind next => exact Attempt.awaited_bind_ofVerdict action never
  | resolve onSuccess onFailure => exact Attempt.awaited_resolve action never.1 never.2
  | widen => rfl
  | mapFound f => exact Search.awaited_map action never
  | bindFound next => exact Search.awaited_bind_ofFinding action never
  | resolveFinding onFound onAbsent onFailed =>
    exact Search.awaited_resolve action never.1 never.2.1 never.2.2
  | narrow => rfl

/-- The operation done outside: to what a run of the action has come to. -/
def Operation.outside (operation : Operation σ ρ τ) (action : Action σ ρ) : Action σ τ :=
  .lazily do
    let result ← action.awaited
    operation.atOnce result

/-! ### Chains of operations -/

inductive Chain (σ : Type) : Type → Type → Type 1 where
  | nil {ρ : Type} : Chain σ ρ ρ
  | cons {ρ τ υ : Type} (operation : Operation σ ρ τ) (later : Chain σ τ υ) : Chain σ ρ υ

namespace Chain

def NeverPanics : {ρ τ : Type} → Chain σ ρ τ → Prop
  | _, _, nil => True
  | _, _, cons operation later => operation.NeverPanics ∧ later.NeverPanics

/-- All operations on a result, one after the other. -/
def atOnce : {ρ τ : Type} → Chain σ ρ τ → ρ → Code σ τ
  | _, _, nil, result => return result
  | _, _, cons operation later, result => do later.atOnce (← operation.atOnce result)

/-- All operations on an action. Those at the positions that are told are done outside, to what has
been made of the action so far, and the others are not. -/
def mixed [Host σ] : {ρ τ : Type} → Chain σ ρ τ → (Nat → Bool) → Action σ ρ → Action σ τ
  | _, _, nil, _, action => action
  | _, _, cons operation later, outside, action =>
      later.mixed (fun position => outside (position + 1))
        (if outside 0 then operation.outside action else operation.deferred action)

/-- Wherever the operations are done, they are done to the result. -/
theorem awaited_mixed [Host σ] {chain : Chain σ ρ τ} (never : chain.NeverPanics)
    (outside : Nat → Bool) (action : Action σ ρ) :
    (chain.mixed outside action).awaited =
      action.awaited >>= fun result => Future.ofCode (chain.atOnce result) := by
  induction chain generalizing outside with
  | nil => exact (bind_pure action.awaited).symm
  | cons operation later ih =>
    have first : (if outside 0 then operation.outside action
        else operation.deferred action).awaited =
          action.awaited >>= fun result => Future.ofCode (operation.atOnce result) := by
      split
      · rfl
      · exact Operation.awaited_deferred never.1 action
    calc
      _ = Action.awaited _ >>= fun result => Future.ofCode (later.atOnce result) :=
        ih never.2 _ _
      _ = (action.awaited >>= fun result => Future.ofCode (operation.atOnce result)) >>=
          fun result => Future.ofCode (later.atOnce result) := congrArg (· >>= _) first
      _ = action.awaited >>= fun result => Future.ofCode (operation.atOnce result) >>=
          fun result => Future.ofCode (later.atOnce result) := bind_assoc _ _ _
      _ = _ := congrArg (action.awaited >>= ·)
        (funext fun result => (Future.ofCode_bind (operation.atOnce result) later.atOnce).symm)

end Chain

/-! ### Both sides -/

/-- Running commutes with the operations on results: the trees are the same, and with them the
effects, the waits and the calls of all the code. -/
structure Commuting (σ : Type) [Host σ] : Prop where
  operation : ∀ {ρ τ : Type} (operation : Operation σ ρ τ) (action : Action σ ρ),
    operation.NeverPanics → (operation.deferred action).awaited =
      action.awaited >>= fun result => Future.ofCode (operation.atOnce result)
  chain : ∀ {ρ τ : Type} (chain : Chain σ ρ τ) (outside : Nat → Bool) (action : Action σ ρ),
    chain.NeverPanics → (chain.mixed outside action).awaited =
      action.awaited >>= fun result => Future.ofCode (chain.atOnce result)

/-- For functions without effects, the operations on results are functions as well. -/
structure WithoutEffects (σ : Type) : Prop where
  map : ∀ {α β : Type} (f : α → β) (verdict : Verdict α),
    (verdict.mapM fun a => pure (f a) : Code σ (Verdict β)) = pure (verdict.map f)
  mapError : ∀ {α : Type} (f : Error → Error) (verdict : Verdict α),
    (verdict.mapErrorM fun error => pure (f error) : Code σ (Verdict α)) = pure (verdict.mapError f)
  bind : ∀ {α β : Type} (next : α → Verdict β) (verdict : Verdict α),
    (verdict.bindM fun a => pure (next a) : Code σ (Verdict β)) = pure (verdict.bind next)
  mapFound : ∀ {α β : Type} (f : α → β) (finding : Finding α),
    (finding.mapM fun a => pure (f a) : Code σ (Finding β)) = pure (finding.map f)
  bindFound : ∀ {α β : Type} (next : α → Finding β) (finding : Finding α),
    (finding.bindM fun a => pure (next a) : Code σ (Finding β)) = pure (finding.bind next)

/-- Conversions of results lose nothing on the way there and back. -/
structure Converting : Prop where
  narrow_widen : ∀ {α : Type} (verdict : Verdict α), verdict.widen.narrow = verdict
  verdict : ∀ {α : Type} (verdict : Verdict α), .ofExcept verdict.toExcept = verdict
  toVerdict : ∀ {α : Type} (answer : Except Error α), (Verdict.ofExcept answer).toExcept = answer
  finding : ∀ {α : Type} (finding : Finding α), .ofExcept finding.toExcept = finding
  toFinding : ∀ {α : Type} (answer : Except Error (Option α)),
    (Finding.ofExcept answer).toExcept = answer

theorem withoutEffects : WithoutEffects σ where
  map _ verdict := by cases verdict <;> rfl
  mapError _ verdict := by cases verdict <;> rfl
  bind _ verdict := by cases verdict <;> rfl
  mapFound _ finding := by cases finding <;> rfl
  bindFound _ finding := by cases finding <;> rfl

theorem converting : Converting where
  narrow_widen verdict := by cases verdict <;> rfl
  verdict verdict := by cases verdict <;> rfl
  toVerdict answer := by cases answer <;> rfl
  finding finding := by cases finding <;> rfl
  toFinding answer := by rcases answer with error | _ | value <;> rfl

theorem running_commutes_with_operations [Host σ] :
    Commuting σ ∧ WithoutEffects σ ∧ Converting :=
  ⟨⟨fun _ action never => Operation.awaited_deferred never action,
    fun _ outside action never => Chain.awaited_mixed never outside action⟩,
    withoutEffects, converting⟩

/-- Counts twice as an attempt and once as a search. -/
def detour : Chain (Notebook Nat) (Verdict Nat) (Verdict Nat) :=
  .cons (.map tallied) <| .cons .widen <| .cons (.mapFound tallied) <| .cons .narrow <|
    .cons (.resolve tallied fun _ => pure 0) .nil

/-- The second and the fourth operation of the detour are done outside. -/
theorem detour_commutes :
    detour.NeverPanics ∧ ∃ inputs last,
      ((detour.mixed (fun position => position % 2 == 1) (lingering 2)).awaited
        (.opened 0)).Answers inputs (.success 5) last ∧ last.cell = 3 := by
  have counts : ∀ n, (tallied n).NeverPanics := fun n book => ⟨n + 1, _, rfl⟩
  have never : detour.NeverPanics :=
    ⟨counts, trivial, counts, trivial, ⟨counts, fun _ => .pure 0⟩, trivial⟩
  refine ⟨never, [.opened 0], { Notebook.opened 0 with cell := 3 }, ?_, rfl⟩
  rw [running_commutes_with_operations.1.chain detour _ (lingering 2) never]
  exact (lingering_answers 2 (.opened 0) (.opened 0)).bind_at_once .ready

end Deferred
