import Deferred.Proofs.Cache.AloneProgram
import Deferred.Proofs.Cache.SharedProgram
import Deferred.Proofs.Laws.Sequencing
import Deferred.Proofs.Pace.Programs
import Deferred.Proofs.Retry

/-! Attempts widen to searches without loss: whatever is done to an attempt may as well be done
after widening it. Where nothing is kept between the runs both ways are one action. A cache is
another matter, since it keeps verdicts on one side and findings on the other; nobody can tell which
one it keeps, however the runs are polled and dropped and whatever other code does meanwhile. -/

namespace Deferred

variable {σ α β ρ τ : Type}

/-! ### Actions -/

namespace Attempt

theorem widen_andThen (attempt : Attempt σ α) (next : Finding α → Future σ τ) :
    attempt.widen.andThen next = attempt.andThen fun verdict => next verdict.widen := by
  refine congrArg Action.lazily ?_
  show (attempt.awaited >>= fun verdict => pure verdict.widen) >>= next = _
  rw [bind_assoc]
  exact congrArg (attempt.awaited >>= ·) (funext fun verdict => pure_bind _ _)

theorem andThen_widen (action : Action σ ρ) (next : ρ → Future σ (Verdict α)) :
    Attempt.widen (action.andThen next) =
      action.andThen fun result => do return (← next result).widen := by
  refine congrArg Action.lazily ?_
  show (action.awaited >>= next) >>= _ = _
  exact bind_assoc _ _ _

theorem awaited_widen (attempt : Attempt σ α) (state : σ) :
    attempt.widen.awaited state =
      (attempt.awaited state).map Verdict.widen := rfl

theorem widen_orElse (attempt other : Attempt σ α) :
    (attempt.orElse other).widen = attempt.widen.orElse other.widen := by
  refine (andThen_widen _ _).trans (Eq.trans ?_ (widen_andThen _ _).symm)
  refine congrArg attempt.andThen (funext fun verdict => ?_)
  cases verdict with
  | success value => rfl
  | failure error => rfl

theorem awaited_narrow_widen (attempt : Attempt σ α) :
    attempt.widen.narrow.awaited = attempt.awaited := by
  have narrowed : attempt.widen.narrow = attempt.andThen pure := by
    refine (widen_andThen _ _).trans (congrArg attempt.andThen (funext fun verdict => ?_))
    cases verdict <;> rfl
  rw [narrowed, Action.awaited_andThen, bind_pure]

theorem widen_outcome (answer : Except Error α) :
    (Verdict.carrier (σ := σ).outcome answer).widen = Finding.carrier (σ := σ).outcome answer := by
  cases answer <;> rfl

variable [Host σ]

theorem widen_apply (f : α → Code σ β) (value : α) :
    (do return (← Verdict.carrier.apply f value).widen) = Finding.carrier.apply f value := by
  funext state
  exact congrArg (Poll.ready · (contain (f value) state).2) (widen_outcome _)

theorem widen_map (attempt : Attempt σ α) (f : α → Code σ β) :
    (attempt.map f).widen = attempt.widen.map f := by
  rw [map_eq, Search.map_eq]
  refine (andThen_widen _ _).trans (Eq.trans ?_ (widen_andThen _ _).symm)
  refine congrArg attempt.andThen (funext fun verdict => ?_)
  cases verdict with
  | success value => exact widen_apply f value
  | failure error => rfl

/-- The widening of what the code returns, after the code itself. -/
theorem widen_enter (next : α → Code σ (Attempt σ β)) (value : α) :
    (do return (← Verdict.carrier.enter next value).widen) =
      Finding.carrier.enter (fun value => do return (← next value).widen) value := by
  funext state
  rcases called : next value state with ⟨payload | following, after⟩
  · have widened : (do return (← next value).widen : Code σ (Search σ β)) state =
        (.error payload, after) := Code.bind_of_error called
    refine Eq.trans ?_ (Carrier.enter_of_error widened).symm
    exact congrArg (Poll.map Verdict.widen) (Carrier.enter_of_error called)
  · have widened : (do return (← next value).widen : Code σ (Search σ β)) state =
        (.ok following.widen, after) := Code.bind_of_ok called
    refine Eq.trans ?_ (Carrier.enter_of_ok widened).symm
    exact congrArg (Poll.map Verdict.widen) (Carrier.enter_of_ok called)

theorem widen_bind (attempt : Attempt σ α) (next : α → Code σ (Attempt σ β)) :
    (attempt.bind next).widen = attempt.widen.bind fun value => do return (← next value).widen := by
  rw [bind_eq, Search.bind_eq]
  refine (andThen_widen _ _).trans (Eq.trans ?_ (widen_andThen _ _).symm)
  refine congrArg attempt.andThen (funext fun verdict => ?_)
  cases verdict with
  | success value => exact widen_enter next value
  | failure error => rfl

/-- An attempt never ends in absence, so that the code for this case is never called. -/
theorem widen_resolve (attempt : Attempt σ α) (onSuccess : α → Code σ β)
    (onAbsent : Unit → Code σ β) (onFailure : Error → Code σ β) :
    attempt.widen.resolve onSuccess onAbsent onFailure = attempt.resolve onSuccess onFailure := by
  refine (widen_andThen _ _).trans ?_
  refine congrArg attempt.andThen (funext fun verdict => ?_)
  cases verdict with
  | success value => rfl
  | failure error => rfl

theorem map_runsFrom (attempt : Attempt σ α) (plan : RetryPlan) (left : Nat) (run : UInt64)
    (state : σ) : (attempt.runsFrom plan left run state).map Verdict.widen =
      attempt.widen.runsFrom plan left run state := by
  unfold Poll.map
  induction left generalizing run state with
  | zero =>
    rw [Retry.runsFrom_zero, Retry.runsFrom_zero, awaited_widen, Poll.map, Poll.bind_assoc,
      Poll.bind_assoc]
    refine congrArg (attempt.awaited state).bind (funext fun verdict => funext fun after => ?_)
    cases verdict <;> rfl
  | succ left ih =>
    rw [Retry.runsFrom_succ, Retry.runsFrom_succ, awaited_widen, Poll.map, Poll.bind_assoc,
      Poll.bind_assoc]
    refine congrArg (attempt.awaited state).bind (funext fun verdict => funext fun after => ?_)
    cases verdict with
    | success value => rfl
    | failure error =>
      refine (Poll.bind_assoc (Retry.paused plan run after) _ _).trans ?_
      refine congrArg (Retry.paused plan run after).bind (funext fun _ => funext fun woken => ?_)
      exact ih (run + 1) woken

theorem widen_retried (attempt : Attempt σ α) (plan : RetryPlan) :
    widen (attempt.retried plan) = attempt.widen.retried plan := by
  refine congrArg Action.lazily (funext fun state => ?_)
  exact map_runsFrom attempt plan _ 1 state

end Attempt

/-! ### Caches -/

def Latch.widen (latch : Latch (Verdict α)) : Latch (Finding α) :=
  ⟨latch.value.map Verdict.widen⟩

def Gate.widen (gate : Gate (Verdict α)) : Gate (Finding α) :=
  { gate with value := gate.value.map Verdict.widen }

def Arrival.widen : Arrival (Verdict α) → Arrival (Finding α)
  | settled verdict => .settled verdict.widen
  | admitted ticket => .admitted ticket
  | queued ticket => .queued ticket

theorem Verdict.isFailure_widen (verdict : Verdict α) :
    HasFailure.isFailure verdict.widen = HasFailure.isFailure verdict := by
  cases verdict <;> rfl

theorem Latch.offer_widen (latch : Latch (Verdict α)) (verdict : Verdict α) :
    latch.widen.offer verdict.widen =
      ((latch.offer verdict).1.widen, (latch.offer verdict).2.widen) := by
  unfold offer
  rw [verdict.isFailure_widen]
  split
  · rfl
  · cases held : latch.value <;> simp [widen, held]

namespace Gate

theorem arrive_widen (gate : Gate (Verdict α)) :
    gate.widen.arrive = (gate.arrive.1.widen, gate.arrive.2.widen) := by
  rcases gate with ⟨_ | value, _ | holder, queue, issued⟩ <;> rfl

theorem calls_widen (gate : Gate (Verdict α)) (ticket : Nat) :
    gate.widen.calls ticket = gate.calls ticket := by
  simp [calls, widen]

theorem leave_widen (gate : Gate (Verdict α)) (ticket : Nat) :
    gate.widen.leave ticket = (gate.leave ticket).widen := by
  unfold leave
  by_cases inside : gate.holder = some ticket
  · rw [if_pos inside]
    exact if_pos inside
  · rw [if_neg inside]
    exact if_neg inside

end Gate

/-- The results of a search that has been an attempt, next to those of the attempt. -/
def Pace.widened {σ τ : Type} (pace : Pace σ τ) : pace.Ends (Verdict α) (Finding α) :=
  fun i a b s t => b = a.map Verdict.widen ∧ pace.alike i s t

section
variable {σ τ : Type} {pace : Pace σ τ} {i : pace.Index} {first : Poll σ (Verdict α)}

/-- Widening what an attempt has come to makes up for the difference. -/
theorem Poll.InStep.widen {second : Poll τ (Finding α)}
    (inStep : first.InStep pace pace.widened i second) :
    (first.map Verdict.widen).InStep pace pace.same i second := by
  rw [← Poll.bind_ready second]
  refine inStep.bind ?_ ?_
  · rintro i a _ s t ⟨⟨⟩, alike⟩
    exact .ready ⟨rfl, alike⟩
  · rintro i p _ s t ⟨⟨⟩, alike⟩
    exact ⟨rfl, alike⟩

theorem Poll.InStep.widened {second : Poll τ (Verdict α)}
    (inStep : first.InStep pace pace.same i second) :
    first.InStep pace pace.widened i (second.map Verdict.widen) := by
  rw [← Poll.bind_ready first]
  refine inStep.bind ?_ ?_
  · rintro i a _ s t ⟨⟨⟩, alike⟩
    exact .ready ⟨rfl, alike⟩
  · rintro i p _ s t ⟨⟨⟩, alike⟩
    exact ⟨rfl, alike⟩

end

/-- The second latch keeps what the first one keeps, widened. -/
abbrev Latch.Widened (latch : Latch (Verdict α)) (held : Latch (Finding α)) : Prop :=
  held = latch.widen

abbrev Gate.Widened (gate : Gate (Verdict α)) (held : Gate (Finding α)) : Prop :=
  held = gate.widen

/-- An invocation that knows nothing of the caches, next to one that is widened. -/
theorem Attempt.inStep_widen {κ ι : Type} {cells : κ → ι → Prop} (attempt : Attempt σ α)
    {s : σ × κ} {t : σ × ι} (alike : SameBeside cells s t) :
    (attempt.along.awaited s).InStep (.beside σ cells cells) (Pace.widened _) ()
      ((widen attempt.along).awaited t) := by
  obtain ⟨state, cell⟩ := s
  obtain ⟨_, held⟩ := t
  obtain ⟨rfl, alike⟩ := alike
  rw [awaited_widen, Action.awaited_along, Action.awaited_along]
  exact (Poll.inStep_along (fun _ _ => id) _ alike).widened

theorem Attempt.cached_widen (attempt : Attempt σ α) (s : σ × Latch (Verdict α))
    (t : σ × Latch (Finding α)) (alike : SameBeside Latch.Widened s t) :
    ((Action.cached .own attempt.along).awaited s).InStep
      (.beside σ Latch.Widened Latch.Widened) (Pace.widened _) ()
      ((Action.cached .own (widen attempt.along)).awaited t) := by
  rw [Cached.cached_awaited, Cached.cached_awaited]
  obtain ⟨state, latch⟩ := s
  obtain ⟨_, _⟩ := t
  obtain ⟨rfl, rfl⟩ := alike
  rcases latch with ⟨_ | kept⟩
  · have empty : SameBeside (Latch.Widened (α := α)) (state, .empty) (state, .empty) := ⟨rfl, rfl⟩
    refine (attempt.inStep_widen empty).bind ?_ ?_
    · rintro _ verdict _ ⟨s, latch⟩ ⟨t, _⟩ ⟨⟨⟩, rfl, rfl⟩
      exact .ready ⟨congrArg Except.ok (congrArg Prod.fst (latch.offer_widen verdict)), rfl,
        congrArg Prod.snd (latch.offer_widen verdict)⟩
    · rintro _ payload _ s t ⟨⟨⟩, alike⟩
      exact ⟨rfl, alike⟩
  · exact .ready ⟨rfl, rfl, rfl⟩

section
variable {s : σ × Gate (Verdict α)} {t : σ × Gate (Finding α)} {ticket : Nat}

theorem Gate.modify_leave_widen (alike : SameBeside Gate.Widened s t) :
    SameBeside Gate.Widened (Place.own.modify (leave ticket) s)
      (Place.own.modify (leave ticket) t) := by
  obtain ⟨same, cells⟩ := alike
  refine ⟨same, ?_⟩
  show t.2.leave ticket = (s.2.leave ticket).widen
  rw [cells, leave_widen]

variable (attempt : Attempt σ α)

/-- Both come to corresponding results inside and settle them in corresponding ways. -/
theorem Attempt.inside_widen (alike : SameBeside Gate.Widened s t) :
    (CachedAlone.inside .own ticket (attempt.along.awaited s)).InStep
      (.beside σ Gate.Widened Gate.Widened) (Pace.widened _) ()
      (CachedAlone.inside .own ticket ((widen attempt.along).awaited t)) := by
  have settled : ((attempt.along.awaited s).bind (CachedAlone.settle .own ticket)).InStep
      (.beside σ Gate.Widened Gate.Widened) (Pace.widened _) ()
      (((widen attempt.along).awaited t).bind (CachedAlone.settle .own ticket)) := by
    refine (attempt.inStep_widen alike).bind ?_ fun _ _ _ _ _ => id
    rintro _ verdict _ s t ⟨⟨⟩, alike⟩
    unfold CachedAlone.settle
    rw [verdict.isFailure_widen]
    split
    · exact .ready ⟨rfl, Gate.modify_leave_widen alike⟩
    · obtain ⟨same, cells⟩ := alike
      refine .ready ⟨rfl, same, ?_⟩
      show t.2.store verdict.widen = (s.2.store verdict).widen
      rw [cells]
      rfl
  refine settled.holding (fun _ _ => Gate.modify_leave_widen) (fun _ _ _ _ _ => id) ?_
  rintro _ p _ s t ⟨⟨⟩, alike⟩
  exact ⟨rfl, Gate.modify_leave_widen alike⟩

theorem Attempt.enter_widen (alike : SameBeside Gate.Widened s t) :
    (CachedAlone.enter .own attempt.along ticket s).InStep (.beside σ Gate.Widened Gate.Widened)
      (Pace.widened _) () (CachedAlone.enter .own (widen attempt.along) ticket t) := by
  unfold CachedAlone.enter
  obtain ⟨state, gate⟩ := s
  obtain ⟨_, _⟩ := t
  obtain ⟨rfl, rfl⟩ := alike
  rcases gate with ⟨_ | kept, holder, queue, issued⟩
  · exact attempt.inside_widen (s := (state, ⟨none, holder, queue, issued⟩))
      (t := (state, ⟨none, holder, queue, issued⟩)) ⟨rfl, rfl⟩
  · exact .ready ⟨rfl, rfl, rfl⟩

variable [Host σ]

/-- What both do in the first turn that they can pay for. -/
theorem inStep_paid {next : Future (σ × Gate (Verdict α)) (Verdict α)}
    {follow : Future (σ × Gate (Finding α)) (Finding α)}
    (goesOn : ∀ s t, SameBeside Gate.Widened s t → (next s).InStep
      (.beside σ Gate.Widened Gate.Widened) (Pace.widened _) () (follow t))
    (alike : SameBeside Gate.Widened s t) :
    (CachedAlone.paid .own ticket next s).InStep (.beside σ Gate.Widened Gate.Widened)
      (Pace.widened _) () (CachedAlone.paid .own ticket follow t) := by
  have spent : ∀ (s : σ × Gate (Verdict α)) (t : σ × Gate (Finding α)),
      SameBeside Gate.Widened s t → SameBeside Gate.Widened (Host.spend s) (Host.spend t) := by
    rintro ⟨s, gate⟩ ⟨_, _⟩ ⟨rfl, rfl⟩
    exact ⟨rfl, rfl⟩
  have afford : Host.allowance s = Host.allowance t := congrArg Host.allowance alike.1
  rw [CachedAlone.paid_eq, CachedAlone.paid_eq, afford]
  split
  · exact goesOn _ _ (spent s t alike)
  · refine .waiting alike ⟨rfl, ?_, fun s t => Gate.modify_leave_widen⟩ ?_
    · rintro ⟨s, gate⟩ ⟨_, _⟩ ⟨rfl, rfl⟩
      rfl
    · intro _ s t alike _
      exact goesOn _ _ (spent s t alike)

end

theorem Attempt.cachedAlone_widen [Host σ] (attempt : Attempt σ α) (s : σ × Gate (Verdict α))
    (t : σ × Gate (Finding α)) (alike : SameBeside Gate.Widened s t) :
    ((Action.cachedAlone .own attempt.along).awaited s).InStep
      (.beside σ Gate.Widened Gate.Widened) (Pace.widened _) ()
      ((Action.cachedAlone .own (widen attempt.along)).awaited t) := by
  rw [CachedAlone.cachedAlone_awaited, CachedAlone.cachedAlone_awaited]
  obtain ⟨state, gate⟩ := s
  obtain ⟨_, _⟩ := t
  obtain ⟨rfl, rfl⟩ := alike
  dsimp only [Place.own]
  rw [gate.arrive_widen]
  rcases gate.arrive with ⟨kept | ticket | ticket, after⟩
  · exact .ready ⟨rfl, rfl, rfl⟩
  · exact inStep_paid (fun _ _ => attempt.inside_widen) ⟨rfl, rfl⟩
  · refine .waiting ⟨rfl, rfl⟩ ⟨rfl, ?_, fun _ _ => Gate.modify_leave_widen⟩ ?_
    · rintro ⟨s, gate⟩ ⟨_, _⟩ ⟨rfl, rfl⟩
      exact (gate.calls_widen ticket).symm
    · intro _ s t alike _
      exact inStep_paid (fun _ _ => attempt.enter_widen) alike

/-! ### The laws -/

/-- Widening first and widening last come to the same. In a program with a cache the runs, the tasks
that they spawn and the state of all other code are the same after every move; an attempt may count
in that state how often it is invoked. -/
structure Widening (σ : Type) [Host σ] : Prop where
  map : ∀ {α β : Type} (attempt : Attempt σ α) (f : α → Code σ β),
    (attempt.map f).widen = attempt.widen.map f
  bind : ∀ {α β : Type} (attempt : Attempt σ α) (next : α → Code σ (Attempt σ β)),
    (attempt.bind next).widen = attempt.widen.bind fun value => do return (← next value).widen
  orElse : ∀ {α : Type} (attempt other : Attempt σ α),
    (attempt.orElse other).widen = attempt.widen.orElse other.widen
  retried : ∀ {α : Type} (attempt : Attempt σ α) (plan : RetryPlan),
    Attempt.widen (attempt.retried plan) = attempt.widen.retried plan
  resolve : ∀ {α β : Type} (attempt : Attempt σ α) (onSuccess : α → Code σ β)
    (onAbsent : Unit → Code σ β) (onFailure : Error → Code σ β),
    attempt.resolve onSuccess onFailure = attempt.widen.resolve onSuccess onAbsent onFailure
  cached : ∀ {α : Type} (attempt : Attempt σ α) (start : σ) (moves : List (Move σ)),
    Scene.Alike
      (.play (Attempt.widen (attempt.along.cached .own)) (.opened (start, .empty))
        (moves.map .outside))
      (.play ((Attempt.widen attempt.along).cached .own) (.opened (start, .empty))
        (moves.map .outside))
  cachedAlone : ∀ {α : Type} (attempt : Attempt σ α) (start : σ) (moves : List (Move σ)),
    Scene.Alike
      (.play (Attempt.widen (attempt.along.cachedAlone .own)) (.opened (start, .fresh))
        (moves.map .outside))
      (.play ((Attempt.widen attempt.along).cachedAlone .own) (.opened (start, .fresh))
        (moves.map .outside))
  narrow : ∀ {α : Type} (attempt : Attempt σ α), attempt.widen.narrow.awaited = attempt.awaited

theorem widening_of_attempts [Host σ] : Widening σ where
  map := Attempt.widen_map
  bind := Attempt.widen_bind
  orElse := Attempt.widen_orElse
  retried := Attempt.widen_retried
  resolve attempt onSuccess onAbsent onFailure :=
    (attempt.widen_resolve onSuccess onAbsent onFailure).symm
  cached attempt _ moves :=
    Scene.play_alike (fun s t alike => (attempt.cached_widen s t alike).widen) rfl moves
  cachedAlone attempt _ moves :=
    Scene.play_alike (fun s t alike => (attempt.cachedAlone_widen s t alike).widen) rfl moves
  narrow := Attempt.awaited_narrow_widen

end Deferred
