import Deferred.Proofs.Boundary.Account

/-! The futures that actions are made of keep every account, and actions made of them are sound,
whatever the account is. -/

namespace Deferred

variable {σ α β ρ τ : Type}

theorem Code.bind_of_ok {code : Code σ α} {next : α → Code σ β} {state after : σ} {value : α}
    (ok : code state = (.ok value, after)) : (code >>= next) state = next value after := by
  show ExceptT.bindCont next (code state).1 (code state).2 = _
  rw [ok]
  rfl

theorem Code.bind_of_error {code : Code σ α} {next : α → Code σ β} {state after : σ}
    {payload : Payload} (error : code state = (.error payload, after)) :
    (code >>= next) state = (.error payload, after) := by
  show ExceptT.bindCont next (code state).1 (code state).2 = _
  rw [error]
  rfl

theorem Action.awaited_of_call {action : Action σ ρ} {future : Future σ ρ} {state after : σ}
    (called : action.call state = (.ok future, after)) : action.awaited state = future after := by
  show (Future.ofCode action.call state).bind _ = _
  unfold Future.ofCode
  rw [called]
  rfl

variable [Host σ] {account : Account σ}

theorem Code.Obeys.cases {code : Code σ α} (obeys : code.Obeys account) (state : σ) :
    (∃ value after, code state = (.ok value, after) ∧ account.owes none state after) ∨
      ∃ payload after, code state = (.error payload, after) ∧
        account.owes (some (.ofPanic payload)) state after := by
  have owes := obeys state
  cases answer : code state with
  | mk result after =>
    rw [answer] at owes
    cases result with
    | ok value => exact .inl ⟨value, after, rfl, owes⟩
    | error payload => exact .inr ⟨payload, after, rfl, owes⟩

protected theorem Code.Obeys.pure (value : α) : (Pure.pure value : Code σ α).Obeys account :=
  account.owes_self

theorem Code.Obeys.bind {code : Code σ α} {next : α → Code σ β} (obeys : code.Obeys account)
    (follows : ∀ value, code.Returns value → (next value).Obeys account) :
    (code >>= next).Obeys account := by
  intro state
  rcases obeys.cases state with ⟨value, after, ok, owes⟩ | ⟨payload, after, error, owes⟩
  · rw [Code.bind_of_ok ok]
    rcases (follows value ⟨state, after, ok⟩).cases after with
      ⟨last, later, ok, more⟩ | ⟨payload, later, error, more⟩
    · rw [ok]
      exact account.owes_trans owes more
    · rw [error]
      exact account.owes_trans owes more
  · rwa [Code.bind_of_error error]

namespace Code.Gives

variable {first : α → Prop} {last : β → Prop}

protected theorem pure {value : β} (fine : last value) :
    Code.Gives account last (Pure.pure value) :=
  ⟨.pure value, fun _ returned => by obtain ⟨_, _, ⟨⟩⟩ := returned; exact fine⟩

theorem bind {code : Code σ α} {next : α → Code σ β} (gives : code.Gives account first)
    (follows : ∀ value, first value → (next value).Gives account last) :
    (code >>= next).Gives account last := by
  refine ⟨gives.obeys.bind fun value returned => (follows value (gives.fine value returned)).obeys,
    fun value returned => ?_⟩
  obtain ⟨state, after, same⟩ := returned
  rcases gives.obeys.cases state with ⟨middle, between, ok, -⟩ | ⟨payload, between, error, -⟩
  · rw [Code.bind_of_ok ok] at same
    exact (follows middle (gives.fine middle ⟨state, between, ok⟩)).fine value ⟨_, after, same⟩
  · rw [Code.bind_of_error error] at same
    cases same

end Code.Gives

theorem Code.Obeys.contain {code : Code σ α} (obeys : code.Obeys account) (state : σ) :
    account.owes none state (contain code state).2 := by
  unfold Deferred.contain
  rcases obeys.cases state with ⟨value, after, ok, owes⟩ | ⟨payload, after, error, owes⟩
  · rwa [ok]
  · rw [error]
    exact account.owes_record owes

theorem Code.returns_of_contain {code : Code σ α} {state : σ} {value : α}
    (answers : (contain code state).1 = .ok value) : code.Returns value := by
  unfold contain at answers
  cases same : code state with
  | mk result after =>
    rw [same] at answers
    cases result with
    | ok other =>
      cases answers
      exact ⟨state, after, same⟩
    | error payload => cases answers

namespace Future.Keeps

protected theorem pure (value : α) : (Pure.pure value : Future σ α).Keeps account :=
  account.owes_self

protected theorem bind {future : Future σ α} {next : α → Future σ β} (keeps : future.Keeps account)
    (follows : ∀ value, (next value).Keeps account) : (future >>= next).Keeps account :=
  fun state => (keeps state).bind fun value _ after owes => (follows value after).after owes

protected theorem trace (event : Event) : (Future.trace event : Future σ Unit).Keeps account :=
  fun state => account.still_owes (account.still_trace event state)

theorem record_bind {error : Error} {next : Error → Future σ β} {start state : σ}
    (owes : account.owes (some error) start state) (follows : (next error).Keeps account) :
    Poll.Obeys account False (fun _ => none) ((Future.record error >>= next) state) start :=
  (follows _).after (account.owes_record owes)

theorem spend : (Future.spend : Future σ Unit).Keeps account :=
  fun state => account.still_owes (account.still_allow _ state)

theorem afford : (Future.afford : Future σ Unit).Keeps account := by
  intro state
  unfold Future.afford
  split
  · exact account.owes_self state
  · exact ⟨account.owes_self state, account.still_self, fun s _ => account.owes_self s⟩

theorem pay : (Future.pay : Future σ Unit).Keeps account :=
  afford.bind fun _ => spend

theorem sleep (millis : Nat) : (Future.sleep millis : Future σ Unit).Keeps account := by
  intro state
  unfold Future.sleep
  split
  · exact pay state
  · exact ⟨account.owes_self state, account.still_self, fun s _ => pay s⟩

theorem both {left : Future σ α} {right : Future σ β} (keepsLeft : left.Keeps account)
    (keepsRight : right.Keeps account) : (Future.both left right).Keeps account :=
  fun state => (keepsLeft state).beside account.still_self fun s _ => keepsRight s

theorem step {place : Place σ ρ} (obeys : place.Obeys account) (f : ρ → α × ρ) :
    (liftM (place.step f) : Future σ α).Keeps account :=
  fun state => account.still_owes (obeys _ state)

/-- What follows contained code need only be fine for the values that the code may return. -/
theorem contain_bind {code : Code σ α} {next : Except Error α → Future σ β}
    (obeys : code.Obeys account) (fine : ∀ value, code.Returns value →
      (next (.ok value)).Keeps account)
    (caught : ∀ error, (next (.error error)).Keeps account) :
    (liftM (contain code) >>= next : Future σ β).Keeps account := by
  intro state
  suffices follows : (next (contain code state).1).Keeps account from
    (follows _).after (obeys.contain state)
  cases answer : (contain code state).1 with
  | error error => exact caught error
  | ok value => exact fine value (Code.returns_of_contain answer)

theorem contained {future : Future σ α} (obeys : future.Obeys account fun _ => none) :
    future.contained.Keeps account := by
  intro state
  have caught : (future.contained state).Obeys account False _ state := (obeys state).contained
  refine Eq.mp ?_ caught
  congr 1
  funext answer
  cases answer <;> rfl

/-- An error that the future returns is recorded, and so is a panic. -/
theorem reported {ε : Type} [IsError ε] {future : Future σ (Except ε α)}
    {next : Except Error (Except ε α) → Future σ ρ} (obeys : future.Obeys account owedFor)
    (fine : ∀ value, (next (.ok (.ok value))).Keeps account)
    (returned : ∀ reason, ∃ rest, next (.ok (.error reason)) =
      Future.record (Error.new reason) >>= rest ∧ ∀ error, (rest error).Keeps account)
    (caught : ∀ error, (next (.error error)).Keeps account) :
    (future.contained >>= next).Keeps account := by
  intro state
  refine ((obeys state).contained).bind fun answer start after owes => ?_
  match answer with
  | .ok (.ok value) => exact (fine value after).after owes
  | .ok (.error reason) =>
    obtain ⟨rest, same, keeps⟩ := returned reason
    rw [same]
    exact record_bind owes (keeps _)
  | .error error => exact (caught error after).after owes

end Future.Keeps

namespace Action.Sound

theorem awaited {action : Action σ ρ} (sound : action.Sound account) :
    action.awaited.Keeps account := by
  intro state
  obtain ⟨future, after, called, owes, keeps⟩ := sound state
  have same : action.awaited state = future after := by
    show (Future.ofCode action.call state).bind _ = _
    unfold Future.ofCode
    rw [called]
    rfl
  rw [same]
  exact (keeps after).after owes

theorem call {action : Action σ ρ} (sound : action.Sound account) :
    action.call.Gives account (Future.Keeps account) := by
  refine ⟨fun state => ?_, fun future returned => ?_⟩
  · obtain ⟨future, after, called, owes, -⟩ := sound state
    rw [called]
    exact owes
  · obtain ⟨state, after, same⟩ := returned
    obtain ⟨other, later, called, -, keeps⟩ := sound state
    rw [called] at same
    cases same
    exact keeps

theorem lazily {future : Future σ ρ} (keeps : future.Keeps account) :
    (Action.lazily future).Sound account :=
  fun state => ⟨future, state, rfl, account.owes_self state, keeps⟩

/-- A call that builds a future with code of the user's. -/
theorem building {build : Code σ (Future σ α)}
    {next : Except Error (Future σ α) → Code σ (Future σ ρ)} (obeys : build.Obeys account)
    (caught : ∀ error, ∃ future, next (.error error) = pure future ∧ future.Keeps account)
    (goesOn : ∀ built, build.Returns built →
      ∃ future, next (.ok built) = pure future ∧ future.Keeps account) :
    Action.Sound account ⟨liftM (contain build) >>= next⟩ := by
  intro state
  have owes := obeys.contain state
  cases answer : contain build state with
  | mk built after =>
    rw [answer] at owes
    have called : (liftM (contain build) : Code σ _) state = (.ok built, after) := by
      show (Except.ok (contain build state).1, (contain build state).2) = _
      rw [answer]
    suffices handsBack : ∃ future, next built = pure future ∧ future.Keeps account by
      obtain ⟨future, same, keeps⟩ := handsBack
      exact ⟨future, after, (Code.bind_of_ok called).trans (by rw [same]; rfl), owes, keeps⟩
    cases built with
    | error error => exact caught error
    | ok future => exact goesOn future (Code.returns_of_contain (congrArg Prod.fst answer))

theorem lift {build : Code σ (Future σ α)}
    (gives : build.Gives account (Future.Obeys account fun _ => none)) :
    Action.Sound account (Attempt.lift build) :=
  building gives.obeys (fun _ => ⟨_, rfl, .pure _⟩) fun built returned =>
    ⟨_, rfl, (Future.Keeps.contained (gives.fine built returned)).bind fun _ => .pure _⟩

/-- Two calls, one after the other, and then both futures side by side. -/
theorem both {left : Action σ α} {right : Action σ β} {combine : α → β → Future σ ρ}
    (first : left.Sound account) (second : right.Sound account)
    (follows : ∀ a b, (combine a b).Keeps account) :
    Action.Sound account ⟨do
      let first ← left.call
      let second ← right.call
      return do
        let (a, b) ← Future.both first second
        combine a b⟩ := by
  intro state
  obtain ⟨future, after, called, owes, keeps⟩ := first state
  obtain ⟨other, later, calledNext, more, keepsNext⟩ := second after
  let joined : Future σ ρ := do
    let (a, b) ← Future.both future other
    combine a b
  refine ⟨joined, later, ?_, account.owes_trans owes more, ?_⟩
  · exact (Code.bind_of_ok called).trans (Code.bind_of_ok calledNext)
  · exact (keeps.both keepsNext).bind fun ⟨a, b⟩ => follows a b

theorem insideGate [HasFailure ρ] {gate : Place σ (Gate ρ)} {action : Action σ ρ}
    (place : gate.Obeys account) (sound : action.Sound account) (ticket : Nat) :
    (action.insideGate gate ticket).Keeps account := by
  intro state
  refine ((sound.awaited state).bind fun result start after owes => ?_).holding
    (place.modify (Gate.leave ticket))
  split
  · exact account.owes_still owes (place.modify (Gate.leave ticket) after)
  · exact account.owes_still owes (place.modify (Gate.store result) after)

theorem entered {gate : Place σ (Gate ρ)} (place : gate.Obeys account) (ticket : Nat) :
    (Action.entered gate ticket).Keeps account :=
  fun state => (Future.Keeps.pay state).holding (place.modify (Gate.leave ticket))

theorem called {gate : Place σ (Gate ρ)} (place : gate.Obeys account) (ticket : Nat) :
    (Action.called gate ticket).Keeps account :=
  fun state =>
    ⟨account.owes_self state, place.modify (Gate.leave ticket), fun s _ => entered place ticket s⟩

theorem cachedAlone [HasFailure ρ] {gate : Place σ (Gate ρ)} {action : Action σ ρ}
    (place : gate.Obeys account) (sound : action.Sound account) :
    (action.cachedAlone gate).Sound account :=
  lazily <| (Future.Keeps.step place _).bind fun
    | .settled _ => .pure _
    | .admitted ticket => (entered place ticket).bind fun _ => sound.insideGate place ticket
    | .queued ticket => (called place ticket).bind fun _ =>
        (Future.Keeps.step place _).bind fun
          | some _ => .pure _
          | none => sound.insideGate place ticket

end Action.Sound
end Deferred
