import Deferred.Merge

/-! Keeping account of errors. An account says of two states of a program what it owes from the one
to the other: nothing, if every error that was raised in between has been recorded, or the one
error that was raised last. What that means is left open here, and so is whether anything is counted
at all; only the laws matter that let accounts be added up along a run.

A computation obeys an account if each of its polls owes nothing when it stops, but for what its
answer or its panic is owed for. Code of the user's may panic; what the library makes of it may
not. A task that is spawned keeps account of itself: the input of a merge owes the panic with which
it checks out of the hub, and the supervisor pays for all of them. -/

namespace Deferred

structure Account (σ : Type) [Host σ] where
  owes : Option Error → σ → σ → Prop
  still : σ → σ → Prop
  owes_self : ∀ state, owes none state state
  owes_trans : ∀ {due first middle last}, owes none first middle → owes due middle last →
    owes due first last
  owes_still : ∀ {due first middle last}, owes due first middle → still middle last →
    owes due first last
  still_self : ∀ state, still state state
  still_trans : ∀ {first middle last}, still first middle → still middle last → still first last
  still_trace : ∀ event state, still state (Host.trace event state)
  still_allow : ∀ count state, still state (Host.allow count state)
  owes_record : ∀ {error first last}, owes (some error) first last →
    owes none first (Host.record error last)

/-- The account that counts nothing. -/
def Account.free {σ : Type} [Host σ] : Account σ where
  owes _ _ _ := True
  still _ _ := True
  owes_self _ := trivial
  owes_trans _ _ := trivial
  owes_still _ _ := trivial
  still_self _ := trivial
  still_trans _ _ := trivial
  still_trace _ _ := trivial
  still_allow _ _ := trivial
  owes_record _ := trivial

variable {σ α β : Type}

/-- The code may return this value. -/
def Code.Returns (code : Code σ α) (value : α) : Prop :=
  ∃ state after, code state = (.ok value, after)

/-- What a returned error is owed for: the error that it becomes. -/
def owedFor {ε : Type} [IsError ε] : Except ε α → Option Error
  | .ok _ => none
  | .error reason => some (Error.new reason)

section
variable [Host σ]

def Code.Obeys (account : Account σ) (code : Code σ α) : Prop :=
  ∀ state, match code state with
    | (.ok _, after) => account.owes none state after
    | (.error payload, after) => account.owes (some (.ofPanic payload)) state after

/-- Code that obeys, and whose values are fine. -/
structure Code.Gives (account : Account σ) (fine : α → Prop) (code : Code σ α) : Prop where
  obeys : code.Obeys account
  fine : ∀ value, code.Returns value → fine value

def Place.Obeys {ρ : Type} (account : Account σ) (place : Place σ ρ) : Prop :=
  ∀ value state, account.still state (place.set value state)

namespace Account

variable (account : Account σ)

/-- An input ends owing what it checks out with. -/
def ChecksOut (hub : Place σ (Hub α)) (index : Nat) (start last : σ) : Prop :=
  ∃ payload before, account.owes (payload.map .ofPanic) start before ∧
    last = hub.modify (Hub.checkOut index payload) before

/-- A supervisor ends by what it does when all inputs have ended. -/
def WrapsUp (hub : Place σ (Hub α)) (inputs : Nat) (start last : σ) : Prop :=
  ∃ before, account.owes none start before ∧ last = Merge.wrapUp hub inputs before

/-- How a task may end: owing nothing, or as a task of a merge. -/
inductive Ends : (σ → σ → Prop) → Prop where
  | own : Ends (account.owes none)
  | input {α : Type} {hub : Place σ (Hub α)} (apart : hub.Obeys account) (index : Nat) :
      Ends (account.ChecksOut hub index)
  | supervisor {α : Type} {hub : Place σ (Hub α)} (apart : hub.Obeys account) (inputs : Nat) :
      Ends (account.WrapsUp hub inputs)

end Account

/-- From the start of the poll that has come to this point. Nothing is owed where the task stops. -/
def Task.Obeys (account : Account σ) : Task σ → (σ → σ → Prop) → σ → Prop
  | .done state, ends, start => ends start state
  | .waiting wait resume state, ends, start =>
      account.owes none start state ∧
        ∀ s, wait.opens s = true → (resume s).Obeys account ends s
  | .spawn child rest state, ends, start =>
      account.owes none start state ∧
        (∃ other, account.Ends other ∧ ∀ s, (child s).Obeys account other s) ∧
        ∀ s, (rest s).Obeys account ends s

def Account.Minds (account : Account σ) (child : σ → Task σ) : Prop :=
  ∃ ends, account.Ends ends ∧ ∀ s, (child s).Obeys account ends s

/-- Like a task, and giving back what the computation holds where it stops counts for nothing. -/
def Poll.Obeys (account : Account σ) (escapes : Prop) (due : α → Option Error) :
    Poll σ α → σ → Prop
  | .ready value state, start => account.owes (due value) start state
  | .panic payload state, start => escapes ∧ account.owes (some (.ofPanic payload)) start state
  | .waiting wait resume state, start =>
      account.owes none start state ∧ (∀ s, account.still s (wait.release s)) ∧
        ∀ s, wait.opens s = true → (resume s).Obeys account escapes due s
  | .spawn child rest state, start =>
      account.owes none start state ∧ account.Minds child ∧
        ∀ s, (rest s).Obeys account escapes due s

def Items.Obeys (account : Account σ) : Items σ α → σ → Prop
  | .item _ rest release state, start =>
      account.owes none start state ∧ (∀ s, account.still s (release s)) ∧
        ∀ s, (rest s).Obeys account s
  | .ended state, start => account.owes none start state
  | .panic payload release state, start =>
      account.owes (some (.ofPanic payload)) start state ∧ ∀ s, account.still s (release s)
  | .waiting wait resume state, start =>
      account.owes none start state ∧ (∀ s, account.still s (wait.release s)) ∧
        ∀ s, wait.opens s = true → (resume s).Obeys account s
  | .spawn child rest state, start =>
      account.owes none start state ∧ account.Minds child ∧ ∀ s, (rest s).Obeys account s

def Flow.Obeys (account : Account σ) (flow : Flow σ α) : Prop :=
  ∀ state, (flow state).Obeys account state

/-- A future of the user's, whose answer may be owed for. -/
def Future.Obeys (account : Account σ) (due : α → Option Error) (future : Future σ α) : Prop :=
  ∀ state, (future state).Obeys account True due state

/-- A future of the library's: it never panics and owes nothing. -/
def Future.Keeps (account : Account σ) (future : Future σ α) : Prop :=
  ∀ state, (future state).Obeys account False (fun _ => none) state

/-- The call hands back a future whatever happens in it. -/
def Action.Sound {ρ : Type} (account : Account σ) (action : Action σ ρ) : Prop :=
  ∀ state, ∃ future after, action.call state = (.ok future, after) ∧
    account.owes none state after ∧ future.Keeps account

/-- A feed may panic, when it is started and later on: the sinks are what contains it. -/
def Feed.Sound (account : Account σ) (feed : Feed σ α) : Prop :=
  feed.start.Gives account (Flow.Obeys account)

end

variable [Host σ] {account : Account σ} {escapes : Prop}

theorem Account.still_owes {first last : σ} (still : account.still first last) :
    account.owes none first last :=
  account.owes_still (account.owes_self first) still

theorem Place.Obeys.modify {ρ : Type} {place : Place σ ρ} (obeys : place.Obeys account)
    (f : ρ → ρ) (state : σ) : account.still state (place.modify f state) :=
  obeys _ state

namespace Poll.Obeys

variable {due : α → Option Error} {start : σ}

theorem after {poll : Poll σ α} {later : σ} (owes : account.owes none start later)
    (obeys : poll.Obeys account escapes due later) : poll.Obeys account escapes due start := by
  cases poll with
  | ready value state => exact account.owes_trans owes obeys
  | panic payload state => exact ⟨obeys.1, account.owes_trans owes obeys.2⟩
  | waiting wait resume state => exact ⟨account.owes_trans owes obeys.1, obeys.2⟩
  | spawn child rest state => exact ⟨account.owes_trans owes obeys.1, obeys.2⟩

theorem bind {poll : Poll σ α} {next : α → σ → Poll σ β} {later : β → Option Error}
    (obeys : poll.Obeys account escapes due start)
    (follows : ∀ value start state, account.owes (due value) start state →
      (next value state).Obeys account escapes later start) :
    (poll.bind next).Obeys account escapes later start := by
  induction poll generalizing start with
  | ready value state => exact follows value start state obeys
  | panic payload state => exact obeys
  | waiting wait resume state ih =>
    exact ⟨obeys.1, obeys.2.1, fun s opens => ih s (obeys.2.2 s opens)⟩
  | spawn child rest state ih => exact ⟨obeys.1, obeys.2.1, fun s => ih s (obeys.2.2 s)⟩

/-- A panic that is caught is recorded at once, and then nothing is owed for it. -/
theorem contained {poll : Poll σ α} (obeys : poll.Obeys account True due start) :
    poll.contained.Obeys account escapes
      (fun | .ok value => due value | .error _ => none) start := by
  induction poll generalizing start with
  | ready value state => exact obeys
  | panic payload state => exact account.owes_record obeys.2
  | waiting wait resume state ih =>
    exact ⟨obeys.1, obeys.2.1, fun s opens => ih s (obeys.2.2 s opens)⟩
  | spawn child rest state ih => exact ⟨obeys.1, obeys.2.1, fun s => ih s (obeys.2.2 s)⟩

theorem holding {poll : Poll σ α} {release : σ → σ}
    (obeys : poll.Obeys account escapes due start)
    (releases : ∀ s, account.still s (release s)) :
    (poll.holding release).Obeys account escapes due start := by
  induction poll generalizing start with
  | ready value state => exact obeys
  | panic payload state => exact ⟨obeys.1, account.owes_still obeys.2 (releases state)⟩
  | waiting wait resume state ih =>
    exact ⟨obeys.1, fun s => account.still_trans (obeys.2.1 s) (releases _),
      fun s opens => ih s (obeys.2.2 s opens)⟩
  | spawn child rest state ih => exact ⟨obeys.1, obeys.2.1, fun s => ih s (obeys.2.2 s)⟩

end Poll.Obeys

namespace Poll.Obeys

variable {start : σ}

theorem map {poll : Poll σ α} (f : α → β)
    (obeys : poll.Obeys account escapes (fun _ => none) start) :
    (poll.map f).Obeys account escapes (fun _ => none) start :=
  obeys.bind fun _ _ _ owes => owes

theorem besideWaiting {wait : Wait σ} {left : σ → Poll σ α}
    {leftFirst : σ → Wait σ → (σ → Poll σ β) → Poll σ (α × β)} {right : Poll σ β}
    (releases : ∀ s, account.still s (wait.release s))
    (leftObeys : ∀ s, wait.opens s = true → (left s).Obeys account escapes (fun _ => none) s)
    (firstObeys : ∀ s other right, wait.opens s = true →
      (∀ s, account.still s (other.release s)) →
      (∀ s, other.opens s = true → (right s).Obeys account escapes (fun _ => none) s) →
      (leftFirst s other right).Obeys account escapes (fun _ => none) s)
    (obeys : right.Obeys account escapes (fun _ => none) start) :
    (Poll.besideWaiting wait left leftFirst right).Obeys account escapes (fun _ => none) start := by
  induction right generalizing start with
  | ready value state => exact ⟨obeys, releases, fun s opens => (leftObeys s opens).map _⟩
  | panic payload state => exact ⟨obeys.1, account.owes_still obeys.2 (releases state)⟩
  | spawn child rest state ih => exact ⟨obeys.1, obeys.2.1, fun s => ih s (obeys.2.2 s)⟩
  | waiting other resume state ih =>
    refine ⟨obeys.1, fun s => account.still_trans (releases s) (obeys.2.1 _), fun s opens => ?_⟩
    dsimp only
    split
    next leftOpens => exact firstObeys s other resume leftOpens obeys.2.1 obeys.2.2
    next leftWaits =>
      have rightOpens : other.opens s = true := by simpa [Wait.either, leftWaits] using opens
      exact ih s (obeys.2.2 s rightOpens)

theorem beside {left : Poll σ α} {other : Wait σ} {right : σ → Poll σ β}
    (obeys : left.Obeys account escapes (fun _ => none) start)
    (releases : ∀ s, account.still s (other.release s))
    (rightObeys : ∀ s, other.opens s = true →
      (right s).Obeys account escapes (fun _ => none) s) :
    (left.beside other right).Obeys account escapes (fun _ => none) start := by
  induction left generalizing start other right with
  | ready value state =>
    unfold Poll.beside
    split
    next opens => exact ((rightObeys state opens).map _).after obeys
    next => exact ⟨obeys, releases, fun s opens => (rightObeys s opens).map _⟩
  | panic payload state => exact ⟨obeys.1, account.owes_still obeys.2 (releases state)⟩
  | spawn child rest state ih =>
    exact ⟨obeys.1, obeys.2.1, fun s => ih s (obeys.2.2 s) releases rightObeys⟩
  | waiting wait resume state ih =>
    have leftFirst : ∀ s other (right : σ → Poll σ β), wait.opens s = true →
        (∀ s, account.still s (other.release s)) →
        (∀ s, other.opens s = true → (right s).Obeys account escapes (fun _ => none) s) →
        ((resume s).beside other right).Obeys account escapes (fun _ => none) s :=
      fun s _ _ opens => ih s (obeys.2.2 s opens)
    have whenRight := fun s opens =>
      besideWaiting obeys.2.1 obeys.2.2 leftFirst (rightObeys s opens)
    unfold Poll.beside
    dsimp only
    split
    next opens => exact (whenRight state opens).after obeys.1
    next =>
      refine ⟨obeys.1, fun s => account.still_trans (obeys.2.1 s) (releases _), fun s opens => ?_⟩
      dsimp only
      split
      next leftOpens => exact leftFirst s other right leftOpens releases rightObeys
      next leftWaits =>
        have rightOpens : other.opens s = true := by simpa [Wait.either, leftWaits] using opens
        exact whenRight s rightOpens

/-- A computation that never panics, run to its end as a task. -/
theorem toTask {poll : Poll σ α} {finish : α → σ → σ} {ends : σ → σ → Prop}
    (obeys : poll.Obeys account False (fun _ => none) start)
    (finishes : ∀ {start} value last, account.owes none start last →
      ends start (finish value last)) :
    (poll.toTask finish).Obeys account ends start := by
  induction poll generalizing start with
  | ready value state => exact finishes value state obeys
  | panic payload state => exact obeys.1.elim
  | waiting wait resume state ih => exact ⟨obeys.1, fun s opens => ih s (obeys.2.2 s opens)⟩
  | spawn child rest state ih => exact ⟨obeys.1, obeys.2.1, fun s => ih s (obeys.2.2 s)⟩

end Poll.Obeys

end Deferred
