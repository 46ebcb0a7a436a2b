import Deferred.Proofs.Boundary.Built
import Deferred.Proofs.Boundary.Feeds

/-! Whatever is built in a manner that obeys an account is sound by it. -/

namespace Deferred

variable {σ : Type} [Host σ] {account : Account σ} {manner : Manner σ}

namespace Manner

def obeying (account : Account σ) : Manner σ where
  code := Code.Obeys account
  future := Future.Obeys account
  flow := Flow.Obeys account
  place := Place.Obeys account
  joins := True
  gates := True
  sinks := True

/-- Whatever behaves in this manner obeys the account. -/
structure Within (manner : Manner σ) (account : Account σ) : Prop where
  code : ∀ {α : Type} {code : Code σ α}, manner.code code → code.Obeys account
  future : ∀ {α : Type} {due : α → Option Error} {future : Future σ α},
    manner.future due future → future.Obeys account due
  flow : ∀ {α : Type} {flow : Flow σ α}, manner.flow flow → flow.Obeys account
  place : ∀ {ρ : Type} {place : Place σ ρ}, manner.place place → place.Obeys account

theorem obeying_within (account : Account σ) : (obeying account).Within account :=
  ⟨id, id, id, id⟩

end Manner

section
variable {α : Type}

theorem Task.obeys_free (task : Task σ) (start : σ) :
    task.Obeys .free (Account.free.owes none) start := by
  induction task generalizing start with
  | done state => trivial
  | waiting wait resume state ih => exact ⟨trivial, fun s _ => ih s s⟩
  | spawn child rest state childIH ih =>
    exact ⟨trivial, ⟨_, .own, fun s => childIH s s⟩, fun s => ih s s⟩

theorem Account.free_minds (child : σ → Task σ) : Account.free.Minds child :=
  ⟨_, .own, fun s => (child s).obeys_free s⟩

theorem Poll.obeys_free {due : α → Option Error} (poll : Poll σ α) (start : σ) :
    poll.Obeys .free True due start := by
  induction poll generalizing start with
  | ready value state => trivial
  | panic payload state => exact ⟨trivial, trivial⟩
  | waiting wait resume state ih => exact ⟨trivial, fun _ => trivial, fun s _ => ih s s⟩
  | spawn child rest state ih => exact ⟨trivial, Account.free_minds child, fun s => ih s s⟩

theorem Items.obeys_free (items : Items σ α) (start : σ) : items.Obeys .free start := by
  induction items generalizing start with
  | item value rest release state ih => exact ⟨trivial, fun _ => trivial, fun s => ih s s⟩
  | ended state => trivial
  | panic payload release state => exact ⟨trivial, fun _ => trivial⟩
  | waiting wait resume state ih => exact ⟨trivial, fun _ => trivial, fun s _ => ih s s⟩
  | spawn child rest state ih => exact ⟨trivial, Account.free_minds child, fun s => ih s s⟩

end

/-- By the account that counts nothing, all code obeys. -/
theorem Manner.any_within : (any : Manner σ).Within .free where
  code _ state := by split <;> trivial
  future _ state := Poll.obeys_free _ state
  flow _ state := Items.obeys_free _ state
  place _ _ _ := trivial

theorem Manner.Within.gives {α : Type} {fine obeys : α → Prop} {code : Code σ α}
    (within : manner.Within account) (all : ∀ {value}, fine value → obeys value)
    (gives : manner.Gives fine code) : code.Gives account obeys :=
  ⟨within.code gives.code, fun value returned => all (gives.fine value returned)⟩

/-- To be sound by an account is a quality. -/
def Quality.sound (within : manner.Within account) : Quality manner where
  code := Code.Obeys account
  future := Future.Keeps account
  action := Action.Sound account
  feed := Feed.Sound account
  given := within.code
  code_bind obeys follows := obeys.bind fun value _ => follows value
  pure := .pure
  bind := .bind
  trace := .trace
  sleep := .sleep
  step place := .step (within.place place)
  contain_bind := .contain_bind
  contained future := .contained (within.future future)
  reported future := .reported (within.future future)
  awaited := Action.Sound.awaited
  lazily := .lazily
  building := .building
  both _ := .both
  cachedAlone _ place := .cachedAlone (within.place place)
  gather _ := Feed.Sound.gather
  visit _ := Feed.Sound.visit
  own := within.gives within.flow
  ofList values := .started (.ofList values)
  never := .started .never
  ofAttempt := .ofAttempt
  map := .map
  filter := .filter
  append := .append
  merge handsOut := .merge (within.gives within.place handsOut)

theorem Built.sound (within : manner.Within account) {ρ : Type} {action : Action σ ρ}
    (built : Built manner action) : action.Sound account :=
  built.has (.sound within)

end Deferred
