import Deferred.Cancellation
import Deferred.Gate
import Deferred.Hub
import Deferred.Latch
import Deferred.Merge
import Deferred.Script.Value

/-! The world in which scripts run: a clock, a journal of what has happened, the numbers of the
calls made so far, named cancellations, and shelves on which the cells of actions and merged runs
are kept. -/

namespace Deferred.Script

/-- Places numbered from zero; those never written hold a default. -/
structure Store (ρ : Type) where
  slots : Array ρ

namespace Store

variable {ρ : Type}

def empty : Store ρ := ⟨#[]⟩

def get [Inhabited ρ] (store : Store ρ) (index : Nat) : ρ :=
  store.slots.getD index default

def set [Inhabited ρ] (store : Store ρ) (index : Nat) (value : ρ) : Store ρ :=
  if index < store.slots.size then ⟨store.slots.setIfInBounds index value⟩
  else ⟨(store.slots ++ Array.replicate (index - store.slots.size) default).push value⟩

theorem get_set [Inhabited ρ] (store : Store ρ) (index : Nat) (value : ρ) :
    (store.set index value).get index = value := by
  unfold set get
  split
  next inside => simp [Array.getD, inside]
  next outside =>
    have size :
        (store.slots ++ Array.replicate (index - store.slots.size) default).size = index := by
      simp
      omega
    generalize store.slots ++ Array.replicate (index - store.slots.size) default = filled at size
    subst size
    simp [Array.getD]

theorem get_set_ne [Inhabited ρ] (store : Store ρ) {index other : Nat} (value : ρ)
    (apart : other ≠ index) : (store.set index value).get other = store.get other := by
  simp only [get, set, Array.getD_eq_getD_getElem?]
  split
  next => rw [Array.getElem?_setIfInBounds_ne apart.symm]
  next => grind

end Store

/-- What happened. -/
inductive Mark where
  | built (id : String) (call : Nat)
  | started (id : String) (call : Nat)
  | ended (id : String) (call : Nat)
  | opened (id : String) (run : Nat)
  | item (id : String) (run : Nat) (index : Nat)
  | note (tag : String) (value : Value)
  | logged (text : String) (panic : Bool)
  | heard (text : String)
  | event (event : Event)

structure Entry where
  time : Nat
  mark : Mark

structure World where
  time : Nat
  allowance : Nat
  traced : Bool
  journal : Array Entry
  counts : List (String × Nat)
  tokens : List (String × Nat)
  flags : Store Flag
  verdictLatches : Store (Latch (Verdict Value))
  findingLatches : Store (Latch (Finding Value))
  verdictGates : Store (Gate (Verdict Value))
  findingGates : Store (Gate (Finding Value))
  hubs : Store (Hub Value)

namespace World

def initial (traced : Bool) : World :=
  ⟨0, Host.turn, traced, #[], [], [], .empty, .empty, .empty, .empty, .empty, .empty⟩

def write (mark : Mark) (world : World) : World :=
  { world with journal := world.journal.push ⟨world.time, mark⟩ }

def writeEvent (event : Event) (world : World) : World :=
  if world.traced then world.write (.event event) else world

instance : Host World where
  now := time
  allowance := allowance
  elapse time world := { world with time }
  allow allowance world := { world with allowance }
  record error := write (.logged error.text error.isPanic)
  trace := writeEvent
  now_elapse _ _ := rfl
  now_allow _ _ := rfl
  now_record _ _ := rfl
  now_trace event world := by
    unfold writeEvent
    split <;> rfl
  allowance_elapse _ _ := rfl
  allowance_allow _ _ := rfl
  allowance_record _ _ := rfl
  allowance_trace event world := by
    unfold writeEvent
    split <;> rfl

/-- The number of this call among those with the same name, counted from one. -/
def count (id : String) : StateM World Nat :=
  fun world =>
    let call := (world.counts.lookup id).getD 0 + 1
    (call, { world with counts := (id, call) :: world.counts.filter (·.1 != id) })

end World

/-- A kind of cell: where the world keeps all cells of that kind. -/
structure Shelf (ρ : Type) where
  read : World → Store ρ
  update : (Store ρ → Store ρ) → World → World
  read_update : ∀ f world, read (update f world) = f (read world)

namespace Shelf

variable {ρ : Type} [Inhabited ρ]

def place (shelf : Shelf ρ) (index : Nat) : Place World ρ where
  get world := (shelf.read world).get index
  set value world := shelf.update (·.set index value) world
  get_set value world := by rw [shelf.read_update, Store.get_set]

def arena (shelf : Shelf ρ) : Arena World ρ where
  fresh value := fun world =>
    let place := shelf.place (shelf.read world).slots.size
    (place, place.set value world)

end Shelf

namespace World

def flagShelf : Shelf Flag :=
  ⟨flags, fun f world => { world with flags := f world.flags }, fun _ _ => rfl⟩

def verdictLatchShelf : Shelf (Latch (Verdict Value)) :=
  ⟨verdictLatches, fun f world => { world with verdictLatches := f world.verdictLatches },
    fun _ _ => rfl⟩

def findingLatchShelf : Shelf (Latch (Finding Value)) :=
  ⟨findingLatches, fun f world => { world with findingLatches := f world.findingLatches },
    fun _ _ => rfl⟩

def verdictGateShelf : Shelf (Gate (Verdict Value)) :=
  ⟨verdictGates, fun f world => { world with verdictGates := f world.verdictGates },
    fun _ _ => rfl⟩

def findingGateShelf : Shelf (Gate (Finding Value)) :=
  ⟨findingGates, fun f world => { world with findingGates := f world.findingGates },
    fun _ _ => rfl⟩

def hubShelf : Shelf (Hub Value) :=
  ⟨hubs, fun f world => { world with hubs := f world.hubs }, fun _ _ => rfl⟩

/-- A new token, or with `shared` the token of that name, under a name. -/
def register (name : String) (shared : Option String) : StateM World (Cancellation World) :=
  fun world =>
    match shared.bind fun other => world.tokens.lookup other with
    | some index =>
        (⟨flagShelf.place index⟩, { world with tokens := (name, index) :: world.tokens })
    | none =>
        let index := world.flags.slots.size
        (⟨flagShelf.place index⟩, { world with
          flags := world.flags.set index .lowered
          tokens := (name, index) :: world.tokens })

/-- The cancellation registered under a name. -/
def cancellation (name : String) : Code World (Cancellation World) := do
  match (← get).tokens.lookup name with
  | some index => return ⟨flagShelf.place index⟩
  | none => Code.panic (.owned ("no such token: " ++ name))

end World

/-- Sleeps the given number of milliseconds. None is no wait at all. -/
def pause (millis : Nat) : Future World Unit :=
  if millis = 0 then pure () else Future.sleep millis

/-- Writes to the journal as code does. -/
def mark (what : Mark) : StateM World Unit :=
  modify (World.write what)

end Deferred.Script
