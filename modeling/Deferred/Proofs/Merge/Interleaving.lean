import Deferred.Merge
import Deferred.Proofs.Interleaves

/-! A merged run as a system whose parts go on in any order: one task per input, the supervisor and
the consumer. Each access to what they share (the queue, the signal, the two marks of the hub, the
flag of the scope) is a step of its own, so that any other part may come in between. What a feed
does between two items happens in a state of which nothing is known. Beside the parts stands a
history: what each feed has produced, what was pushed by whom, yielded and recorded. -/

namespace Deferred

variable {σ α : Type}

namespace Feed

/-- A run of the feed from its start. A panic of the start is one of the run. -/
def flow (feed : Feed σ α) : Flow σ α :=
  fun state =>
    match feed.start state with
    | (.ok flow, after) => flow after
    | (.error payload, after) => .panic payload id after

/-- After these items, a run of the feed may have stopped at this point. -/
inductive Gives (feed : Feed σ α) : List α → Cursor σ α → Prop where
  | start : Gives feed [] feed.flow.cursor
  | item {items cursor state value rest release after} (gives : Gives feed items cursor)
      (opens : cursor.wait.opens state = true)
      (node : cursor.resume state = .item value rest release after) :
      Gives feed (items ++ [value]) (Flow.cursor rest)
  | waiting {items cursor state wait resume after} (gives : Gives feed items cursor)
      (opens : cursor.wait.opens state = true)
      (node : cursor.resume state = .waiting wait resume after) : Gives feed items ⟨wait, resume⟩
  | spawn {items cursor state child rest after} (gives : Gives feed items cursor)
      (opens : cursor.wait.opens state = true)
      (node : cursor.resume state = .spawn child rest after) :
      Gives feed items (Flow.cursor rest)

/-- These are all the items of some run of the feed. -/
def Finishes (feed : Feed σ α) (items : List α) : Prop :=
  ∃ cursor state after, feed.Gives items cursor ∧ cursor.wait.opens state = true ∧
    cursor.resume state = .ended after

/-- These are the items of some run of the feed before it panics. -/
def Panics (feed : Feed σ α) (items : List α) (payload : Payload) : Prop :=
  ∃ cursor state release after, feed.Gives items cursor ∧ cursor.wait.opens state = true ∧
    cursor.resume state = .panic payload release after

end Feed

/-- The item at which a run has stopped. -/
def Items.given : Items σ α → List α
  | .item value _ _ _ => [value]
  | .ended _ => []
  | .panic _ _ _ => []
  | .waiting _ _ _ => []
  | .spawn _ _ _ => []

namespace Merge

/-- How the task of an input ends: with its feed, at an item that nobody takes, or by a panic. -/
inductive Fate where
  | finished
  | stopped
  | panicked (payload : Payload)

def Fate.payload : Fate → Option Payload
  | panicked payload => some payload
  | _ => none

/-- Where the task of an input stands. To push an item it first makes sure that the hub is still
there, and keeps it there until it has given the signal. -/
inductive Stage (σ α : Type) where
  | pulls (cursor : Cursor σ α)
  | holds (value : α) (rest : Flow σ α)
  | pushes (value : α) (rest : Flow σ α)
  | signals (rest : Flow σ α)
  | releases (rest : Flow σ α)
  | leaves (fate : Fate)
  | done (fate : Fate)

namespace Stage

def ofItems : Items σ α → Stage σ α
  | .item value rest _ _ => holds value rest
  | .ended _ => leaves .finished
  | .panic payload _ _ => leaves (.panicked payload)
  | .waiting wait resume _ => pulls ⟨wait, resume⟩
  | .spawn _ rest _ => pulls (Flow.cursor rest)

def keepsHub : Stage σ α → Bool
  | pushes _ _ => true
  | signals _ => true
  | releases _ => true
  | _ => false

def isDone : Stage σ α → Bool
  | done _ => true
  | _ => false

/-- One step of an input, with the items that its feed produces and those that it pushes. -/
inductive Step (index : Nat) (alive : Prop) :
    Stage σ α → Hub α → List α → List α → Stage σ α → Hub α → Prop where
  | pull {cursor hub state} (opens : cursor.wait.opens state = true) :
      Step index alive (pulls cursor) hub (cursor.resume state).given []
        (ofItems (cursor.resume state)) hub
  | upgrade {value rest hub} (there : alive) :
      Step index alive (holds value rest) hub [] [] (pushes value rest) hub
  | refuse {value rest hub} (gone : ¬alive) :
      Step index alive (holds value rest) hub [] [] (leaves .stopped) hub
  | push {value rest hub} :
      Step index alive (pushes value rest) hub [] [value] (signals rest) (hub.enqueue value)
  | signal {rest hub} : Step index alive (signals rest) hub [] [] (releases rest) hub.notify
  | release {rest hub} :
      Step index alive (releases rest) hub [] [] (pulls (Flow.cursor rest)) hub
  | leave {fate hub} :
      Step index alive (leaves fate) hub [] [] (done fate) (hub.checkOut index fate.payload)

end Stage

structure Input (σ α : Type) where
  feed : Feed σ α
  stage : Stage σ α
  produced : List α

/-- Where the supervisor stands. -/
inductive Supervisor where
  | unborn
  | awaits
  | reports (next : Nat)
  | upgrades
  | closes
  | signals
  | done

namespace Supervisor

def keepsHub : Supervisor → Bool
  | closes => true
  | signals => true
  | _ => false

/-- The panic to record for an input, if it ended with one. -/
def report (hub : Hub α) (index : Nat) : List (Nat × Error) :=
  ((hub.panicOf index).map fun payload => (index, Error.ofPanic payload)).toList

/-- One step of the supervisor of so many inputs, with the errors that it records. -/
inductive Step (inputs : Nat) (alive : Prop) :
    Supervisor → Hub α → List (Nat × Error) → Supervisor → Hub α → Prop where
  | join {hub} (ended : hub.ends.length = inputs) :
      Step inputs alive awaits hub [] (reports 0) hub
  | report {hub next} (left : next < inputs) :
      Step inputs alive (reports next) hub (report hub next) (reports (next + 1)) hub
  | reported {hub} : Step inputs alive (reports inputs) hub [] upgrades hub
  | upgrade {hub} (there : alive) : Step inputs alive upgrades hub [] closes hub
  | gone {hub} (gone : ¬alive) : Step inputs alive upgrades hub [] done hub
  | close {hub} : Step inputs alive closes hub [] signals hub.stop
  | signal {hub} : Step inputs alive signals hub [] done hub.notify

end Supervisor

/-- Why the consumer gets no more items. -/
inductive Close where
  | cancelled (dropped : Nat)
  | finished

/-- Where the consumer stands. Before it waits it listens for the signal and subscribes to the
flag, in either order; a version is the one that it has seen when it subscribed. -/
inductive Consumer where
  | launches
  | looks
  | pops
  | checks
  | drains
  | selects
  | subscribes
  | listens (seen : Nat)
  | waits (seen : Nat)
  | rests
  | ended (close : Close)
  | dropped

/-- One step of the consumer, with the items that it yields. -/
inductive Consumer.Step (flag : Flag) :
    Consumer → Hub α → List α → Consumer → Hub α → Prop where
  | cancelled {hub} (raised : flag.raised = true) :
      Step flag .looks hub [] (.ended (.cancelled hub.queue.length)) hub.detach
  | look {hub} (lowered : flag.raised = false) : Step flag .looks hub [] .pops hub
  | item {hub value rest} (popped : hub.pop = (some value, rest)) :
      Step flag .pops hub [value] .rests rest
  | none {hub rest} (popped : hub.pop = (none, rest)) : Step flag .pops hub [] .checks rest
  | runs {hub} (running : hub.running = true) : Step flag .checks hub [] .selects hub
  | closed {hub} (closed : hub.running = false) : Step flag .checks hub [] .drains hub
  | last {hub value rest} (popped : hub.pop = (some value, rest)) :
      Step flag .drains hub [value] .rests rest
  | finish {hub rest} (popped : hub.pop = (none, rest)) :
      Step flag .drains hub [] (.ended .finished) rest.detach
  | heard {hub rest} (kept : hub.listen = (true, rest)) : Step flag .selects hub [] .looks rest
  | listen {hub rest} (none : hub.listen = (false, rest)) :
      Step flag .selects hub [] .subscribes rest
  | stop {hub} (raised : flag.raised = true) :
      Step flag .subscribes hub [] .looks hub.unlisten
  | wait {hub} (lowered : flag.raised = false) :
      Step flag .subscribes hub [] (.waits flag.version) hub
  | skip {hub} (raised : flag.raised = true) : Step flag .selects hub [] .looks hub
  | subscribe {hub} (lowered : flag.raised = false) :
      Step flag .selects hub [] (.listens flag.version) hub
  | heardLate {seen hub rest} (kept : hub.listen = (true, rest)) :
      Step flag (.listens seen) hub [] .looks rest
  | waitLate {seen hub rest} (none : hub.listen = (false, rest)) :
      Step flag (.listens seen) hub [] (.waits seen) rest
  | answer {seen hub} (called : hub.signal.isCalled = true) :
      Step flag (.waits seen) hub [] .looks hub.hear
  | obey {seen hub} (calls : flag.calls seen = true) :
      Step flag (.waits seen) hub [] .looks hub.unlisten
  | again {hub} : Step flag .rests hub [] .looks hub

structure Run (σ α : Type) where
  inputs : List (Input σ α)
  supervisor : Supervisor
  consumer : Consumer
  hub : Hub α
  flag : Flag
  pushed : List (Nat × α)
  yielded : List α
  recorded : List (Nat × Error)

namespace Run

/-- Nobody has polled the merged feed yet. -/
def initial : Run σ α :=
  ⟨[], .unborn, .launches, .new, .lowered, [], [], []⟩

/-- The hub lives as long as the consumer, and as long as somebody else keeps it. -/
def Alive (run : Run σ α) : Prop :=
  run.hub.attached = true ∨ (∃ input ∈ run.inputs, input.stage.keepsHub = true) ∨
    run.supervisor.keepsHub = true

/-- Whether the consumer is at a point between two polls. -/
def MayDrop (run : Run σ α) : Prop :=
  match run.consumer with
  | .launches => run.inputs = []
  | .selects => True
  | .waits _ => True
  | .rests => True
  | _ => False

/-- What the input of this number has pushed. -/
def sent (run : Run σ α) (index : Nat) : List α :=
  itemsOf run.pushed index

end Run

/-- One step of a part of the run. The first poll of the consumer starts the inputs one by one, and
then the supervisor. -/
inductive Step (feeds : List (Feed σ α)) (run : Run σ α) : Run σ α → Prop where
  | launch {feed rest} (here : run.consumer = .launches)
      (left : feeds = run.inputs.map Input.feed ++ feed :: rest) :
      Step feeds run
        { run with inputs := run.inputs ++ [⟨feed, .pulls feed.flow.cursor, []⟩] }
  | begin (here : run.consumer = .launches) (all : run.inputs.map Input.feed = feeds) :
      Step feeds run { run with supervisor := .awaits, consumer := .looks }
  | input {index input produced pushed stage hub} (here : run.inputs[index]? = some input)
      (step : Stage.Step index run.Alive input.stage run.hub produced pushed stage hub) :
      Step feeds run { run with
        inputs := run.inputs.set index { input with stage, produced := input.produced ++ produced }
        hub
        pushed := run.pushed ++ pushed.map (index, ·) }
  | supervisor {recorded supervisor hub}
      (step : Supervisor.Step feeds.length run.Alive run.supervisor run.hub recorded supervisor
        hub) :
      Step feeds run { run with supervisor, hub, recorded := run.recorded ++ recorded }
  | consumer {yielded consumer hub}
      (step : Consumer.Step run.flag run.consumer run.hub yielded consumer hub) :
      Step feeds run { run with consumer, hub, yielded := run.yielded ++ yielded }

/-- What may happen from outside at any moment: the scope is cancelled, or the consumer dropped. -/
inductive Outside (run : Run σ α) : Run σ α → Prop where
  | cancel : Outside run { run with flag := run.flag.raise }
  | drop (may : run.MayDrop) : Outside run { run with consumer := .dropped, hub := run.hub.detach }

/-- The states that a merged run of the feeds may come to. -/
inductive Reachable (feeds : List (Feed σ α)) : Run σ α → Prop where
  | start : Reachable feeds .initial
  | step {run next} (reached : Reachable feeds run) (step : Step feeds run next) :
      Reachable feeds next
  | outside {run next} (reached : Reachable feeds run) (event : Outside run next) :
      Reachable feeds next

/-! ### A run of one item -/

/-- The item is pushed and the consumer waits, but nobody has called it yet. -/
def Run.halfway (value : α) : Run σ α where
  inputs := [⟨.single value, .signals Flow.empty, [value]⟩]
  supervisor := .awaits
  consumer := .waits 0
  hub := ⟨⟨[], [value]⟩, ⟨false, .waiting⟩, true, true, []⟩
  flag := .lowered
  pushed := [(0, value)]
  yielded := []
  recorded := []

def Run.complete (value : α) : Run σ α where
  inputs := [⟨.single value, .done .finished, [value]⟩]
  supervisor := .done
  consumer := .ended .finished
  hub := ⟨.empty, .given, false, false, [(0, none)]⟩
  flag := .lowered
  pushed := [(0, value)]
  yielded := [value]
  recorded := []

theorem Reachable.halfway (value : α) (state : σ) :
    Reachable [.single value] (Run.halfway value : Run σ α) := by
  have launched := (@Reachable.start σ α _).step
    (@Step.launch _ _ _ _ (Feed.single value) [] rfl rfl)
  -- The hub starts signalled, so the consumer looks twice before it waits.
  have looked := (((launched.step (.begin rfl rfl)).step (.consumer (.look rfl))).step
    (.consumer (.none rfl))).step (.consumer (.runs rfl))
  have again := (((looked.step (.consumer (.heard rfl))).step (.consumer (.look rfl))).step
    (.consumer (.none rfl))).step (.consumer (.runs rfl))
  have waits := (again.step (.consumer (.listen rfl))).step (.consumer (.wait rfl))
  have holds := waits.step
    (@Step.input _ _ _ _ 0 _ _ _ _ _ rfl (@Stage.Step.pull _ _ _ _ _ _ state rfl))
  have pushes := holds.step (@Step.input _ _ _ _ 0 _ _ _ _ _ rfl (.upgrade (.inl rfl)))
  have signals := pushes.step (@Step.input _ _ _ _ 0 _ _ _ _ _ rfl .push)
  exact signals

theorem Reachable.complete (value : α) (state : σ) :
    Reachable [.single value] (Run.complete value : Run σ α) := by
  have called := (Reachable.halfway value state).step
    (@Step.input _ _ _ _ 0 _ _ _ _ _ rfl .signal)
  have yields := ((called.step (.consumer (.answer rfl))).step (.consumer (.look rfl))).step
    (.consumer (.item rfl))
  have pulls := yields.step (@Step.input _ _ _ _ 0 _ _ _ _ _ rfl .release)
  have leaves := pulls.step
    (@Step.input _ _ _ _ 0 _ _ _ _ _ rfl (@Stage.Step.pull _ _ _ _ _ _ state rfl))
  have done := leaves.step (@Step.input _ _ _ _ 0 _ _ _ _ _ rfl .leave)
  have reports := (done.step (.supervisor (.join rfl))).step (.supervisor (.report Nat.one_pos))
  have closes := (reports.step (.supervisor .reported)).step (.supervisor (.upgrade (.inl rfl)))
  have closed := (closes.step (.supervisor .close)).step (.supervisor .signal)
  have looks := (closed.step (.consumer .again)).step (.consumer (.look rfl))
  have drains := (looks.step (.consumer (.none rfl))).step (.consumer (.closed rfl))
  have ended := drains.step (.consumer (.finish rfl))
  exact ended

end Merge
end Deferred
