import Deferred.Proofs.Merge.Conservation

/-! Merged runs in which inputs panic beside runs in which they end instead. A panic is calmed when
the run of a feed ends where it would have panicked. But for the payloads that the hub notes and
what is recorded of them, a merged run of the feeds goes exactly as one of the calmed feeds. So no
panic shows in what the other inputs push, or in what the consumer yields. -/

namespace Deferred

variable {σ α : Type}

/-! ### Feeds -/

/-- The run that ends where this one panics. -/
def Items.calmed : Items σ α → Items σ α
  | item value rest release state => item value (fun s => (rest s).calmed) release state
  | ended state => ended state
  | panic _ release state => ended (release state)
  | waiting wait resume state => waiting wait (fun s => (resume s).calmed) state
  | spawn child rest state => spawn child (fun s => (rest s).calmed) state

def Flow.calmed (flow : Flow σ α) : Flow σ α :=
  fun state => (flow state).calmed

def Cursor.calmed (cursor : Cursor σ α) : Cursor σ α :=
  { cursor with resume := Flow.calmed cursor.resume }

/-- A feed that has no items where the start of this one panics. -/
def Feed.calmed (feed : Feed σ α) : Feed σ α where
  start state :=
    match feed.start state with
    | (.ok flow, after) => (.ok flow.calmed, after)
    | (.error _, after) => (.ok .empty, after)

@[simp] theorem Items.given_calmed (items : Items σ α) : items.calmed.given = items.given := by
  cases items <;> rfl

theorem Feed.flow_calmed (feed : Feed σ α) : feed.calmed.flow = Flow.calmed feed.flow := by
  funext state
  rcases started : feed.start state with ⟨payload | flow, after⟩
  · simp only [Feed.flow, Feed.calmed, Flow.calmed, started]
    rfl
  · simp only [Feed.flow, Feed.calmed, Flow.calmed, started]

/-! ### What a calmed feed gives -/

namespace Items

variable {items : Items σ α} {state : σ}

theorem eq_item_of_calmed {value : α} {calm : Flow σ α} {release : σ → σ}
    (node : items.calmed = .item value calm release state) :
    ∃ rest : Flow σ α, items = .item value rest release state ∧ rest.calmed = calm := by
  cases items <;> cases node
  exact ⟨_, rfl, rfl⟩

theorem eq_waiting_of_calmed {wait : Wait σ} {calm : Flow σ α}
    (node : items.calmed = .waiting wait calm state) :
    ∃ resume : Flow σ α, items = .waiting wait resume state ∧ resume.calmed = calm := by
  cases items <;> cases node
  exact ⟨_, rfl, rfl⟩

theorem eq_spawn_of_calmed {child : σ → Task σ} {calm : Flow σ α}
    (node : items.calmed = .spawn child calm state) :
    ∃ rest : Flow σ α, items = .spawn child rest state ∧ rest.calmed = calm := by
  cases items <;> cases node
  exact ⟨_, rfl, rfl⟩

theorem eq_ended_or_panic_of_calmed (node : items.calmed = .ended state) :
    items = .ended state ∨ ∃ payload release last, items = .panic payload release last := by
  cases items <;> cases node
  · exact .inl rfl
  · exact .inr ⟨_, _, _, rfl⟩

theorem calmed_ne_panic (items : Items σ α) {payload : Payload} {release : σ → σ} :
    items.calmed ≠ .panic payload release state := by
  cases items <;> nofun

end Items

namespace Feed

variable {feed : Feed σ α} {items : List α}

theorem Gives.calmed {cursor : Cursor σ α} (gives : feed.Gives items cursor) :
    feed.calmed.Gives items cursor.calmed := by
  induction gives with
  | start =>
    have begun := @Gives.start _ _ feed.calmed
    rwa [flow_calmed] at begun
  | item _ opens node ih => exact ih.item opens (congrArg Items.calmed node)
  | waiting _ opens node ih => exact ih.waiting opens (congrArg Items.calmed node)
  | spawn _ opens node ih => exact ih.spawn opens (congrArg Items.calmed node)

theorem Gives.of_calmed {calm : Cursor σ α} (gives : feed.calmed.Gives items calm) :
    ∃ cursor, feed.Gives items cursor ∧ cursor.calmed = calm := by
  induction gives with
  | start =>
    rw [flow_calmed]
    exact ⟨_, .start, rfl⟩
  | item _ opens node ih =>
    obtain ⟨cursor, gives, rfl⟩ := ih
    obtain ⟨rest, resumed, rfl⟩ := Items.eq_item_of_calmed node
    exact ⟨_, gives.item opens resumed, rfl⟩
  | waiting _ opens node ih =>
    obtain ⟨cursor, gives, rfl⟩ := ih
    obtain ⟨resume, resumed, rfl⟩ := Items.eq_waiting_of_calmed node
    exact ⟨_, gives.waiting opens resumed, rfl⟩
  | spawn _ opens node ih =>
    obtain ⟨cursor, gives, rfl⟩ := ih
    obtain ⟨rest, resumed, rfl⟩ := Items.eq_spawn_of_calmed node
    exact ⟨_, gives.spawn opens resumed, rfl⟩

/-- A calmed feed ends after the items after which the feed itself ends or panics. -/
theorem finishes_calmed :
    feed.calmed.Finishes items ↔ feed.Finishes items ∨ ∃ payload, feed.Panics items payload := by
  constructor
  · rintro ⟨_, state, after, calm, opens, node⟩
    obtain ⟨cursor, gives, rfl⟩ := calm.of_calmed
    rcases Items.eq_ended_or_panic_of_calmed node with resumed | ⟨payload, release, last, resumed⟩
    · exact .inl ⟨cursor, state, _, gives, opens, resumed⟩
    · exact .inr ⟨payload, cursor, state, _, _, gives, opens, resumed⟩
  · rintro (⟨cursor, state, after, gives, opens, node⟩ |
      ⟨payload, cursor, state, release, after, gives, opens, node⟩)
    · exact ⟨_, state, _, gives.calmed, opens, congrArg Items.calmed node⟩
    · exact ⟨_, state, _, gives.calmed, opens, congrArg Items.calmed node⟩

theorem not_panics_calmed {payload : Payload} : ¬feed.calmed.Panics items payload := by
  rintro ⟨_, state, release, after, gives, opens, node⟩
  obtain ⟨cursor, -, rfl⟩ := gives.of_calmed
  exact Items.calmed_ne_panic _ node

end Feed

namespace Merge

/-! ### Parts of a run -/

def Fate.calmed : Fate → Fate
  | panicked _ => finished
  | fate => fate

def Stage.calmed : Stage σ α → Stage σ α
  | pulls cursor => pulls cursor.calmed
  | holds value rest => holds value rest.calmed
  | pushes value rest => pushes value rest.calmed
  | signals rest => signals rest.calmed
  | releases rest => releases rest.calmed
  | leaves fate => leaves fate.calmed
  | done fate => done fate.calmed

def Input.calmed (input : Input σ α) : Input σ α :=
  ⟨input.feed.calmed, input.stage.calmed, input.produced⟩

end Merge

/-- The hub without the payloads. -/
def Hub.calmed (hub : Hub α) : Hub α :=
  { hub with ends := hub.ends.map fun entry => (entry.1, none) }

namespace Merge

def Run.calmed (run : Run σ α) : Run σ α :=
  { run with inputs := run.inputs.map Input.calmed, hub := run.hub.calmed, recorded := [] }

@[simp] theorem Fate.payload_calmed (fate : Fate) : fate.calmed.payload = none := by
  cases fate <;> rfl

@[simp] theorem Stage.ofItems_calmed (items : Items σ α) :
    ofItems items.calmed = (ofItems items).calmed := by
  cases items <;> rfl

@[simp] theorem Stage.keepsHub_calmed (stage : Stage σ α) :
    stage.calmed.keepsHub = stage.keepsHub := by
  cases stage <;> rfl

theorem calmed_checkOut (hub : Hub α) (index : Nat) (payload : Option Payload) :
    (hub.checkOut index payload).calmed = hub.calmed.checkOut index none := by
  simp [Hub.checkOut, Hub.calmed]

theorem panicOf_calmed (hub : Hub α) (index : Nat) : hub.calmed.panicOf index = none := by
  have none : ∀ ends : List (Nat × Option Payload),
      ((ends.map fun entry => (entry.1, (none : Option Payload))).lookup index).join = none := by
    intro ends
    induction ends with
    | nil => rfl
    | cons entry ends ih =>
      rw [List.map_cons, List.lookup_cons]
      split
      · rfl
      · exact ih
  exact none hub.ends

theorem report_calmed (hub : Hub α) (index : Nat) : Supervisor.report hub.calmed index = [] := by
  rw [Supervisor.report, panicOf_calmed]
  rfl

section run

variable {feeds : List (Feed σ α)} {run next : Run σ α}

@[simp] theorem Run.alive_calmed (run : Run σ α) : run.calmed.Alive ↔ run.Alive := by
  refine or_congr Iff.rfl (or_congr ⟨?_, ?_⟩ Iff.rfl)
  · rintro ⟨_, member, keeps⟩
    obtain ⟨input, there, rfl⟩ := List.mem_map.mp member
    exact ⟨input, there, by simpa [Input.calmed] using keeps⟩
  · rintro ⟨input, member, keeps⟩
    exact ⟨input.calmed, List.mem_map_of_mem member, by simpa [Input.calmed] using keeps⟩

theorem Run.feeds_calmed (run : Run σ α) :
    run.calmed.inputs.map Input.feed = (run.inputs.map Input.feed).map Feed.calmed := by
  simp [Run.calmed, Input.calmed, Function.comp_def]

end run

/-! ### Steps of one part -/

section parts

variable {index inputs : Nat} {alive : Prop} {hub after calm : Hub α}

theorem Stage.Step.calmed {stage next : Stage σ α} {produced pushed : List α}
    (step : Stage.Step index alive stage hub produced pushed next after) :
    Stage.Step index alive stage.calmed hub.calmed produced pushed next.calmed after.calmed := by
  cases step with
  | @pull cursor _ state opens =>
    have calm := @Stage.Step.pull _ _ index alive cursor.calmed hub.calmed state opens
    simp only [Cursor.calmed, Flow.calmed, Items.given_calmed, Stage.ofItems_calmed] at calm
    exact calm
  | @leave fate =>
    have calm := @Stage.Step.leave σ α index alive fate.calmed hub.calmed
    rw [Fate.payload_calmed, ← calmed_checkOut] at calm
    exact calm
  | upgrade there => exact .upgrade there
  | refuse gone => exact .refuse gone
  | push => exact .push
  | signal => exact .signal
  | release => exact .release

/-- A step of a calmed input is one of the input itself. -/
theorem Stage.Step.of_calmed {stage last : Stage σ α} {produced pushed : List α}
    (step : Stage.Step index alive stage.calmed hub.calmed produced pushed last calm) :
    ∃ next after, Stage.Step index alive stage hub produced pushed next after ∧
      next.calmed = last ∧ after.calmed = calm := by
  cases stage with
  | pulls cursor =>
    dsimp only [Stage.calmed] at step
    cases step with
    | @pull _ _ state opens =>
      simp only [Cursor.calmed, Flow.calmed, Items.given_calmed, Stage.ofItems_calmed]
      exact ⟨_, _, .pull opens, rfl, rfl⟩
  | holds value rest =>
    dsimp only [Stage.calmed] at step
    cases step with
    | upgrade there => exact ⟨_, _, .upgrade there, rfl, rfl⟩
    | refuse gone => exact ⟨_, _, .refuse gone, rfl, rfl⟩
  | pushes value rest =>
    dsimp only [Stage.calmed] at step
    cases step with
    | push => exact ⟨_, _, .push, rfl, rfl⟩
  | signals rest =>
    dsimp only [Stage.calmed] at step
    cases step with
    | signal => exact ⟨_, _, .signal, rfl, rfl⟩
  | releases rest =>
    dsimp only [Stage.calmed] at step
    cases step with
    | release => exact ⟨_, _, .release, rfl, rfl⟩
  | leaves fate =>
    dsimp only [Stage.calmed] at step
    cases step with
    | leave => exact ⟨_, _, .leave, rfl, by rw [calmed_checkOut, Fate.payload_calmed]⟩
  | done fate =>
    dsimp only [Stage.calmed] at step
    cases step

theorem Supervisor.Step.calmed {supervisor next : Supervisor} {recorded : List (Nat × Error)}
    (step : Supervisor.Step inputs alive supervisor hub recorded next after) :
    Supervisor.Step inputs alive supervisor hub.calmed [] next after.calmed := by
  cases step with
  | join ended => exact .join (List.length_map _ |>.trans ended)
  | @report _ index left =>
    have calm := @Supervisor.Step.report α inputs alive hub.calmed index left
    rw [report_calmed] at calm
    exact calm
  | reported => exact .reported
  | upgrade there => exact .upgrade there
  | gone gone => exact .gone gone
  | close => exact .close
  | signal => exact .signal

/-- Beside calmed inputs the supervisor records nothing, and goes on as it would beside others. -/
theorem Supervisor.Step.of_calmed {supervisor next : Supervisor} {recorded : List (Nat × Error)}
    (step : Supervisor.Step inputs alive supervisor hub.calmed recorded next calm) :
    recorded = [] ∧ ∃ found after, Supervisor.Step inputs alive supervisor hub found next after ∧
      after.calmed = calm := by
  cases step with
  | join ended => exact ⟨rfl, _, _, .join ((List.length_map _).symm.trans ended), rfl⟩
  | report left => exact ⟨report_calmed hub _, _, _, .report left, rfl⟩
  | reported => exact ⟨rfl, _, _, .reported, rfl⟩
  | upgrade there => exact ⟨rfl, _, _, .upgrade there, rfl⟩
  | gone gone => exact ⟨rfl, _, _, .gone gone, rfl⟩
  | close => exact ⟨rfl, _, _, .close, rfl⟩
  | signal => exact ⟨rfl, _, _, .signal, rfl⟩

/-- The consumer does not look at how inputs have ended. -/
theorem Consumer.Step.with_ends {flag : Flag} {consumer next : Consumer} {yielded : List α}
    (step : Consumer.Step flag consumer hub yielded next after)
    (ends : List (Nat × Option Payload)) :
    Consumer.Step flag consumer { hub with ends } yielded next { after with ends } := by
  have pops {value : Option α} {rest : Hub α} (popped : hub.pop = (value, rest)) :
      ({ hub with ends } : Hub α).pop = (value, { rest with ends }) := by
    simp only [Hub.pop, Prod.mk.injEq] at popped ⊢
    obtain ⟨same, rfl⟩ := popped
    exact ⟨same, rfl⟩
  have listens {heard : Bool} {rest : Hub α} (listened : hub.listen = (heard, rest)) :
      ({ hub with ends } : Hub α).listen = (heard, { rest with ends }) := by
    simp only [Hub.listen, Prod.mk.injEq] at listened ⊢
    obtain ⟨same, rfl⟩ := listened
    exact ⟨same, rfl⟩
  cases step with
  | cancelled raised => exact .cancelled raised
  | look lowered => exact .look lowered
  | item popped => exact .item (pops popped)
  | none popped => exact .none (pops popped)
  | runs running => exact .runs running
  | closed closed => exact .closed closed
  | last popped => exact .last (pops popped)
  | finish popped => exact .finish (pops popped)
  | heard kept => exact .heard (listens kept)
  | listen none => exact .listen (listens none)
  | stop raised => exact .stop raised
  | wait lowered => exact .wait lowered
  | skip raised => exact .skip raised
  | subscribe lowered => exact .subscribe lowered
  | heardLate kept => exact .heardLate (listens kept)
  | waitLate none => exact .waitLate (listens none)
  | answer called => exact .answer called
  | obey calls => exact .obey calls
  | again => exact .again

theorem Consumer.Step.calmed {flag : Flag} {consumer next : Consumer} {yielded : List α}
    (step : Consumer.Step flag consumer hub yielded next after) :
    Consumer.Step flag consumer hub.calmed yielded next after.calmed := by
  have calm := step.with_ends hub.calmed.ends
  unfold Hub.calmed
  rw [step.frame.2]
  exact calm

theorem Consumer.Step.of_calmed {flag : Flag} {consumer next : Consumer} {yielded : List α}
    (step : Consumer.Step flag consumer hub.calmed yielded next calm) :
    ∃ after, Consumer.Step flag consumer hub yielded next after ∧ after.calmed = calm := by
  refine ⟨{ calm with ends := hub.ends }, step.with_ends hub.ends, ?_⟩
  have same : hub.calmed.ends = calm.ends := step.frame.2.symm
  exact congrArg (fun ends => { calm with ends }) same

end parts

/-! ### Runs -/

section runs

variable {feeds : List (Feed σ α)} {run next calm : Run σ α}

/-- A step of the run is one of the calmed run. -/
theorem Step.calmed (step : Step feeds run next) :
    Step (feeds.map Feed.calmed) run.calmed next.calmed := by
  cases step with
  | @launch feed rest here left =>
    have started : feeds.map Feed.calmed =
        run.calmed.inputs.map Input.feed ++ feed.calmed :: rest.map Feed.calmed := by
      rw [left, Run.feeds_calmed, List.map_append, List.map_cons]
    have step := @Step.launch _ _ _ run.calmed feed.calmed _ here started
    rw [Feed.flow_calmed] at step
    simpa [Run.calmed, Input.calmed, Stage.calmed, Flow.cursor, Cursor.calmed] using step
  | begin here all =>
    have started : run.calmed.inputs.map Input.feed = feeds.map Feed.calmed := by
      rw [Run.feeds_calmed, all]
    exact .begin here started
  | @input index input _ _ _ _ here step =>
    have there : run.calmed.inputs[index]? = some input.calmed := by
      rw [Run.calmed, List.getElem?_map, here]
      rfl
    have calm := step.calmed
    rw [← Run.alive_calmed] at calm
    have step := @Step.input _ _ (feeds.map Feed.calmed) _ _ _ _ _ _ _ there calm
    simp only [Run.calmed, List.map_set]
    exact step
  | supervisor step =>
    have calm := step.calmed
    rw [← Run.alive_calmed, ← List.length_map Feed.calmed] at calm
    exact .supervisor calm
  | consumer step => exact .consumer step.calmed

/-- A step of the calmed run is one of the run. -/
theorem Step.of_calmed (step : Step (feeds.map Feed.calmed) run.calmed calm)
    (launched : run.Launched feeds) : ∃ next, Step feeds run next ∧ next.calmed = calm := by
  obtain ⟨rest, part⟩ := launched.part
  cases step with
  | @launch feed more here left =>
    rw [Run.feeds_calmed, part, List.map_append] at left
    cases rest with
    | nil => simp at left
    | cons first rest =>
      obtain ⟨rfl, -⟩ := List.cons.inj (List.append_cancel_left left)
      refine ⟨_, .launch here part, ?_⟩
      rw [Feed.flow_calmed]
      simp [Run.calmed, Input.calmed, Stage.calmed, Flow.cursor, Cursor.calmed]
  | begin here all =>
    rw [Run.feeds_calmed, part, List.map_append] at all
    have finished : rest = [] := by simpa using all
    refine ⟨_, .begin here ?_, rfl⟩
    rw [part, finished, List.append_nil]
  | @input index _ produced pushed _ _ here step =>
    simp only [Run.calmed, List.getElem?_map, Option.map_eq_some_iff] at here
    obtain ⟨input, here, rfl⟩ := here
    rw [Run.alive_calmed] at step
    obtain ⟨stage, hub, moves, rfl, rfl⟩ := step.of_calmed
    refine ⟨_, .input here moves, ?_⟩
    simp only [Run.calmed, List.map_set]
    rfl
  | supervisor step =>
    rw [Run.alive_calmed, List.length_map] at step
    obtain ⟨rfl, found, hub, moves, rfl⟩ := step.of_calmed
    exact ⟨_, .supervisor moves, rfl⟩
  | consumer step =>
    obtain ⟨hub, moves, rfl⟩ := step.of_calmed
    exact ⟨_, .consumer moves, rfl⟩

theorem Run.mayDrop_calmed (run : Run σ α) : run.calmed.MayDrop ↔ run.MayDrop := by
  unfold Run.MayDrop
  cases stands : run.consumer with
  | launches => simp [Run.calmed, stands]
  | looks | pops | checks | drains | selects | subscribes | listens | waits | rests | ended
  | dropped => simp [Run.calmed, stands]

theorem Outside.calmed (event : Outside run next) : Outside run.calmed next.calmed := by
  cases event with
  | cancel => exact .cancel
  | drop may => exact .drop ((Run.mayDrop_calmed run).mpr may)

theorem Outside.of_calmed (event : Outside run.calmed calm) :
    ∃ next, Outside run next ∧ next.calmed = calm := by
  cases event with
  | cancel => exact ⟨_, .cancel, rfl⟩
  | drop may => exact ⟨_, .drop ((Run.mayDrop_calmed run).mp may), rfl⟩

/-- What a merged run may come to is, but for the payloads of panics and the record of them, what
it may come to when each feed ends where it would have panicked. -/
theorem reachable_calmed : Reachable (feeds.map Feed.calmed) calm ↔
    ∃ run, Reachable feeds run ∧ run.calmed = calm := by
  constructor
  · intro reached
    induction reached with
    | start => exact ⟨_, .start, rfl⟩
    | step _ step ih =>
      obtain ⟨run, reached, rfl⟩ := ih
      obtain ⟨next, step, same⟩ := step.of_calmed reached.lifecycle.1
      exact ⟨next, reached.step step, same⟩
    | outside _ event ih =>
      obtain ⟨run, reached, rfl⟩ := ih
      obtain ⟨next, event, same⟩ := event.of_calmed
      exact ⟨next, reached.outside event, same⟩
  · rintro ⟨run, reached, rfl⟩
    induction reached with
    | start => exact .start
    | step _ step ih => exact ih.step step.calmed
    | outside _ event ih => exact ih.outside event.calmed

end runs
end Merge
end Deferred
