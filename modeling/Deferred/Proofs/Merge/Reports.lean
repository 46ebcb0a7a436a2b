import Deferred.Proofs.Merge.Conservation

/-! What the supervisor of a merged run records. How many inputs it has looked at is told by where
it stands, and what it finds in the hub is how they have ended. It looks when all of them are over:
so nothing is recorded while an input goes on, and then each panic once, in the order of the
inputs. -/

namespace Deferred.Merge

variable {σ α : Type} {feeds : List (Feed σ α)} {run next : Run σ α}

/-! ### The ends that are noted -/

def Stage.fate? : Stage σ α → Option Fate
  | done fate => some fate
  | _ => none

/-- The payload of an input that has ended with a panic. -/
def Stage.panic? (stage : Stage σ α) : Option Payload :=
  stage.fate?.bind Fate.payload

theorem Stage.panic?_eq_some {stage : Stage σ α} {payload : Payload} :
    stage.panic? = some payload ↔ stage = .done (.panicked payload) := by
  cases stage with
  | done fate => cases fate <;> simp [panic?, fate?, Fate.payload]
  | pulls | holds | pushes | signals | releases | leaves => simp [panic?, fate?]

/-- The hub knows of each input how it has ended, and of nobody else. -/
def Run.Notes (run : Run σ α) : Prop :=
  ∀ index, run.hub.ends.lookup index =
    (run.inputs[index]?.bind (·.stage.fate?)).map Fate.payload

theorem Stage.Step.notes {index : Nat} {alive : Prop} {stage next : Stage σ α} {hub after : Hub α}
    {produced pushed : List α}
    (step : Stage.Step index alive stage hub produced pushed next after) :
    stage.fate? = none ∧ (next.fate? = none ∧ after.ends = hub.ends ∨
      ∃ fate, next.fate? = some fate ∧ after.ends = hub.ends ++ [(index, fate.payload)]) := by
  cases step with
  | @pull cursor _ state =>
    refine ⟨rfl, .inl ⟨?_, rfl⟩⟩
    cases cursor.resume state <;> rfl
  | @leave fate => exact ⟨rfl, .inr ⟨fate, rfl, rfl⟩⟩
  | upgrade | refuse | push | signal | release => exact ⟨rfl, .inl ⟨rfl, rfl⟩⟩

theorem Run.Notes.input (before : run.Notes) {index : Nat} {input : Input σ α}
    {produced pushed : List α} {stage : Stage σ α} {hub : Hub α}
    (here : run.inputs[index]? = some input)
    (step : Stage.Step index run.Alive input.stage run.hub produced pushed stage hub) :
    Run.Notes { run with
      inputs := run.inputs.set index { input with stage, produced := input.produced ++ produced }
      hub
      pushed := run.pushed ++ pushed.map (index, ·) } := by
  have bound := (List.getElem?_eq_some_iff.mp here).1
  obtain ⟨running, unnoted | noted⟩ := step.notes
  · intro other
    obtain ⟨none, same⟩ := unnoted
    have earlier := before other
    dsimp only
    rw [same, earlier, List.getElem?_set]
    split
    next itself =>
      subst itself
      rw [here]
      simp [running, none]
    next => rfl
  · intro other
    obtain ⟨fate, ended, grown⟩ := noted
    have earlier := before other
    dsimp only
    rw [grown, List.lookup_append, earlier, List.getElem?_set]
    split
    next itself =>
      subst itself
      rw [here]
      simp [running, ended]
    next apart =>
      have missed : (other == index) = false := by simpa using Ne.symm apart
      simp [List.lookup_cons, missed]

theorem Step.notes (step : Step feeds run next) (before : run.Notes) : next.Notes := by
  cases step with
  | @launch feed =>
    intro index
    have earlier := before index
    dsimp only
    rw [earlier, List.getElem?_append]
    split
    next => rfl
    next beyond =>
      rw [List.getElem?_eq_none (Nat.le_of_not_lt beyond)]
      cases within : index - run.inputs.length <;> rfl
  | begin => exact before
  | input here step => exact before.input here step
  | supervisor step =>
    intro index
    rw [step.frame.2.2]
    exact before index
  | consumer step =>
    intro index
    rw [step.frame.2]
    exact before index

theorem Outside.notes (event : Outside run next) (before : run.Notes) : next.Notes := by
  cases event <;> exact before

theorem Reachable.notes (reached : Reachable feeds run) : run.Notes := by
  induction reached with
  | start => exact fun _ => rfl
  | step _ step ih => exact step.notes ih
  | outside _ event ih => exact event.notes ih

theorem Run.Notes.panicOf (notes : run.Notes) (index : Nat) :
    run.hub.panicOf index = run.inputs[index]?.bind (·.stage.panic?) := by
  unfold Hub.panicOf
  rw [notes index]
  cases run.inputs[index]? with
  | none => rfl
  | some input => cases stands : input.stage.fate? <;> simp [Stage.panic?, stands]

/-! ### The record -/

/-- The inputs of which the supervisor has recorded what there was to record. -/
def Supervisor.recorded (inputs : Nat) : Supervisor → Nat
  | unborn => 0
  | awaits => 0
  | reports next => next
  | _ => inputs

/-- Whether the supervisor has nothing left to record. -/
def Supervisor.hasReported : Supervisor → Bool
  | unborn => false
  | awaits => false
  | reports _ => false
  | _ => true

theorem Supervisor.recorded_of_not_joined {supervisor : Supervisor} {inputs : Nat}
    (waits : supervisor.hasJoined = false) : supervisor.recorded inputs = 0 := by
  cases supervisor <;> first | rfl | cases waits

theorem Supervisor.recorded_of_hasReported {supervisor : Supervisor} {inputs : Nat}
    (reported : supervisor.hasReported = true) : supervisor.recorded inputs = inputs := by
  cases supervisor <;> first | rfl | cases reported

theorem Supervisor.hasReported_of_hasClosed {supervisor : Supervisor}
    (closed : supervisor.hasClosed = true) : supervisor.hasReported = true := by
  cases supervisor <;> first | rfl | cases closed

theorem Supervisor.hasJoined_of_hasReported {supervisor : Supervisor}
    (reported : supervisor.hasReported = true) : supervisor.hasJoined = true := by
  cases supervisor <;> first | rfl | cases reported

/-- The errors to record of the first inputs, in their order. -/
def reportsOf (hub : Hub α) (inputs : Nat) : List (Nat × Error) :=
  (List.range inputs).flatMap (Supervisor.report hub)

theorem reportsOf_succ (hub : Hub α) (inputs : Nat) :
    reportsOf hub (inputs + 1) = reportsOf hub inputs ++ Supervisor.report hub inputs := by
  simp [reportsOf, List.range_succ]

theorem panicOf_of_ends {hub after : Hub α} (ends : after.ends = hub.ends) (index : Nat) :
    after.panicOf index = hub.panicOf index := by
  rw [Hub.panicOf, ends, Hub.panicOf]

theorem Supervisor.report_of_ends {hub after : Hub α} (ends : after.ends = hub.ends) (index : Nat) :
    Supervisor.report after index = Supervisor.report hub index := by
  rw [Supervisor.report, panicOf_of_ends ends, Supervisor.report]

theorem reportsOf_of_ends {hub after : Hub α} (ends : after.ends = hub.ends) (inputs : Nat) :
    reportsOf after inputs = reportsOf hub inputs := by
  unfold reportsOf
  rw [funext (Supervisor.report_of_ends ends)]

theorem Supervisor.Step.records {inputs : Nat} {alive : Prop} {supervisor after : Supervisor}
    {hub rest : Hub α} {recorded : List (Nat × Error)}
    (step : Supervisor.Step inputs alive supervisor hub recorded after rest) :
    reportsOf rest (after.recorded inputs) =
      reportsOf hub (supervisor.recorded inputs) ++ recorded := by
  cases step with
  | report => exact reportsOf_succ hub _
  | join | reported | upgrade | gone | close | signal => exact (List.append_nil _).symm

/-- What is recorded is what the supervisor has found. -/
def Run.Records (feeds : List (Feed σ α)) (run : Run σ α) : Prop :=
  run.recorded = reportsOf run.hub (run.supervisor.recorded feeds.length)

theorem Step.records (step : Step feeds run next) (launched : run.Launched feeds)
    (closing : run.Closing) (before : run.Records feeds) : next.Records feeds := by
  unfold Run.Records at before ⊢
  cases step with
  | launch => exact before
  | begin here =>
    rw [launched.unborn here] at before
    exact before
  | @input index input produced pushed stage hub here step =>
    have waits : run.supervisor.hasJoined = false := by
      refine Bool.eq_false_iff.mpr fun joined => ?_
      have done := closing.joined joined input (List.mem_of_getElem? here)
      rw [step.ends.1] at done
      cases done
    dsimp only
    rw [before, Supervisor.recorded_of_not_joined waits]
    rfl
  | supervisor step =>
    dsimp only
    rw [step.records, before]
  | consumer step =>
    dsimp only
    rw [before, reportsOf_of_ends step.frame.2]

theorem Outside.records (event : Outside run next) (before : run.Records feeds) :
    next.Records feeds := by
  cases event <;> exact before

theorem Reachable.records (reached : Reachable feeds run) : run.Records feeds := by
  induction reached with
  | start => rfl
  | step reached step ih =>
    obtain ⟨launched, closing⟩ := reached.lifecycle
    exact step.records launched closing ih
  | outside _ event ih => exact event.records ih

/-! ### Panics and reports -/

/-- The panics with which inputs have ended, in the order of the inputs. -/
def Run.panics (run : Run σ α) : List (Nat × Error) :=
  (List.range run.inputs.length).flatMap fun index =>
    ((run.inputs[index]?.bind (·.stage.panic?)).map fun payload =>
      (index, Error.ofPanic payload)).toList

theorem Run.Notes.panics (notes : run.Notes) :
    run.panics = reportsOf run.hub run.inputs.length := by
  unfold Run.panics reportsOf Supervisor.report
  simp only [notes.panicOf]

theorem reportsOf_isPrefix (hub : Hub α) {fewer inputs : Nat} (le : fewer ≤ inputs) :
    reportsOf hub fewer <+: reportsOf hub inputs := by
  obtain ⟨more, rfl⟩ := Nat.exists_eq_add_of_le le
  unfold reportsOf
  rw [List.range_add, List.flatMap_append]
  exact List.prefix_append _ _

theorem Run.mem_panics {index : Nat} {error : Error} :
    (index, error) ∈ run.panics ↔ ∃ input payload, run.inputs[index]? = some input ∧
      input.stage = .done (.panicked payload) ∧ error = .ofPanic payload := by
  simp only [Run.panics, List.mem_flatMap, List.mem_range, Option.mem_toList,
    Option.map_eq_some_iff, Option.bind_eq_some_iff, Prod.mk.injEq, Stage.panic?_eq_some]
  constructor
  · rintro ⟨_, -, payload, ⟨input, here, stands⟩, rfl, rfl⟩
    exact ⟨input, payload, here, stands, rfl⟩
  · rintro ⟨input, payload, here, stands, rfl⟩
    exact ⟨index, (List.getElem?_eq_some_iff.mp here).1, payload, ⟨input, here, stands⟩, rfl, rfl⟩

/-- The panics of a run are those of the feeds. -/
theorem Reachable.mem_panics (reached : Reachable feeds run) {index : Nat} {error : Error} :
    (index, error) ∈ run.panics ↔ ∃ input payload, run.inputs[index]? = some input ∧
      input.stage = .done (.panicked payload) ∧ input.feed.Panics input.produced payload ∧
        error = .ofPanic payload := by
  rw [Run.mem_panics]
  constructor
  · rintro ⟨input, payload, here, stands, same⟩
    have follows := (reached.orderly.2.inputs index input here).1
    rw [stands] at follows
    exact ⟨input, payload, here, stands, follows, same⟩
  · rintro ⟨input, payload, here, stands, -, same⟩
    exact ⟨input, payload, here, stands, same⟩

theorem Run.panics_ordered (run : Run σ α) : run.panics.Pairwise (·.1 < ·.1) := by
  refine List.pairwise_flatMap.mpr ⟨fun index _ => ?_, ?_⟩
  · cases run.inputs[index]?.bind (·.stage.panic?) with
    | none => exact .nil
    | some payload => exact List.pairwise_singleton _ _
  · refine List.pairwise_lt_range.imp fun {index other} less entry here later there => ?_
    simp only [Option.mem_toList, Option.map_eq_some_iff] at here there
    obtain ⟨_, -, rfl⟩ := here
    obtain ⟨_, -, rfl⟩ := there
    exact less

/-- What a merged run records of its inputs' panics. -/
structure Run.Reports (run : Run σ α) : Prop where
  /-- The record holds the panics of the first inputs. -/
  begun : run.recorded <+: run.panics
  waits : (∃ input ∈ run.inputs, input.stage.isDone = false) → run.recorded = []
  all : run.supervisor.hasReported = true → run.recorded = run.panics
  ended : ∀ close, run.consumer = .ended close → run.flag.raised = false →
    run.supervisor.hasReported = true

theorem Supervisor.born_of_hasJoined {supervisor : Supervisor}
    (joined : supervisor.hasJoined = true) : supervisor ≠ .unborn := by
  rintro rfl
  cases joined

theorem Run.Launched.length_inputs (launched : run.Launched feeds)
    (born : run.supervisor ≠ .unborn) : run.inputs.length = feeds.length := by
  have same := congrArg List.length (launched.all born)
  rwa [List.length_map] at same

theorem Run.Launched.recorded_le (launched : run.Launched feeds) :
    run.supervisor.recorded feeds.length ≤ feeds.length := by
  cases stands : run.supervisor with
  | reports next => exact launched.reports next stands
  | unborn | awaits => exact Nat.zero_le _
  | upgrades | closes | signals | done => exact Nat.le_refl _

theorem Reachable.reports (reached : Reachable feeds run) : run.Reports := by
  obtain ⟨launched, closing⟩ := reached.lifecycle
  have records : run.recorded = reportsOf run.hub (run.supervisor.recorded feeds.length) :=
    reached.records
  have panics := reached.notes.panics
  have nothing (waits : run.supervisor.hasJoined = false) : run.recorded = [] := by
    rw [records, Supervisor.recorded_of_not_joined waits]
    rfl
  have everyone (joined : run.supervisor.hasJoined = true) :
      run.inputs.length = feeds.length :=
    launched.length_inputs (Supervisor.born_of_hasJoined joined)
  refine ⟨?_, ?_, ?_, ?_⟩
  · cases joined : run.supervisor.hasJoined with
    | false =>
      rw [nothing joined]
      exact List.nil_prefix
    | true =>
      rw [records, panics, everyone joined]
      exact reportsOf_isPrefix _ launched.recorded_le
  · rintro ⟨input, member, goesOn⟩
    refine nothing (Bool.eq_false_iff.mpr fun joined => ?_)
    rw [closing.joined joined input member] at goesOn
    cases goesOn
  · intro reported
    rw [records, panics, everyone (Supervisor.hasJoined_of_hasReported reported),
      Supervisor.recorded_of_hasReported reported]
  · intro close ended lowered
    cases close with
    | finished =>
      exact Supervisor.hasReported_of_hasClosed (closing.closed (closing.finished ended).1)
    | cancelled count =>
      rw [closing.cancelled count ended] at lowered
      cases lowered

/-! ### Inputs that go on -/

/-- Nobody can take a step but inputs that are suspended in their feeds. -/
structure Run.Idle (feeds : List (Feed σ α)) (run : Run σ α) : Prop where
  launched : run.consumer ≠ .launches
  inputs : ∀ input ∈ run.inputs,
    input.stage.isDone = true ∨ ∃ cursor, input.stage = .pulls cursor
  supervisor : ∀ recorded supervisor hub,
    ¬Supervisor.Step feeds.length run.Alive run.supervisor run.hub recorded supervisor hub
  consumer : ∀ yielded consumer hub,
    ¬Consumer.Step run.flag run.consumer run.hub yielded consumer hub

/-- A consumer that is dropped before its first poll leaves no inputs behind. -/
theorem Reachable.never_launched (reached : Reachable feeds run) (unborn : run.supervisor = .unborn)
    (dropped : run.consumer = .dropped) : run.inputs = [] := by
  induction reached with
  | start => rfl
  | @step run next reached step ih =>
    cases step with
    | launch here => exact absurd (here.symm.trans dropped) nofun
    | begin => cases unborn
    | input here =>
      rw [ih unborn dropped] at here
      cases here
    | supervisor step => exact absurd unborn step.born.2
    | consumer step =>
      rcases reached.lifecycle.1.born unborn with launches | gone
      · exact absurd launches step.past_launch.1
      · have present := step.attached.1
        rw [gone] at present
        cases present
  | @outside run next reached event ih =>
    cases event with
    | cancel => exact ih unborn dropped
    | drop may =>
      rcases reached.lifecycle.1.born unborn with launches | gone
      · unfold Run.MayDrop at may
        rwa [launches] at may
      · have present := may.present
        rw [gone] at present
        cases present

/-- When all inputs are over, the supervisor can go on until it has recorded everything. -/
theorem Supervisor.reports_of_stuck {inputs : Nat} {alive : Prop} {supervisor : Supervisor}
    {hub : Hub α} (born : supervisor ≠ .unborn) (ended : hub.ends.length = inputs)
    (bound : ∀ next, supervisor = .reports next → next ≤ inputs)
    (stuck : ∀ recorded after rest,
      ¬Supervisor.Step inputs alive supervisor hub recorded after rest) :
    supervisor.hasReported = true := by
  cases supervisor with
  | unborn => exact absurd rfl born
  | awaits => exact absurd (.join ended) (stuck _ _ _)
  | reports next =>
    rcases Nat.lt_or_eq_of_le (bound next rfl) with less | rfl
    · exact absurd (.report less) (stuck _ _ _)
    · exact absurd .reported (stuck _ _ _)
  | upgrades | closes | signals | done => rfl

/-- Where nobody goes on but suspended inputs, the panic of an input is recorded if and only if all
the other inputs have ended as well; as long as one of them goes on nothing is recorded at all. -/
theorem Reachable.recorded_when_idle (reached : Reachable feeds run) (idle : run.Idle feeds)
    {index : Nat} {input : Input σ α} {payload : Payload}
    (here : run.inputs[index]? = some input) (ended : input.stage = .done (.panicked payload)) :
    ((index, Error.ofPanic payload) ∈ run.recorded ↔
        ∀ other ∈ run.inputs, other.stage.isDone = true) ∧
      ((∃ other ∈ run.inputs, other.stage.isDone = false) → run.recorded = []) := by
  obtain ⟨launched, closing⟩ := reached.lifecycle
  have reports := reached.reports
  refine ⟨⟨fun recorded other member => ?_, fun done => ?_⟩, reports.waits⟩
  · rw [← Bool.not_eq_false]
    intro goesOn
    rw [reports.waits ⟨other, member, goesOn⟩] at recorded
    cases recorded
  · have born : run.supervisor ≠ .unborn := by
      intro unborn
      rcases launched.born unborn with launches | dropped
      · exact idle.launched launches
      · rw [reached.never_launched unborn dropped] at here
        cases here
    have noted : run.hub.ends.length = feeds.length := by
      rw [closing.ends, ← launched.length_inputs born]
      exact List.countP_eq_length.mpr done
    have reported := Supervisor.reports_of_stuck born noted launched.reports idle.supervisor
    rw [reports.all reported]
    exact Run.mem_panics.mpr ⟨input, payload, here, ended, rfl⟩

/-- A feed that panics as soon as it is polled. -/
def explosive : Feed σ α :=
  ⟨pure fun state => .panic (.fixed "boom") id state⟩

/-- One input has panicked, and the other one will never end. -/
def hushed : Run Unit Nat where
  inputs := [⟨explosive, .done (.panicked (.fixed "boom")), []⟩,
    ⟨.never, .pulls ⟨.forever, Flow.empty⟩, []⟩]
  supervisor := .awaits
  consumer := .waits 0
  hub := ⟨.empty, ⟨false, .waiting⟩, true, true, [(0, some (.fixed "boom"))]⟩
  flag := .lowered
  pushed := []
  yielded := []
  recorded := []

theorem reachable_hushed : Reachable [explosive, .never] hushed := by
  have launched := ((@Reachable.start Unit Nat _).step
    (@Step.launch _ _ _ _ explosive [.never] rfl rfl)).step
    (@Step.launch _ _ [explosive, .never] _ .never [] rfl rfl)
  have looked := (((launched.step (.begin rfl rfl)).step (.consumer (.look rfl))).step
    (.consumer (.none rfl))).step (.consumer (.runs rfl))
  have again := (((looked.step (.consumer (.heard rfl))).step (.consumer (.look rfl))).step
    (.consumer (.none rfl))).step (.consumer (.runs rfl))
  have waits : Reachable [explosive, .never] { hushed with
      inputs := [⟨explosive, .pulls explosive.flow.cursor, []⟩,
        ⟨.never, .pulls (Feed.flow .never).cursor, []⟩]
      hub := { hushed.hub with ends := [] } } :=
    (again.step (.consumer (.listen rfl))).step (.consumer (.wait rfl))
  have suspended := waits.step
    (@Step.input _ _ _ _ 1 _ _ _ _ _ rfl (@Stage.Step.pull _ _ _ _ _ _ () rfl))
  have leaves := suspended.step
    (@Step.input _ _ _ _ 0 _ _ _ _ _ rfl (@Stage.Step.pull _ _ _ _ _ _ () rfl))
  have done := leaves.step (@Step.input _ _ _ _ 0 _ _ _ _ _ rfl .leave)
  exact done

theorem idle_hushed : hushed.Idle [explosive, .never] where
  launched := nofun
  inputs input member := by
    rcases List.mem_cons.mp member with rfl | member
    · exact .inl rfl
    · rw [List.mem_singleton.mp member]
      exact .inr ⟨_, rfl⟩
  supervisor _ _ _ step := by
    cases step with
    | join ended => cases ended
  consumer _ _ _ step := by
    cases step with
    | answer called => cases called
    | obey calls => cases calls

theorem Reachable.recorded_when_idle_hushed :
    (0, Error.panicked "boom") ∉ hushed.recorded ∧ hushed.recorded = [] := by
  have here : hushed.inputs[0]? = some _ := rfl
  obtain ⟨recorded, nothing⟩ :=
    Reachable.recorded_when_idle reachable_hushed idle_hushed here rfl
  refine ⟨fun reported => ?_, nothing ⟨_, List.mem_cons_of_mem _ List.mem_cons_self, rfl⟩⟩
  cases recorded.mp reported _ (List.mem_cons_of_mem _ List.mem_cons_self)

/-- A panic can stay unrecorded for ever, because another input never ends. -/
theorem panic_hushed :
    ¬∀ (feeds : List (Feed Unit Nat)) (run : Run Unit Nat) (index : Nat) (input : Input Unit Nat)
      (payload : Payload), Reachable feeds run → run.Idle feeds →
        run.inputs[index]? = some input → input.stage = .done (.panicked payload) →
          (index, Error.ofPanic payload) ∈ run.recorded := by
  intro claimed
  cases claimed _ _ 0 _ _ reachable_hushed idle_hushed rfl rfl

end Deferred.Merge
