import Deferred.Proofs.Merge.Polls
import Deferred.Proofs.Merge.Steps

/-! One turn of the task of an input or of the supervisor. What such a task does in a poll are steps
of that part of the merged run, and what is left of it shows where the part stands. -/

namespace Deferred.Merge

variable {σ α : Type}

/-! ### Inputs -/

/-- The steps of one input in a poll. Nobody else acts meanwhile but for raising the flag, and the
hub is there for as long as the consumer. -/
inductive Stage.Steps (index : Nat) : Stage σ α → Hub α → Flag → List α → List α →
    Stage σ α → Hub α → Flag → Prop where
  | refl {stage hub flag} : Steps index stage hub flag [] [] stage hub flag
  | step {stage hub flag produced pushed next rest made sent last after mark}
      (step : Stage.Step index (hub.attached = true) stage hub produced pushed next rest)
      (steps : Steps index next rest flag made sent last after mark) :
      Steps index stage hub flag (produced ++ made) (pushed ++ sent) last after mark
  | raise {stage hub flag made sent last after mark}
      (steps : Steps index stage hub flag.raise made sent last after mark) :
      Steps index stage hub flag made sent last after mark

namespace Stage.Steps

variable {index : Nat} {stage last : Stage σ α} {hub after : Hub α} {flag between mark : Flag}
  {made sent : List α}

theorem raises (becomes : flag.Becomes between)
    (steps : Steps index stage hub between made sent last after mark) :
    Steps index stage hub flag made sent last after mark := by
  induction becomes using Relation.ReflTransGen.head_induction_on with
  | refl => exact steps
  | head raised _ ih => subst raised; exact .raise ih

/-- What an input does with an item that is taken. -/
theorem delivers {value : α} {rest : Flow σ α} (attached : hub.attached = true)
    (steps : Steps index (.pulls rest.cursor) (hub.enqueue value).notify flag made sent last after
      mark) : Steps index (.holds value rest) hub flag made (value :: sent) last after mark :=
  .step (.upgrade attached) (.step .push (.step .signal (.step .release steps)))

/-- Whatever an input does, the ends that were noted, a call and a raised flag stand. -/
theorem stands (steps : Steps index stage hub flag made sent last after mark) :
    hub.ends.length ≤ after.ends.length ∧
      (hub.signal.isCalled = true → after.signal.isCalled = true) ∧
      (flag.raised = true → mark.raised = true) := by
  induction steps with
  | refl => exact ⟨Nat.le_refl _, id, id⟩
  | step step _ ih =>
    obtain ⟨ends, called, raised⟩ := ih
    refine ⟨Nat.le_trans ?_ ends, fun before => called ?_, raised⟩
    · rw [step.ends.2]
      exact Nat.le_add_right _ _
    · cases step with
      | signal => exact Signal.isCalled_give before
      | pull | upgrade | refuse | push | release | leave => exact before
  | raise _ ih =>
    obtain ⟨ends, called, raised⟩ := ih
    exact ⟨ends, called, fun _ => raised rfl⟩

end Stage.Steps

/-- A pull, in which the feed may raise the flag. -/
theorem Stage.Steps.pulls {place : Place σ (Hub α)} {cancellation : Cancellation σ}
    {index : Nat} {cursor : Cursor σ α} {items : Items σ α} {start state : σ} {made sent : List α}
    {last : Stage σ α} {after : Hub α} {mark : Flag}
    (opens : cursor.wait.opens start = true) (node : cursor.resume start = items)
    (spares : Spares place cancellation start state)
    (steps : Steps index (ofItems items) (place.get state) (cancellation.flag.get state) made sent
      last after mark) :
    Steps index (.pulls cursor) (place.get start) (cancellation.flag.get start)
      (items.given ++ made) sent last after mark := by
  subst node
  rw [spares.hub] at steps
  exact .step (.pull opens) (steps.raises spares.flag)

/-- The task of an input from this point of its run on. -/
def feedTask [Host σ] (place : Place σ (Hub α)) (index : Nat) (items : Items σ α) : Task σ :=
  items.toTask (deliver place) fun payload => place.modify (Hub.checkOut index payload)

theorem input_eq [Host σ] (place : Place σ (Hub α)) (index : Nat) (feed : Feed σ α) :
    input place index feed = fun state => feedTask place index (feed.flow state) := by
  funext state
  unfold input Feed.flow
  rcases feed.start state with ⟨payload | flow, after⟩ <;> rfl

theorem deliver_eq [Host σ] (place : Place σ (Hub α)) (value : α) (state : σ) :
    deliver place value state =
      if (place.get state).attached = true then
        (true, place.set ((place.get state).enqueue value).notify state)
      else (false, Host.trace .inputStopped (place.set (place.get state) state)) := by
  cases attached : (place.get state).attached <;>
    simp [deliver, Place.step, Hub.push, attached]

/-- What is left of the task of an input at this stage. -/
inductive Stage.Shows [Host σ] (place : Place σ (Hub α)) (cancellation : Cancellation σ)
    (index : Nat) : Stage σ α → Option (Job σ) → Prop where
  | pulls {cursor}
      (spares : ∀ state, ItemsSpare place cancellation state (cursor.resume state)) :
      Shows place cancellation index (.pulls cursor)
        (some ⟨cursor.wait, fun state => feedTask place index (cursor.resume state)⟩)
  | done {fate} : Shows place cancellation index (.done fate) none

variable [Host σ] {place : Place σ (Hub α)} {cancellation : Cancellation σ}

/-- The task of an input comes to its end. -/
theorem Stage.Steps.leaves (apart : Apart place cancellation) (index : Nat) (fate : Fate)
    (state : σ) :
    Steps index (.leaves fate : Stage σ α) (place.get state) (cancellation.flag.get state) [] []
      (.done fate) (place.get (place.modify (Hub.checkOut index fate.payload) state))
      (cancellation.flag.get (place.modify (Hub.checkOut index fate.payload) state)) := by
  rw [(apart.modify _ state).1, (apart.modify _ state).2]
  exact .step .leave .refl

/-- A turn of the task of an input. -/
theorem Stage.exists_steps (apart : Apart place cancellation) (index : Nat) {start : σ}
    {items : Items σ α} (spares : ItemsSpare place cancellation start items) :
    ∀ cursor : Cursor σ α, cursor.wait.opens start = true → cursor.resume start = items →
      ∃ stage made sent, Stage.Steps index (.pulls cursor) (place.get start)
        (cancellation.flag.get start) made sent stage
        (place.get (feedTask place index items).state)
        (cancellation.flag.get (feedTask place index items).state) ∧
        Stage.Shows place cancellation index stage (feedTask place index items).job := by
  induction spares with
  | @item start value rest release state spares releases resumes ih =>
    intro cursor opens node
    simp only [feedTask, Items.toTask]
    rw [deliver_eq]
    by_cases attached : (place.get state).attached = true
    · rw [if_pos attached]
      dsimp only
      obtain ⟨stage, made, sent, steps, shows⟩ :=
        ih (place.set ((place.get state).enqueue value).notify state) (Flow.cursor rest) rfl rfl
      rw [place.get_set, apart.flag_set] at steps
      exact ⟨stage, _, _, .pulls opens node spares (.delivers attached steps), shows⟩
    · rw [if_neg attached]
      dsimp only
      have released := releases (Host.trace .inputStopped (place.set (place.get state) state))
      have leaves := Stage.Steps.leaves (σ := σ) apart index .stopped
        (release (Host.trace .inputStopped (place.set (place.get state) state)))
      rw [released.hub, apart.hub_trace, place.get_set] at leaves
      have stops := leaves.raises released.flag
      rw [apart.flag_trace, apart.flag_set] at stops
      exact ⟨_, _, _, .pulls opens node spares (.step (.refuse attached) stops), .done⟩
  | ended spares =>
    intro cursor opens node
    exact ⟨_, _, _, .pulls opens node spares (.leaves apart index .finished _), .done⟩
  | @panic start payload release state spares releases =>
    intro cursor opens node
    exact ⟨_, _, _, .pulls opens node (spares.trans (releases state))
      (.leaves apart index (.panicked payload) _), .done⟩
  | waiting spares resumes ih =>
    intro cursor opens node
    exact ⟨_, _, _, .pulls opens node spares .refl, .pulls resumes⟩
  | @spawn start child rest state spares resumes ih =>
    intro cursor opens node
    obtain ⟨stage, made, sent, steps, shows⟩ := ih state (Flow.cursor rest) rfl rfl
    exact ⟨stage, _, _, .pulls opens node spares steps, shows⟩

/-! ### The supervisor -/

/-- The steps of the supervisor in a poll, during which nobody else acts. -/
inductive Supervisor.Steps (inputs : Nat) :
    Supervisor → Hub α → List (Nat × Error) → Supervisor → Hub α → Prop where
  | refl {supervisor hub} : Steps inputs supervisor hub [] supervisor hub
  | step {supervisor hub recorded next rest more last after}
      (step : Supervisor.Step inputs (hub.attached = true) supervisor hub recorded next rest)
      (steps : Steps inputs next rest more last after) :
      Steps inputs supervisor hub (recorded ++ more) last after

theorem Supervisor.Steps.called {inputs : Nat} {supervisor last : Supervisor} {hub after : Hub α}
    {recorded : List (Nat × Error)} (steps : Steps inputs supervisor hub recorded last after)
    (called : hub.signal.isCalled = true) : after.signal.isCalled = true := by
  induction steps with
  | refl => exact called
  | step step _ ih =>
    apply ih
    cases step with
    | signal => exact Signal.isCalled_give called
    | join | report | reported | upgrade | gone | close => exact called

theorem Supervisor.Steps.frame {inputs : Nat} {supervisor last : Supervisor} {hub after : Hub α}
    {recorded : List (Nat × Error)} (steps : Steps inputs supervisor hub recorded last after) :
    after.queue = hub.queue ∧ after.attached = hub.attached := by
  induction steps with
  | refl => exact ⟨rfl, rfl⟩
  | step step _ ih =>
    obtain ⟨queue, attached, -⟩ := step.frame
    exact ⟨ih.1.trans queue, ih.2.trans attached⟩

theorem Supervisor.Steps.reports {inputs : Nat} {hub after : Hub α} {last : Supervisor}
    {recorded : List (Nat × Error)} (steps : Steps inputs .upgrades hub recorded last after)
    (left : Nat) : ∀ next, next + left = inputs →
      ∃ more, Steps inputs (.reports next) hub more last after := by
  induction left with
  | zero =>
    intro next sum
    subst sum
    exact ⟨_, .step .reported steps⟩
  | succ left ih =>
    intro next sum
    obtain ⟨more, rest⟩ := ih (next + 1) (by omega)
    exact ⟨_, .step (.report (by omega)) rest⟩

/-- What the supervisor does when all inputs have ended. -/
theorem Supervisor.Steps.closes {inputs : Nat} {hub : Hub α} (ended : hub.ends.length = inputs) :
    ∃ recorded, Steps inputs .awaits hub recorded .done hub.close := by
  have upgrades : ∃ recorded, Steps inputs .upgrades hub recorded .done hub.close := by
    unfold Hub.close
    split
    case isTrue attached =>
      exact ⟨_, .step (.upgrade attached) (.step .close (.step .signal .refl))⟩
    case isFalse gone => exact ⟨_, .step (.gone gone) .refl⟩
  obtain ⟨recorded, steps⟩ := upgrades
  obtain ⟨more, reports⟩ := steps.reports inputs 0 (Nat.zero_add inputs)
  exact ⟨_, .step (.join ended) reports⟩

theorem Apart.recordPanic (apart : Apart place cancellation) (index : Nat) (state : σ) :
    place.get (Merge.recordPanic place state index) = place.get state ∧
      cancellation.flag.get (Merge.recordPanic place state index) =
        cancellation.flag.get state := by
  unfold Merge.recordPanic
  split
  · exact ⟨rfl, rfl⟩
  · exact ⟨(apart.hub_trace _ _).trans (apart.hub_record _ _),
      (apart.flag_trace _ _).trans (apart.flag_record _ _)⟩

theorem Apart.foldl_recordPanic (apart : Apart place cancellation) (indices : List Nat) :
    ∀ state : σ, place.get (indices.foldl (Merge.recordPanic place) state) = place.get state ∧
      cancellation.flag.get (indices.foldl (Merge.recordPanic place) state) =
        cancellation.flag.get state := by
  induction indices with
  | nil => exact fun state => ⟨rfl, rfl⟩
  | cons index rest ih =>
    intro state
    obtain ⟨hub, flag⟩ := ih (Merge.recordPanic place state index)
    have first := apart.recordPanic index state
    exact ⟨hub.trans first.1, flag.trans first.2⟩

theorem Apart.wrapUp (apart : Apart place cancellation) (inputs : Nat) (state : σ) :
    place.get (Merge.wrapUp place inputs state) = (place.get state).close ∧
      cancellation.flag.get (Merge.wrapUp place inputs state) = cancellation.flag.get state := by
  have recorded := apart.foldl_recordPanic (List.range inputs) state
  unfold Merge.wrapUp
  dsimp only
  rw [(apart.modify _ _).1, (apart.modify _ _).2, apart.hub_trace, apart.flag_trace, recorded.1,
    recorded.2]
  exact ⟨rfl, rfl⟩

/-- The rest of the supervisor's task when it has seen so many inputs end. -/
def watch (place : Place σ (Hub α)) (inputs seen left : Nat) (state : σ) : Task σ :=
  (endsAfter place seen left state).toTask fun () => wrapUp place inputs

/-- The same when one more has ended, which the supervisor has not paid for yet. -/
def notice (place : Place σ (Hub α)) (inputs seen left : Nat) (state : σ) : Task σ :=
  ((show Poll σ Unit from Future.pay state).bind fun () => endsAfter place (seen + 1) left).toTask
    fun () => wrapUp place inputs

theorem watch_succ (place : Place σ (Hub α)) (inputs seen left : Nat) (state : σ) :
    watch place inputs seen (left + 1) state =
      if seen < (place.get state).ends.length then notice place inputs seen left state
      else .waiting ⟨none, fun s => decide (seen < (place.get s).ends.length), id⟩
        (notice place inputs seen left) state := by
  have looked : watch place inputs seen (left + 1) state =
      ((nextEnd place seen state).bind fun () => endsAfter place (seen + 1) left).toTask
        fun () => wrapUp place inputs := rfl
  rw [looked]
  unfold nextEnd
  simp only [decide_eq_true_eq]
  split <;> rfl

theorem notice_eq (place : Place σ (Hub α)) (inputs seen left : Nat) (state : σ) :
    notice place inputs seen left state =
      if 0 < Host.allowance state then watch place inputs (seen + 1) left (Host.spend state)
      else .waiting .turn (fun s => watch place inputs (seen + 1) left (Host.spend s)) state := by
  have paid : (show Poll σ Unit from Future.pay state) =
      Poll.bind (if 0 < Host.allowance state then .ready () state
        else .waiting .turn (fun s => .ready () s) state)
        fun () s => .ready () (Host.spend s) := rfl
  unfold notice
  rw [paid]
  split <;> rfl

/-- What is left of the supervisor's task, before it is spawned and after. -/
inductive Supervisor.Shows (place : Place σ (Hub α)) (inputs : Nat) :
    Supervisor → Hub α → Option (Option (Job σ)) → Prop where
  | unborn {hub} : Shows place inputs .unborn hub none
  | begins {hub} : Shows place inputs .awaits hub (some (some ⟨.passed, supervisor place inputs⟩))
  | waits {hub seen left} (sum : seen + (left + 1) = inputs) :
      Shows place inputs .awaits hub (some (some
        ⟨⟨none, fun s => decide (seen < (place.get s).ends.length), id⟩,
          notice place inputs seen left⟩))
  | pays {hub seen left} (sum : seen + (left + 1) = inputs) (noticed : seen < hub.ends.length) :
      Shows place inputs .awaits hub (some (some
        ⟨.turn, fun s => watch place inputs (seen + 1) left (Host.spend s)⟩))
  | done {hub} : Shows place inputs .done hub (some none)

theorem Supervisor.Shows.mono {inputs : Nat} {supervisor : Supervisor} {hub after : Hub α}
    {job : Option (Option (Job σ))} (shows : Shows place inputs supervisor hub job)
    (ends : hub.ends.length ≤ after.ends.length) : Shows place inputs supervisor after job := by
  cases shows with
  | unborn => exact .unborn
  | begins => exact .begins
  | waits sum => exact .waits sum
  | pays sum noticed => exact .pays sum (Nat.lt_of_lt_of_le noticed ends)
  | done => exact .done

/-- By steps of its own the supervisor comes from this state to what is left of its task. -/
def Supervisor.Comes (place : Place σ (Hub α)) (cancellation : Cancellation σ) (inputs : Nat)
    (state : σ) (task : Task σ) : Prop :=
  ∃ supervisor recorded, Steps inputs .awaits (place.get state) recorded supervisor
      (place.get task.state) ∧
    cancellation.flag.get task.state = cancellation.flag.get state ∧
    Shows place inputs supervisor (place.get task.state) (some task.job)

theorem Supervisor.Comes.of_spend (apart : Apart place cancellation) {inputs : Nat} {state : σ}
    {task : Task σ} (comes : Comes place cancellation inputs (Host.spend state) task) :
    Comes place cancellation inputs state task := by
  have same : place.get (Host.spend state) = place.get state := apart.hub_allow _ _
  obtain ⟨supervisor, recorded, steps, flag, shows⟩ := comes
  rw [same] at steps
  exact ⟨supervisor, recorded, steps, flag.trans (apart.flag_allow _ _), shows⟩

/-- A turn of the supervisor that has seen so many inputs end and looks for the others. -/
theorem Supervisor.comes_watch (apart : Apart place cancellation) (inputs left : Nat) :
    ∀ (seen : Nat) (state : σ), seen + left = inputs →
      seen ≤ (place.get state).ends.length → (place.get state).ends.length ≤ inputs →
      Comes place cancellation inputs state (watch place inputs seen left state) := by
  induction left with
  | zero =>
    intro seen state sum noticed all
    have ended : (place.get state).ends.length = inputs := by omega
    obtain ⟨recorded, steps⟩ := Supervisor.Steps.closes ended
    have wrapped := apart.wrapUp inputs state
    rw [← wrapped.1] at steps
    exact ⟨.done, recorded, steps, wrapped.2, .done⟩
  | succ left ih =>
    intro seen state sum _ all
    rw [watch_succ]
    split
    case isTrue noticed =>
      rw [notice_eq]
      split
      · have same : place.get (Host.spend state) = place.get state := apart.hub_allow _ _
        refine (ih (seen + 1) _ (by omega) ?_ ?_).of_spend apart <;> rw [same]
        · exact noticed
        · exact all
      · exact ⟨_, _, .refl, rfl, .pays sum noticed⟩
    case isFalse => exact ⟨_, _, .refl, rfl, .waits sum⟩

/-- A turn of the supervisor. -/
theorem Supervisor.Shows.comes (apart : Apart place cancellation) {inputs : Nat}
    {supervisor : Supervisor} {state : σ} {job : Job σ}
    (shows : Shows place inputs supervisor (place.get state) (some (some job)))
    (opens : job.wait.opens state = true) (all : (place.get state).ends.length ≤ inputs) :
    supervisor = .awaits ∧ Comes place cancellation inputs state (job.resume state) := by
  have same : place.get (Host.spend state) = place.get state := apart.hub_allow _ _
  cases shows with
  | begins => exact ⟨rfl, comes_watch apart inputs inputs 0 state (by omega) (Nat.zero_le _) all⟩
  | @waits _ seen left sum =>
    have noticed : seen < (place.get state).ends.length := of_decide_eq_true opens
    have watched := comes_watch apart inputs (left + 1) seen state sum (Nat.le_of_lt noticed) all
    rw [watch_succ, if_pos noticed] at watched
    exact ⟨rfl, watched⟩
  | @pays _ seen left sum noticed =>
    refine ⟨rfl, (comes_watch apart inputs left (seen + 1) _ (by omega) ?_ ?_).of_spend apart⟩ <;>
      rw [same]
    · exact noticed
    · exact all

end Deferred.Merge
