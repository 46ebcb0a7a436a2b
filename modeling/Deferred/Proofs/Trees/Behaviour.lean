import Mathlib.Algebra.Order.Group.Multiset
import Deferred.Proofs.Boundary.History
import Deferred.Proofs.Trees.Grounds

/-! How a run behaves among others. A run is what its consumer pulls at, together with the tasks
that it has spawned. It behaves if, whatever others do meanwhile, it never panics, its items are
those of a list that may come, and in so many turns it comes to its end with no task left, always
having a turn that others can make possible. Behaving is handed down by everything that runs are
built from. -/

namespace Deferred

variable {σ α β : Type}

/-! ### Where a poll leaves a run -/

namespace Items

/-- The run where the poll leaves it, once it has spawned its tasks. -/
def settled : Items σ α → Items σ α
  | item value rest release state => item value rest release state
  | ended state => ended state
  | panic payload release state => panic payload release state
  | waiting wait resume state => waiting wait resume state
  | spawn _ rest state => (rest state).settled

theorem state_settled (items : Items σ α) : items.settled.state = items.state := by
  induction items with
  | item | ended | panic | waiting => rfl
  | spawn child rest state ih => exact ih state

/-- What works on a run node by node, and goes on behind each task that is spawned, finds the run
where the poll leaves it. -/
theorem settled_through {τ ρ : Type} (op : Items σ α → τ) (last : τ → ρ)
    (children : τ → List (σ → Task σ)) (after : τ → σ)
    (spawns : ∀ child rest state, last (op (.spawn child rest state)) = last (op (rest state)) ∧
      children (op (.spawn child rest state)) = child :: children (op (rest state)) ∧
      after (op (.spawn child rest state)) = after (op (rest state)))
    (items : Items σ α) :
    last (op items) = last (op items.settled) ∧
      children (op items) = items.children ++ children (op items.settled) ∧
      after (op items) = after (op items.settled) := by
  induction items with
  | item | ended | panic | waiting => exact ⟨rfl, rfl, rfl⟩
  | spawn child rest state ih =>
    obtain ⟨lasts, spawned, states⟩ := ih state
    obtain ⟨same, begins, ends⟩ := spawns child rest state
    exact ⟨same.trans lasts, begins.trans (congrArg (child :: ·) spawned), ends.trans states⟩

end Items

namespace Job

/-- Tasks that have been spawned and not been polled yet. -/
def spawned (children : List (σ → Task σ)) : Multiset (Job σ) :=
  ↑(children.map fun child => (⟨.passed, child⟩ : Job σ))

/-- The tasks that are left when one of them has had its turn. -/
def after (task : Task σ) (others : Multiset (Job σ)) : Multiset (Job σ) :=
  others + (↑task.job.toList + spawned task.children)

theorem spawned_append (first second : List (σ → Task σ)) :
    spawned (first ++ second) = spawned first + spawned second := by
  simp [spawned]

@[simp] theorem after_done (state : σ) (tasks : Multiset (Job σ)) :
    after (.done state) tasks = tasks :=
  add_zero tasks

@[simp] theorem after_waiting (wait : Wait σ) (resume : σ → Task σ) (state : σ)
    (tasks : Multiset (Job σ)) :
    after (.waiting wait resume state) tasks = ⟨wait, resume⟩ ::ₘ tasks := by
  show tasks + ({⟨wait, resume⟩} + 0) = _
  rw [add_zero, add_comm, Multiset.singleton_add]

theorem after_add (task : Task σ) (tasks others : Multiset (Job σ)) :
    after task (tasks + others) = after task tasks + others :=
  add_right_comm _ _ _

/-- What goes on behind other tasks that have been spawned. -/
theorem after_through {task whole : Task σ} {before : List (σ → Task σ)}
    (job : whole.job = task.job) (children : whole.children = before ++ task.children)
    (tasks : Multiset (Job σ)) : after whole tasks = after task (tasks + spawned before) := by
  unfold after
  rw [job, children, spawned_append, add_assoc, add_left_comm (spawned before)]

end Job

section
variable [Host σ] (grounds : Grounds σ)

/-- A pull comes to an item, to the end or to a wait, and the run goes on from there. -/
def Pulls (next : (List α → Prop) → Cursor σ α → Multiset (Job σ) → Set (Hold σ) → σ → Prop)
    (may : List α → Prop) (tasks : Multiset (Job σ)) (held : Set (Hold σ)) (state : σ)
    (items : Items σ α) : Prop :=
  ∃ kept, grounds.Moves held kept state items.state ∧
    match items.settled with
    | .item value rest release _ =>
        next (fun later => may (value :: later)) ⟨{ Wait.passed with release }, rest⟩
          (tasks + Job.spawned items.children) kept items.state
    | .ended _ => may [] ∧ tasks + Job.spawned items.children = 0
    | .waiting wait resume _ =>
        next may ⟨wait, resume⟩ (tasks + Job.spawned items.children) kept items.state
    | .panic _ _ _ => False
    | .spawn _ _ _ => False

/-- What holds of a run in one state, whatever others have made of it since. -/
structure Carries (next : (List α → Prop) → Cursor σ α → Multiset (Job σ) → Set (Hold σ) → σ → Prop)
    (may : List α → Prop) (cursor : Cursor σ α) (tasks : Multiset (Job σ)) (held : Set (Hold σ))
    (state : σ) : Prop where
  owned : held ⊆ grounds.taken state
  pulls : ∀ now, grounds.Leaves held state now → cursor.wait.opens now = true →
    Pulls grounds next may tasks held now (cursor.resume now)
  works : ∀ now, grounds.Leaves held state now → ∀ job rest, tasks = job ::ₘ rest →
    job.wait.opens now = true →
      ∃ kept, grounds.Moves held kept now (job.resume now).state ∧
        next may cursor (Job.after (job.resume now) rest) kept (job.resume now).state
  goesOn : ∀ now, grounds.Leaves held state now →
    ∃ later, grounds.Leaves (grounds.taken now) now later ∧
      (cursor.wait.opens later = true ∨ ∃ job ∈ tasks, job.wait.opens later = true)

/-- A run that has no more than so many turns left. -/
def Behaves : Nat → (List α → Prop) → Cursor σ α → Multiset (Job σ) → Set (Hold σ) → σ → Prop
  | 0 => fun _ _ _ _ _ => False
  | turns + 1 => Carries grounds (Behaves turns)

end

section
variable [Host σ] {grounds : Grounds σ} {may more : List α → Prop} {cursor : Cursor σ α}
  {tasks extra : Multiset (Job σ)} {held others : Set (Hold σ)} {state now : σ} {turns : Nat}
  {next goal : (List α → Prop) → Cursor σ α → Multiset (Job σ) → Set (Hold σ) → σ → Prop}
  {items : Items σ α}

theorem Pulls.weaken (pulls : Pulls grounds next may tasks held state items)
    (all : ∀ list, may list → more list)
    (gives : ∀ may more cursor tasks held state, (∀ list, may list → more list) →
      next may cursor tasks held state → goal more cursor tasks held state) :
    Pulls grounds goal more tasks held state items := by
  obtain ⟨kept, moves, comes⟩ := pulls
  refine ⟨kept, moves, ?_⟩
  cases node : items.settled with
  | item value rest release last =>
    rw [node] at comes
    exact gives _ _ _ _ _ _ (fun list => all (value :: list)) comes
  | ended last =>
    rw [node] at comes
    exact ⟨all [] comes.1, comes.2⟩
  | waiting wait resume last =>
    rw [node] at comes
    exact gives _ _ _ _ _ _ all comes
  | panic | spawn =>
    rw [node] at comes
    exact comes

/-- More turns may be left, and more lists may come. -/
theorem Behaves.weaken {most : Nat} (behaves : Behaves grounds turns may cursor tasks held state)
    (less : turns ≤ most) (all : ∀ list, may list → more list) :
    Behaves grounds most more cursor tasks held state := by
  induction turns generalizing most may more cursor tasks held state with
  | zero => exact behaves.elim
  | succ turns ih =>
    obtain ⟨most, rfl⟩ : ∃ least, most = least + 1 := ⟨most - 1, by omega⟩
    have fewer : turns ≤ most := by omega
    refine ⟨behaves.owned, fun now leaves opens => ?_, fun now leaves job rest split opens => ?_,
      behaves.goesOn⟩
    · exact (behaves.pulls now leaves opens).weaken all
        fun _ _ _ _ _ _ all next => ih next fewer all
    · obtain ⟨kept, moves, goesOn⟩ := behaves.works now leaves job rest split opens
      exact ⟨kept, moves, ih goesOn fewer all⟩

theorem Behaves.owned (behaves : Behaves grounds turns may cursor tasks held state) :
    held ⊆ grounds.taken state := by
  cases turns with
  | zero => exact behaves.elim
  | succ turns => exact Carries.owned behaves

theorem Behaves.leave (behaves : Behaves grounds turns may cursor tasks held state)
    (leaves : grounds.Leaves held state now) :
    Behaves grounds turns may cursor tasks held now := by
  cases turns with
  | zero => exact behaves.elim
  | succ turns =>
    exact ⟨behaves.owned.trans leaves.taken,
      fun later more => behaves.pulls later (leaves.trans more),
      fun later more => behaves.works later (leaves.trans more),
      fun later more => behaves.goesOn later (leaves.trans more)⟩

/-- A pull of what another run hands on, after its own moves and with the tasks that it spawned. -/
theorem Pulls.prepend {kept : Set (Hold σ)} {middle : σ} {before : List (σ → Task σ)}
    {whole : Items σ α}
    (pulls : Pulls grounds next may (tasks + Job.spawned before) kept middle items)
    (moves : grounds.Moves held kept state middle) (settled : whole.settled = items.settled)
    (children : whole.children = before ++ items.children) (same : whole.state = items.state) :
    Pulls grounds next may tasks held state whole := by
  obtain ⟨last, further, comes⟩ := pulls
  refine ⟨last, same ▸ moves.trans further, ?_⟩
  rw [settled, children, same, Job.spawned_append, ← add_assoc]
  exact comes

/-- A pull after moves of its own. -/
theorem Pulls.after {kept : Set (Hold σ)} {middle : σ}
    (pulls : Pulls grounds next may tasks kept middle items)
    (moves : grounds.Moves held kept state middle) :
    Pulls grounds next may tasks held state items := by
  obtain ⟨last, further, comes⟩ := pulls
  exact ⟨last, moves.trans further, comes⟩

theorem Pulls.waiting {wait : Wait σ} {resume : σ → Items σ α} (calm : grounds.calm state)
    (owned : held ⊆ grounds.taken state) (rests : next may ⟨wait, resume⟩ tasks held state) :
    Pulls grounds next may tasks held state (.waiting wait resume state) := by
  refine ⟨held, .refl calm owned, ?_⟩
  show next may ⟨wait, resume⟩ (tasks + 0) held state
  rwa [add_zero]

theorem Pulls.item {value : α} {rest : σ → Items σ α} {release : σ → σ} (calm : grounds.calm state)
    (owned : held ⊆ grounds.taken state)
    (rests : next (fun later => may (value :: later)) ⟨{ Wait.passed with release }, rest⟩ tasks
      held state) : Pulls grounds next may tasks held state (.item value rest release state) := by
  refine ⟨held, .refl calm owned, ?_⟩
  show next _ _ (tasks + 0) held state
  rwa [add_zero]

end

/-! ### What runs are built from -/

section
variable [Host σ] {grounds : Grounds σ} (op : Items σ α → Items σ β)
  (relate : (List α → Prop) → List β → Prop) (spare : Nat) (aside : Set (Hold σ))
  (stands : σ → Prop)

/-- What works on a run node by node behaves as the run does, if it knows what to do with an item
and at the end. It may stand by for something that is held aside meanwhile. -/
theorem Behaves.through
    (spawns : ∀ child rest state,
      op (.spawn child rest state) = .spawn child (fun s => op (rest s)) state)
    (waits : ∀ wait resume state,
      op (.waiting wait resume state) = .waiting wait (fun s => op (resume s)) state)
    (lasts : ∀ state now, grounds.Leaves aside state now → stands state → stands now)
    (atItem : ∀ turns may value rest release tasks held state, grounds.calm state →
      (∀ now, grounds.Leaves (held ∪ aside) state now →
        Behaves grounds (turns + spare) (relate fun later => may (value :: later))
          ⟨{ Wait.passed with release }, fun s => op (rest s)⟩ tasks (held ∪ aside) now) →
      Pulls grounds (Behaves grounds (turns + spare)) (relate may) tasks (held ∪ aside) state
        (op (.item value rest release state)))
    (atEnd : ∀ turns may held state, grounds.calm state → held ∪ aside ⊆ grounds.taken state →
      may [] → stands state →
      Pulls grounds (Behaves grounds (turns + spare)) (relate may) 0 (held ∪ aside) state
        (op (.ended state))) :
    ∀ (turns : Nat) (may : List α → Prop) (cursor : Cursor σ α) (tasks : Multiset (Job σ))
      (held : Set (Hold σ)) (state : σ), Behaves grounds turns may cursor tasks held state →
      aside ⊆ grounds.taken state → Disjoint held aside → stands state →
      Behaves grounds (turns + spare) (relate may)
        ⟨cursor.wait, fun s => op (cursor.resume s)⟩ tasks (held ∪ aside) state := by
  intro turns
  induction turns with
  | zero => exact fun _ _ _ _ _ behaves => behaves.elim
  | succ turns ih =>
    intro may cursor tasks held state behaves owned apart ready
    rw [Nat.succ_add]
    refine ⟨Set.union_subset behaves.owned owned, fun now leaves opens => ?_,
      fun now leaves job rest split opens => ?_, fun now leaves =>
        behaves.goesOn now (leaves.mono Set.subset_union_left)⟩
    · have kept := leaves.mono (Set.subset_union_right (s := held) (t := aside))
      obtain ⟨taken, moves, comes⟩ :=
        behaves.pulls now (leaves.mono Set.subset_union_left) opens
      -- What stands by is left alone by others, and then by the moves of the run itself.
      have there := owned.trans leaves.taken
      have spared := moves.leaves there apart
      have still := lasts _ _ spared (lasts _ _ kept ready)
      have apart := moves.disjoint there apart
      obtain ⟨settled, children, after⟩ := Items.settled_through op Items.settled Items.children
        Items.state (fun child rest state => by rw [spawns]; exact ⟨rfl, rfl, rfl⟩)
        (cursor.resume now)
      have same := (cursor.resume now).state_settled
      refine Pulls.prepend ?_ (moves.union there) settled children after
      cases node : (cursor.resume now).settled with
      | item value rest release last =>
        rw [node] at comes same
        obtain rfl : last = (cursor.resume now).state := same
        refine atItem turns may value rest release _ taken _ moves.calm fun later more => ?_
        have goesOn := Behaves.leave comes (more.mono Set.subset_union_left)
        have beside := more.mono (Set.subset_union_right (s := taken) (t := aside))
        exact ih _ _ _ _ _ goesOn ((there.trans spared.taken).trans more.taken) apart
          (lasts _ _ beside still)
      | ended last =>
        rw [node] at comes same
        obtain rfl : last = (cursor.resume now).state := same
        rw [comes.2]
        exact atEnd turns may taken _ moves.calm
          (Set.union_subset moves.owned (there.trans spared.taken)) comes.1 still
      | waiting wait resume last =>
        rw [node] at comes same
        obtain rfl : last = (cursor.resume now).state := same
        rw [waits]
        exact .waiting moves.calm (Set.union_subset moves.owned (there.trans spared.taken))
          (ih _ _ _ _ _ comes (there.trans spared.taken) apart still)
      | panic | spawn =>
        rw [node] at comes
        exact comes.elim
    · have kept := leaves.mono (Set.subset_union_right (s := held) (t := aside))
      obtain ⟨taken, moves, goesOn⟩ :=
        behaves.works now (leaves.mono Set.subset_union_left) job rest split opens
      have there := owned.trans leaves.taken
      have spared := moves.leaves there apart
      exact ⟨_, moves.union there, ih _ _ _ _ _ goesOn (there.trans spared.taken)
        (moves.disjoint there apart) (lasts _ _ spared (lasts _ _ kept ready))⟩

end

/-- The feed starts with nothing but hubs of its own, and its run behaves. -/
def Feed.Runs [Host σ] (grounds : Grounds σ) (turns : Nat) (may : List α → Prop)
    (feed : Feed σ α) : Prop :=
  ∀ state, grounds.calm state → ∃ flow after held, feed.start state = (.ok flow, after) ∧
    grounds.Moves ∅ held state after ∧ Behaves grounds turns may (Flow.cursor flow) 0 held after

section
variable [Host σ] {grounds : Grounds σ} {may : List α → Prop} {turns : Nat} {feed : Feed σ α}

namespace Feed.Runs

theorem weaken {most : Nat} {more : List α → Prop} (runs : feed.Runs grounds turns may)
    (less : turns ≤ most) (all : ∀ list, may list → more list) : feed.Runs grounds most more := by
  intro state calm
  obtain ⟨flow, after, held, starts, moves, behaves⟩ := runs state calm
  exact ⟨flow, after, held, starts, moves, behaves.weaken less all⟩

/-- An adaptor of one feed starts it and works on its run node by node. -/
theorem adapted {adaptor : Feed σ β} (op : Items σ α → Items σ β)
    (relate : (List α → Prop) → List β → Prop)
    (starts : adaptor.start = do
      let flow ← feed.start
      return fun state => op (flow state))
    (spawns : ∀ child rest state,
      op (.spawn child rest state) = .spawn child (fun s => op (rest s)) state)
    (waits : ∀ wait resume state,
      op (.waiting wait resume state) = .waiting wait (fun s => op (resume s)) state)
    (ends : ∀ state, op (.ended state) = .ended state) (empty : ∀ may, may [] → relate may [])
    (atItem : ∀ turns may value rest release tasks held state, grounds.calm state →
      (∀ now, grounds.Leaves held state now →
        Behaves grounds turns (relate fun later => may (value :: later))
          ⟨{ Wait.passed with release }, fun s => op (rest s)⟩ tasks held now) →
      Pulls grounds (Behaves grounds turns) (relate may) tasks held state
        (op (.item value rest release state)))
    (runs : feed.Runs grounds turns may) : adaptor.Runs grounds turns (relate may) := by
  intro state calm
  obtain ⟨flow, after, held, started, moves, behaves⟩ := runs state calm
  refine ⟨_, after, held, starts ▸ Code.bind_of_ok started, moves, ?_⟩
  have through := Behaves.through op relate 0 ∅ (fun _ => True) spawns waits
    (fun _ _ _ _ => trivial) ?_ ?_ turns may _ 0 held after behaves (Set.empty_subset _)
    (Set.disjoint_empty held) trivial
  · rwa [Set.union_empty] at through
  · intro turns may value rest release tasks held state calm goesOn
    rw [Set.union_empty] at goesOn ⊢
    exact atItem turns may value rest release tasks held state calm goesOn
  · intro turns may held state calm owned ended _
    rw [Set.union_empty] at owned ⊢
    rw [ends]
    exact ⟨held, .refl calm owned, empty may ended, rfl⟩

/-- Each item becomes what the function makes of it. -/
theorem map {f : α → Code σ β} {image : α → β}
    (total : ∀ value, grounds.Total (f value) (image value)) (runs : feed.Runs grounds turns may) :
    (feed.map f).Runs grounds turns fun list => ∃ source, may source ∧ list = source.map image := by
  refine adapted (Items.map f) (fun may list => ∃ source, may source ∧ list = source.map image) rfl
    (fun _ _ _ => rfl) (fun _ _ _ => rfl) (fun _ => rfl) (fun _ ended => ⟨[], ended, rfl⟩) ?_ runs
  intro turns may value rest release tasks held state calm goesOn
  obtain ⟨after, mapped, leaves⟩ := total value state calm
  have owned := (goesOn state (.refl calm)).owned
  have node : (Items.item value rest release state).map f =
      .item (image value) (fun s => (rest s).map f) release after := by
    simp only [Items.map, mapped]
  rw [node]
  refine ⟨held, leaves.moves owned, ?_⟩
  show Behaves _ _ _ _ (tasks + 0) held after
  rw [add_zero]
  refine (goesOn after (leaves.mono owned)).weaken le_rfl ?_
  rintro list ⟨source, ended, rfl⟩
  exact ⟨value :: source, ended, rfl⟩

/-- Items that are not accepted are left out. -/
theorem filter {accepts : α → Code σ Bool} {fine : α → Bool}
    (total : ∀ value, grounds.Total (accepts value) (fine value))
    (runs : feed.Runs grounds turns may) :
    (feed.filter accepts).Runs grounds turns fun list =>
      ∃ source, may source ∧ list = source.filter fine := by
  refine adapted (Items.filter accepts)
    (fun may list => ∃ source, may source ∧ list = source.filter fine) rfl
    (fun _ _ _ => rfl) (fun _ _ _ => rfl) (fun _ => rfl) (fun _ ended => ⟨[], ended, rfl⟩) ?_ runs
  intro turns may value rest release tasks held state calm goesOn
  obtain ⟨after, answered, leaves⟩ := total value state calm
  have owned := (goesOn state (.refl calm)).owned
  have later := goesOn after (leaves.mono owned)
  cases accepted : fine value with
  | true =>
    have node : (Items.item value rest release state).filter accepts =
        .item value (fun s => (rest s).filter accepts) release after := by
      simp only [Items.filter, answered, accepted]
    rw [node]
    refine ⟨held, leaves.moves owned, ?_⟩
    show Behaves _ _ _ _ (tasks + 0) held after
    rw [add_zero]
    refine later.weaken le_rfl ?_
    rintro list ⟨source, ended, rfl⟩
    exact ⟨value :: source, ended, by rw [List.filter_cons, accepted, if_pos rfl]⟩
  | false =>
    have node : (Items.item value rest release state).filter accepts =
        (rest after).filter accepts := by
      simp only [Items.filter, answered, accepted]
    -- The pull goes on behind the item, which the source has used a turn for.
    cases turns with
    | zero => exact later.elim
    | succ turns =>
      have pulls := later.pulls after (.refl leaves.calm) rfl
      rw [node]
      refine (pulls.after (leaves.moves owned)).weaken ?_
        fun _ _ _ _ _ _ all next => Behaves.weaken next (Nat.le_succ turns) all
      rintro list ⟨source, ended, rfl⟩
      exact ⟨value :: source, ended, by rw [List.filter_cons, accepted, if_neg Bool.false_ne_true]⟩

/-- The second feed is started with the first, and stands by until that comes to its end. -/
theorem append {second : Feed σ α} {more : List α → Prop} {later : Nat}
    (runs : feed.Runs grounds turns may) (follows : second.Runs grounds later more) :
    (feed.append second).Runs grounds (turns + later) fun list =>
      ∃ first last, may first ∧ more last ∧ list = first ++ last := by
  intro state calm
  obtain ⟨flow, middle, held, started, moves, behaves⟩ := runs state calm
  obtain ⟨next, after, aside, goesOn, further, waits⟩ := follows middle moves.calm
  have spared := further.leaves behaves.owned (Set.empty_disjoint held)
  have apart := (further.disjoint behaves.owned (Set.empty_disjoint held)).symm
  have both := further.union behaves.owned
  rw [Set.empty_union, Set.union_comm] at both
  refine ⟨_, after, held ∪ aside, (Code.bind_of_ok started).trans (Code.bind_of_ok goesOn),
    moves.trans both, ?_⟩
  refine Behaves.through (Items.append next)
    (fun may list => ∃ first last, may first ∧ more last ∧ list = first ++ last) _ aside
    (Behaves grounds _ more (Flow.cursor next) 0 aside) (fun _ _ _ => rfl) (fun _ _ _ => rfl)
    (fun _ _ leaves waits => waits.leave leaves) ?_ ?_ turns may _ 0 held after
    (behaves.leave spared) waits.owned apart waits
  · intro turns may value rest release tasks held state calm goesOn
    have begins := goesOn state (.refl calm)
    refine .item calm begins.owned (begins.weaken le_rfl ?_)
    rintro list ⟨first, last, ended, follows, rfl⟩
    exact ⟨value :: first, last, ended, follows, rfl⟩
  · intro turns may held state calm owned ended waits
    cases later with
    | zero => exact waits.elim
    | succ later =>
      obtain ⟨kept, moves, comes⟩ := waits.pulls state (.refl calm) rfl
      refine Pulls.weaken ⟨kept, moves.grow Set.subset_union_right, comes⟩
        (fun list follows => ⟨[], list, ended, follows, rfl⟩)
        fun _ _ _ _ _ _ all next => Behaves.weaken next (by omega) all

end Feed.Runs

end

/-! ### Leaves of a tree -/

section
variable [Host σ] (grounds : Grounds σ)

/-- From this state on the run gives these items in order, with no more than so many pauses, each of
which others can end. It touches no hub and spawns nothing. -/
inductive Items.Lists : List α → Nat → σ → Items σ α → Prop where
  | item {value values pauses start rest release state}
      (leaves : grounds.Leaves (grounds.taken start) start state)
      (rests : ∀ now, grounds.calm now → Lists values pauses now (rest now)) :
      Lists (value :: values) pauses start (.item value rest release state)
  | ended {pauses start state} (leaves : grounds.Leaves (grounds.taken start) start state) :
      Lists [] pauses start (.ended state)
  | waiting {values pauses start wait resume state}
      (leaves : grounds.Leaves (grounds.taken start) start state)
      (opens : ∀ now, grounds.calm now →
        ∃ later, grounds.Leaves (grounds.taken now) now later ∧ wait.opens later = true)
      (resumes : ∀ now, grounds.calm now → wait.opens now = true →
        Lists values pauses now (resume now)) :
      Lists values (pauses + 1) start (.waiting wait resume state)

/-- Each run of the feed gives these items, in its own time. -/
def Feed.Lists (values : List α) (pauses : Nat) (feed : Feed σ α) : Prop :=
  ∀ state, grounds.calm state → ∃ flow after, feed.start state = (.ok flow, after) ∧
    grounds.Leaves (grounds.taken state) state after ∧
    ∀ now, grounds.calm now → (flow now).Lists grounds values pauses now

variable {grounds} {values : List α} {pauses : Nat}

theorem Behaves.of_lists (turns : Nat) :
    ∀ (values : List α) (pauses : Nat) (cursor : Cursor σ α), values.length + pauses + 1 = turns →
      (∀ now, grounds.calm now → cursor.wait.opens now = true →
        (cursor.resume now).Lists grounds values pauses now) →
      (∀ now, grounds.calm now → ∃ later, grounds.Leaves (grounds.taken now) now later ∧
        cursor.wait.opens later = true) →
      ∀ state, Behaves grounds turns (· = values) cursor 0 ∅ state := by
  induction turns with
  | zero => exact fun _ _ _ sum => absurd sum (Nat.succ_ne_zero _)
  | succ turns ih =>
    intro values pauses cursor sum gives opens state
    refine ⟨Set.empty_subset _, fun now leaves open_ => ?_,
      fun now _ job rest split => absurd split.symm (Multiset.cons_ne_zero),
      fun now leaves => ?_⟩
    · have given := gives now leaves.calm open_
      generalize cursor.resume now = items at given
      cases given with
      | @item value values pauses start rest release state spared rests =>
        refine ⟨∅, spared.moves (Set.empty_subset _), ?_⟩
        have goesOn := ih values pauses ⟨{ Wait.passed with release }, rest⟩
          (by rw [List.length_cons] at sum; omega) (fun now calm _ => rests now calm)
          (fun now calm => ⟨now, .refl calm, rfl⟩) state
        exact goesOn.weaken le_rfl fun list same => congrArg (value :: ·) same
      | ended spared => exact ⟨∅, spared.moves (Set.empty_subset _), rfl, rfl⟩
      | @waiting values pauses start wait resume state spared opens resumes =>
        refine ⟨∅, spared.moves (Set.empty_subset _), ?_⟩
        exact ih values pauses ⟨wait, resume⟩ (by omega) resumes opens state
    · obtain ⟨later, spared, open_⟩ := opens now leaves.calm
      exact ⟨later, spared, .inl open_⟩

theorem Feed.Lists.runs {feed : Feed σ α} (gives : feed.Lists grounds values pauses) :
    feed.Runs grounds (values.length + pauses + 1) (· = values) := by
  intro state calm
  obtain ⟨flow, after, starts, leaves, items⟩ := gives state calm
  exact ⟨flow, after, ∅, starts, (leaves.moves (Set.empty_subset _)),
    Behaves.of_lists _ _ _ _ rfl (fun now calm _ => items now calm)
      (fun now calm => ⟨now, .refl calm, rfl⟩) after⟩

theorem Flow.lists_ofList (values : List α) (now : σ) (calm : grounds.calm now) :
    (Flow.ofList values now).Lists grounds values 0 now := by
  induction values generalizing now with
  | nil => exact .ended (.refl calm)
  | cons value values ih => exact .item (.refl calm) ih

/-- A list gives its items without a pause. -/
theorem Feed.lists_ofList (values : List α) : (Feed.ofList values).Lists grounds values 0 :=
  fun state calm => ⟨_, state, rfl, .refl calm, Flow.lists_ofList values⟩

end

end Deferred
