import Deferred.Proofs.Boundary.Containment
import Deferred.Proofs.Trees.Tree

/-! The course of a gathered tree. The run and the tasks that it has spawned have their turns in any
order, each whenever its wait is open, and in between others do as they like, as long as they leave
alone the hubs that were handed out in these turns and nobody cancels. Each turn brings the run
closer to its end, which nothing can keep it from. -/

namespace Deferred

variable {σ α ρ : Type}

/-- What is left of a run that was called: the run itself, its tasks, the hubs that were handed out
in its turns, and the state. -/
structure Remains (σ ρ : Type) : Type 1 where
  run : Running σ ρ
  tasks : Multiset (Job σ)
  held : Set (Hold σ)
  state : σ

section
variable [Host σ] (grounds : Grounds σ)

/-- So many turns of a run and of its tasks, and what others do in between. -/
inductive Course : Nat → Remains σ ρ → Remains σ ρ → Prop where
  | refl {start} : Course 0 start start
  | others {turns start run tasks held state now}
      (earlier : Course turns start ⟨run, tasks, held, state⟩)
      (leaves : grounds.Leaves held state now) : Course turns start ⟨run, tasks, held, now⟩
  | poll {turns start wait resume tasks held state}
      (earlier : Course turns start ⟨.stopped wait resume, tasks, held, state⟩)
      (opens : wait.opens state = true) :
      Course (turns + 1) start ⟨(resume state).running,
        tasks + Job.spawned (resume state).children,
        held ∪ (grounds.taken (resume state).state \ grounds.taken state), (resume state).state⟩
  | task {turns start run job tasks held state}
      (earlier : Course turns start ⟨run, job ::ₘ tasks, held, state⟩)
      (opens : job.wait.opens state = true) :
      Course (turns + 1) start ⟨run, Job.after (job.resume state) tasks,
        held ∪ (grounds.taken (job.resume state).state \ grounds.taken state),
        (job.resume state).state⟩

/-- The run is over and has answered so, or others can give it or one of its tasks a turn. -/
def Remains.Fine (answers : ρ → Prop) (here : Remains σ ρ) : Prop :=
  match here.run with
  | .answered result => here.tasks = 0 ∧ answers result
  | .stopped wait _ =>
      ∃ later, grounds.Leaves (grounds.taken here.state) here.state later ∧
        (wait.opens later = true ∨ ∃ job ∈ here.tasks, job.wait.opens later = true)
  | .panicked => False
  | .dropped => False

end

/-- The poll of a gathered run that has come so far, with the items that have come before. -/
def gathered [Host σ] (earlier : List α) (items : Items σ α) : Poll σ (Verdict (List α)) :=
  (items.gatherAfter earlier).contained.bind fun result state => .ready (.ofExcept result) state

theorem Feed.call_gather [Host σ] {feed : Feed σ α} {flow : Flow σ α} {state after : σ}
    (starts : feed.start state = (.ok flow, after)) :
    feed.gather.call state = (.ok fun s => gathered [] (flow s), after) := by
  have builds :
      (feed.start >>= fun flow => pure fun s => (flow s).gather : Code σ (Future σ (List α)))
        state = (.ok fun s => (flow s).gather, after) := Code.bind_of_ok starts
  have contained :
      (liftM (contain (feed.start >>= fun flow => pure fun s => (flow s).gather)) :
        Code σ (Except Error (Future σ (List α)))) state =
          (.ok (.ok fun s => (flow s).gather), after) :=
    congrArg (fun built : _ × σ => (Except.ok built.1, built.2)) (contain_of_ok builds)
  exact Code.bind_of_ok contained

section
variable [Host σ] {grounds : Grounds σ}

theorem Course.trans {turns more : Nat} {start middle last : Remains σ ρ}
    (course : Course grounds turns start middle) (goesOn : Course grounds more middle last) :
    Course grounds (turns + more) start last := by
  induction goesOn with
  | refl => exact course
  | others _ leaves ih => exact .others (ih course) leaves
  | poll _ opens ih => exact .poll (ih course) opens
  | task _ opens ih => exact .task (ih course) opens

end

section
variable [Host σ] (grounds : Grounds σ) (goal : List α → Prop)

/-- A gathered run that has so many turns left. -/
inductive Gathers : Nat → Running σ (Verdict (List α)) → Multiset (Job σ) → Set (Hold σ) → σ → Prop
    where
  | goesOn {left may cursor earlier tasks held state}
      (behaves : Behaves grounds left may cursor tasks held state)
      (gives : ∀ list, may list → goal (earlier.reverse ++ list)) :
      Gathers left (.stopped cursor.wait fun s => gathered earlier (cursor.resume s)) tasks held
        state
  | answered {left list state} (reached : goal list) :
      Gathers left (.answered (.success list)) 0 ∅ state

/-- What is left of a gathered run, while it holds no more than it was handed. -/
structure Remains.Proceeds (left : Nat) (here : Remains σ (Verdict (List α))) : Prop where
  calm : grounds.calm here.state
  owned : here.held ⊆ grounds.taken here.state
  gathers : ∃ kept ⊆ here.held, Gathers grounds goal left here.run here.tasks kept here.state

end

section
variable [Host σ] {grounds : Grounds σ} {goal may : List α → Prop} {left : Nat}
  {run : Running σ (Verdict (List α))} {tasks : Multiset (Job σ)} {held kept : Set (Hold σ)}
  {state now : σ} {here : Remains σ (Verdict (List α))}

theorem Gathers.weaken {most : Nat} (gathers : Gathers grounds goal left run tasks held state)
    (less : left ≤ most) : Gathers grounds goal most run tasks held state := by
  cases gathers with
  | goesOn behaves gives => exact .goesOn (behaves.weaken less fun _ => id) gives
  | answered reached => exact .answered reached

theorem Gathers.leave (gathers : Gathers grounds goal left run tasks held state)
    (leaves : grounds.Leaves held state now) : Gathers grounds goal left run tasks held now := by
  cases gathers with
  | goesOn behaves gives => exact .goesOn (behaves.leave leaves) gives
  | answered reached => exact .answered reached

/-- A poll gathers one item after the other until the run ends or waits. -/
theorem gathers_of_pulls {items : Items σ α} {earlier : List α}
    (pulls : Pulls grounds (Behaves grounds left) may tasks held state items)
    (gives : ∀ list, may list → goal (earlier.reverse ++ list)) :
    ∃ kept, grounds.Moves held kept state (gathered earlier items).state ∧
      Gathers grounds goal left (gathered earlier items).running
        (tasks + Job.spawned (gathered earlier items).children) kept
        (gathered earlier items).state := by
  induction left using Nat.strong_induction_on generalizing may tasks held state items earlier with
  | _ left ih =>
    obtain ⟨kept, moves, comes⟩ := pulls
    obtain ⟨running, children, same⟩ := Items.settled_through (gathered earlier) Poll.running
      Poll.children Poll.state (fun _ _ _ => ⟨rfl, rfl, rfl⟩) items
    have last := items.state_settled
    rw [running, children, same, Job.spawned_append, ← add_assoc]
    cases node : items.settled with
    | item value rest release after =>
      rw [node] at comes last
      obtain rfl : after = items.state := last
      cases left with
      | zero => exact comes.elim
      | succ left =>
        have pulls := Carries.pulls comes _ (.refl moves.calm) rfl
        have later : ∀ list, may (value :: list) → goal ((value :: earlier).reverse ++ list) :=
          fun list follows => by
            rw [List.reverse_cons, List.append_assoc]
            exact gives (value :: list) follows
        obtain ⟨last, further, gathers⟩ := ih left (Nat.lt_succ_self left) pulls later
        exact ⟨last, moves.trans further, gathers.weaken (Nat.le_succ left)⟩
    | ended after =>
      rw [node] at comes last
      obtain rfl : after = items.state := last
      have reached := gives [] comes.1
      rw [List.append_nil] at reached
      rw [comes.2]
      exact ⟨∅, moves.shrink (Set.empty_subset kept), .answered reached⟩
    | waiting wait resume after =>
      rw [node] at comes last
      obtain rfl : after = items.state := last
      have goesOn : Gathers grounds goal left
        (.stopped wait fun s => gathered earlier (resume s)) _ kept items.state :=
          .goesOn comes gives
      rw [← add_zero (tasks + _)] at goesOn
      exact ⟨kept, moves, goesOn⟩
    | panic | spawn =>
      rw [node] at comes
      exact comes.elim

/-- A gathered run that has not answered has a turn, or others can give it one. -/
theorem Gathers.fine (gathers : Gathers grounds goal left run tasks kept state)
    (calm : grounds.calm state) :
    (⟨run, tasks, held, state⟩ : Remains σ _).Fine grounds fun verdict =>
      ∃ list, verdict = .success list ∧ goal list := by
  cases gathers with
  | goesOn behaves gives =>
    cases left with
    | zero => exact behaves.elim
    | succ left => exact Carries.goesOn behaves state (.refl calm)
  | answered reached => exact ⟨rfl, _, rfl, reached⟩

namespace Remains.Proceeds

theorem fine (proceeds : here.Proceeds grounds goal left) :
    here.Fine grounds fun verdict => ∃ list, verdict = .success list ∧ goal list := by
  obtain ⟨calm, -, kept, -, gathers⟩ := proceeds
  exact gathers.fine calm

theorem others (proceeds : (⟨run, tasks, held, state⟩ : Remains σ _).Proceeds grounds goal left)
    (leaves : grounds.Leaves held state now) :
    (⟨run, tasks, held, now⟩ : Remains σ _).Proceeds grounds goal left := by
  obtain ⟨-, owned, kept, within, gathers⟩ := proceeds
  exact ⟨leaves.calm, owned.trans leaves.taken, kept, within, gathers.leave (leaves.mono within)⟩

/-- A turn of the run. -/
theorem poll {wait : Wait σ} {resume : σ → Poll σ (Verdict (List α))}
    (proceeds :
      (⟨.stopped wait resume, tasks, held, state⟩ : Remains σ _).Proceeds grounds goal left)
    (opens : wait.opens state = true) :
    ∃ fewer < left, (⟨(resume state).running, tasks + Job.spawned (resume state).children,
      held ∪ (grounds.taken (resume state).state \ grounds.taken state),
      (resume state).state⟩ : Remains σ _).Proceeds grounds goal fewer := by
  obtain ⟨calm, owned, kept, within, gathers⟩ := proceeds
  cases gathers with
  | goesOn behaves gives =>
    cases left with
    | zero => exact behaves.elim
    | succ left =>
      obtain ⟨extra, moves, gathers⟩ :=
        gathers_of_pulls (Carries.pulls behaves state (.refl calm) opens) gives
      exact ⟨left, Nat.lt_succ_self left, moves.calm,
        Set.union_subset (owned.trans moves.taken) Set.sdiff_subset, extra, moves.within within,
        gathers⟩

/-- A turn of a task. -/
theorem task {job : Job σ}
    (proceeds : (⟨run, job ::ₘ tasks, held, state⟩ : Remains σ _).Proceeds grounds goal left)
    (opens : job.wait.opens state = true) :
    ∃ fewer < left, (⟨run, Job.after (job.resume state) tasks,
      held ∪ (grounds.taken (job.resume state).state \ grounds.taken state),
      (job.resume state).state⟩ : Remains σ _).Proceeds grounds goal fewer := by
  obtain ⟨calm, owned, kept, within, gathers⟩ := proceeds
  generalize all : job ::ₘ tasks = jobs at gathers
  cases gathers with
  | goesOn behaves gives =>
    cases left with
    | zero => exact behaves.elim
    | succ left =>
      obtain ⟨extra, moves, goesOn⟩ :=
        Carries.works behaves state (.refl calm) job tasks all.symm opens
      exact ⟨left, Nat.lt_succ_self left, moves.calm,
        Set.union_subset (owned.trans moves.taken) Set.sdiff_subset, extra, moves.within within,
        .goesOn goesOn gives⟩
  | answered reached => exact absurd all Multiset.cons_ne_zero

/-- Every turn of a course is one of those that were left. -/
theorem course {turns : Nat} {start here : Remains σ (Verdict (List α))}
    (proceeds : start.Proceeds grounds goal left) (course : Course grounds turns start here) :
    ∃ fewer, turns + fewer ≤ left ∧ here.Proceeds grounds goal fewer := by
  induction course with
  | refl => exact ⟨left, (Nat.zero_add left).le, proceeds⟩
  | others earlier leaves ih =>
    obtain ⟨fewer, sum, proceeds⟩ := ih proceeds
    exact ⟨fewer, sum, proceeds.others leaves⟩
  | poll earlier opens ih =>
    obtain ⟨fewer, sum, proceeds⟩ := ih proceeds
    obtain ⟨still, less, goesOn⟩ := proceeds.poll opens
    exact ⟨still, by omega, goesOn⟩
  | task earlier opens ih =>
    obtain ⟨fewer, sum, proceeds⟩ := ih proceeds
    obtain ⟨still, less, goesOn⟩ := proceeds.task opens
    exact ⟨still, by omega, goesOn⟩

/-- Every course can be carried on until the run has answered. -/
theorem exists_answer (proceeds : here.Proceeds grounds goal left) :
    ∃ more last list, Course grounds more here last ∧ last.run = .answered (.success list) := by
  induction left using Nat.strong_induction_on generalizing here with
  | _ left ih =>
    obtain ⟨run, tasks, held, state⟩ := here
    have fine := proceeds.fine
    cases run with
    | answered result =>
      obtain ⟨-, list, rfl, -⟩ := fine
      exact ⟨0, _, list, .refl, rfl⟩
    | stopped wait resume =>
      -- Others open the wait of the run or of a task, and its turn brings the number down.
      obtain ⟨later, leaves, turn⟩ := fine
      have spared := leaves.mono proceeds.owned
      have waits := proceeds.others spared
      rcases turn with opens | ⟨job, member, opens⟩
      · obtain ⟨fewer, less, goesOn⟩ := waits.poll opens
        obtain ⟨more, last, list, course, answered⟩ := ih fewer less goesOn
        exact ⟨_, last, list, (Course.poll (.others .refl spared) opens).trans course, answered⟩
      · obtain ⟨rest, rfl⟩ := Multiset.exists_cons_of_mem member
        obtain ⟨fewer, less, goesOn⟩ := waits.task opens
        obtain ⟨more, last, list, course, answered⟩ := ih fewer less goesOn
        exact ⟨_, last, list, (Course.task (.others .refl spared) opens).trans course, answered⟩
    | panicked | dropped => exact fine.elim

end Remains.Proceeds

/-- A tree of merges loses nothing and keeps every order that there is within it. Gathering it hands
back a future, and however that and its tasks are given turns, and whatever goes on beside: they
have no more turns than the tree says, while it has not answered there is a turn that they can be
given, so that every course leads on to an answer, and the answer is a success with an arrangement
of the items of the tree. An arrangement of merges of merges is one of the merge of all their
inputs, and the other way round. -/
theorem Tree.gathers_arrangement (grounds : Grounds σ) :
    (∀ (α : Type) (tree : Tree grounds α) (span : Nat) (start : σ), tree.turns ≤ span →
      grounds.calm start →
        ∃ future after, (tree.feed span).gather.call start = (.ok future, after) ∧
          ∀ turns here, Course grounds turns
              ⟨.stopped .passed future, 0, grounds.taken after \ grounds.taken start, after⟩ here →
            turns ≤ tree.turns ∧
              here.Fine grounds
                (fun verdict => ∃ list, verdict = .success list ∧ tree.Allows list) ∧
              ∃ more last list, Course grounds more here last ∧
                last.run = .answered (.success list)) ∧
      ∀ (α : Type) (outer flat : Merger grounds α) (parts : List (Part grounds α)) (list : List α),
        (mergeAll outer (parts.map Part.tree)).Allows list ↔
          (mergeAll flat (parts.flatMap Part.trees)).Allows list := by
  refine ⟨fun α tree span start enough calm => ?_, fun α => allows_nested_iff⟩
  obtain ⟨flow, after, held, starts, moves, behaves⟩ := tree.runs enough start calm
  refine ⟨_, after, Feed.call_gather starts, fun turns here course => ?_⟩
  have within : held ⊆ grounds.taken after \ grounds.taken start :=
    fun hold member => ⟨moves.owned member, moves.fresh hold member (Set.notMem_empty hold)⟩
  have begins : (⟨.stopped .passed fun s => gathered [] (flow s), 0,
      grounds.taken after \ grounds.taken start, after⟩ : Remains σ _).Proceeds grounds tree.Allows
        tree.turns :=
    ⟨moves.calm, Set.sdiff_subset, held, within, .goesOn behaves fun list => id⟩
  obtain ⟨fewer, sum, proceeds⟩ := begins.course course
  exact ⟨by omega, proceeds.fine, proceeds.exists_answer⟩

end

/-! ### A merge in a merge -/

/-- Hubs in a row, of which the first so many have been handed out, and a flag. -/
abbrev Crate : Type := Notebook ((Nat × (Nat → Hub Nat)) × Flag)

namespace Crate

def opened : Crate := Notebook.opened ((0, fun _ => .new), .lowered)

def place (index : Nat) : Place Crate (Hub Nat) where
  get crate := crate.cell.1.2 index
  set hub crate :=
    { crate with
      cell := ((crate.cell.1.1, Function.update crate.cell.1.2 index hub), crate.cell.2) }
  get_set _ _ := Function.update_self index _ _

def hubs : Arena Crate (Hub Nat) where
  fresh hub crate := (place crate.cell.1.1,
    { crate with
      cell := ((crate.cell.1.1 + 1, Function.update crate.cell.1.2 crate.cell.1.1 hub),
        crate.cell.2) })

def scope : Scope Crate :=
  ⟨⟨⟨fun crate => crate.cell.2, fun flag crate => { crate with cell := (crate.cell.1, flag) },
    fun _ _ => rfl⟩⟩⟩

/-- A change of one hub leaves the others alone. -/
theorem same_set {index other : Nat} (apart : other ≠ index) (hub : Hub Nat) (crate : Crate) :
    (place other).get ((place index).set hub crate) = (place other).get crate :=
  Function.update_of_ne apart _ _

theorem place_injective {first second : Nat} (same : place first = place second) :
    first = second := by
  by_contra apart
  let crate : Crate := (place first).set Hub.new.detach opened
  have told : ((place first).get crate).attached = ((place second).get crate).attached := by
    rw [same]
  have here : (place first).get crate = Hub.new.detach := (place first).get_set _ _
  have there : (place second).get crate = Hub.new := same_set (Ne.symm apart) _ opened
  rw [here, there] at told
  cases told

def grounds : Grounds Crate where
  taken crate := { hold | ∃ index < crate.cell.1.1, hold = ⟨Nat, place index⟩ }
  calm crate := crate.cell.2.raised = false
  taken_set := by
    rintro _ value crate ⟨index, -, rfl⟩
    rfl
  same_set := by
    rintro _ value crate ⟨index, -, rfl⟩ _ ⟨other, -, rfl⟩ apart
    exact same_set (fun same : other = index => apart (by rw [same])) value crate
  calm_set := by
    rintro _ value crate ⟨index, -, rfl⟩ calm
    exact calm
  still_allow _ _ := ⟨rfl, fun _ ⟨_, _, same⟩ => same ▸ rfl, id⟩
  still_trace _ _ := ⟨rfl, fun _ ⟨_, _, same⟩ => same ▸ rfl, id⟩

theorem offers : grounds.Offers hubs where
  fresh _ crate := by
    rintro ⟨index, less, same⟩
    have place := place_injective (eq_of_heq (Hold.mk.inj same).2)
    omega
  taken hub crate := by
    ext hold
    constructor
    · rintro ⟨index, less, rfl⟩
      rcases Nat.lt_succ_iff_lt_or_eq.mp less with before | rfl
      · exact .inr ⟨index, before, rfl⟩
      · exact .inl rfl
    · rintro (rfl | ⟨index, less, rfl⟩)
      · exact ⟨crate.cell.1.1, Nat.lt_succ_self _, rfl⟩
      · exact ⟨index, Nat.lt_succ_of_lt less, rfl⟩
  same := by
    rintro hub crate _ ⟨index, less, rfl⟩
    exact Function.update_of_ne less.ne _ _
  holds _ _ := Function.update_self _ _ _
  calm _ _ calm := calm

def merger : Merger grounds Nat := ⟨hubs, scope, offers, fun _ calm => calm⟩

/-- The items of a list, after a while. -/
def late (values : List Nat) : Feed Crate Nat :=
  ⟨pure fun state => .waiting (.clock (Host.now state + 5)) (Flow.ofList values) state⟩

theorem leaves_elapse (time : Nat) {crate : Crate} (calm : grounds.calm crate) :
    grounds.Leaves (grounds.taken crate) crate (Host.elapse time crate) :=
  .of_still calm ⟨rfl, fun _ ⟨_, _, same⟩ => same ▸ rfl, id⟩

theorem lists_late (values : List Nat) : (late values).Lists grounds values 1 := by
  refine fun state calm => ⟨_, state, rfl, .refl calm, fun now calm => ?_⟩
  refine .waiting (.refl calm) (fun crate calm => ?_)
    fun crate calm _ => Flow.lists_ofList values crate calm
  exact ⟨_, leaves_elapse (Host.now now + 5) calm, decide_eq_true le_rfl⟩

/-- A merge of two lists, of which the second one is late, merged with one list after another. -/
def nested : Tree grounds Nat :=
  .mergeAll merger [.mergeAll merger [.ofList [1, 2], .leaf (late [3]) [3] 1 (lists_late [3])],
    .append (.ofList [4]) (.ofList [5])]

end Crate

open Crate in
/-- Some course of the nested merge leads to an answer, which has all five items, each list in its
order. -/
theorem Crate.nested_gathers_arrangement :
    ∃ future after turns last list,
      (nested.feed Merge.looks).gather.call opened = (.ok future, after) ∧
        Course grounds turns ⟨.stopped .passed future, 0,
          grounds.taken after \ grounds.taken opened, after⟩ last ∧
        last.run = .answered (.success list) ∧ nested.Allows list ∧ list.Perm [1, 2, 3, 4, 5] := by
  obtain ⟨future, after, call, courses⟩ :=
    (Tree.gathers_arrangement grounds).1 Nat nested Merge.looks opened (by decide) rfl
  obtain ⟨-, -, more, last, list, course, answered⟩ := courses 0 _ .refl
  obtain ⟨-, fine, -⟩ := courses more last course
  have allows : nested.Allows list := by
    unfold Remains.Fine at fine
    rw [answered] at fine
    obtain ⟨-, _, ⟨⟩, allows⟩ := fine
    exact allows
  exact ⟨future, after, more, last, list, call, course, answered, allows, allows.perm⟩

end Deferred
