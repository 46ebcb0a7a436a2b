import Mathlib.Logic.Hydra
import Deferred.Proofs.Merge.Lifecycle

/-! No merged run takes infinitely many steps, whatever happens from outside. Each input goes down
the tree of its feed, which is the only thing about it that needs no bound: an input may push any
number of items, and each makes the consumer look again. So the launch counts first, then the
multiset of the stages of the inputs, and last what the supervisor and the consumer have left. -/

namespace Deferred

namespace Signal

/-- How often the signal lets its listener go on. -/
def weight (signal : Signal) : Nat :=
  signal.kept.toNat + signal.isCalled.toNat

theorem weight_give_le (signal : Signal) : signal.give.weight ≤ signal.weight + 1 := by
  obtain ⟨kept, listener⟩ := signal
  cases kept <;> cases listener <;> decide

theorem weight_leave_le (signal : Signal) : signal.leave.weight ≤ signal.weight := by
  obtain ⟨kept, listener⟩ := signal
  cases kept <;> cases listener <;> decide

theorem weight_answer_lt {signal : Signal} (called : signal.isCalled = true) :
    signal.answer.weight < signal.weight := by
  obtain ⟨kept, listener⟩ := signal
  cases listener with
  | called => cases kept <;> decide
  | nobody | waiting => cases called

theorem weight_lt_of_listen {signal rest : Signal} (heard : signal.listen = (true, rest)) :
    rest.weight < signal.weight := by
  obtain ⟨kept, listener⟩ := signal
  cases kept <;> cases listener <;> cases heard <;> decide

theorem weight_of_not_listen {signal rest : Signal} (unheard : signal.listen = (false, rest)) :
    rest.weight = 0 := by
  rw [(listen_eq_false unheard).2]
  rfl

end Signal

namespace Hub

variable {α : Type}

/-- How often there may still be something for the consumer. -/
def occasions (hub : Hub α) : Nat :=
  hub.queue.toList.length + hub.signal.weight

theorem occasions_of_pop {hub rest : Hub α} {value : Option α} (popped : hub.pop = (value, rest)) :
    hub.occasions = rest.occasions + value.toList.length := by
  have same : rest.signal = hub.signal := by rw [eq_of_pop popped]
  rw [occasions, occasions, toList_of_pop popped, List.length_append, same]
  omega

theorem occasions_detach_le (hub : Hub α) : hub.detach.occasions ≤ hub.occasions :=
  Nat.add_le_add_left (Signal.weight_leave_le _) _

theorem occasions_unlisten_le (hub : Hub α) : hub.unlisten.occasions ≤ hub.occasions :=
  Nat.add_le_add_left (Signal.weight_leave_le _) _

theorem occasions_lt_of_listen {hub rest : Hub α} (heard : hub.listen = (true, rest)) :
    rest.occasions < hub.occasions := by
  obtain ⟨heard, same⟩ := eq_of_listen heard
  have queue : rest.queue = hub.queue := by rw [same]
  rw [occasions, occasions, queue]
  exact Nat.add_lt_add_left (Signal.weight_lt_of_listen heard) _

theorem occasions_le_of_not_listen {hub rest : Hub α} (unheard : hub.listen = (false, rest)) :
    rest.occasions ≤ hub.occasions := by
  obtain ⟨unheard, same⟩ := eq_of_listen unheard
  have queue : rest.queue = hub.queue := by rw [same]
  rw [occasions, occasions, queue, Signal.weight_of_not_listen unheard]
  omega

end Hub

namespace Merge

variable {σ α : Type} {feeds : List (Feed σ α)} {run next : Run σ α}

/-! ### The inputs -/

namespace Stage

/-- Some step leads from the stage to the next one. -/
def After (next stage : Stage σ α) : Prop :=
  ∃ index alive hub produced pushed after, Step index alive stage hub produced pushed next after

theorem cutExpand_set {stages : List (Stage σ α)} {index : Nat} {stage next : Stage σ α}
    (here : stages[index]? = some stage) (later : After next stage) :
    Relation.CutExpand After (Multiset.ofList (stages.set index next))
      (Multiset.ofList stages) := by
  obtain ⟨bound, rfl⟩ := List.getElem?_eq_some_iff.mp here
  have before :
      Multiset.ofList stages = {stages[index]} + Multiset.ofList (stages.eraseIdx index) :=
    Multiset.coe_eq_coe.mpr (List.getElem_cons_eraseIdx_perm bound).symm
  have after : Multiset.ofList (stages.set index next) =
      {next} + Multiset.ofList (stages.eraseIdx index) :=
    Multiset.coe_eq_coe.mpr (List.set_perm_cons_eraseIdx bound next)
  rw [before, after]
  exact Relation.cutExpand_single_add later _

end Stage

/-! ### The supervisor and the consumer -/

/-- The number of steps that the supervisor has left, at most. -/
def Supervisor.rank (inputs : Nat) : Supervisor → Nat
  | unborn => 0
  | awaits => inputs + 6
  | reports next => inputs - next + 5
  | upgrades => 4
  | closes => 3
  | signals => 2
  | done => 1

theorem Supervisor.Step.rank_lt {inputs : Nat} {alive : Prop} {supervisor next : Supervisor}
    {hub after : Hub α} {recorded : List (Nat × Error)}
    (step : Supervisor.Step inputs alive supervisor hub recorded next after) :
    next.rank inputs < supervisor.rank inputs ∧ after.occasions ≤ hub.occasions + 1 := by
  cases step with
  | join | reported | upgrade | gone | close => exact ⟨by simp [rank], Nat.le_succ _⟩
  | report left => exact ⟨by simp only [rank]; omega, Nat.le_succ _⟩
  | signal => exact ⟨by simp [rank], Nat.add_le_add_left (Signal.weight_give_le _) _⟩

/-- The number of steps that the consumer takes at most until it waits, or until it looks and sees
that the flag is raised. -/
def Consumer.rank (raised : Bool) : Consumer → Nat
  | launches => 0
  | looks => bif raised then 1 else 6
  | pops => bif raised then 6 else 5
  | checks => bif raised then 5 else 4
  | drains => bif raised then 4 else 3
  | selects => bif raised then 4 else 3
  | subscribes => bif raised then 3 else 2
  | listens _ => bif raised then 3 else 2
  | waits _ => bif raised then 2 else 1
  | rests => bif raised then 2 else 7
  | ended _ => 0
  | dropped => 0

/-- The number of steps of the launch, if so many inputs are left. -/
def Consumer.launch (left : Nat) : Consumer → Nat
  | launches => left + 1
  | _ => 0

theorem Consumer.launch_eq_zero {consumer : Consumer} (past : consumer ≠ .launches) (left : Nat) :
    consumer.launch left = 0 := by
  cases consumer with
  | launches => exact absurd rfl past
  | _ => rfl

theorem Consumer.Step.rank_lt {flag : Flag} {consumer next : Consumer} {hub after : Hub α}
    {yielded : List α} (step : Consumer.Step flag consumer hub yielded next after) :
    8 * after.occasions + next.rank flag.raised <
      8 * hub.occasions + consumer.rank flag.raised := by
  obtain ⟨raised, version⟩ := flag
  cases step with
  | cancelled =>
    have fewer := hub.occasions_detach_le
    cases raised <;> simp only [rank, cond_true, cond_false] <;> omega
  | item popped | none popped | last popped =>
    have same := Hub.occasions_of_pop popped
    simp only [Option.toList, List.length_cons, List.length_nil] at same
    cases raised <;> simp only [rank, cond_true, cond_false] <;> omega
  | @finish _ rest popped =>
    have same := Hub.occasions_of_pop popped
    have fewer := rest.occasions_detach_le
    simp only [Option.toList, List.length_nil] at same
    cases raised <;> simp only [rank, cond_true, cond_false] <;> omega
  | heard kept | heardLate kept =>
    have fewer := Hub.occasions_lt_of_listen kept
    cases raised <;> simp only [rank, cond_true, cond_false] <;> omega
  | listen none | waitLate none =>
    have fewer := Hub.occasions_le_of_not_listen none
    cases raised <;> simp only [rank, cond_true, cond_false] <;> omega
  | answer called =>
    have fewer : hub.hear.occasions < hub.occasions :=
      Nat.add_lt_add_left (Signal.weight_answer_lt called) _
    cases raised <;> simp only [rank, cond_true, cond_false] <;> omega
  | look lowered | wait lowered | subscribe lowered =>
    obtain rfl : raised = false := lowered
    simp only [rank, cond_false]
    omega
  | stop lifted =>
    obtain rfl : raised = true := lifted
    have fewer := hub.occasions_unlisten_le
    simp only [rank, cond_true]
    omega
  | skip lifted =>
    obtain rfl : raised = true := lifted
    simp only [rank, cond_true]
    omega
  | obey calls =>
    obtain rfl : raised = true := by
      simp only [Flag.calls, Bool.and_eq_true] at calls
      exact calls.2
    have fewer := hub.occasions_unlisten_le
    simp only [rank, cond_true]
    omega
  | runs | closed | again =>
    cases raised <;> simp only [rank, cond_true, cond_false] <;> omega

theorem Consumer.rank_le (raised : Bool) (consumer : Consumer) : consumer.rank raised ≤ 7 := by
  cases raised <;> cases consumer <;> simp [rank]

/-! ### The whole run -/

namespace Run

/-- The bound of the steps of the supervisor and the consumer while no input goes on. A signal that
is given and a flag that is raised make the consumer take up to eight more. -/
def others (feeds : List (Feed σ α)) (run : Run σ α) : Nat :=
  16 * run.supervisor.rank feeds.length + 8 * (run.hub.occasions + (!run.flag.raised).toNat) +
    run.consumer.rank run.flag.raised

def rank (feeds : List (Feed σ α)) (run : Run σ α) : Nat × Multiset (Stage σ α) × Nat :=
  (run.consumer.launch (feeds.length - run.inputs.length),
    Multiset.ofList (run.inputs.map (·.stage)), run.others feeds)

/-- The order of the ranks. -/
def Below : Nat × Multiset (Stage σ α) × Nat → Nat × Multiset (Stage σ α) × Nat → Prop :=
  Prod.Lex (· < ·) (Prod.Lex (Relation.CutExpand Stage.After) (· < ·))

end Run

theorem Step.below (step : Step feeds run next) :
    Run.Below (next.rank feeds) (run.rank feeds) := by
  cases step with
  | @launch feed rest here left =>
    apply Prod.Lex.left
    have count := congrArg List.length left
    simp only [List.length_append, List.length_map, List.length_cons] at count
    simp only [here, Consumer.launch, List.length_append, List.length_cons, List.length_nil]
    omega
  | begin here =>
    apply Prod.Lex.left
    rw [here]
    exact Nat.succ_pos _
  | input here step =>
    simp only [Run.Below, Run.rank, List.length_set, List.map_set]
    refine .right _ (.left _ _ (Stage.cutExpand_set ?_ ⟨_, _, _, _, _, _, step⟩))
    rw [List.getElem?_map, here]
    rfl
  | supervisor step =>
    refine .right _ (.right _ ?_)
    obtain ⟨fewer, occasions⟩ := step.rank_lt
    simp only [Run.others]
    omega
  | consumer step =>
    obtain ⟨past, future⟩ := step.past_launch
    simp only [Run.Below, Run.rank, Consumer.launch_eq_zero past, Consumer.launch_eq_zero future]
    refine .right _ (.right _ ?_)
    have fewer := step.rank_lt
    simp only [Run.others]
    omega

theorem Run.others_raise_le (feeds : List (Feed σ α)) (run : Run σ α) :
    Run.others feeds { run with flag := run.flag.raise } ≤ run.others feeds := by
  have bound := Consumer.rank_le true run.consumer
  cases raised : run.flag.raised with
  | true => simp [others, raised, Flag.raise]
  | false =>
    simp only [others, raised, Flag.raise, Bool.not_true, Bool.not_false, Bool.toNat_true,
      Bool.toNat_false]
    omega

/-- What happens from outside leaves the rank as it is, or lower. -/
theorem Outside.below (event : Outside run next) (feeds : List (Feed σ α)) :
    next.rank feeds = run.rank feeds ∨ Run.Below (next.rank feeds) (run.rank feeds) := by
  cases event with
  | cancel =>
    rcases Nat.eq_or_lt_of_le (run.others_raise_le feeds) with same | less
    · exact .inl (by simp only [Run.rank, same])
    · exact .inr (.right _ (.right _ less))
  | drop may =>
    by_cases launches : run.consumer = .launches
    · refine .inr (.left _ _ ?_)
      rw [launches]
      exact Nat.succ_pos _
    · have fewer : Run.others feeds
          { run with consumer := .dropped, hub := run.hub.detach } ≤ run.others feeds := by
        have occasions := run.hub.occasions_detach_le
        simp only [Run.others, Consumer.rank]
        omega
      have launch := Consumer.launch_eq_zero launches (feeds.length - run.inputs.length)
      rcases Nat.eq_or_lt_of_le fewer with same | less
      · exact .inl (by simp only [Run.rank, same, Consumer.launch])
      · simp only [Run.Below, Run.rank, launch]
        exact .inr (.right _ (.right _ less))

/-- Each move of a sequence is a step of a part of the run or comes from outside. -/
def Moves (feeds : List (Feed σ α)) (runs : Nat → Run σ α) : Prop :=
  ∀ time, Step feeds (runs time) (runs (time + 1)) ∨ Outside (runs time) (runs (time + 1))

end Merge
end Deferred
