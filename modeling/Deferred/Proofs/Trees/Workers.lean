import Mathlib.Algebra.GroupWithZero.Nat
import Deferred.Proofs.Merge.TaskTurns
import Deferred.Proofs.Trees.Consumer
import Deferred.Proofs.Trees.Mixtures

/-! The inputs of a merge at work. Each of them runs its feed and pushes what comes, and any number
of them work beside each other: what the hub receives from all of them is a mixture of what comes
from each. A turn pushes no more than the turns that it uses up. -/

namespace Deferred.Merge

variable {σ α : Type}

theorem effort_give (post : Post) (count : Nat) {hub after : Hub α}
    (given : after.signal = hub.signal.give)
    (queue : after.queue.toList.length = hub.queue.toList.length + count) :
    effort post after ≤ effort post hub + 3 * count + 3 := by
  have pending : hub.signal.give.kept.toNat + hub.signal.give.isCalled.toNat ≤
      hub.signal.kept.toNat + hub.signal.isCalled.toNat + 1 := by
    obtain ⟨kept, listener⟩ := hub.signal
    cases kept <;> cases listener <;> decide
  simp only [effort, given, queue]
  omega

section
variable [Host σ] (place : Place σ (Hub α)) (cancellation : Cancellation σ)

/-- The hub has received these items, and so many inputs have ended. The consumer stays at its post,
with no more to do than it can be told for. -/
structure Received (hub : Hub α) (values : List α) (ended : Nat) (after : Hub α) : Prop where
  queue : after.queue.toList = hub.queue.toList ++ values
  running : after.running = hub.running
  attached : after.attached = hub.attached
  ends : ∃ more, after.ends = hub.ends ++ more ∧ more.length = ended ∧
    ∀ entry ∈ more, entry.2 = none
  attends : ∀ post left cursor, Attends place cancellation post left hub cursor →
    Attends place cancellation post left after cursor
  effort : ∀ post, effort post after ≤ effort post hub + 6 * values.length

end

section
variable [Host σ] {place : Place σ (Hub α)} {cancellation : Cancellation σ}
  {hub middle after : Hub α} {values others : List α} {ended more : Nat}

theorem Received.refl (hub : Hub α) : Received place cancellation hub [] 0 hub :=
  ⟨(List.append_nil _).symm, rfl, rfl, ⟨[], (List.append_nil _).symm, rfl, nofun⟩,
    fun _ _ _ => id, fun _ => Nat.le_refl _⟩

theorem Received.trans (first : Received place cancellation hub values ended middle)
    (second : Received place cancellation middle others more after) :
    Received place cancellation hub (values ++ others) (ended + more) after := by
  obtain ⟨early, ends, length, sound⟩ := first.ends
  obtain ⟨late, further, count, fine⟩ := second.ends
  refine ⟨?_, second.running.trans first.running, second.attached.trans first.attached,
    ⟨early ++ late, ?_, ?_, ?_⟩, fun post left cursor attends =>
      second.attends post left cursor (first.attends post left cursor attends), fun post => ?_⟩
  · rw [second.queue, first.queue, List.append_assoc]
  · rw [further, ends, List.append_assoc]
  · rw [List.length_append, length, count]
  · exact List.forall_mem_append.mpr ⟨sound, fine⟩
  · have begins := first.effort post
    have goesOn := second.effort post
    rw [List.length_append]
    omega

theorem Received.push (hub : Hub α) (value : α) :
    Received place cancellation hub [value] 0 (hub.enqueue value).notify := by
  have queue : (hub.enqueue value).notify.queue.toList = hub.queue.toList ++ [value] :=
    Hub.toList_enqueue hub value
  refine ⟨queue, rfl, rfl, ⟨[], (List.append_nil _).symm, rfl, nofun⟩,
    fun post left cursor attends => attends.notify rfl, fun post => ?_⟩
  have length : (hub.enqueue value).notify.queue.toList.length = hub.queue.toList.length + 1 := by
    rw [queue, List.length_append]
    rfl
  exact effort_give post 1 rfl length

theorem Received.checkOut (hub : Hub α) (index : Nat) :
    Received place cancellation hub [] 1 (hub.checkOut index none) :=
  ⟨(List.append_nil _).symm, rfl, rfl, ⟨[(index, none)], rfl, rfl, by simp⟩,
    fun _ _ _ attends => attends.of_same rfl rfl rfl, fun _ => Nat.le_refl _⟩

end

section
variable [Host σ] (grounds : Grounds σ) (place : Place σ (Hub α))

/-- Inputs at work that have so many turns left, with the number of those that have not ended. -/
inductive Labors : Nat → (List α → Prop) → Nat → Multiset (Job σ) → Set (Hold σ) → σ → Prop where
  | ended {state} : Labors 0 (· = []) 0 0 ∅ state
  | begins {turns may feed state} (index : Nat) (runs : Feed.Runs grounds turns may feed) :
      Labors turns may 1 {⟨.passed, input place index feed⟩} ∅ state
  | runs {turns may cursor index tasks held state}
      (behaves : Behaves grounds turns may cursor tasks held state) (apart : ⟨α, place⟩ ∉ held) :
      Labors turns may 1 (⟨cursor.wait, fun s => feedTask place index (cursor.resume s)⟩ ::ₘ tasks)
        held state
  | beside {turns further may more left right tasks others held kept state}
      (one : Labors turns may left tasks held state)
      (other : Labors further more right others kept state) (apart : Disjoint held kept) :
      Labors (turns + further) (Mixes may more) (left + right) (tasks + others) (held ∪ kept) state

/-- What a turn of such a task comes to. -/
def Turned (cancellation : Cancellation σ) (turns : Nat) (may : List α → Prop) (left : Nat)
    (others : Multiset (Job σ)) (held : Set (Hold σ)) (state : σ) (task : Task σ) : Prop :=
  ∃ kept values ended fewer more still,
    grounds.Moves (insert ⟨α, place⟩ held) (insert ⟨α, place⟩ kept) state task.state ∧
      Received place cancellation (place.get state) values ended (place.get task.state) ∧
      fewer + values.length < turns ∧ still + ended = left ∧
      Labors grounds place fewer more still (Job.after task others) kept task.state ∧
      ∀ later, more later → may (values ++ later)

end

section
variable [Host σ] {grounds : Grounds σ} {place : Place σ (Hub α)} {cancellation : Cancellation σ}
  {turns further left right : Nat} {may more : List α → Prop} {tasks others : Multiset (Job σ)}
  {held kept : Set (Hold σ)} {state now : σ} {task : Task σ}

namespace Labors

theorem owned (labors : Labors grounds place turns may left tasks held state) :
    held ⊆ grounds.taken state := by
  induction labors with
  | ended | begins => exact Set.empty_subset _
  | runs behaves => exact behaves.owned
  | beside one other apart first second => exact Set.union_subset first second

theorem notMem (labors : Labors grounds place turns may left tasks held state) :
    ⟨α, place⟩ ∉ held := by
  induction labors with
  | ended | begins => exact Set.notMem_empty _
  | runs behaves apart => exact apart
  | beside one other apart first second =>
    rintro (here | there)
    · exact first here
    · exact second there

theorem leave (labors : Labors grounds place turns may left tasks held state)
    (leaves : grounds.Leaves held state now) :
    Labors grounds place turns may left tasks held now := by
  induction labors with
  | ended => exact .ended
  | begins index runs => exact .begins index runs
  | runs behaves apart => exact .runs (behaves.leave leaves) apart
  | beside one other apart first second =>
    exact .beside (first (leaves.mono Set.subset_union_left))
      (second (leaves.mono Set.subset_union_right)) apart

/-- When all inputs have ended nothing is left of them. -/
theorem over_of_none (labors : Labors grounds place turns may left tasks held state)
    (none : left = 0) : tasks = 0 ∧ may [] := by
  induction labors with
  | ended => exact ⟨rfl, rfl⟩
  | begins | runs => cases none
  | beside one other apart first second =>
    obtain ⟨rfl, ended⟩ := first (by omega)
    obtain ⟨rfl, finished⟩ := second (by omega)
    exact ⟨rfl, [], [], ended, finished, .nil⟩

/-- For as long as an input has not ended, others can give one of the tasks a turn. -/
theorem goesOn (labors : Labors grounds place turns may left tasks held state)
    (some : left ≠ 0) (leaves : grounds.Leaves held state now) :
    ∃ later, grounds.Leaves (grounds.taken now) now later ∧
      ∃ job ∈ tasks, job.wait.opens later = true := by
  induction labors with
  | ended => exact absurd rfl some
  | begins => exact ⟨now, .refl leaves.calm, _, Multiset.mem_singleton_self _, rfl⟩
  | @runs turns may cursor index tasks held state behaves apart =>
    cases turns with
    | zero => exact behaves.elim
    | succ turns =>
      obtain ⟨later, spared, opens | ⟨job, member, opens⟩⟩ := Carries.goesOn behaves now leaves
      · exact ⟨later, spared, _, Multiset.mem_cons_self _ _, opens⟩
      · exact ⟨later, spared, job, Multiset.mem_cons_of_mem member, opens⟩
  | @beside turns further may more left right tasks others held kept state one other apart first
      second =>
    by_cases none : left = 0
    · obtain ⟨later, spared, job, member, opens⟩ :=
        second (by omega) (leaves.mono Set.subset_union_right)
      exact ⟨later, spared, job, Multiset.mem_add.mpr (.inr member), opens⟩
    · obtain ⟨later, spared, job, member, opens⟩ := first none (leaves.mono Set.subset_union_left)
      exact ⟨later, spared, job, Multiset.mem_add.mpr (.inl member), opens⟩

end Labors

namespace Turned

theorem weaken (turned : Turned grounds place cancellation turns may left others held state task)
    (all : ∀ list, may list → more list) :
    Turned grounds place cancellation turns more left others held state task := by
  obtain ⟨kept, values, ended, fewer, rest, still, moves, received, less, sum, labors, comes⟩ :=
    turned
  exact ⟨kept, values, ended, fewer, rest, still, moves, received, less, sum, labors,
    fun later goesOn => all _ (comes later goesOn)⟩

/-- A turn that begins with moves which leave the hub alone, and with tasks that are spawned. -/
theorem prepend {whole : Task σ} (before : List (σ → Task σ))
    (turned : Turned grounds place cancellation turns may left (others + Job.spawned before) kept
      now task)
    (moves : grounds.Moves held kept state now) (taken : ⟨α, place⟩ ∈ grounds.taken state)
    (apart : ⟨α, place⟩ ∉ held) (job : whole.job = task.job)
    (children : whole.children = before ++ task.children) (same : whole.state = task.state) :
    Turned grounds place cancellation turns may left others held state whole := by
  obtain ⟨last, values, ended, fewer, rest, still, further, received, less, sum, labors, comes⟩ :=
    turned
  have begins := moves.union (Set.singleton_subset_iff.mpr taken)
  rw [Set.union_singleton, Set.union_singleton] at begins
  have spared : place.get now = place.get state := moves.spares ⟨α, place⟩ taken apart
  rw [← Job.after_through job children, ← same] at labors
  exact ⟨last, values, ended, fewer, rest, still, same ▸ begins.trans further,
    same ▸ spared ▸ received, less, sum, labors, comes⟩

/-- A turn that begins with an item for the hub. -/
theorem push (value : α)
    (turned : Turned grounds place cancellation turns (fun later => may (value :: later)) left
      others held (place.set ((place.get state).enqueue value).notify state) task)
    (calm : grounds.calm state) (taken : ⟨α, place⟩ ∈ grounds.taken state)
    (owned : held ⊆ grounds.taken state) :
    Turned grounds place cancellation (turns + 1) may left others held state task := by
  obtain ⟨last, values, ended, fewer, rest, still, further, received, less, sum, labors, comes⟩ :=
    turned
  have pushes := @Grounds.Moves.of_set σ _ grounds _ _ ⟨α, place⟩ calm
    (Set.insert_subset taken owned) (Set.mem_insert _ held)
    ((place.get state).enqueue value).notify
  rw [place.get_set] at received
  refine ⟨last, value :: values, ended, fewer, rest, still, pushes.trans further, ?_, ?_, sum,
    labors, comes⟩
  · have first : Received place cancellation (place.get state) [value] 0
      ((place.get state).enqueue value).notify := .push (place.get state) value
    exact (Nat.zero_add ended) ▸ first.trans received
  · rw [List.length_cons]
    omega

/-- The turn of an input beside others. -/
theorem beside (turned : Turned grounds place cancellation turns may left tasks held state task)
    (other : Labors grounds place further more right others kept state)
    (apart : Disjoint held kept) :
    Turned grounds place cancellation (turns + further) (Mixes may more) (left + right)
      (tasks + others) (held ∪ kept) state task := by
  obtain ⟨last, values, ended, fewer, rest, still, moves, received, less, sum, labors, comes⟩ :=
    turned
  have aside : Disjoint (insert ⟨α, place⟩ held) kept :=
    Set.disjoint_insert_left.mpr ⟨other.notMem, apart⟩
  have spared := moves.leaves other.owned aside
  have away := (Set.disjoint_insert_left.mp (moves.disjoint other.owned aside)).2
  refine ⟨last ∪ kept, values, ended, fewer + further, Mixes rest more, still + right, ?_, received,
    by omega, by omega, ?_, ?_⟩
  · rw [← Set.insert_union, ← Set.insert_union]
    exact moves.union other.owned
  · rw [Job.after_add]
    exact .beside labors (other.leave spared) away
  · rintro later ⟨first, second, goesOn, follows, shuffles⟩
    exact ⟨values ++ first, second, comes first goesOn, follows, shuffles.append_left values⟩

end Turned

/-- An input whose feed has ended tells the hub, and nothing is left of it. -/
theorem turned_ended (calm : grounds.calm state) (taken : ⟨α, place⟩ ∈ grounds.taken state)
    (owned : held ⊆ grounds.taken state) (ended : may []) (index : Nat) :
    Turned grounds place cancellation (turns + 1) may 1 0 held state
      (feedTask place index (.ended state)) := by
  have checks := moves_set calm taken ((place.get state).checkOut index none)
  have moves := (checks.union owned).shrink (Set.subset_union_left (t := held))
  rw [Set.singleton_union, ← LawfulSingleton.insert_empty_eq] at moves
  have noted : Received place cancellation (place.get state) [] 1
      (place.get (place.modify (Hub.checkOut index none) state)) := by
    unfold Place.modify
    rw [place.get_set]
    exact .checkOut _ index
  refine ⟨∅, [], 1, 0, (· = []), 0, moves, noted, Nat.succ_pos turns, rfl, ?_, ?_⟩
  · exact .ended
  · rintro later rfl
    exact ended

/-- An input whose feed waits goes on from there. -/
theorem turned_waiting {wait : Wait σ} {resume : σ → Items σ α} (calm : grounds.calm state)
    (taken : ⟨α, place⟩ ∈ grounds.taken state) (apart : ⟨α, place⟩ ∉ held)
    (behaves : Behaves grounds turns may ⟨wait, resume⟩ tasks held state) (index : Nat) :
    Turned grounds place cancellation (turns + 1) may 1 tasks held state
      (feedTask place index (.waiting wait resume state)) := by
  refine ⟨held, [], 0, turns, may, 1, .refl calm (Set.insert_subset taken behaves.owned), .refl _,
    Nat.lt_succ_self turns, rfl, ?_, fun later goesOn => goesOn⟩
  have runs : Labors grounds place turns may 1
    (⟨wait, fun s => feedTask place index (resume s)⟩ ::ₘ tasks) held state := .runs behaves apart
  rwa [← Multiset.singleton_add, add_comm] at runs

/-- The poll of an input that has come so far: it goes on from item to item until its feed ends or
waits. -/
theorem turned_feedTask (attached : (place.get state).attached = true)
    (taken : ⟨α, place⟩ ∈ grounds.taken state) (apart : ⟨α, place⟩ ∉ held) (index : Nat)
    {items : Items σ α} (pulls : Pulls grounds (Behaves grounds turns) may tasks held state items) :
    Turned grounds place cancellation (turns + 1) may 1 tasks held state
      (feedTask place index items) := by
  induction turns using Nat.strong_induction_on generalizing may tasks held state items with
  | _ turns ih =>
    obtain ⟨kept, moves, comes⟩ := pulls
    obtain ⟨job, children, same⟩ := Items.settled_through (feedTask place index) Task.job
      Task.children Task.state (fun _ _ _ => ⟨rfl, rfl, rfl⟩) items
    refine Turned.prepend items.children ?_ moves taken apart job children same
    have last := items.state_settled
    have owned := moves.owned
    have there := moves.taken taken
    have away : ⟨α, place⟩ ∉ kept := fun inside => moves.fresh _ inside apart taken
    have attached : (place.get items.state).attached = true :=
      (congrArg Hub.attached (moves.spares ⟨α, place⟩ taken apart)).trans attached
    cases node : items.settled with
    | item value rest release after =>
      rw [node] at comes last
      obtain rfl : after = items.state := last
      have delivered : feedTask place index (.item value rest release items.state) =
          feedTask place index
            (rest (place.set ((place.get items.state).enqueue value).notify items.state)) := by
        simp only [feedTask, Items.toTask]
        rw [deliver_eq, if_pos attached]
      rw [delivered]
      -- The item has used up a turn of the feed, so there is one less for the rest of the poll.
      cases turns with
      | zero => exact comes.elim
      | succ turns =>
        have pushes := moves_set moves.calm there ((place.get items.state).enqueue value).notify
        have goesOn := Behaves.leave comes
          (pushes.leaves owned (Set.disjoint_singleton_left.mpr away))
        refine .push value (ih turns (Nat.lt_succ_self turns) ?_ (pushes.taken there) away ?_)
          moves.calm there owned
        · rwa [place.get_set]
        · exact Carries.pulls goesOn _ (.refl pushes.calm) rfl
    | ended after =>
      rw [node] at comes last
      obtain rfl : after = items.state := last
      rw [comes.2]
      exact turned_ended moves.calm there owned comes.1 index
    | waiting wait resume after =>
      rw [node] at comes last
      obtain rfl : after = items.state := last
      exact turned_waiting moves.calm there away comes index
    | panic | spawn =>
      rw [node] at comes
      exact comes.elim

/-- The first poll of an input, which starts its feed. -/
theorem turned_input {feed : Feed σ α} (runs : feed.Runs grounds turns may)
    (calm : grounds.calm state) (attached : (place.get state).attached = true)
    (taken : ⟨α, place⟩ ∈ grounds.taken state) (index : Nat) :
    Turned grounds place cancellation turns may 1 0 ∅ state (input place index feed state) := by
  obtain ⟨flow, after, held, starts, moves, behaves⟩ := runs state calm
  have flows : feed.flow state = flow after := by
    simp only [Feed.flow, starts]
  have started : input place index feed state = feedTask place index (flow after) :=
    (congrFun (input_eq place index feed) state).trans (congrArg (feedTask place index) flows)
  have away : ⟨α, place⟩ ∉ held := fun inside => moves.fresh _ inside (Set.notMem_empty _) taken
  have same := moves.spares ⟨α, place⟩ taken (Set.notMem_empty _)
  cases turns with
  | zero => exact behaves.elim
  | succ turns =>
    have pulls := Carries.pulls behaves after (.refl moves.calm) rfl
    rw [started]
    refine .prepend [] ?_ moves taken (Set.notMem_empty _) rfl (List.nil_append _).symm rfl
    exact turned_feedTask ((congrArg Hub.attached same).trans attached) (moves.taken taken) away
      index pulls

/-- A turn of one of the inputs, or of a task that its feed has spawned. -/
theorem Labors.turn (labors : Labors grounds place turns may left tasks held state)
    (leaves : grounds.Leaves held state now) (attached : (place.get now).attached = true)
    (taken : ⟨α, place⟩ ∈ grounds.taken now) {job : Job σ} (split : tasks = job ::ₘ others)
    (opens : job.wait.opens now = true) :
    Turned grounds place cancellation turns may left others held now (job.resume now) := by
  induction labors generalizing others with
  | ended => exact absurd split.symm Multiset.cons_ne_zero
  | begins index runs =>
    obtain ⟨rfl, rfl⟩ := (Multiset.singleton_eq_cons_iff _).mp split
    exact turned_input runs leaves.calm attached taken index
  | @runs turns may cursor index tasks held state behaves apart =>
    cases turns with
    | zero => exact behaves.elim
    | succ turns =>
      rcases Multiset.cons_eq_cons.mp split with ⟨rfl, rfl⟩ | ⟨-, rest, own, rfl⟩
      · exact turned_feedTask attached taken apart index (Carries.pulls behaves now leaves opens)
      · obtain ⟨kept, moves, goesOn⟩ := Carries.works behaves now leaves job rest own opens
        have spared := moves.spares ⟨α, place⟩ taken apart
        have both := moves.union (Set.singleton_subset_iff.mpr taken)
        rw [Set.union_singleton, Set.union_singleton] at both
        have away : ⟨α, place⟩ ∉ kept := fun inside => moves.fresh _ inside apart taken
        refine ⟨kept, [], 0, turns, may, 1, both, spared ▸ .refl _, Nat.lt_succ_self turns, rfl, ?_,
          fun later goesOn => goesOn⟩
        rw [Job.after, Multiset.cons_add]
        exact .runs goesOn away
  | @beside turns further may more left right tasks beside held kept state one other apart first
      second =>
    have member : job ∈ tasks + beside := split ▸ Multiset.mem_cons_self job others
    rcases Multiset.mem_add.mp member with here | there
    · obtain ⟨rest, rfl⟩ := Multiset.exists_cons_of_mem here
      rw [Multiset.cons_add, Multiset.cons_inj_right] at split
      subst split
      exact (first (leaves.mono Set.subset_union_left) rfl).beside
        (other.leave (leaves.mono Set.subset_union_right)) apart
    · obtain ⟨rest, rfl⟩ := Multiset.exists_cons_of_mem there
      rw [Multiset.add_cons, Multiset.cons_inj_right] at split
      subst split
      -- The same as for the first of them, but that the mixture is the other way round.
      have turned := (second (leaves.mono Set.subset_union_right) rfl).beside
        (one.leave (leaves.mono Set.subset_union_left)) apart.symm
      rw [add_comm further, add_comm right, add_comm rest, Set.union_comm] at turned
      exact turned.weaken fun list => mixes_comm.mp

/-- The inputs of a merge before their first turns. -/
theorem Labors.of_feeds {ι : Type} (feeds : ι → Feed σ α) (turns : ι → Nat)
    (mays : ι → List α → Prop)
    (runs : ∀ index, (feeds index).Runs grounds (turns index) (mays index)) (indices : List ι)
    (start : Nat) :
    Labors grounds place (indices.map turns).sum (Mixture (indices.map mays)) indices.length
      (Job.spawned
        (((indices.map feeds).zipIdx start).map fun (feed, index) => input place index feed))
      ∅ state := by
  induction indices generalizing start with
  | nil => exact .ended
  | cons index rest ih =>
    have both := Labors.beside (.begins start (runs index)) (ih (start + 1)) (Set.empty_disjoint ∅)
    rw [Set.empty_union, add_comm 1, Multiset.singleton_add] at both
    exact both

end

end Deferred.Merge
