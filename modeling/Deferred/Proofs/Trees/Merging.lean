import Deferred.Proofs.Trees.Supervision

/-! A merge among others. What is left of its inputs, of its supervisor and of its consumer is
weighed together, and each turn of any of them brings the weight down: what an input pushes it has
paid for with turns of its own, and the consumer pays for each look with what it finds or with a
signal. So a merge behaves as its inputs do, and what comes of it is a mixture of what comes of
them. -/

namespace Deferred

variable {σ α : Type}

namespace Merge

/-- Where the parts of a merged run stand. -/
structure Standing (σ α : Type) : Type 1 where
  turns : Nat
  may : List α → Prop
  left : Nat
  weight : Nat
  post : Post
  span : Nat
  tasks : Multiset (Job σ)
  watching : Multiset (Job σ)
  held : Set (Hold σ)

/-- What is left to do, in turns. -/
def Standing.load (standing : Standing σ α) (hub : Hub α) : Nat :=
  10 * standing.turns + 10 * standing.weight + effort standing.post hub

section
variable [Host σ] (grounds : Grounds σ) (place : Place σ (Hub α)) (cancellation : Cancellation σ)
  (inputs : Nat)

/-- The parts of the run stand so in this state. -/
structure Standing.Holds (standing : Standing σ α) (cursor : Cursor σ α) (state : σ) : Prop where
  sound : Sound place inputs grounds state
  labors : Labors grounds place standing.turns standing.may standing.left standing.tasks
    standing.held state
  oversees : Oversees place inputs standing.weight (place.get state) standing.watching
  attends : Attends place cancellation standing.post standing.span (place.get state) cursor
  ended : (place.get state).ends.length + standing.left = inputs
  enough : standing.load (place.get state) ≤ standing.span

/-- Runs with less to do than so many turns behave. -/
def Bears (most : Nat) : Prop :=
  ∀ (standing : Standing σ α) (may : List α → Prop) (cursor : Cursor σ α) (state : σ),
    standing.Holds grounds place cancellation inputs cursor state →
    standing.load (place.get state) < most →
    (∀ list, standing.may list → may ((place.get state).queue.toList ++ list)) →
    Behaves grounds most may cursor (standing.tasks + standing.watching)
      (insert ⟨α, place⟩ standing.held) state

end

section
variable [Host σ] {grounds : Grounds σ} {place : Place σ (Hub α)} {cancellation : Cancellation σ}
  {inputs : Nat} {standing : Standing σ α} {cursor : Cursor σ α} {state now : σ} {most : Nat}
  {may : List α → Prop}

namespace Standing.Holds

theorem owned (holds : standing.Holds grounds place cancellation inputs cursor state) :
    insert ⟨α, place⟩ standing.held ⊆ grounds.taken state :=
  Set.insert_subset holds.sound.taken holds.labors.owned

theorem leave (holds : standing.Holds grounds place cancellation inputs cursor state)
    (leaves : grounds.Leaves (insert ⟨α, place⟩ standing.held) state now) :
    standing.Holds grounds place cancellation inputs cursor now := by
  have same : place.get now = place.get state := leaves.same ⟨α, place⟩ (Set.mem_insert _ _)
  exact ⟨holds.sound.leave leaves (Set.mem_insert _ _),
    holds.labors.leave (leaves.mono (Set.subset_insert _ _)), same ▸ holds.oversees,
    same ▸ holds.attends, same ▸ holds.ended, same ▸ holds.enough⟩

/-- The consumer has come to another post, and has left the hub as it was but for its queue and its
signal. -/
theorem pulled {post : Post} {fewer : Nat} {goesOn : Cursor σ α}
    (holds : standing.Holds grounds place cancellation inputs cursor state)
    (moves : grounds.Moves {⟨α, place⟩} {⟨α, place⟩} state now)
    (framed : Framed (place.get state) (place.get now))
    (attends : Attends place cancellation post fewer (place.get now) goesOn)
    (paid : effort post (place.get now) + standing.span ≤
      effort standing.post (place.get state) + fewer) :
    { standing with post, span := fewer }.Holds grounds place cancellation inputs goesOn now := by
  have apart : Disjoint {⟨α, place⟩} standing.held :=
    Set.disjoint_singleton_left.mpr holds.labors.notMem
  have enough := holds.enough
  refine ⟨⟨moves.calm, moves.taken holds.sound.taken, ?_, ?_, ?_⟩,
    holds.labors.leave (moves.leaves holds.labors.owned apart), ?_, attends, ?_, ?_⟩
  · exact framed.attached.trans holds.sound.attached
  · exact framed.ends ▸ holds.sound.fine
  · exact framed.ends ▸ holds.sound.all
  · exact holds.oversees.mono framed.running (framed.ends ▸ le_rfl) (framed.ends ▸ holds.sound.all)
  · exact framed.ends ▸ holds.ended
  · simp only [load] at enough ⊢
    omega

end Standing.Holds

/-- A pull of the consumer. -/
theorem Bears.pulls (bears : Bears grounds place cancellation inputs most)
    (lowered : ∀ now, grounds.calm now → cancellation.isCancelled now = false)
    (holds : standing.Holds grounds place cancellation inputs cursor state)
    (load : standing.load (place.get state) ≤ most)
    (gives : ∀ list, standing.may list → may ((place.get state).queue.toList ++ list))
    (opens : cursor.wait.opens state = true) :
    Pulls grounds (Behaves grounds most) may (standing.tasks + standing.watching)
      (insert ⟨α, place⟩ standing.held) state (cursor.resume state) := by
  have enough := holds.enough
  simp only [Standing.load] at enough load
  obtain ⟨moves, comes⟩ := holds.attends.comes lowered holds.sound.calm holds.sound.taken (by omega)
    opens
  have both := moves.union holds.labors.owned
  rw [Set.singleton_union] at both
  generalize cursor.resume state = items at moves comes both
  cases comes with
  | @item value rest release after fewer queue framed attends less paid =>
    have behaves := bears { standing with post := .looks, span := fewer }
      (fun list => may (value :: list)) _ after (holds.pulled moves framed attends paid)
      (by simp only [Standing.load]; omega) fun list later => by
        have comes := gives list later
        rwa [queue] at comes
    exact (Pulls.item moves.calm both.owned behaves).after both
  | @ended after empty closed =>
    obtain ⟨watched, all⟩ := holds.oversees.over_of_closed closed
    have ended := holds.ended
    obtain ⟨none, finished⟩ := holds.labors.over_of_none (by omega)
    refine ⟨_, both, ?_, ?_⟩
    · have comes := gives [] finished
      rwa [empty] at comes
    · rw [none, watched]
      rfl
  | @waiting wait resume after post fewer queue framed attends less paid =>
    have behaves := bears { standing with post, span := fewer } may _ after
      (holds.pulled moves framed attends paid) (by simp only [Standing.load]; omega) (queue ▸ gives)
    exact (Pulls.waiting moves.calm both.owned behaves).after both

/-- A turn of an input. -/
theorem Bears.labors (bears : Bears grounds place cancellation inputs most)
    (holds : standing.Holds grounds place cancellation inputs cursor state)
    (load : standing.load (place.get state) ≤ most)
    (gives : ∀ list, standing.may list → may ((place.get state).queue.toList ++ list))
    {job : Job σ} {others : Multiset (Job σ)} (split : standing.tasks = job ::ₘ others)
    (opens : job.wait.opens state = true) :
    ∃ kept, grounds.Moves (insert ⟨α, place⟩ standing.held) kept state (job.resume state).state ∧
      Behaves grounds most may cursor (Job.after (job.resume state) (others + standing.watching))
        kept (job.resume state).state := by
  have turned : Turned grounds place cancellation _ _ _ _ _ _ _ :=
    holds.labors.turn (.refl holds.sound.calm) holds.sound.attached holds.sound.taken split opens
  obtain ⟨kept, values, count, fewer, later, still, moves, received, less, sum, labors, comes⟩ :=
    turned
  obtain ⟨more, ends, length, fine⟩ := received.ends
  have pushed := received.effort standing.post
  have ended := holds.ended
  have enough := holds.enough
  -- A turn of an input weighs more than the reasons to look that a push or an end can give.
  simp only [Standing.load] at load enough
  have noted := congrArg List.length ends
  rw [List.length_append] at noted
  refine ⟨_, moves, ?_⟩
  rw [Job.after_add]
  refine bears
    { standing with
      turns := fewer
      may := later
      left := still
      tasks := Job.after (job.resume state) others
      held := kept }
    may cursor _
    ⟨⟨moves.calm, moves.taken holds.sound.taken, received.attached.trans holds.sound.attached, ?_,
        ?_⟩,
      labors, ?_, received.attends _ _ _ holds.attends, ?_, ?_⟩ ?_ ?_
  · exact ends ▸ List.forall_mem_append.mpr ⟨holds.sound.fine, fine⟩
  · omega
  · exact holds.oversees.mono received.running (by omega) (by omega)
  · show _ + still = inputs
    omega
  · simp only [Standing.load]
    omega
  · simp only [Standing.load]
    omega
  · intro list goesOn
    have all := gives _ (comes list goesOn)
    rwa [← List.append_assoc, ← received.queue] at all

/-- A turn of the supervisor. -/
theorem Bears.oversees (bears : Bears grounds place cancellation inputs most)
    (holds : standing.Holds grounds place cancellation inputs cursor state)
    (load : standing.load (place.get state) ≤ most)
    (gives : ∀ list, standing.may list → may ((place.get state).queue.toList ++ list))
    {job : Job σ} {others : Multiset (Job σ)} (split : standing.watching = job ::ₘ others)
    (opens : job.wait.opens state = true) :
    ∃ kept, grounds.Moves (insert ⟨α, place⟩ standing.held) kept state (job.resume state).state ∧
      Behaves grounds most may cursor (Job.after (job.resume state) (standing.tasks + others)) kept
        (job.resume state).state := by
  have turned : _ ∧ Oversaw place cancellation _ _ _ _ _ :=
    holds.oversees.turn holds.sound split opens
  obtain ⟨rfl, weight, fewer, moves, tended, oversees⟩ := turned
  have apart : Disjoint {⟨α, place⟩} standing.held :=
    Set.disjoint_singleton_left.mpr holds.labors.notMem
  have both := moves.union holds.labors.owned
  rw [Set.singleton_union] at both
  have called := tended.effort standing.post
  have enough := holds.enough
  simp only [Standing.load] at load enough
  refine ⟨_, both, ?_⟩
  rw [add_comm, Job.after_add, add_comm]
  refine bears { standing with weight, watching := Job.after (job.resume state) 0 } may cursor _
    ⟨⟨moves.calm, moves.taken holds.sound.taken, tended.attached.trans holds.sound.attached, ?_,
        ?_⟩,
      holds.labors.leave (moves.leaves holds.labors.owned apart), oversees,
      tended.attends _ _ _ holds.attends, ?_, ?_⟩ ?_ ?_
  · exact tended.ends ▸ holds.sound.fine
  · exact tended.ends ▸ holds.sound.all
  · exact tended.ends ▸ holds.ended
  · simp only [Standing.load]
    omega
  · simp only [Standing.load]
    omega
  · exact tended.queue ▸ gives

/-- While something is left to do, others can make some turn possible. -/
theorem Standing.Holds.goesOn
    (holds : standing.Holds grounds place cancellation inputs cursor state) :
    ∃ later, grounds.Leaves (grounds.taken state) state later ∧
      (cursor.wait.opens later = true ∨
        ∃ job ∈ standing.tasks + standing.watching, job.wait.opens later = true) := by
  by_cases none : standing.left = 0
  -- All inputs have ended, so with an allowance the supervisor has a turn, or else the consumer.
  · have allows := grounds.leaves_allow holds.sound.calm 1
    have allowed : 0 < Host.allowance (Host.allow 1 state) := by
      rw [Host.allowance_allow]
      exact Nat.one_pos
    have later := holds.leave (allows.mono holds.owned)
    have ended := later.ended
    refine ⟨_, allows, ?_⟩
    rcases later.oversees.opens (by omega) allowed with closed | ⟨job, member, opens⟩
    · exact .inl (later.attends.opens closed allowed)
    · exact .inr ⟨job, Multiset.mem_add.mpr (.inr member), opens⟩
  · obtain ⟨later, leaves, job, member, opens⟩ :=
      holds.labors.goesOn none (.refl holds.sound.calm)
    exact ⟨later, leaves, .inr ⟨job, Multiset.mem_add.mpr (.inl member), opens⟩⟩

theorem bears (lowered : ∀ now, grounds.calm now → cancellation.isCancelled now = false)
    (most : Nat) :
    Bears grounds place cancellation inputs most := by
  induction most with
  | zero => exact fun _ _ _ _ _ load => absurd load (Nat.not_lt_zero _)
  | succ most ih =>
    intro standing may cursor state holds load gives
    refine ⟨holds.owned, fun now leaves opens => ?_, fun now leaves job rest split opens => ?_,
      fun now leaves => (holds.leave leaves).goesOn⟩
    all_goals
      have same : place.get now = place.get state := leaves.same ⟨α, place⟩ (Set.mem_insert _ _)
      have holds := holds.leave leaves
      rw [← same] at load gives
    · exact ih.pulls lowered holds (by omega) gives opens
    · have member : job ∈ standing.tasks + standing.watching :=
        split ▸ Multiset.mem_cons_self job rest
      rcases Multiset.mem_add.mp member with here | there
      · obtain ⟨others, own⟩ := Multiset.exists_cons_of_mem here
        rw [own, Multiset.cons_add, Multiset.cons_inj_right] at split
        subst split
        exact ih.labors holds (by omega) gives own opens
      · obtain ⟨others, own⟩ := Multiset.exists_cons_of_mem there
        rw [own, Multiset.add_cons, Multiset.cons_inj_right] at split
        subst split
        exact ih.oversees holds (by omega) gives own opens

end

/-! ### Feeds -/

section
variable [Host σ]

/-- A merged run that may take so many looks. -/
def flowFor (span : Nat) (place : Place σ (Hub α)) (inputs : List (Feed σ α))
    (cancellation : Cancellation σ) : Flow σ α :=
  fun state =>
    let tasks := inputs.zipIdx.map fun (feed, index) => input place index feed
    Flow.spawning (tasks ++ [supervisor place inputs.length]) (consume place cancellation span)
      (Host.trace (.mergeStarted inputs.length) state)

end

end Merge

theorem Flow.settled_spawning (tasks : List (σ → Task σ)) (flow : Flow σ α) (state : σ) :
    (Flow.spawning tasks flow state).settled = (flow state).settled := by
  induction tasks with
  | nil => rfl
  | cons task rest ih => exact ih

section
variable [Host σ]

/-- A merge whose runs may take so many looks. -/
def Feed.mergeFor (span : Nat) (hubs : Arena σ (Hub α)) (inputs : List (Feed σ α))
    (scope : Scope σ) : Feed σ α where
  start := do
    let hub ← hubs.fresh Hub.new
    return Merge.flowFor span hub inputs scope.cancellation

theorem Feed.merge_eq_mergeFor (hubs : Arena σ (Hub α)) (inputs : List (Feed σ α))
    (scope : Scope σ) :
    Feed.merge hubs inputs scope = Feed.mergeFor Merge.looks hubs inputs scope :=
  rfl

end

section
variable [Host σ] {grounds : Grounds σ} {place : Place σ (Hub α)} {scope : Scope σ} {state now : σ}
  {ι : Type} {feeds : ι → Feed σ α} {turns : ι → Nat} {mays : ι → List α → Prop} {indices : List ι}
  {span : Nat}

/-- The turns of a merge of these inputs, and the looks that its consumer may want to take. -/
def Merge.mergeTurns (turns : ι → Nat) (indices : List ι) : Nat :=
  10 * ((indices.map turns).sum + 2 * indices.length + 3)

namespace Merge

/-- The parts of a merged run when they are about to begin. -/
theorem Standing.Holds.begins (calm : grounds.calm state) (taken : ⟨α, place⟩ ∈ grounds.taken state)
    (fresh : place.get state = Hub.new)
    (runs : ∀ index, (feeds index).Runs grounds (turns index) (mays index))
    (enough : mergeTurns turns indices ≤ span) :
    (⟨(indices.map turns).sum, Mixture (indices.map mays),
      indices.length, 2 * indices.length + 2, .looks, span,
      Job.spawned ((indices.map feeds).zipIdx.map fun (feed, index) => input place index feed),
      {⟨.passed, supervisor place indices.length⟩}, ∅⟩ : Standing σ α).Holds grounds place
        scope.cancellation indices.length
        (Flow.cursor (consume place scope.cancellation span)) state := by
  have attends : Attends place scope.cancellation .looks span (Hub.new : Hub α)
    ⟨{ Wait.passed with release := id }, consume place scope.cancellation span⟩ := .looks rfl
  refine ⟨⟨calm, taken, fresh ▸ rfl, fresh ▸ nofun, fresh ▸ Nat.zero_le _⟩,
    .of_feeds feeds turns mays runs indices 0, fresh ▸ .begins rfl, fresh ▸ attends,
    fresh ▸ Nat.zero_add _, ?_⟩
  rw [fresh]
  unfold mergeTurns at enough
  show 10 * (indices.map turns).sum + 10 * (2 * indices.length + 2) + 6 ≤ span
  omega

/-- The first pull of a merged run spawns its tasks. -/
theorem pulls_flowFor (keeps : grounds.Keeps scope)
    (runs : ∀ index, (feeds index).Runs grounds (turns index) (mays index))
    (enough : mergeTurns turns indices ≤ span)
    (calm : grounds.calm state) (taken : ⟨α, place⟩ ∈ grounds.taken state)
    (fresh : place.get state = Hub.new) {most : Nat} (less : mergeTurns turns indices = most + 1) :
    Pulls grounds (Behaves grounds most)
      (Mixture (indices.map mays)) 0 {⟨α, place⟩} state
      (flowFor span place (indices.map feeds) scope.cancellation state) := by
  have told := grounds.leaves_trace calm (.mergeStarted (indices.map feeds).length)
  have same := (told.same ⟨α, place⟩ taken).trans fresh
  have begins : Standing.Holds grounds place scope.cancellation indices.length _ _ _ :=
    .begins told.calm (told.taken taken) same runs enough
  have pulls : Pulls grounds _ (Mixture (indices.map mays)) _ _ _ _ :=
    (bears keeps most).pulls keeps begins ?_ ?_ rfl
  · obtain ⟨-, after, -, children⟩ := Flow.spawning_apply
      (((indices.map feeds).zipIdx.map fun (feed, index) => input place index feed) ++
        [supervisor place (indices.map feeds).length])
      (consume place scope.cancellation span)
      (Host.trace (.mergeStarted (indices.map feeds).length) state)
    refine Pulls.prepend ?_ (told.moves (Set.singleton_subset_iff.mpr taken))
      (Flow.settled_spawning _ _ _) children after
    rw [zero_add, Job.spawned_append, List.length_map]
    rw [List.length_map] at pulls
    dsimp only at pulls
    rw [LawfulSingleton.insert_empty_eq] at pulls
    exact pulls
  · rw [same]
    unfold mergeTurns at less
    show 10 * (indices.map turns).sum + 10 * (2 * indices.length + 2) + 6 ≤ most
    omega
  · rw [same]
    exact fun list => id

end Merge

open Merge in
/-- A merge behaves if its inputs do. -/
theorem Feed.runs_mergeFor {hubs : Arena σ (Hub α)} (offers : grounds.Offers hubs)
    (keeps : grounds.Keeps scope)
    (runs : ∀ index, (feeds index).Runs grounds (turns index) (mays index))
    (enough : mergeTurns turns indices ≤ span) :
    (Feed.mergeFor span hubs (indices.map feeds) scope).Runs grounds (mergeTurns turns indices)
      (Mixture (indices.map mays)) := by
  intro state calm
  obtain ⟨most, less⟩ : ∃ most, mergeTurns turns indices = most + 1 :=
    ⟨mergeTurns turns indices - 1, by unfold mergeTurns; omega⟩
  have moves := offers.moves calm Hub.new
  refine ⟨_, _, _, rfl, moves, ?_⟩
  rw [less]
  refine ⟨moves.owned, fun now leaves _ => ?_, fun now _ job rest split => ?_, fun now leaves => ?_⟩
  · have member := Set.singleton_subset_iff.mp moves.owned
    have fresh := (leaves.same _ (Set.mem_singleton _)).trans (offers.holds Hub.new state)
    exact pulls_flowFor keeps runs enough leaves.calm (leaves.taken member) fresh less
  · exact absurd split.symm Multiset.cons_ne_zero
  · exact ⟨now, .refl leaves.calm, .inl rfl⟩

end

end Deferred
