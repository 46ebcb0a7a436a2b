import Deferred.Proofs.Merge.ConsumerTurns
import Deferred.Proofs.Trees.Behaviour

/-! The consumer of a merge in a calm state. Between two pulls it stands at one of four posts, and
where it waits for a signal there is nothing to be had that it has not been called for. Each look
that it takes is paid for by an item, a signal or a change of posts, so that it never looks more
often than there is reason to. -/

namespace Deferred.Merge

variable {σ α : Type}

/-- Where the consumer stands between two pulls: before a look, where it has looked but may not go
on in this turn, where it listens, and where it was called but may not go on in this turn. -/
inductive Post where
  | looks | affords | listens | called

def Post.weight : Post → Nat
  | looks => 3
  | affords => 2
  | listens => 1
  | called => 0

/-- The reasons that there are to look. -/
def effort (post : Post) (hub : Hub α) : Nat :=
  3 * hub.queue.toList.length + 3 * (hub.signal.kept.toNat + hub.signal.isCalled.toNat) +
    post.weight

/-- What a look finds while nobody cancels. -/
inductive Looked (hub : Hub α) : Turn α × Hub α → Prop where
  | item {value rest} (head : hub.queue.toList = value :: rest.queue.toList)
      (same : rest = { hub with queue := rest.queue }) : Looked hub (.item value, rest)
  | finished {rest} (empty : hub.queue.toList = []) (closed : hub.running = false) :
      Looked hub (.finished, rest)
  | waits {rest} (empty : hub.queue.toList = []) (still : rest.queue.toList = [])
      (running : hub.running = true) (same : rest = { hub with queue := rest.queue }) :
      Looked hub (.waits, rest)

theorem looked (hub : Hub α) : Looked hub (hub.look false) := by
  unfold Hub.look
  rw [if_neg Bool.false_ne_true]
  rcases popped : hub.pop with ⟨_ | value, idle⟩
  · have empty : idle.queue.toList = [] := Hub.eq_nil_of_pop popped
    have same := Hub.eq_of_pop popped
    have before : hub.queue.toList = [] := by
      rw [Hub.toList_of_pop popped, empty]
      rfl
    have running : idle.running = hub.running := by rw [same]
    dsimp only
    cases runs : idle.running with
    | true =>
      rw [if_pos rfl]
      exact .waits before empty (running.symm.trans runs) same
    | false =>
      rw [if_neg Bool.false_ne_true]
      rcases again : idle.pop with ⟨_ | value, spent⟩
      · exact .finished before (running.symm.trans runs)
      · have some := Hub.toList_of_pop again
        rw [empty] at some
        cases some
  · exact .item (Hub.toList_of_pop popped) (Hub.eq_of_pop popped)

section
variable [Host σ] (place : Place σ (Hub α)) (cancellation : Cancellation σ)

/-- What is left of the consumer at its post, with so many looks left. -/
inductive Attends : Post → Nat → Hub α → Cursor σ α → Prop where
  | looks {left hub release} (nobody : hub.signal.listener = .nobody) :
      Attends .looks left hub ⟨{ Wait.passed with release }, consume place cancellation left⟩
  | affords {left hub} (nobody : hub.signal.listener = .nobody)
      (due : hub.signal.kept = true ∨ hub.queue.toList = [] ∧ hub.running = true) :
      Attends .affords left hub ⟨Wait.turn.holding (detach place),
        await place cancellation (consume place cancellation left)⟩
  | listens {left hub seen} (due : hub.signal.isCalled = true ∨
        hub.signal = ⟨false, .waiting⟩ ∧ hub.queue.toList = [] ∧ hub.running = true) :
      Attends .listens left hub
        ⟨⟨none, fun s => (place.get s).signal.isCalled || (cancellation.wait seen).opens s,
          detach place⟩, afford place fun s => consume place cancellation left (answer place s)⟩
  | called {left hub} (called : hub.signal.isCalled = true) :
      Attends .called left hub ⟨Wait.turn.holding (detach place),
        fun s => consume place cancellation left (answer place s)⟩

/-- The marks of the hub that the consumer does not touch. -/
structure Framed (hub after : Hub α) : Prop where
  running : after.running = hub.running
  attached : after.attached = hub.attached
  ends : after.ends = hub.ends

/-- What a pull of the consumer comes to, if there were so many reasons to look and so many looks
left. It takes no more looks than there are reasons that it has used up. -/
inductive Comes (state : σ) (most left : Nat) : Items σ α → Prop where
  | item {value rest release after fewer}
      (queue : (place.get state).queue.toList = value :: (place.get after).queue.toList)
      (framed : Framed (place.get state) (place.get after))
      (attends : Attends place cancellation .looks fewer (place.get after)
        ⟨{ Wait.passed with release }, rest⟩)
      (less : effort .looks (place.get after) < most)
      (paid : effort .looks (place.get after) + left ≤ most + fewer) :
      Comes state most left (.item value rest release after)
  | ended {after} (empty : (place.get state).queue.toList = [])
      (closed : (place.get state).running = false) : Comes state most left (.ended after)
  | waiting {wait resume after post fewer}
      (queue : (place.get state).queue.toList = (place.get after).queue.toList)
      (framed : Framed (place.get state) (place.get after))
      (attends : Attends place cancellation post fewer (place.get after) ⟨wait, resume⟩)
      (less : effort post (place.get after) < most)
      (paid : effort post (place.get after) + left ≤ most + fewer) :
      Comes state most left (.waiting wait resume after)

/-- The consumer looks on until it has something or waits, and touches nothing but the hub. -/
def LooksOn (grounds : Grounds σ) (left : Nat) : Prop :=
  ∀ state, grounds.calm state → ⟨α, place⟩ ∈ grounds.taken state →
    (place.get state).signal.listener = .nobody → effort .looks (place.get state) ≤ left →
      grounds.Moves {⟨α, place⟩} {⟨α, place⟩} state (consume place cancellation left state).state ∧
        Comes place cancellation state (effort .looks (place.get state)) left
          (consume place cancellation left state)

end

section
variable [Host σ] {place : Place σ (Hub α)} {cancellation : Cancellation σ} {grounds : Grounds σ}
  {state middle : σ} {most less left fewer : Nat} {items : Items σ α}

theorem Comes.prepend (comes : Comes place cancellation middle less fewer items)
    (queue : (place.get state).queue.toList = (place.get middle).queue.toList)
    (framed : Framed (place.get state) (place.get middle)) (bound : less ≤ most)
    (paid : less + left ≤ most + fewer) : Comes place cancellation state most left items := by
  cases comes with
  | item head frame attends smaller spent =>
    exact .item (queue.trans head) ⟨frame.running.trans framed.running,
      frame.attached.trans framed.attached, frame.ends.trans framed.ends⟩ attends (by omega)
      (by omega)
  | ended empty closed =>
    exact .ended (queue.trans empty) (framed.running.symm.trans closed)
  | waiting same frame attends smaller spent =>
    exact .waiting (queue.trans same) ⟨frame.running.trans framed.running,
      frame.attached.trans framed.attached, frame.ends.trans framed.ends⟩ attends (by omega)
      (by omega)

omit [Host σ] in
theorem isCalled_of_nobody {signal : Signal} (nobody : signal.listener = .nobody) :
    signal.isCalled = false := by
  simp [Signal.isCalled, nobody]

theorem moves_set (calm : grounds.calm state) (taken : ⟨α, place⟩ ∈ grounds.taken state)
    (hub : Hub α) :
    grounds.Moves {⟨α, place⟩} {⟨α, place⟩} state (place.set hub state) :=
  @Grounds.Moves.of_set σ _ grounds _ _ ⟨α, place⟩ calm (Set.singleton_subset_iff.mpr taken)
    (Set.mem_singleton _) hub

/-- After setting the hub the consumer looks again, for less reason than before. -/
theorem LooksOn.after_set (looksOn : LooksOn place cancellation grounds left)
    (calm : grounds.calm state) (taken : ⟨α, place⟩ ∈ grounds.taken state) {hub : Hub α}
    (nobody : hub.signal.listener = .nobody)
    (queue : (place.get state).queue.toList = hub.queue.toList)
    (framed : Framed (place.get state) hub) (fewer : effort .looks hub ≤ most)
    (enough : most ≤ left) :
    grounds.Moves {⟨α, place⟩} {⟨α, place⟩} state
        (consume place cancellation left (place.set hub state)).state ∧
      Comes place cancellation state most left
        (consume place cancellation left (place.set hub state)) := by
  have moves := moves_set calm taken hub
  have same := place.get_set hub state
  obtain ⟨further, comes⟩ := looksOn (place.set hub state) moves.calm (moves.taken taken)
    (same.symm ▸ nobody) (same.symm ▸ fewer.trans enough)
  rw [same] at comes
  exact ⟨moves.trans further,
    comes.prepend (same.symm ▸ queue) (same.symm ▸ framed) fewer (by omega)⟩

/-- The consumer listens, and looks again if a signal was kept for it. -/
theorem LooksOn.after_listening (looksOn : LooksOn place cancellation grounds left)
    (lowered : ∀ now, grounds.calm now → cancellation.isCancelled now = false)
    (calm : grounds.calm state) (taken : ⟨α, place⟩ ∈ grounds.taken state)
    (nobody : (place.get state).signal.listener = .nobody)
    (due : (place.get state).signal.kept = true ∨
      (place.get state).queue.toList = [] ∧ (place.get state).running = true)
    (enough : effort .affords (place.get state) ≤ left) :
    grounds.Moves {⟨α, place⟩} {⟨α, place⟩} state
        (await place cancellation (consume place cancellation left) state).state ∧
      Comes place cancellation state (effort .affords (place.get state)) left
        (await place cancellation (consume place cancellation left) state) := by
  rw [await_eq]
  rcases listened : (place.get state).listen with ⟨_ | _, hub⟩
  · obtain ⟨signal, same⟩ := Hub.eq_of_listen listened
    obtain ⟨silent, waits⟩ := Signal.listen_eq_false signal
    have moves := moves_set calm taken hub
    have uncancelled : (cancellation.flag.get (place.set hub state)).raised = false :=
      lowered _ moves.calm
    -- No signal was kept, so nothing has come since the look that found the queue empty.
    have idle := due.resolve_left (by rw [silent]; exact Bool.false_ne_true)
    have got := place.get_set hub state
    have empty : hub.queue.toList = [] := by rw [same]; exact idle.1
    have less : effort .listens hub < effort .affords (place.get state) := by
      have silent : (Signal.mk false .waiting).isCalled = false := rfl
      simp only [effort, Post.weight, empty, waits, silent, List.length_nil, Bool.toNat_false]
      omega
    dsimp only
    rw [uncancelled, if_neg Bool.false_ne_true]
    refine ⟨moves, .waiting ?_ ?_ (.listens (.inr ?_)) ?_ ?_⟩ <;> rw [got]
    · rw [empty, idle.1]
    · exact same ▸ ⟨rfl, rfl, rfl⟩
    · exact ⟨waits, empty, by rw [same]; exact idle.2⟩
    · exact less
    · omega
  · obtain ⟨signal, same⟩ := Hub.eq_of_listen listened
    obtain ⟨kept, spent⟩ := Signal.kept_of_listen signal
    have listener : hub.signal.listener = .nobody := (Signal.listen_eq_true signal).trans nobody
    have queue : hub.queue = (place.get state).queue := by rw [same]
    refine looksOn.after_set calm taken listener (by rw [queue]) (same ▸ ⟨rfl, rfl, rfl⟩) ?_ enough
    simp only [effort, Post.weight, kept, spent, isCalled_of_nobody listener,
      isCalled_of_nobody nobody, queue, Bool.toNat_true, Bool.toNat_false]
    omega

/-- Whatever has to do with the allowance of the turn: the consumer goes on, or waits at a post. -/
theorem looksOn (lowered : ∀ now, grounds.calm now → cancellation.isCancelled now = false) :
    ∀ left, LooksOn place cancellation grounds left := by
  intro left
  induction left with
  | zero =>
    intro state calm taken nobody enough
    simp only [effort, Post.weight] at enough
    omega
  | succ left ih =>
    intro state calm taken nobody enough
    have raised : (cancellation.flag.get state).raised = false := lowered state calm
    rw [consume_succ, raised]
    have found := looked (place.get state)
    generalize (place.get state).look false = turn at found
    cases found with
    | @item value rest head same =>
      have moves := moves_set calm taken rest
      have got := place.get_set rest state
      have signal : rest.signal = (place.get state).signal := by rw [same]
      have longer := congrArg List.length head
      rw [List.length_cons] at longer
      refine ⟨moves, .item ?_ ?_ (.looks ?_) ?_ ?_⟩ <;> rw [got]
      · exact head
      · exact same ▸ ⟨rfl, rfl, rfl⟩
      · exact signal ▸ nobody
      · simp only [effort, signal, longer]
        omega
      · simp only [effort, signal, longer]
        omega
    | finished empty closed =>
      exact ⟨moves_set calm taken _, .ended empty closed⟩
    | @waits rest empty still running same =>
      have moves := moves_set calm taken rest
      have got := place.get_set rest state
      have signal : rest.signal = (place.get state).signal := by rw [same]
      have framed : Framed (place.get state) rest := same ▸ ⟨rfl, rfl, rfl⟩
      have runs : rest.running = true := framed.running.trans running
      have less : effort .affords rest + 1 = effort .looks (place.get state) := by
        simp only [effort, Post.weight, empty, still, signal]
      dsimp only
      unfold afford
      split
      · obtain ⟨further, comes⟩ := ih.after_listening lowered moves.calm (moves.taken taken)
          (got.symm ▸ signal ▸ nobody) (got.symm ▸ .inr ⟨still, runs⟩) (by rw [got]; omega)
        rw [got] at comes
        exact ⟨moves.trans further, comes.prepend (by rw [got, empty, still]) (got.symm ▸ framed)
          (by omega) (by omega)⟩
      · refine ⟨moves, .waiting ?_ ?_ (.affords ?_ ?_) ?_ ?_⟩ <;> rw [got]
        · rw [empty, still]
        · exact framed
        · exact signal ▸ nobody
        · exact .inr ⟨still, runs⟩
        · omega
        · omega

/-- The consumer was called and goes on. -/
theorem LooksOn.after_call (looksOn : LooksOn place cancellation grounds left)
    (calm : grounds.calm state) (taken : ⟨α, place⟩ ∈ grounds.taken state)
    (called : (place.get state).signal.isCalled = true)
    (enough : effort .called (place.get state) ≤ left) :
    grounds.Moves {⟨α, place⟩} {⟨α, place⟩} state
        (consume place cancellation left (answer place state)).state ∧
      Comes place cancellation state (effort .called (place.get state)) left
        (consume place cancellation left (answer place state)) := by
  have heard : answer place state = place.set (place.get state).hear state := if_pos called
  rw [heard]
  refine looksOn.after_set calm taken rfl rfl ⟨rfl, rfl, rfl⟩ ?_ enough
  have silent : (place.get state).hear.signal.isCalled = false := rfl
  simp only [effort, Post.weight, called, silent, Bool.toNat_true, Bool.toNat_false]
  show 3 * (place.get state).queue.toList.length + 3 * ((place.get state).signal.kept.toNat + 0) + 3
    ≤ _
  omega

/-- A pull of the consumer from its post. -/
theorem Attends.comes {post : Post} {cursor : Cursor σ α}
    (lowered : ∀ now, grounds.calm now → cancellation.isCancelled now = false)
    (attends : Attends place cancellation post left (place.get state) cursor)
    (calm : grounds.calm state) (taken : ⟨α, place⟩ ∈ grounds.taken state)
    (enough : effort post (place.get state) ≤ left) (opens : cursor.wait.opens state = true) :
    grounds.Moves {⟨α, place⟩} {⟨α, place⟩} state (cursor.resume state).state ∧
      Comes place cancellation state (effort post (place.get state)) left
        (cursor.resume state) := by
  have looksOn : LooksOn place cancellation grounds left := looksOn lowered left
  cases attends with
  | looks nobody => exact looksOn state calm taken nobody enough
  | affords nobody due => exact looksOn.after_listening lowered calm taken nobody due enough
  | called called => exact looksOn.after_call calm taken called enough
  | @listens left hub seen due =>
    have uncalled : (cancellation.wait seen).opens state = false := by
      have raised : (cancellation.flag.get state).raised = false := lowered state calm
      show (cancellation.flag.get state).calls seen = false
      rw [Flag.calls, raised, Bool.and_false]
    -- The wait is also one for a cancellation, which never comes.
    have called : (place.get state).signal.isCalled = true :=
      (Bool.or_eq_true_iff.mp opens).resolve_right (by rw [uncalled]; exact Bool.false_ne_true)
    have less : effort .called (place.get state) + 1 = effort .listens (place.get state) := rfl
    show grounds.Moves _ _ _ (afford place _ state).state ∧ Comes _ _ _ _ _ (afford place _ state)
    unfold afford
    split
    · obtain ⟨moves, comes⟩ := looksOn.after_call calm taken called (by omega)
      exact ⟨moves, comes.prepend rfl ⟨rfl, rfl, rfl⟩ (by omega) (by omega)⟩
    · refine ⟨.refl calm (Set.singleton_subset_iff.mpr taken), .waiting rfl ⟨rfl, rfl, rfl⟩
        (.called called) ?_ ?_⟩ <;> omega

/-- In a turn with some allowance nothing keeps the consumer of a closed hub. -/
theorem Attends.opens {post : Post} {cursor : Cursor σ α}
    (attends : Attends place cancellation post left (place.get state) cursor)
    (closed : (place.get state).running = false) (allowed : 0 < Host.allowance state) :
    cursor.wait.opens state = true := by
  cases attends with
  | looks => rfl
  | affords | called => exact decide_eq_true allowed
  | listens due =>
    rcases due with called | ⟨-, -, running⟩
    · exact Bool.or_eq_true_iff.mpr (.inl called)
    · exact absurd running (closed ▸ Bool.false_ne_true)

/-- The consumer does not mind a signal. -/
theorem Attends.notify {post : Post} {cursor : Cursor σ α} {hub after : Hub α}
    (attends : Attends place cancellation post left hub cursor)
    (given : after.signal = hub.signal.give) :
    Attends place cancellation post left after cursor := by
  cases attends with
  | looks nobody => exact .looks (given ▸ Signal.listener_give_eq_nobody nobody)
  | affords nobody due =>
    refine .affords (given ▸ Signal.listener_give_eq_nobody nobody) (.inl ?_)
    rw [given, Signal.give, nobody]
  | listens due =>
    refine .listens (.inl (given ▸ ?_))
    rcases due with called | ⟨waits, -, -⟩
    · exact Signal.isCalled_give called
    · rw [waits]
      rfl
  | called called => exact .called (given ▸ Signal.isCalled_give called)

theorem Attends.of_same {post : Post} {cursor : Cursor σ α} {hub after : Hub α}
    (attends : Attends place cancellation post left hub cursor)
    (signal : after.signal = hub.signal) (queue : after.queue = hub.queue)
    (running : after.running = hub.running) :
    Attends place cancellation post left after cursor := by
  cases attends with
  | looks nobody => exact .looks (signal ▸ nobody)
  | affords nobody due => exact .affords (signal ▸ nobody) (signal ▸ queue ▸ running ▸ due)
  | listens due => exact .listens (signal ▸ queue ▸ running ▸ due)
  | called called => exact .called (signal ▸ called)

end

end Deferred.Merge
