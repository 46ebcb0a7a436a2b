import Deferred.Proofs.Merge.ConsumerTurns

/-! What a poll of the consumer does, and how many looks it leaves. A poll takes at most two: after
the first one the signal is no longer kept, so that the second is the last one before a wait. Once
the scope is cancelled one look is enough, and the only thing that can put it off is a wait that has
to be paid for in a turn without allowance. -/

namespace Deferred

variable {σ α : Type}

/-- A poll of the run at the point where it stopped. A wait that is not open goes on. -/
def Cursor.poll (cursor : Cursor σ α) : Flow σ α :=
  fun state =>
    if cursor.wait.opens state then cursor.resume state
    else .waiting cursor.wait cursor.resume state

theorem Cursor.poll_of_opens {cursor : Cursor σ α} {state : σ}
    (opens : cursor.wait.opens state = true) : cursor.poll state = cursor.resume state :=
  if_pos opens

theorem Cursor.poll_of_closed {cursor : Cursor σ α} {state : σ}
    (closed : ¬cursor.wait.opens state = true) :
    cursor.poll state = .waiting cursor.wait cursor.resume state :=
  if_neg closed

/-- The run has stopped at a wait that some state keeps closed. -/
def Cursor.IsSuspended (cursor : Cursor σ α) : Prop :=
  ∃ state, cursor.wait.opens state = false

/-- The run comes to its end with this poll, in this state. -/
inductive Items.EndsIn : Items σ α → σ → Prop where
  | ended {state} : EndsIn (.ended state) state
  | spawn {child rest state last} (ends : EndsIn (rest state) last) :
      EndsIn (.spawn child rest state) last

theorem Items.EndsIn.spawning {flow : Flow σ α} {state last : σ} (ends : (flow state).EndsIn last)
    (tasks : List (σ → Task σ)) : (Flow.spawning tasks flow state).EndsIn last := by
  induction tasks with
  | nil => exact ends
  | cons task rest ih => exact .spawn ih

/-- A poll that differs from the other at most in spawning tasks first. -/
structure Items.Agrees (items other : Items σ α) : Prop where
  cursor : items.cursor = other.cursor
  state : items.state = other.state
  yields : items.yields = other.yields
  ends : ∀ last, other.EndsIn last → items.EndsIn last

theorem Items.Agrees.refl (items : Items σ α) : items.Agrees items :=
  ⟨rfl, rfl, rfl, fun _ ends => ends⟩

theorem Flow.spawning_agrees (tasks : List (σ → Task σ)) (flow : Flow σ α) (state : σ) :
    (Flow.spawning tasks flow state).Agrees (flow state) := by
  obtain ⟨cursor, after, yields, -⟩ := Flow.spawning_apply tasks flow state
  exact ⟨cursor, after, yields, fun _ ends => ends.spawning tasks⟩

theorem Flag.noted_version {flag : Flag} (lowered : ¬flag.raised = true) :
    flag.Noted flag.version := by
  rw [Flag.Noted, if_neg lowered]

theorem Flag.Becomes.noted {flag mark : Flag} (becomes : flag.Becomes mark) {seen : Nat}
    (noted : flag.Noted seen) : mark.Noted seen := by
  induction becomes with
  | refl => exact noted
  | tail _ raised ih => exact raised ▸ ih.raise

/-- What a look finds, and what it does to the hub. -/
theorem Hub.look_cases {cancelled : Bool} {hub rest : Hub α} {turn : Turn α}
    (looked : hub.look cancelled = (turn, rest)) :
    match turn with
    | .cancelled dropped => cancelled = true ∧ dropped = hub.queue.length ∧ rest = hub.detach
    | .item value => cancelled = false ∧ hub.queue.toList = value :: rest.queue.toList
    | .finished => cancelled = false ∧ hub.running = false ∧ hub.queue.toList = [] ∧
        rest.queue.toList = [] ∧ rest.attached = false
    | .waits => cancelled = false ∧ rest.signal = hub.signal ∧ rest.running = hub.running ∧
        hub.queue.toList = rest.queue.toList := by
  unfold look at looked
  split at looked
  case isTrue raised =>
    obtain ⟨rfl, rfl⟩ := Prod.mk.inj looked
    exact ⟨raised, rfl, rfl⟩
  case isFalse lowered =>
    rw [Bool.not_eq_true] at lowered
    rcases popped : hub.pop with ⟨_ | value, idle⟩ <;> rw [popped] at looked <;>
      dsimp only at looked <;> have same := toList_of_pop popped
    · have kept := eq_of_pop popped
      have empty := eq_nil_of_pop popped
      split at looked
      · obtain ⟨rfl, rfl⟩ := Prod.mk.inj looked
        exact ⟨lowered, by rw [kept], by rw [kept], same⟩
      case isFalse closed =>
        rw [kept, Bool.not_eq_true] at closed
        rcases again : idle.pop with ⟨_ | value, spent⟩ <;> rw [again] at looked <;>
          obtain ⟨rfl, rfl⟩ := Prod.mk.inj looked <;> have left := toList_of_pop again
        · have drained : spent.queue.toList = [] := eq_nil_of_pop again
          exact ⟨lowered, closed, same.trans empty, drained, rfl⟩
        · exact ⟨lowered, same.trans left⟩
    · obtain ⟨rfl, rfl⟩ := Prod.mk.inj looked
      exact ⟨lowered, same⟩

namespace Merge

/-- A consumer that has begun and has so many looks left, at a point where it may be polled or
dropped. -/
inductive Poised [Host σ] (place : Place σ (Hub α)) (cancellation : Cancellation σ) :
    Nat → Flag → Cursor σ α → Prop where
  | rests {left flag} : Poised place cancellation left flag
      ⟨{ Wait.passed with release := detach place }, consume place cancellation left⟩
  | selects {left flag} : Poised place cancellation left flag
      ⟨Wait.turn.holding (detach place),
        await place cancellation (consume place cancellation left)⟩
  | waits {left flag seen} (noted : flag.Noted seen) : Poised place cancellation left flag
      ⟨⟨none, fun s => (place.get s).signal.isCalled || (cancellation.wait seen).opens s,
          detach place⟩,
        afford place fun s => consume place cancellation left (answer place s)⟩
  | called {left flag} : Poised place cancellation left flag
      ⟨Wait.turn.holding (detach place), fun s => consume place cancellation left (answer place s)⟩
  | spent {flag} : Poised place cancellation 0 flag
      ⟨Wait.forever.holding (detach place), Flow.empty⟩

/-- What a poll has done to the hub, and where it leaves the consumer if it is still there. -/
structure Polled [Host σ] (place : Place σ (Hub α)) (cancellation : Cancellation σ) (left : Nat)
    (before : σ) (items : Items σ α) : Prop where
  queue : (place.get before).queue.toList = items.yields ++ (place.get items.state).queue.toList
  flag : cancellation.flag.get items.state = cancellation.flag.get before
  children : items.children = []
  gone : items.cursor = none → (place.get items.state).attached = false
  ended : items.cursor = none → (cancellation.flag.get before).raised = false →
    (place.get before).running = false ∧ (place.get before).queue.toList = []
  poised : ∀ cursor, items.cursor = some cursor → ∃ more, left ≤ more ∧
    Poised place cancellation more (cancellation.flag.get items.state) cursor

/-- A state that a poll cannot tell from the one before. -/
structure Alike (place : Place σ (Hub α)) (cancellation : Cancellation σ) (before after : σ) :
    Prop where
  flag : cancellation.flag.get after = cancellation.flag.get before
  queue : (place.get after).queue.toList = (place.get before).queue.toList
  running : (place.get after).running = (place.get before).running

theorem Alike.trans {place : Place σ (Hub α)} {cancellation : Cancellation σ}
    {before between after : σ} (first : Alike place cancellation before between)
    (second : Alike place cancellation between after) : Alike place cancellation before after :=
  ⟨second.flag.trans first.flag, second.queue.trans first.queue,
    second.running.trans first.running⟩

variable [Host σ] {place : Place σ (Hub α)} {cancellation : Cancellation σ} {left more : Nat}
  {flag mark : Flag} {cursor : Cursor σ α} {before after state : σ} {items : Items σ α}

theorem Poised.mono (poised : Poised place cancellation left flag cursor)
    (becomes : flag.Becomes mark) : Poised place cancellation left mark cursor := by
  cases poised with
  | rests => exact .rests
  | selects => exact .selects
  | waits noted => exact .waits (becomes.noted noted)
  | called => exact .called
  | spent => exact .spent

theorem Poised.release (poised : Poised place cancellation left flag cursor) :
    cursor.wait.release = detach place := by
  cases poised <;> rfl

namespace Polled

theorem mono (fewer : left ≤ more) (polled : Polled place cancellation more before items) :
    Polled place cancellation left before items where
  queue := polled.queue
  flag := polled.flag
  children := polled.children
  gone := polled.gone
  ended := polled.ended
  poised cursor here := by
    obtain ⟨rest, bound, poised⟩ := polled.poised cursor here
    exact ⟨rest, Nat.le_trans fewer bound, poised⟩

theorem of_alike (alike : Alike place cancellation before after)
    (polled : Polled place cancellation left after items) :
    Polled place cancellation left before items where
  queue := alike.queue.symm.trans polled.queue
  flag := polled.flag.trans alike.flag
  children := polled.children
  gone := polled.gone
  ended closes lowered := by
    rw [← alike.flag] at lowered
    rw [← alike.running, ← alike.queue]
    exact polled.ended closes lowered
  poised := polled.poised

/-- The poll stops at a wait, in a state like the one before. -/
theorem of_waiting {wait : Wait σ} {resume : σ → Items σ α}
    (alike : Alike place cancellation before after) (bound : left ≤ more)
    (poised : Poised place cancellation more (cancellation.flag.get after) ⟨wait, resume⟩) :
    Polled place cancellation left before (.waiting wait resume after) where
  queue := alike.queue.symm
  flag := alike.flag
  children := rfl
  gone := nofun
  ended := nofun
  poised cursor here := by
    obtain rfl := Option.some.inj here
    exact ⟨more, bound, poised⟩

end Polled

theorem Apart.alike_set (apart : Apart place cancellation) {hub : Hub α}
    (queue : hub.queue.toList = (place.get state).queue.toList)
    (running : hub.running = (place.get state).running) :
    Alike place cancellation state (place.set hub state) where
  flag := apart.flag_set hub state
  queue := by rw [place.get_set, queue]
  running := by rw [place.get_set, running]

theorem Apart.alike_answer (apart : Apart place cancellation) (state : σ) :
    Alike place cancellation state (answer place state) := by
  unfold answer
  split
  · exact apart.alike_set rfl rfl
  · have left : Alike place cancellation state (place.modify Hub.unlisten state) :=
      apart.alike_set rfl rfl
    refine ⟨(apart.flag_allow _ _).trans left.flag, ?_, ?_⟩ <;> rw [Host.spend, apart.hub_allow]
    · exact left.queue
    · exact left.running

theorem alike_listen (apart : Apart place cancellation) {heard : Bool} {hub : Hub α}
    (listened : (place.get state).listen = (heard, hub)) :
    Alike place cancellation state (place.set hub state) := by
  obtain ⟨-, same⟩ := Hub.eq_of_listen listened
  refine apart.alike_set ?_ ?_ <;> rw [same]

/-- A look, and one more if the signal was kept. -/
theorem consume_polled (apart : Apart place cancellation) (left : Nat) :
    ∀ state, Polled place cancellation (left - 1 - (place.get state).signal.kept.toNat) state
      (consume place cancellation left state) := by
  induction left with
  | zero => exact fun state => .of_waiting ⟨rfl, rfl, rfl⟩ (by omega) .spent
  | succ left ih =>
    intro state
    rw [consume_succ]
    rcases looked : (place.get state).look (cancellation.flag.get state).raised with
      ⟨count | value | _ | _, hub⟩ <;> have found := Hub.look_cases looked <;>
      dsimp only at found ⊢
    · obtain ⟨raised, -, rfl⟩ := found
      have hub := (apart.hub_trace (.mergeCancelled count) _).trans
        (place.get_set (place.get state).detach state)
      refine ⟨?_, ?_, rfl, fun _ => ?_, fun _ lowered => ?_, nofun⟩
      · exact (congrArg (·.queue.toList) hub).symm
      · exact (apart.flag_trace _ _).trans (apart.flag_set _ state)
      · exact congrArg Hub.attached hub
      · rw [raised] at lowered
        cases lowered
    · refine ⟨?_, apart.flag_set hub state, rfl, nofun, nofun, fun cursor here => ?_⟩
      · change _ = [value] ++ (place.get (place.set hub state)).queue.toList
        rw [place.get_set]
        exact found.2
      · obtain rfl := Option.some.inj here
        exact ⟨left, by omega, .rests⟩
    · obtain ⟨-, closed, empty, rest, gone⟩ := found
      refine ⟨?_, apart.flag_set hub state, rfl, fun _ => ?_, fun _ _ => ⟨closed, empty⟩, nofun⟩
      · rw [empty, Items.state, place.get_set, rest]
        rfl
      · rw [Items.state, place.get_set, gone]
    · obtain ⟨lowered, signal, running, queue⟩ := found
      have alike : Alike place cancellation state (place.set hub state) :=
        apart.alike_set queue.symm running
      unfold afford
      split
      case isFalse => exact .of_waiting alike (by omega) .selects
      case isTrue =>
        rw [await_eq]
        rcases listened : (place.get (place.set hub state)).listen with ⟨_ | _, rest⟩ <;>
          have listens := alike_listen apart listened <;> dsimp only
        · have same := listens.flag.trans alike.flag
          have still : ¬(cancellation.flag.get (place.set rest (place.set hub state))).raised =
              true := by rw [same, lowered]; exact Bool.false_ne_true
          rw [if_neg still]
          exact (Polled.of_waiting listens (by omega) (.waits (Flag.noted_version still))).of_alike
            alike
        · -- The signal was kept, and is not any more.
          have taken := (Hub.eq_of_listen listened).1
          rw [place.get_set, signal] at taken
          obtain ⟨was, isNot⟩ := Signal.kept_of_listen taken
          have again := ih (place.set rest (place.set hub state))
          rw [place.get_set, isNot] at again
          rw [was]
          exact ((again.of_alike listens).of_alike alike).mono
            (by simp only [Bool.toNat_true, Bool.toNat_false]; omega)

theorem consume_polled_two (apart : Apart place cancellation) (left : Nat) (state : σ) :
    Polled place cancellation (left - 2) state (consume place cancellation left state) :=
  (consume_polled apart left state).mono (by
    have := Bool.toNat_le (place.get state).signal.kept
    omega)

/-- A poll of a consumer that has begun takes at most two looks. -/
theorem Poised.polled (apart : Apart place cancellation)
    (poised : Poised place cancellation left flag cursor)
    (opens : cursor.wait.opens state = true) :
    Polled place cancellation (left - 2) state (cursor.resume state) := by
  have looks := consume_polled_two apart left
  have answers : Polled place cancellation (left - 2) state
      (consume place cancellation left (answer place state)) :=
    (looks _).of_alike (apart.alike_answer state)
  cases poised with
  | rests => exact looks state
  | selects =>
    dsimp only
    rw [await_eq]
    rcases listened : (place.get state).listen with ⟨_ | _, hub⟩ <;>
      have listens := alike_listen apart listened <;> dsimp only
    · split
      case isTrue => exact ((looks _).of_alike (apart.alike_answer _)).of_alike listens
      case isFalse lowered =>
        exact .of_waiting listens (by omega) (.waits (Flag.noted_version lowered))
    · exact (looks _).of_alike listens
  | waits =>
    dsimp only [afford]
    split
    · exact answers
    · exact .of_waiting ⟨rfl, rfl, rfl⟩ (by omega) .called
  | called => exact answers
  | spent => cases opens

/-! ### After the cancellation -/

/-- The run ends with this poll. The last thing that it does is to say how many items it drops, and
nothing can be pushed any more. -/
structure Cancels (place : Place σ (Hub α)) (dropped : Nat) (items : Items σ α) : Prop where
  ends : ∃ before, items.EndsIn (Host.trace (.mergeCancelled dropped) before)
  gone : (place.get items.state).attached = false

theorem Cancels.of_agrees {dropped : Nat} {other : Items σ α} (agrees : items.Agrees other)
    (cancels : Cancels place dropped other) : Cancels place dropped items := by
  obtain ⟨⟨before, ends⟩, gone⟩ := cancels
  exact ⟨⟨before, agrees.ends _ ends⟩, by rw [agrees.state, gone]⟩

theorem consume_cancels (apart : Apart place cancellation) (left : Nat)
    (raised : (cancellation.flag.get state).raised = true) :
    Cancels place (place.get state).queue.toList.length
      (consume place cancellation (left + 1) state) := by
  rw [consume_succ, raised, Queue.length_toList]
  refine ⟨⟨_, .ended⟩, ?_⟩
  exact congrArg Hub.attached ((apart.hub_trace _ _).trans (place.get_set _ state))

theorem consume_yields (left : Nat) (raised : (cancellation.flag.get state).raised = true) :
    (consume place cancellation left state).yields = [] := by
  cases left with
  | zero => rfl
  | succ left =>
    rw [consume_succ, raised]
    rfl

/-- What a poll after the cancellation comes to. It either looks at once, or it stops where it
stands. The latter happens only to a consumer that has no look left, or that is suspended, in a turn
without allowance. -/
inductive Heeds (place : Place σ (Hub α)) (cancellation : Cancellation σ) (budget : Nat)
    (here : Cursor σ α) (now : σ) : Items σ α → Prop where
  | looks {after : σ} (alike : Alike place cancellation now after)
      (allowed : here.IsSuspended → 0 < Host.allowance now) :
      Heeds place cancellation budget here now (consume place cancellation budget after)
  | stops {wait resume} (broke : 0 < budget → Host.allowance now = 0 ∧ here.IsSuspended) :
      Heeds place cancellation budget here now (.waiting wait resume now)

theorem Poised.heeds (apart : Apart place cancellation)
    (poised : Poised place cancellation left (cancellation.flag.get state) cursor)
    (raised : (cancellation.flag.get state).raised = true) :
    Heeds place cancellation left cursor state (cursor.poll state) := by
  have answers := apart.alike_answer state
  have closed : (Wait.turn : Wait σ).opens (Host.allow 0 state) = false := by
    simp [Wait.turn, Host.allowance_allow]
  cases poised with
  | rests =>
    rw [Cursor.poll_of_opens rfl]
    exact .looks ⟨rfl, rfl, rfl⟩ nofun
  | selects =>
    by_cases allowed : 0 < Host.allowance state
    · rw [Cursor.poll_of_opens (decide_eq_true allowed)]
      dsimp only
      rw [await_eq]
      rcases listened : (place.get state).listen with ⟨_ | _, hub⟩ <;>
        have listens := alike_listen apart listened <;> dsimp only
      · rw [if_pos (by rw [listens.flag, raised])]
        exact .looks (listens.trans (apart.alike_answer _)) fun _ => allowed
      · exact .looks listens fun _ => allowed
    · rw [Cursor.poll_of_closed fun opens => allowed (of_decide_eq_true opens)]
      exact .stops fun _ => ⟨Nat.eq_zero_of_not_pos allowed, _, closed⟩
  | @waits _ _ seen noted =>
    rw [Cursor.poll_of_opens (Bool.or_eq_true_iff.mpr (.inr (noted.calls raised)))]
    dsimp only [afford]
    split
    case isTrue allowed => exact .looks answers fun _ => allowed
    case isFalse broke =>
      -- Neither a new hub nor a lowered flag calls anybody.
      refine .stops fun _ => ⟨Nat.eq_zero_of_not_pos broke,
        place.set .new (cancellation.flag.set .lowered state), ?_⟩
      simp [Cancellation.wait, place.get_set, apart.flag_set, cancellation.flag.get_set, Flag.calls,
        Flag.lowered, Hub.new, Signal.given, Signal.isCalled]
  | called =>
    by_cases allowed : 0 < Host.allowance state
    · rw [Cursor.poll_of_opens (decide_eq_true allowed)]
      exact .looks answers fun _ => allowed
    · rw [Cursor.poll_of_closed fun opens => allowed (of_decide_eq_true opens)]
      exact .stops fun _ => ⟨Nat.eq_zero_of_not_pos allowed, _, closed⟩
  | spent =>
    rw [Cursor.poll_of_closed Bool.false_ne_true]
    exact .stops fun none => absurd none (Nat.lt_irrefl 0)

end Merge
end Deferred
