import Deferred.Proofs.Boundary.Futures

/-! Feeds keep account of their panics: what a stage raises goes up through all later stages as the
panic that it is, and the sink that contains it records it once. -/

namespace Deferred

variable {σ α β : Type} [Host σ] {account : Account σ}

namespace Items.Obeys

variable {start : σ}

theorem after {items : Items σ α} {later : σ} (owes : account.owes none start later)
    (obeys : items.Obeys account later) : items.Obeys account start := by
  cases items with
  | item value rest release state => exact ⟨account.owes_trans owes obeys.1, obeys.2⟩
  | ended state => exact account.owes_trans owes obeys
  | panic payload release state => exact ⟨account.owes_trans owes obeys.1, obeys.2⟩
  | waiting wait resume state => exact ⟨account.owes_trans owes obeys.1, obeys.2⟩
  | spawn child rest state => exact ⟨account.owes_trans owes obeys.1, obeys.2⟩

theorem ofPoll {escapes : Prop} {poll : Poll σ β} {next : β → σ → Items σ α}
    (obeys : poll.Obeys account escapes (fun _ => none) start)
    (follows : ∀ value, Flow.Obeys account (next value)) :
    (Items.ofPoll poll next).Obeys account start := by
  induction poll generalizing start with
  | ready value state => exact (follows value state).after obeys
  | panic payload state => exact ⟨obeys.2, account.still_self⟩
  | waiting wait resume state ih =>
    exact ⟨obeys.1, obeys.2.1, fun s opens => ih s (obeys.2.2 s opens)⟩
  | spawn child rest state ih => exact ⟨obeys.1, obeys.2.1, fun s => ih s (obeys.2.2 s)⟩

theorem map {f : α → Code σ β} {items : Items σ α} (code : ∀ value, (f value).Obeys account)
    (obeys : items.Obeys account start) : (items.map f).Obeys account start := by
  induction items generalizing start with
  | item value rest release state ih =>
    unfold Items.map
    rcases (code value).cases state with ⟨mapped, after, ok, owes⟩ | ⟨payload, after, error, owes⟩
    · rw [ok]
      exact ⟨account.owes_trans obeys.1 owes, obeys.2.1, fun s => ih s (obeys.2.2 s)⟩
    · rw [error]
      exact ⟨account.owes_trans obeys.1 owes, obeys.2.1⟩
  | ended state => exact obeys
  | panic payload release state => exact obeys
  | waiting wait resume state ih =>
    exact ⟨obeys.1, obeys.2.1, fun s opens => ih s (obeys.2.2 s opens)⟩
  | spawn child rest state ih => exact ⟨obeys.1, obeys.2.1, fun s => ih s (obeys.2.2 s)⟩

theorem filter {accepts : α → Code σ Bool} {items : Items σ α}
    (code : ∀ value, (accepts value).Obeys account) (obeys : items.Obeys account start) :
    (items.filter accepts).Obeys account start := by
  induction items generalizing start with
  | item value rest release state ih =>
    unfold Items.filter
    rcases (code value).cases state with
      ⟨accepted, after, ok, owes⟩ | ⟨payload, after, error, owes⟩
    · rw [ok]
      cases accepted with
      | true => exact ⟨account.owes_trans obeys.1 owes, obeys.2.1, fun s => ih s (obeys.2.2 s)⟩
      | false => exact (ih after (obeys.2.2 after)).after (account.owes_trans obeys.1 owes)
    · rw [error]
      exact ⟨account.owes_trans obeys.1 owes, obeys.2.1⟩
  | ended state => exact obeys
  | panic payload release state => exact obeys
  | waiting wait resume state ih =>
    exact ⟨obeys.1, obeys.2.1, fun s opens => ih s (obeys.2.2 s opens)⟩
  | spawn child rest state ih => exact ⟨obeys.1, obeys.2.1, fun s => ih s (obeys.2.2 s)⟩

theorem append {next : Flow σ α} {items : Items σ α} (follows : next.Obeys account)
    (obeys : items.Obeys account start) : (items.append next).Obeys account start := by
  induction items generalizing start with
  | item value rest release state ih => exact ⟨obeys.1, obeys.2.1, fun s => ih s (obeys.2.2 s)⟩
  | ended state => exact (follows state).after obeys
  | panic payload release state => exact obeys
  | waiting wait resume state ih =>
    exact ⟨obeys.1, obeys.2.1, fun s opens => ih s (obeys.2.2 s opens)⟩
  | spawn child rest state ih => exact ⟨obeys.1, obeys.2.1, fun s => ih s (obeys.2.2 s)⟩

theorem gatherAfter {earlier : List α} {items : Items σ α} (obeys : items.Obeys account start) :
    (items.gatherAfter earlier).Obeys account True (fun _ => none) start := by
  induction items generalizing start earlier with
  | item value rest release state ih => exact (ih state (obeys.2.2 state)).after obeys.1
  | ended state => exact obeys
  | panic payload release state =>
    exact ⟨trivial, account.owes_still obeys.1 (obeys.2 state)⟩
  | waiting wait resume state ih =>
    exact ⟨obeys.1, obeys.2.1, fun s opens => ih s (obeys.2.2 s opens)⟩
  | spawn child rest state ih => exact ⟨obeys.1, obeys.2.1, fun s => ih s (obeys.2.2 s)⟩

theorem visit {visitor : α → Code σ Unit} {items : Items σ α}
    (code : ∀ value, (visitor value).Obeys account) (obeys : items.Obeys account start) :
    (items.visit visitor).Obeys account True (fun _ => none) start := by
  induction items generalizing start with
  | item value rest release state ih =>
    unfold Items.visit
    rcases (code value).cases state with ⟨⟨⟩, after, ok, owes⟩ | ⟨payload, after, error, owes⟩
    · rw [ok]
      exact (ih after (obeys.2.2 after)).after (account.owes_trans obeys.1 owes)
    · rw [error]
      have raised := account.owes_trans obeys.1 owes
      exact ⟨trivial, account.owes_still raised (obeys.2.1 after)⟩
  | ended state => exact obeys
  | panic payload release state =>
    exact ⟨trivial, account.owes_still obeys.1 (obeys.2 state)⟩
  | waiting wait resume state ih =>
    exact ⟨obeys.1, obeys.2.1, fun s opens => ih s (obeys.2.2 s opens)⟩
  | spawn child rest state ih => exact ⟨obeys.1, obeys.2.1, fun s => ih s (obeys.2.2 s)⟩

end Items.Obeys

namespace Flow.Obeys

protected theorem empty : (Flow.empty : Flow σ α).Obeys account :=
  account.owes_self

theorem never : (Flow.never : Flow σ α).Obeys account :=
  fun state => ⟨account.owes_self state, account.still_self, fun s _ => account.owes_self s⟩

theorem ofList (values : List α) : (Flow.ofList values : Flow σ α).Obeys account := by
  induction values with
  | nil => exact .empty
  | cons value values ih => exact fun state => ⟨account.owes_self state, account.still_self, ih⟩

theorem spawning {flow : Flow σ α} (obeys : flow.Obeys account) {children : List (σ → Task σ)}
    (minds : ∀ child ∈ children, account.Minds child) :
    (Flow.spawning children flow).Obeys account := by
  induction children with
  | nil => exact obeys
  | cons child children ih =>
    obtain ⟨first, others⟩ := List.forall_mem_cons.mp minds
    exact fun state => ⟨account.owes_self state, first, ih others⟩

end Flow.Obeys

/-! The parts of a merge. Nothing that the consumer does touches an account, so it is enough that
the hub lies apart. -/

namespace Merge

variable {hub : Place σ (Hub α)} {cancellation : Cancellation σ}

theorem obeys_afford {next : Flow σ α} (obeys : hub.Obeys account) (follows : next.Obeys account) :
    (afford hub next).Obeys account := by
  intro state
  unfold afford
  split
  · exact follows state
  · exact ⟨account.owes_self state, fun s => obeys.modify Hub.detach s, fun s _ => follows s⟩

theorem still_answer (obeys : hub.Obeys account) (state : σ) :
    account.still state (answer hub state) := by
  unfold answer
  split
  · exact obeys.modify Hub.hear state
  · exact account.still_trans (obeys.modify Hub.unlisten state) (account.still_allow _ _)

theorem obeys_await {next : Flow σ α} (obeys : hub.Obeys account) (follows : next.Obeys account) :
    (await hub cancellation next).Obeys account := by
  have goesOn : ∀ s, (next (answer hub s)).Obeys account s := fun s =>
    (follows _).after (account.still_owes (still_answer obeys s))
  intro state
  have still : account.owes none state (hub.step Hub.listen state).2 :=
    account.still_owes (obeys _ state)
  unfold await
  split
  next after listened =>
    rw [listened] at still
    exact (follows after).after still
  next after listened =>
    rw [listened] at still
    split
    · exact (goesOn after).after still
    · exact ⟨still, fun s => obeys.modify Hub.detach s,
        fun s _ => obeys_afford obeys goesOn s⟩

theorem obeys_consume (obeys : hub.Obeys account) (left : Nat) :
    (consume hub cancellation left).Obeys account := by
  induction left with
  | zero =>
    exact fun state =>
      ⟨account.owes_self state, fun s => obeys.modify Hub.detach s, fun s _ => account.owes_self s⟩
  | succ left ih =>
    intro state
    have still : account.owes none state
        (hub.step (Hub.look (cancellation.isCancelled state)) state).2 :=
      account.still_owes (obeys _ state)
    unfold consume
    split
    next dropped after looked =>
      rw [looked] at still
      exact account.owes_still still (account.still_trace _ after)
    next value after looked =>
      rw [looked] at still
      exact ⟨still, fun s => obeys.modify Hub.detach s, ih⟩
    next after looked =>
      rw [looked] at still
      exact still
    next after looked =>
      rw [looked] at still
      exact (obeys_afford obeys (obeys_await obeys ih) after).after still

theorem still_deliver (obeys : hub.Obeys account) (value : α) (state : σ) :
    account.still state (deliver hub value state).2 := by
  have still : account.still state (hub.step (·.push value) state).2 := obeys _ state
  unfold deliver
  split
  next after pushed => rwa [pushed] at still
  next after pushed =>
    rw [pushed] at still
    exact account.still_trans still (account.still_trace _ after)

theorem obeys_toTask (obeys : hub.Obeys account) (index : Nat) {items : Items σ α} {start : σ}
    (itemsObey : items.Obeys account start) :
    (items.toTask (deliver hub) fun payload => hub.modify (Hub.checkOut index payload)).Obeys
      account (account.ChecksOut hub index) start := by
  induction items generalizing start with
  | item value rest release state ih =>
    have still := account.owes_still itemsObey.1 (still_deliver obeys value state)
    unfold Items.toTask
    split
    next after taken =>
      rw [taken] at still
      exact ih after ((itemsObey.2.2 after).after still)
    next after refused =>
      rw [refused] at still
      exact ⟨none, release after, account.owes_still still (itemsObey.2.1 after), rfl⟩
  | ended state => exact ⟨none, state, itemsObey, rfl⟩
  | panic payload release state =>
    exact ⟨some payload, release state, account.owes_still itemsObey.1 (itemsObey.2 state), rfl⟩
  | waiting wait resume state ih =>
    exact ⟨itemsObey.1, fun s opens => ih s (itemsObey.2.2 s opens)⟩
  | spawn child rest state ih =>
    exact ⟨itemsObey.1, itemsObey.2.1, fun s => ih s (itemsObey.2.2 s)⟩

theorem minds_input (obeys : hub.Obeys account) (index : Nat) {feed : Feed σ α}
    (sound : feed.Sound account) : account.Minds (input hub index feed) := by
  refine ⟨_, .input obeys index, fun state => ?_⟩
  unfold input
  rcases sound.obeys.cases state with ⟨flow, after, ok, owes⟩ | ⟨payload, after, error, owes⟩
  · rw [ok]
    have starts := (sound.fine flow ⟨state, after, ok⟩ after).after owes
    exact obeys_toTask obeys index starts
  · rw [error]
    exact ⟨some payload, after, owes, rfl⟩

theorem keeps_nextEnd (seen : Nat) : (nextEnd hub seen).Keeps account := by
  intro state
  unfold nextEnd
  dsimp only
  split
  · exact Future.Keeps.pay state
  · exact ⟨account.owes_self state, account.still_self, fun s _ => Future.Keeps.pay s⟩

theorem keeps_endsAfter (seen left : Nat) : (endsAfter hub seen left).Keeps account := by
  induction left generalizing seen with
  | zero => exact .pure ()
  | succ left ih => exact (keeps_nextEnd seen).bind fun _ => ih (seen + 1)

theorem minds_supervisor (obeys : hub.Obeys account) (inputs : Nat) :
    account.Minds (supervisor hub inputs) := by
  refine ⟨_, .supervisor obeys inputs, fun state => ?_⟩
  exact (keeps_endsAfter 0 inputs state).toTask fun _ before owes => ⟨before, owes, rfl⟩

theorem obeys_flow (obeys : hub.Obeys account) {inputs : List (Feed σ α)}
    (sound : ∀ feed ∈ inputs, feed.Sound account) :
    (flow hub inputs cancellation).Obeys account := by
  intro state
  have started := account.still_owes (account.still_trace (.mergeStarted inputs.length) state)
  refine (Flow.Obeys.spawning (obeys_consume obeys looks) (fun child member => ?_) _).after started
  rcases List.mem_append.mp member with task | last
  · obtain ⟨⟨feed, index⟩, there, rfl⟩ := List.mem_map.mp task
    exact minds_input obeys index (sound feed (List.fst_mem_of_mem_zipIdx there))
  · obtain rfl := List.mem_singleton.mp last
    exact minds_supervisor obeys inputs.length

end Merge

namespace Feed.Sound

theorem started {flow : Flow σ α} (obeys : flow.Obeys account) :
    Feed.Sound account ⟨pure flow⟩ :=
  .pure obeys

/-- The attempt is called when the feed is started, and contains its panics itself. -/
theorem ofAttempt {attempt : Attempt σ α} (sound : Action.Sound account attempt) :
    (Feed.ofAttempt attempt).Sound account :=
  sound.call.bind fun _ keeps => .pure fun state => .ofPoll (keeps state) fun
    | .success _ => fun after => ⟨account.owes_self after, account.still_self, account.owes_self⟩
    | .failure _ => account.owes_self

theorem map {feed : Feed σ α} {f : α → Code σ β} (sound : feed.Sound account)
    (code : ∀ value, (f value).Obeys account) : (feed.map f).Sound account :=
  sound.bind fun _ obeys => .pure fun state => (obeys state).map code

theorem filter {feed : Feed σ α} {accepts : α → Code σ Bool} (sound : feed.Sound account)
    (code : ∀ value, (accepts value).Obeys account) : (feed.filter accepts).Sound account :=
  sound.bind fun _ obeys => .pure fun state => (obeys state).filter code

theorem append {first second : Feed σ α} (sound : first.Sound account)
    (next : second.Sound account) : (first.append second).Sound account :=
  sound.bind fun _ obeys => next.bind fun _ follows => .pure fun state =>
    (obeys state).append follows

theorem merge {hubs : Arena σ (Hub α)} {inputs : List (Feed σ α)} {scope : Scope σ}
    (gives : Code.Gives account (Place.Obeys account) (liftM (hubs.fresh Hub.new)))
    (sound : ∀ feed ∈ inputs, feed.Sound account) :
    (Feed.merge hubs inputs scope).Sound account :=
  Code.Gives.bind gives fun _ obeys => .pure (Merge.obeys_flow obeys sound)

theorem gather {feed : Feed σ α} (sound : feed.Sound account) :
    Action.Sound account feed.gather :=
  .lift <| sound.bind fun _ obeys => .pure fun state => (obeys state).gatherAfter

theorem visit {feed : Feed σ α} {visitor : α → Code σ Unit} (sound : feed.Sound account)
    (code : ∀ value, (visitor value).Obeys account) : Action.Sound account (feed.visit visitor) :=
  .lift <| sound.bind fun _ obeys => .pure fun state => (obeys state).visit code

end Feed.Sound
end Deferred
