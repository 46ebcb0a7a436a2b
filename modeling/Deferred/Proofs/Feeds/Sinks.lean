import Deferred.Proofs.Boundary.Containment
import Deferred.Proofs.Laws.Sequencing
import Deferred.Proofs.Merge.Interleaving

/-! Sinks. Visiting the items of a feed is gathering what the visitor makes of them, and nothing can
tell the two apart: a panic of the visitor is the panic of one more stage, and both sinks contain
it. A visit takes turns: the run is pulled to its next item, the visitor has it, and only then is
the run pulled again. -/

namespace Deferred

variable {σ α β : Type}

/-! ### Verdicts on polls -/

namespace Poll

theorem map_map {γ : Type} (poll : Poll σ α) (f : α → β) (g : β → γ) :
    (poll.map f).map g = poll.map fun value => g (f value) :=
  poll.bind_assoc _ _

theorem contained_map [Host σ] (poll : Poll σ α) (f : α → β) :
    (poll.map f).contained = poll.contained.map (Except.map f) := by
  induction poll with
  | ready | panic => rfl
  | waiting wait resume state ih => exact congrArg (waiting wait · state) (funext ih)
  | spawn child rest state ih => exact congrArg (spawn child · state) (funext ih)

/-- The verdict on a computation: a panic is recorded and becomes a failure. -/
def judged [Host σ] (poll : Poll σ α) : Poll σ (Verdict α) :=
  poll.contained.map Verdict.ofExcept

theorem judged_answers_iff [Host σ] {poll : Poll σ α} {inputs : List σ} {verdict : Verdict α}
    {last : σ} :
    poll.judged.Answers inputs verdict last ↔
      (∃ value, verdict = .success value ∧ poll.Answers inputs value last) ∨
      ∃ payload before, verdict = .failure (.panicked payload.reads) ∧
        last = Host.record (.panicked payload.reads) before ∧
        poll.Panics inputs payload before := by
  simp only [← Error.ofPanic_eq]
  constructor
  · intro judged
    obtain ⟨first, _, result, middle, rfl, run, ends⟩ := answers_bind_iff.mp judged
    obtain ⟨rfl, rfl, rfl⟩ := answers_ready_iff.mp ends
    rw [List.append_nil]
    rcases contained_answers_iff.mp run with
      ⟨value, rfl, answers⟩ | ⟨payload, before, rfl, rfl, panics⟩
    · exact .inl ⟨value, rfl, answers⟩
    · exact .inr ⟨payload, before, rfl, rfl, panics⟩
  · rintro (⟨value, rfl, answers⟩ | ⟨payload, before, rfl, rfl, panics⟩)
    · exact answers.contained.bind_at_once .ready
    · exact panics.contained.bind_at_once .ready

end Poll

/-- The verdict on lifted code is the one on the future that it hands back. -/
theorem Attempt.awaited_lift [Host σ] (build : Code σ (Future σ α)) (state : σ) :
    (Attempt.lift build).awaited state =
      ((Future.ofCode build state).bind fun future after => future after).judged := by
  have contained : (liftM (contain build) : Code σ (Except Error (Future σ α))) state =
      (.ok (contain build state).1, (contain build state).2) := rfl
  unfold Future.ofCode
  rcases built : build state with ⟨payload | future, after⟩
  · rw [contain_of_panic built] at contained
    have called : (Attempt.lift build).call state =
        (.ok (pure (.failure (.ofPanic payload))), Host.record (.ofPanic payload) after) :=
      Code.bind_of_ok contained
    exact Action.awaited_of_call called
  · rw [contain_of_ok built] at contained
    have called : (Attempt.lift build).call state =
        (.ok (Verdict.ofExcept <$> future.contained), after) := Code.bind_of_ok contained
    exact Action.awaited_of_call called

namespace Feed

/-- The verdict of a sink is the one on what it does with the run of the feed, and the panic of a
start is one of the run. -/
theorem awaited_sink [Host σ] (feed : Feed σ α) {sink : Items σ α → Poll σ β}
    (panics : ∀ payload state, sink (.panic payload id state) = .panic payload state) (state : σ) :
    (Attempt.lift do let flow ← feed.start; return fun s => sink (flow s)).awaited state =
      (sink (feed.flow state)).judged := by
  refine (Attempt.awaited_lift _ state).trans ?_
  unfold flow Future.ofCode
  rcases started : feed.start state with ⟨payload | flow, after⟩
  · rw [Code.bind_of_error started]
    exact congrArg Poll.judged (panics payload after).symm
  · rw [Code.bind_of_ok started]
    rfl

theorem awaited_gather [Host σ] (feed : Feed σ α) (state : σ) :
    feed.gather.awaited state = (feed.flow state).gather.judged :=
  feed.awaited_sink (fun _ _ => rfl) state

theorem awaited_visit [Host σ] (feed : Feed σ α) (visitor : α → Code σ Unit) (state : σ) :
    (feed.visit visitor).awaited state = ((feed.flow state).visit visitor).judged :=
  feed.awaited_sink (fun _ _ => rfl) state

theorem flow_map (feed : Feed σ α) (f : α → Code σ β) (state : σ) :
    (feed.map f).flow state = (feed.flow state).map f := by
  unfold flow map
  rcases started : feed.start state with ⟨payload | flow, after⟩
  · dsimp only
    rw [Code.bind_of_error started]
    rfl
  · dsimp only
    rw [Code.bind_of_ok started]
    rfl

end Feed

/-! ### Visits -/

theorem Items.visit_eq_gather_map (visitor : α → Code σ Unit) (items : Items σ α) :
    items.visit visitor = (items.map visitor).gather.map fun _ => () := by
  induction items with
  | item value rest release state ih =>
    unfold visit map
    rcases visitor value state with ⟨payload | ⟨⟩, after⟩
    · rfl
    · dsimp only
      rw [ih, gather_item, Poll.map_map]
  | ended | panic => rfl
  | waiting wait resume state ih => exact congrArg (Poll.waiting wait · state) (funext ih)
  | spawn child rest state ih => exact congrArg (Poll.spawn child · state) (funext ih)

namespace Items

/-- Resumed in these states in turn, the run comes to this point: an item, its end or a panic. -/
inductive Comes : Items σ α → List σ → Items σ α → Prop where
  | item {value rest release state} :
      Comes (.item value rest release state) [] (.item value rest release state)
  | ended {state} : Comes (.ended state) [] (.ended state)
  | panic {payload release state} :
      Comes (.panic payload release state) [] (.panic payload release state)
  | resume {wait resume before state inputs point} (opens : wait.opens state = true)
      (rest : Comes (resume state) inputs point) :
      Comes (.waiting wait resume before) (state :: inputs) point
  | spawn {child rest before inputs point} (goesOn : Comes (rest before) inputs point) :
      Comes (.spawn child rest before) inputs point

/-- One pull after the other, and each item that comes is handed to the visitor before the next
pull. The visits end with the run or with the first panic. -/
inductive Visits (visitor : α → Code σ Unit) :
    Items σ α → List σ → List α → Except Payload Unit → σ → Prop where
  | ended {items inputs last} (comes : items.Comes inputs (.ended last)) :
      Visits visitor items inputs [] (.ok ()) last
  | panicked {items inputs payload release before}
      (comes : items.Comes inputs (.panic payload release before)) :
      Visits visitor items inputs [] (.error payload) (release before)
  | refused {items inputs value rest release before payload after}
      (comes : items.Comes inputs (.item value rest release before))
      (panics : visitor value before = (.error payload, after)) :
      Visits visitor items inputs [value] (.error payload) (release after)
  | next {items first value rest release before after inputs values ending last}
      (comes : items.Comes first (.item value rest release before))
      (visits : visitor value before = (.ok (), after))
      (goesOn : Visits visitor (rest after) inputs values ending last) :
      Visits visitor items (first ++ inputs) (value :: values) ending last

section
variable {visitor : α → Code σ Unit} {items point : Items σ α} {first inputs : List σ}
  {values : List α} {ending : Except Payload Unit} {last : σ}

theorem Visits.of_comes (begun : List σ)
    (before : ∀ {inputs target}, point.Comes inputs target → items.Comes (begun ++ inputs) target)
    (visits : point.Visits visitor inputs values ending last) :
    items.Visits visitor (begun ++ inputs) values ending last := by
  cases visits with
  | ended comes => exact .ended (before comes)
  | panicked comes => exact .panicked (before comes)
  | refused comes panics => exact .refused (before comes) panics
  | next comes visits goesOn =>
    rw [← List.append_assoc]
    exact .next (before comes) visits goesOn

/-- A visit begins with a pull. -/
theorem Comes.endsWith (comes : items.Comes first point)
    (ends : (point.visit visitor).EndsWith inputs ending last) :
    (items.visit visitor).EndsWith (first ++ inputs) ending last := by
  induction comes with
  | item | ended | panic => exact ends
  | resume opens _ ih => exact Poll.endsWith_waiting_iff.mpr ⟨_, _, rfl, opens, ih ends⟩
  | spawn _ ih => exact Poll.endsWith_spawn_iff.mpr (ih ends)

theorem Visits.endsWith (visits : items.Visits visitor inputs values ending last) :
    (items.visit visitor).EndsWith inputs ending last := by
  induction visits with
  | @ended _ inputs _ comes =>
    rw [← List.append_nil inputs]
    exact comes.endsWith .ready
  | @panicked _ inputs _ _ _ comes =>
    rw [← List.append_nil inputs]
    exact comes.endsWith .panic
  | @refused _ inputs _ _ _ _ _ _ comes panics =>
    rw [← List.append_nil inputs]
    refine comes.endsWith ?_
    unfold visit
    rw [panics]
    exact .panic
  | next comes visits _ ih =>
    refine comes.endsWith ?_
    unfold visit
    rw [visits]
    exact ih

theorem exists_visits (ends : (items.visit visitor).EndsWith inputs ending last) :
    ∃ values, items.Visits visitor inputs values ending last := by
  induction items generalizing inputs with
  | item value rest release state ih =>
    unfold visit at ends
    rcases called : visitor value state with ⟨payload | ⟨⟩, after⟩
    · rw [called] at ends
      cases ending with
      | ok => cases ends
      | error =>
        cases ends
        exact ⟨[value], .refused .item called⟩
    · rw [called] at ends
      obtain ⟨values, visits⟩ := ih after ends
      exact ⟨value :: values, .next .item called visits⟩
  | ended state =>
    cases ending with
    | ok =>
      obtain ⟨rfl, -, rfl⟩ := Poll.answers_ready_iff.mp ends
      exact ⟨[], .ended .ended⟩
    | error => cases ends
  | panic payload release state =>
    cases ending with
    | ok => cases ends
    | error =>
      cases ends
      exact ⟨[], .panicked .panic⟩
  -- a wait belongs to the first pull of what follows it
  | waiting wait resume state ih =>
    obtain ⟨woken, later, rfl, opens, ends⟩ := Poll.endsWith_waiting_iff.mp ends
    obtain ⟨values, visits⟩ := ih woken ends
    exact ⟨values, visits.of_comes [woken] (.resume opens)⟩
  | spawn child rest state ih =>
    obtain ⟨values, visits⟩ := ih state (Poll.endsWith_spawn_iff.mp ends)
    exact ⟨values, visits.of_comes [] .spawn⟩

theorem visit_endsWith_iff :
    (items.visit visitor).EndsWith inputs ending last ↔
      ∃ values, items.Visits visitor inputs values ending last :=
  ⟨exists_visits, fun ⟨_, visits⟩ => visits.endsWith⟩

theorem visit_answers_iff :
    (items.visit visitor).Answers inputs () last ↔
      ∃ values, items.Visits visitor inputs values (.ok ()) last :=
  Poll.endsWith_ok_iff.symm.trans visit_endsWith_iff

theorem visit_panics_iff {payload : Payload} :
    (items.visit visitor).Panics inputs payload last ↔
      ∃ values, items.Visits visitor inputs values (.error payload) last :=
  Poll.endsWith_error_iff.symm.trans visit_endsWith_iff

end

end Items

/-- The two sinks agree. Handing each item to a visitor is, from every state and with every effect
and wait, gathering what a stage makes of the items that does the same, with nothing for its
success. A complete run pulls and visits in turn: every item that comes is handed over once, before
the next one is pulled, and the first panic, of the feed or of the visitor, is the end. -/
theorem Feed.visit_gathers [Host σ] (feed : Feed σ α) (visitor : α → Code σ Unit) :
    (feed.visit visitor).Alike ((feed.map visitor).gather.map fun _ => pure ()) ∧
      ∀ (state : σ) (inputs : List σ) (verdict : Verdict Unit) (last : σ),
        ((feed.visit visitor).awaited state).Answers inputs verdict last ↔
          (∃ values, (feed.flow state).Visits visitor inputs values (.ok ()) last ∧
            verdict = .success ()) ∨
          ∃ values payload before,
            (feed.flow state).Visits visitor inputs values (.error payload) before ∧
            verdict = .failure (.panicked payload.reads) ∧
            last = Host.record (.panicked payload.reads) before := by
  constructor
  · intro state
    rw [awaited_visit, Items.visit_eq_gather_map]
    show _ = ((feed.map visitor).gather.awaited state).bind _
    rw [awaited_gather, flow_map]
    unfold Poll.judged
    rw [Poll.contained_map, Poll.map_map]
    refine Eq.trans ?_ (Poll.bind_assoc _ _ _).symm
    refine congrArg (Poll.bind _) (funext fun result => funext fun after => ?_)
    cases result <;> rfl
  · intro state inputs verdict last
    rw [awaited_visit]
    refine Poll.judged_answers_iff.trans (or_congr ?_ ?_)
    · constructor
      · rintro ⟨⟨⟩, rfl, answers⟩
        obtain ⟨values, visits⟩ := Items.visit_answers_iff.mp answers
        exact ⟨values, visits, rfl⟩
      · rintro ⟨values, visits, rfl⟩
        exact ⟨(), rfl, Items.visit_answers_iff.mpr ⟨values, visits⟩⟩
    · constructor
      · rintro ⟨payload, before, rfl, rfl, panics⟩
        obtain ⟨values, visits⟩ := Items.visit_panics_iff.mp panics
        exact ⟨values, payload, before, visits, rfl, rfl⟩
      · rintro ⟨values, payload, before, visits, rfl, rfl⟩
        exact ⟨payload, before, rfl, rfl, Items.visit_panics_iff.mpr ⟨values, visits⟩⟩

end Deferred
