import Deferred.Proofs.Cache.Alone

/-! Runs of an action behind a gate invoke it one at a time, until one of them stores its result. A
run whose own result is no failure is inside until it has stored it, so that there is only one such
run, and all others answer with its result or with a failure of their own. -/

namespace Deferred.CachedAlone

variable {σ ρ : Type} [HasFailure ρ] {action : Action σ ρ} {session next later : Session σ ρ}

/-! ### The value -/

theorem Crossing.keeps {visit after : Visit σ ρ} {gate rest : Gate ρ} {kept : ρ}
    (crossing : Crossing visit after gate rest) (lined : gate.Lined) (placed : visit.Placed gate)
    (held : gate.value = some kept) : rest.value = some kept := by
  cases crossing with
  | stays | takes => exact held
  | joins joined =>
    rw [joined.value.1] at held
    cases held
  | leaves => rw [Gate.value_leave]; exact held
  | @stores ticket _ settles =>
    have empty := lined.value_of_holder (placed.inside ticket (by rw [settles]; rfl))
    rw [held] at empty
    cases empty

theorem Step.keeps {kept : ρ} (step : Step action session next) (lined : session.Lined)
    (held : session.cell.value = some kept) : next.cell.value = some kept := by
  cases step with
  | call => exact held
  | visit here step =>
    exact (step.crossing lined.gate).keeps lined.gate
      (lined.placed _ (List.mem_of_getElem? here)) held

theorem Steps.keeps {kept : ρ} (steps : Steps action session later) (lined : session.Lined)
    (held : session.cell.value = some kept) :
    later.Lined ∧ later.cell.value = some kept := by
  induction steps with
  | refl => exact ⟨lined, held⟩
  | tail _ step ih => exact ⟨Step.lined step ih.1, Step.keeps step ih.1 ih.2⟩

/-! ### The runs -/

/-- What is known of a run at this gate. -/
structure Visit.Sound (action : Action σ ρ) (gate : Gate ρ) (visit : Visit σ ρ) : Prop where
  before : visit.stage.isBefore = true → visit.invocations = 0 ∧ visit.own = none
  once : visit.invocations ≤ 1
  invokes : ∀ ticket poll, visit.stage = .invokes ticket poll →
    visit.own = none ∧ action.Invokes poll
  given : ∀ result, visit.own = some result → action.Gives result
  settles : ∀ ticket result, visit.stage = .settles ticket result → visit.own = some result
  failure : ∀ result, visit.stage = .answered result → HasFailure.isFailure result = true →
    visit.own = some result
  kept : ∀ result, visit.stage = .answered result → HasFailure.isFailure result = false →
    gate.value = some result

theorem Visit.sound_fresh (gate : Gate ρ) : Visit.fresh.Sound action gate :=
  ⟨fun _ => ⟨rfl, rfl⟩, Nat.zero_le 1, nofun, nofun, nofun, nofun, nofun⟩

theorem Visit.Sound.mono {visit : Visit σ ρ} {gate rest : Gate ρ} (sound : visit.Sound action gate)
    (keeps : ∀ kept, gate.value = some kept → rest.value = some kept) :
    visit.Sound action rest :=
  { sound with kept := fun result answered good => keeps result (sound.kept result answered good) }

/-- A run that answers with the value of the gate. -/
theorem Visit.Sound.answer {visit : Visit σ ρ} {gate : Gate ρ} (sound : visit.Sound action gate)
    {kept : ρ} (held : gate.value = some kept) (good : HasFailure.isFailure kept = false) :
    Visit.Sound action gate { visit with stage := .answered kept } := by
  refine ⟨nofun, sound.once, nofun, sound.given, nofun, ?_, ?_⟩
  · intro result same failed
    cases same
    rw [good] at failed
    cases failed
  · intro result same _
    cases same
    exact held

/-- A run that has come to nothing. -/
theorem Visit.Sound.ended {visit : Visit σ ρ} {gate : Gate ρ} (sound : visit.Sound action gate)
    (rest : Gate ρ) {stage : Stage σ ρ} (ended : stage = .panicked ∨ stage = .dropped) :
    Visit.Sound action rest { visit with stage } := by
  rcases ended with rfl | rfl <;>
    exact ⟨nofun, sound.once, nofun, sound.given, nofun, nofun, nofun⟩

theorem Visit.Step.sound {visit after : Visit σ ρ} {gate rest : Gate ρ}
    (step : Visit.Step action visit gate after rest) (before : visit.Sound action gate)
    (filled : ∀ kept, gate.value = some kept → HasFailure.isFailure kept = false) :
    after.Sound action rest := by
  cases step with
  | settled arrived =>
    obtain ⟨held, rfl⟩ := Gate.eq_of_settled arrived
    exact before.answer held (filled _ held)
  | take held => exact before.answer held (filled _ held)
  | admitted | queued | call | enter =>
    exact ⟨fun _ => before.before rfl, before.once, nofun, before.given, nofun, nofun, nofun⟩
  | invoke state =>
    obtain ⟨never, none⟩ := before.before rfl
    refine ⟨nofun, Nat.succ_le_succ (Nat.le_of_eq never), ?_, before.given, nofun, nofun, nofun⟩
    intro ticket poll same
    cases same
    exact ⟨none, .start state⟩
  | goOn goes =>
    refine ⟨nofun, before.once, ?_, before.given, nofun, nofun, nofun⟩
    intro ticket poll same
    cases same
    obtain ⟨none, invokes⟩ := before.invokes _ _ rfl
    exact ⟨none, .goesOn invokes goes⟩
  | @complete ticket result state =>
    refine ⟨nofun, before.once, nofun, ?_, ?_, nofun, nofun⟩
    · intro given same
      cases same
      exact ⟨state, (before.invokes _ _ rfl).2⟩
    · intro ticket settled same
      cases same
      rfl
  | panic => exact before.ended _ (.inl rfl)
  | drop => exact before.ended _ (.inr rfl)
  | @fail ticket result _ own _ failed =>
    have mine : own = some result := before.settles ticket result rfl
    refine ⟨nofun, before.once, nofun, before.given, nofun, ?_, ?_⟩
    · intro answer same _
      cases same
      exact mine
    · intro answer same good
      cases same
      rw [failed] at good
      cases good
  | store good =>
    refine ⟨nofun, before.once, nofun, before.given, nofun, ?_, ?_⟩
    · intro answer same failed
      cases same
      rw [good] at failed
      cases failed
    · intro answer same _
      cases same
      rfl

/-- A run gets a result of its own only while it is inside, and keeps it. -/
theorem Visit.Step.own {visit after : Visit σ ρ} {gate rest : Gate ρ}
    (step : Visit.Step action visit gate after rest) :
    after.own = visit.own ∨ ∃ ticket result state,
      visit.stage = .invokes ticket (.ready result state) ∧
        after = ⟨.settles ticket result, visit.invocations, some result⟩ ∧ rest = gate := by
  cases step with
  | complete => exact .inr ⟨_, _, _, rfl, rfl, rfl⟩
  | settled | admitted | queued | call | take | enter | invoke | goOn | panic | fail | store
  | drop => exact .inl rfl

/-! ### One result -/

structure Session.Sound (action : Action σ ρ) (session : Session σ ρ) : Prop where
  visits : ∀ visit ∈ session.visits, visit.Sound action session.cell
  filled : ∀ kept, session.cell.value = some kept →
    HasFailure.isFailure kept = false ∧ ∃ visit ∈ session.visits, visit.own = some kept
  pending : ∀ visit ∈ session.visits, ∀ result, visit.own = some result →
    HasFailure.isFailure result = false → session.cell.value = none →
      ∃ ticket, visit.stage = .settles ticket result
  single : ∀ (first second : Nat) (one other : Visit σ ρ) (result value : ρ),
    session.visits[first]? = some one → session.visits[second]? = some other →
      one.own = some result → HasFailure.isFailure result = false →
        other.own = some value → HasFailure.isFailure value = false → first = second

theorem Session.Sound.call (sound : session.Sound action) :
    Session.Sound action { session with visits := session.visits ++ [.fresh] } where
  visits visit member := by
    rcases List.mem_append.mp member with old | new
    · exact sound.visits visit old
    · rw [List.mem_singleton.mp new]
      exact Visit.sound_fresh _
  filled kept held := by
    obtain ⟨good, visit, member, own⟩ := sound.filled kept held
    exact ⟨good, visit, List.mem_append_left _ member, own⟩
  pending visit member result own := by
    rcases List.mem_append.mp member with old | new
    · exact sound.pending visit old result own
    · rw [List.mem_singleton.mp new] at own
      cases own
  single first second one other result value here there mine good yours fine := by
    rcases getElem?_concat_eq_some here with here | ⟨-, rfl⟩
    · rcases getElem?_concat_eq_some there with there | ⟨-, rfl⟩
      · exact sound.single first second one other result value here there mine good yours fine
      · cases yours
    · cases mine

/-- While a run is inside, no other one has a result that is not a failure. -/
theorem Session.Sound.alone (sound : session.Sound action) (lined : session.Lined)
    {first second : Nat} {one other : Visit σ ρ} {ticket : Nat} {result : ρ}
    (here : session.visits[first]? = some one) (inside : one.stage.inside? = some ticket)
    (there : session.visits[second]? = some other) (own : other.own = some result)
    (good : HasFailure.isFailure result = false) : first = second := by
  have holds := (lined.placed one (List.mem_of_getElem? here)).inside ticket inside
  obtain ⟨place, settles⟩ := sound.pending other (List.mem_of_getElem? there) result own good
    (lined.gate.value_of_holder holds)
  have also := (lined.placed other (List.mem_of_getElem? there)).inside place
    (by rw [settles]; rfl)
  obtain rfl := Option.some.inj (holds.symm.trans also)
  exact lined.apart first second one other ticket here there (one.stage.ticket_of_inside inside)
    (by rw [settles]; rfl)

theorem Visit.Step.keeps_own {visit after : Visit σ ρ} {gate rest : Gate ρ} {result : ρ}
    (step : Visit.Step action visit gate after rest) (before : visit.Sound action gate)
    (own : visit.own = some result) : after.own = some result := by
  rcases step.own with same | ⟨ticket, _, _, invokes, -, -⟩
  · rw [same, own]
  · rw [(before.invokes ticket _ invokes).1] at own
    cases own

/-- A value behind the gate was there before, or is the result of the run that has stored it. -/
theorem Crossing.value {visit after : Visit σ ρ} {gate rest : Gate ρ} {kept : ρ}
    (crossing : Crossing visit after gate rest) (held : rest.value = some kept) :
    gate.value = some kept ∨ HasFailure.isFailure kept = false ∧
      ∃ ticket, visit.stage = .settles ticket kept := by
  cases crossing with
  | stays | takes => exact .inl held
  | joins joined =>
    rw [joined.value.2] at held
    cases held
  | leaves =>
    rw [Gate.value_leave] at held
    exact .inl held
  | @stores ticket _ settles good =>
    obtain rfl := Option.some.inj held
    exact .inr ⟨good, ticket, settles⟩

theorem Visit.Step.pending {visit after : Visit σ ρ} {gate rest : Gate ρ} {result : ρ}
    (step : Visit.Step action visit gate after rest) (own : after.own = some result)
    (good : HasFailure.isFailure result = false) (empty : rest.value = none)
    (sound : visit.Sound action gate)
    (before : visit.own = some result → ∃ ticket, visit.stage = .settles ticket result) :
    ∃ ticket, after.stage = .settles ticket result := by
  cases step with
  | complete =>
    obtain rfl := Option.some.inj own
    exact ⟨_, rfl⟩
  | fail failed =>
    obtain rfl := Option.some.inj ((sound.settles _ _ rfl).symm.trans own)
    rw [good] at failed
    cases failed
  | store => cases empty
  | drop may =>
    obtain ⟨ticket, settles⟩ := before own
    obtain rfl : _ = Stage.settles ticket result := settles
    cases may
  | settled | admitted | queued | call | take | enter | invoke | goOn | panic =>
    obtain ⟨ticket, settles⟩ := before own
    cases settles

theorem Session.Sound.visit (sound : session.Sound action) (lined : session.Lined) {index : Nat}
    {visit after : Visit σ ρ} {gate : Gate ρ} (here : session.visits[index]? = some visit)
    (step : Visit.Step action visit session.cell after gate) :
    Session.Sound action ⟨gate, session.visits.set index after⟩ := by
  have member := List.mem_of_getElem? here
  have crossing := step.crossing lined.gate
  have keeps : ∀ kept, session.cell.value = some kept → gate.value = some kept := fun kept =>
    crossing.keeps lined.gate (lined.placed visit member)
  have known := sound.visits visit member
  refine ⟨fun other held => ?_, fun kept held => ?_, fun other held result own good empty => ?_, ?_⟩
  · rcases List.mem_or_eq_of_mem_set held with old | rfl
    · exact (sound.visits other old).mono keeps
    · exact step.sound known fun kept value => (sound.filled kept value).1
  · rcases crossing.value held with old | ⟨good, ticket, settles⟩
    · obtain ⟨good, own⟩ := sound.filled kept old
      exact ⟨good, exists_mem_set here own (step.keeps_own known)⟩
    · refine ⟨good, after, List.mem_set (List.getElem?_eq_some_iff.mp here).1 _, ?_⟩
      exact step.keeps_own known (known.settles ticket kept settles)
  · have before : session.cell.value = none := by
      cases value : session.cell.value with
      | none => rfl
      | some kept =>
        rw [keeps kept value] at empty
        cases empty
    rcases List.mem_or_eq_of_mem_set held with old | rfl
    · exact sound.pending other old result own good before
    · exact step.pending own good empty known fun mine =>
        sound.pending visit member result mine good before
  · -- Whoever gets a result is inside, and then nobody else has one that is not a failure.
    have alone : ∀ place other result value, session.visits[place]? = some other →
        other.own = some result → HasFailure.isFailure result = false →
          after.own = some value → HasFailure.isFailure value = false → index = place := by
      intro place other result value there own good mine fine
      rcases step.own with same | ⟨ticket, _, _, invokes, -, -⟩
      · exact sound.single index place visit other value result here there (same ▸ mine) fine own
          good
      · exact sound.alone lined here (by rw [invokes]; rfl) there own good
    intro first second one other result value found there mine good yours fine
    rcases getElem?_set_eq_some found with ⟨rfl, rfl⟩ | ⟨left, old⟩ <;>
      rcases getElem?_set_eq_some there with ⟨rfl, rfl⟩ | ⟨right, same⟩
    · rfl
    · exact alone second other value result same yours fine mine good
    · exact (alone first one result value old mine good yours fine).symm
    · exact sound.single first second one other result value old same mine good yours fine

theorem Step.sound (step : Step action session next) (sound : session.Sound action)
    (lined : session.Lined) : next.Sound action := by
  cases step with
  | call => exact sound.call
  | visit here step => exact sound.visit lined here step

theorem Steps.sound (steps : Steps action .initial session) : session.Sound action := by
  induction steps with
  | refl => exact ⟨nofun, nofun, nofun, nofun⟩
  | tail steps step ih => exact Step.sound step ih (Steps.lined steps)

/-! ### The next run -/

theorem Session.moves {index : Nat} {visit after : Visit σ ρ} {gate : Gate ρ}
    (here : session.visits[index]? = some visit)
    (step : Visit.Step action visit session.cell after gate) :
    ∃ next, Step action session next ∧ next.cell = gate ∧ next.visits[index]? = some after :=
  ⟨_, .visit here step, rfl, List.getElem?_set_self (List.getElem?_eq_some_iff.mp here).1⟩

/-- The run with this ticket can come to invoke the action in this state. -/
def Session.Invokes (action : Action σ ρ) (session : Session σ ρ) (index ticket : Nat)
    (state : σ) : Prop :=
  ∃ later after, Steps action session later ∧ later.visits[index]? = some after ∧
    after.stage = .invokes ticket (action.awaited state)

theorem Session.invokes_of_admitted {index ticket count : Nat} {own : Option ρ}
    (here : session.visits[index]? = some ⟨.admitted ticket, count, own⟩) (state : σ) :
    session.Invokes action index ticket state := by
  obtain ⟨next, step, -, found⟩ := Session.moves here (.invoke state)
  exact ⟨next, _, .single step, found, rfl⟩

theorem Session.invokes_of_called {index ticket count : Nat} {own : Option ρ}
    (here : session.visits[index]? = some ⟨.called ticket, count, own⟩)
    (empty : session.cell.value = none) (state : σ) :
    session.Invokes action index ticket state := by
  obtain ⟨next, step, -, found⟩ := Session.moves here (.enter empty)
  obtain ⟨later, after, steps, invokes⟩ := Session.invokes_of_admitted found state
  exact ⟨later, after, .head step steps, invokes⟩

/-- The run that has the way can invoke the action, if it has not done so. -/
theorem Session.Lined.invokes (lined : session.Lined) {index : Nat} {visit : Visit σ ρ}
    {ticket : Nat} (here : session.visits[index]? = some visit)
    (mine : visit.stage.ticket? = some ticket) (holds : session.cell.holder = some ticket)
    (state : σ) :
    visit.stage.isInvoking = true ∨ session.Invokes action index ticket state := by
  have empty := lined.gate.value_of_holder holds
  obtain ⟨stage, count, own⟩ := visit
  cases stage with
  | invokes | settles => exact .inl rfl
  | admitted place =>
    obtain rfl := Option.some.inj mine
    exact .inr (Session.invokes_of_admitted here state)
  | called place =>
    obtain rfl := Option.some.inj mine
    exact .inr (Session.invokes_of_called here empty state)
  | waits place =>
    obtain rfl := Option.some.inj mine
    have calls : session.cell.calls place = true := by simp [Gate.calls, holds]
    obtain ⟨next, step, same, found⟩ := Session.moves here (.call calls)
    obtain ⟨later, after, steps, invokes⟩ :=
      Session.invokes_of_called found (same ▸ empty) state
    exact .inr ⟨later, after, .head step steps, invokes⟩
  | fresh | answered | panicked | dropped => cases mine

theorem Session.admits {index : Nat} {visit : Visit σ ρ}
    (here : session.visits[index]? = some visit) (fresh : visit.stage = .fresh)
    (empty : session.cell.value = none) (free : session.cell.holder = none) :
    ∃ next, Step action session next ∧ next.cell.holder = some session.cell.issued ∧
      next.visits[index]? = some { visit with stage := .admitted session.cell.issued } := by
  obtain ⟨stage, count, own⟩ := visit
  obtain rfl : stage = .fresh := fresh
  rcases session.cell.arrive_eq with ⟨kept, held, _⟩ | ⟨_, _, arrived⟩ | ⟨_, taken, _⟩
  · rw [empty] at held
    cases held
  · obtain ⟨next, step, same, found⟩ := Session.moves here (.admitted arrived)
    exact ⟨next, step, by rw [same], found⟩
  · exact absurd free taken

/-! ### All runs -/

/-- The runs of a session, now and later. -/
structure Session.AdmitsOne (action : Action σ ρ) (session later : Session σ ρ) : Prop where
  alone : ∀ (first second : Nat) (one other : Visit σ ρ), session.visits[first]? = some one →
    session.visits[second]? = some other → one.stage.inside?.isSome = true →
      other.stage.inside?.isSome = true → first = second
  /-- At most one invocation ever ends without a failure. -/
  single : ∀ (first second : Nat) (one other : Visit σ ρ) (result value : ρ),
    session.visits[first]? = some one → session.visits[second]? = some other →
      one.own = some result → HasFailure.isFailure result = false →
        other.own = some value → HasFailure.isFailure value = false → first = second
  /-- The value stays, and is the result of a run that did not fail. -/
  kept : ∀ kept, session.cell.value = some kept → later.cell.value = some kept ∧
    HasFailure.isFailure kept = false ∧ ∃ visit ∈ session.visits, visit.own = some kept
  /-- A run invokes the action at most once. Its answer is its own failure or the value. -/
  visits : ∀ visit ∈ session.visits, visit.invocations ≤ 1 ∧
    (∀ result, visit.own = some result → action.Gives result) ∧
    ∀ result, visit.stage = .answered result →
      (HasFailure.isFailure result = true → visit.own = some result) ∧
      (HasFailure.isFailure result = false → session.cell.value = some result)
  holds : ∀ visit ∈ session.visits, ∀ ticket, visit.stage.inside? = some ticket →
    session.cell.holder = some ticket
  /-- The way belongs to the live run that has waited longest, which can go in. -/
  proceeds : ∀ ticket, session.cell.holder = some ticket →
    (∃ visit ∈ session.visits, visit.stage.ticket? = some ticket) ∧
    (∀ visit ∈ session.visits, ∀ other, visit.stage.ticket? = some other → ticket ≤ other) ∧
    ∀ (index : Nat) (visit : Visit σ ρ) (state : σ), session.visits[index]? = some visit →
      visit.stage.ticket? = some ticket → visit.stage.isInvoking = true ∨
        session.Invokes action index ticket state
  /-- If nobody waits, it belongs to the next one to arrive. -/
  next : session.cell.value = none → session.cell.holder = none →
    (∀ visit ∈ session.visits, visit.stage.ticket? = none) ∧
    ∀ (index : Nat) (visit : Visit σ ρ), session.visits[index]? = some visit →
      visit.stage = .fresh → ∃ next, Step action session next ∧
        next.cell.holder = some session.cell.issued ∧
        next.visits[index]? = some { visit with stage := .admitted session.cell.issued }

/-- However the runs of an action behind a gate interleave. -/
theorem Steps.admitsOne (reached : Steps action .initial session)
    (steps : Steps action session later) : session.AdmitsOne action later := by
  have lined := Steps.lined reached
  have sound := Steps.sound reached
  refine ⟨?_, sound.single, ?_, ?_, fun visit member => (lined.placed visit member).inside, ?_, ?_⟩
  · intro first second one other here there inside also
    obtain ⟨ticket, inside⟩ := Option.isSome_iff_exists.mp inside
    obtain ⟨place, also⟩ := Option.isSome_iff_exists.mp also
    have holds := (lined.placed one (List.mem_of_getElem? here)).inside ticket inside
    have same := (lined.placed other (List.mem_of_getElem? there)).inside place also
    obtain rfl := Option.some.inj (holds.symm.trans same)
    exact lined.apart first second one other ticket here there
      (one.stage.ticket_of_inside inside) (other.stage.ticket_of_inside also)
  · intro kept held
    obtain ⟨good, own⟩ := sound.filled kept held
    exact ⟨(Steps.keeps steps lined held).2, good, own⟩
  · intro visit member
    have known := sound.visits visit member
    exact ⟨known.once, known.given, fun result answered =>
      ⟨known.failure result answered, known.kept result answered⟩⟩
  · intro ticket holds
    obtain ⟨live, first⟩ := lined.holder_live holds
    exact ⟨live, first, fun index visit state here mine => lined.invokes here mine holds state⟩
  · intro empty free
    exact ⟨lined.free empty free,
      fun index visit here fresh => Session.admits here fresh empty free⟩

/-- An action that fails in one state and succeeds in all others. -/
def flaky : Action Nat (Verdict Nat) :=
  .lazily fun state => .ready (if state = 0 then .failure .bottom else .success state) state

/-- The first run has failed, and one that was queued is dropped. -/
def passed : Session Nat (Verdict Nat) where
  cell := ⟨none, some 2, [3], 4⟩
  visits := [⟨.answered (.failure .bottom), 1, some (.failure .bottom)⟩, ⟨.dropped, 0, none⟩,
    ⟨.waits 2, 0, none⟩, ⟨.waits 3, 0, none⟩]

theorem steps_passed : Steps flaky .initial passed := by
  have called : Steps flaky .initial ⟨.fresh, [.fresh, .fresh, .fresh, .fresh]⟩ :=
    (((Relation.ReflTransGen.refl.tail .call).tail .call).tail .call).tail .call
  have arrived := ((called.tail (@Session.Step.visit _ _ _ _ _ 0 _ _ _ rfl (.admitted rfl))).tail
    (@Session.Step.visit _ _ _ _ _ 1 _ _ _ rfl (.queued rfl))).tail
      (@Session.Step.visit _ _ _ _ _ 2 _ _ _ rfl (.queued rfl))
  have queued := arrived.tail (@Session.Step.visit _ _ _ _ _ 3 _ _ _ rfl (.queued rfl))
  have dropped := queued.tail (@Session.Step.visit _ _ _ _ _ 1 _ _ _ rfl (.drop rfl))
  have invoked := dropped.tail (@Session.Step.visit _ _ _ _ _ 0 _ _ _ rfl (.invoke 0))
  have completed := invoked.tail (@Session.Step.visit _ _ _ _ _ 0 _ _ _ rfl .complete)
  have failed := completed.tail (@Session.Step.visit _ _ _ _ _ 0 _ _ _ rfl (.fail rfl))
  exact failed

end Deferred.CachedAlone
