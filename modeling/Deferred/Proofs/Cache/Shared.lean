import Deferred.Proofs.Cache.Invocation
import Deferred.Proofs.Cache.Session

/-! Any number of runs of an action that share a latch. Each look at the latch and each offer to it
is a step of its own, and so is each turn of an invocation, so that other runs may come in between.
Nothing is known of the states in which they are polled, and an invocation may give another result
each time. -/

namespace Deferred.Cached

variable {σ ρ : Type}

/-- Where a run stands. -/
inductive Stage (σ ρ : Type) where
  | fresh
  | misses
  | invokes (poll : Poll σ ρ)
  | settles (result : ρ)
  | answered (result : ρ)
  | panicked
  | dropped

/-- Whether the run is at a point between two polls. -/
def Stage.mayDrop : Stage σ ρ → Bool
  | fresh => true
  | invokes poll => poll.isWaiting
  | _ => false

/-- A run, with the number of its invocations and the result of the last one. -/
structure Visit (σ ρ : Type) where
  stage : Stage σ ρ
  invocations : Nat
  own : Option ρ

def Visit.fresh : Visit σ ρ := ⟨.fresh, 0, none⟩

/-- One step of a run, and what it does to the latch. -/
inductive Visit.Step [HasFailure ρ] (action : Action σ ρ) :
    Visit σ ρ → Latch ρ → Visit σ ρ → Latch ρ → Prop where
  | hit {count own latch kept} (held : latch.value = some kept) :
      Step action ⟨.fresh, count, own⟩ latch ⟨.answered kept, count, own⟩ latch
  | miss {count own latch} (empty : latch.value = none) :
      Step action ⟨.fresh, count, own⟩ latch ⟨.misses, count, own⟩ latch
  | invoke {count own latch} (state : σ) :
      Step action ⟨.misses, count, own⟩ latch
        ⟨.invokes (action.awaited state), count + 1, own⟩ latch
  | goOn {poll next count own latch} (goes : poll.GoesOn next) :
      Step action ⟨.invokes poll, count, own⟩ latch ⟨.invokes next, count, own⟩ latch
  | complete {result state count own latch} :
      Step action ⟨.invokes (.ready result state), count, own⟩ latch
        ⟨.settles result, count, some result⟩ latch
  | panic {payload state count own latch} :
      Step action ⟨.invokes (.panic payload state), count, own⟩ latch
        ⟨.panicked, count, own⟩ latch
  | settle {result count own latch} :
      Step action ⟨.settles result, count, own⟩ latch
        ⟨.answered (latch.offer result).1, count, own⟩ (latch.offer result).2
  | drop {stage count own latch} (may : stage.mayDrop = true) :
      Step action ⟨stage, count, own⟩ latch ⟨.dropped, count, own⟩ latch

/-- The latch and all runs that were ever called. -/
abbrev Session (σ ρ : Type) : Type := Deferred.Session (Latch ρ) (Visit σ ρ)

def Session.initial : Session σ ρ := ⟨.empty, []⟩

abbrev Step [HasFailure ρ] (action : Action σ ρ) : Session σ ρ → Session σ ρ → Prop :=
  Deferred.Session.Step .fresh (Visit.Step action)

abbrev Steps [HasFailure ρ] (action : Action σ ρ) : Session σ ρ → Session σ ρ → Prop :=
  Deferred.Session.Steps .fresh (Visit.Step action)

variable [HasFailure ρ] {action : Action σ ρ} {session next later : Session σ ρ}

/-! ### The latch -/

/-- An offer fills a latch that is empty with a result that is not a failure, and does nothing
otherwise. -/
theorem offer_eq (latch : Latch ρ) (result : ρ) :
    (HasFailure.isFailure result = true ∧ latch.offer result = (result, latch)) ∨
      HasFailure.isFailure result = false ∧
        ((∃ kept, latch.value = some kept ∧ latch.offer result = (kept, latch)) ∨
          latch.value = none ∧ latch.offer result = (result, ⟨some result⟩)) := by
  unfold Latch.offer
  cases failure : HasFailure.isFailure result with
  | true => exact .inl ⟨rfl, rfl⟩
  | false =>
    obtain ⟨value⟩ := latch
    cases value with
    | none => exact .inr ⟨rfl, .inr ⟨rfl, rfl⟩⟩
    | some kept => exact .inr ⟨rfl, .inl ⟨kept, rfl, rfl⟩⟩

/-- Only a run whose own invocation has given a result that is not a failure fills the latch. -/
theorem Visit.Step.fills {visit after : Visit σ ρ} {latch rest : Latch ρ}
    (step : Visit.Step action visit latch after rest) :
    rest = latch ∨ ∃ result, HasFailure.isFailure result = false ∧ latch.value = none ∧
      rest.value = some result ∧ visit.stage = .settles result ∧
      after = { visit with stage := .answered result } := by
  cases step with
  | @settle result count own =>
    rcases offer_eq latch result with ⟨-, same⟩ | ⟨good, ⟨kept, -, same⟩ | ⟨empty, filled⟩⟩
    · exact .inl (congrArg Prod.snd same)
    · exact .inl (congrArg Prod.snd same)
    · refine .inr ⟨result, good, empty, ?_, rfl, ?_⟩ <;> rw [filled]
  | hit | miss | invoke | goOn | complete | panic | drop => exact .inl rfl

theorem Visit.Step.keeps {visit after : Visit σ ρ} {latch rest : Latch ρ} {kept : ρ}
    (step : Visit.Step action visit latch after rest) (held : latch.value = some kept) :
    rest.value = some kept := by
  rcases step.fills with rfl | ⟨_, _, empty, _⟩
  · exact held
  · rw [held] at empty
    cases empty

theorem Step.keeps {kept : ρ} (step : Step action session next)
    (held : session.cell.value = some kept) : next.cell.value = some kept := by
  cases step with
  | call => exact held
  | visit here step => exact step.keeps held

theorem Steps.keeps {kept : ρ} (steps : Steps action session later)
    (held : session.cell.value = some kept) : later.cell.value = some kept := by
  induction steps with
  | refl => exact held
  | tail _ step ih => exact Step.keeps step ih

/-! ### The runs -/

/-- Whether the run has not invoked the action yet. -/
def Stage.isBefore : Stage σ ρ → Bool
  | fresh => true
  | misses => true
  | _ => false

/-- What is known of a run beside this latch. -/
structure Visit.Sound (action : Action σ ρ) (latch : Latch ρ) (visit : Visit σ ρ) : Prop where
  before : visit.stage.isBefore = true → visit.invocations = 0 ∧ visit.own = none
  once : visit.invocations ≤ 1
  invokes : ∀ poll, visit.stage = .invokes poll → visit.own = none ∧ action.Invokes poll
  given : ∀ result, visit.own = some result → action.Gives result
  settles : ∀ result, visit.stage = .settles result → visit.own = some result
  failure : ∀ result, visit.stage = .answered result → HasFailure.isFailure result = true →
    visit.own = some result
  kept : ∀ result, visit.stage = .answered result → HasFailure.isFailure result = false →
    latch.value = some result

theorem Visit.sound_fresh (latch : Latch ρ) : Visit.fresh.Sound action latch :=
  ⟨fun _ => ⟨rfl, rfl⟩, Nat.zero_le 1, nofun, nofun, nofun, nofun, nofun⟩

theorem Visit.Sound.mono {visit : Visit σ ρ} {latch rest : Latch ρ}
    (sound : visit.Sound action latch)
    (keeps : ∀ kept, latch.value = some kept → rest.value = some kept) :
    visit.Sound action rest :=
  { sound with kept := fun result answered good => keeps result (sound.kept result answered good) }

theorem Visit.Step.sound {visit after : Visit σ ρ} {latch rest : Latch ρ}
    (step : Visit.Step action visit latch after rest) (before : visit.Sound action latch)
    (filled : ∀ kept, latch.value = some kept → HasFailure.isFailure kept = false) :
    after.Sound action rest := by
  cases step with
  | @hit count own latch kept held =>
    refine ⟨nofun, before.once, nofun, before.given, nofun, ?_, ?_⟩
    · intro result same failed
      cases same
      rw [filled kept held] at failed
      cases failed
    · intro result same _
      cases same
      exact held
  | miss =>
    exact ⟨fun _ => before.before rfl, before.once, nofun, before.given, nofun, nofun, nofun⟩
  | invoke state =>
    obtain ⟨never, none⟩ := before.before rfl
    refine ⟨nofun, Nat.succ_le_succ (Nat.le_of_eq never), ?_, before.given, nofun, nofun, nofun⟩
    intro poll same
    cases same
    exact ⟨none, .start state⟩
  | goOn goes =>
    refine ⟨nofun, before.once, ?_, before.given, nofun, nofun, nofun⟩
    intro poll same
    cases same
    obtain ⟨none, invokes⟩ := before.invokes _ rfl
    exact ⟨none, .goesOn invokes goes⟩
  | @complete result state =>
    refine ⟨nofun, before.once, nofun, ?_, ?_, nofun, nofun⟩
    · intro given same
      cases same
      exact ⟨state, (before.invokes _ rfl).2⟩
    · intro settled same
      cases same
      rfl
  | panic => exact ⟨nofun, before.once, nofun, before.given, nofun, nofun, nofun⟩
  | @settle result count own =>
    have mine : own = some result := before.settles result rfl
    refine ⟨nofun, before.once, nofun, before.given, nofun, ?_, ?_⟩
    · intro answer same failed
      cases same
      rcases offer_eq latch result with ⟨-, same⟩ | ⟨good, ⟨kept, held, same⟩ | ⟨-, same⟩⟩
      · rw [same]; exact mine
      · rw [same, filled kept held] at failed
        cases failed
      · rw [same, good] at failed
        cases failed
    · intro answer same good
      cases same
      rcases offer_eq latch result with ⟨bad, same⟩ | ⟨-, ⟨kept, held, same⟩ | ⟨-, same⟩⟩
      · rw [same, bad] at good
        cases good
      · rw [same]; exact held
      · rw [same]
  | drop => exact ⟨nofun, before.once, nofun, before.given, nofun, nofun, nofun⟩

theorem Visit.Step.keeps_own {visit after : Visit σ ρ} {latch rest : Latch ρ}
    (step : Visit.Step action visit latch after rest) (before : visit.Sound action latch)
    {result : ρ} (own : visit.own = some result) : after.own = some result := by
  cases step with
  | complete =>
    have none := (before.invokes _ rfl).1
    rw [own] at none
    cases none
  | hit | miss | invoke | goOn | panic | settle | drop => exact own

structure Session.Sound (action : Action σ ρ) (session : Session σ ρ) : Prop where
  visits : ∀ visit ∈ session.visits, visit.Sound action session.cell
  filled : ∀ kept, session.cell.value = some kept →
    HasFailure.isFailure kept = false ∧ ∃ visit ∈ session.visits, visit.own = some kept

theorem Step.sound (step : Step action session next) (before : session.Sound action) :
    next.Sound action := by
  cases step with
  | call =>
    refine ⟨fun visit member => ?_, fun kept held => ?_⟩
    · rcases List.mem_append.mp member with old | new
      · exact before.visits visit old
      · rw [List.mem_singleton.mp new]
        exact Visit.sound_fresh _
    · obtain ⟨good, visit, member, own⟩ := before.filled kept held
      exact ⟨good, visit, List.mem_append_left _ member, own⟩
  | @visit index visit after rest here step =>
    obtain ⟨bound, rfl⟩ := List.getElem?_eq_some_iff.mp here
    have sound := before.visits _ (List.getElem_mem bound)
    refine ⟨fun other member => ?_, fun kept held => ?_⟩
    · rcases List.mem_or_eq_of_mem_set member with old | rfl
      · exact (before.visits other old).mono fun kept => step.keeps
      · exact step.sound sound fun kept held => (before.filled kept held).1
    · rcases step.fills with rfl | ⟨result, good, -, filled, stage, answered⟩
      · obtain ⟨good, own⟩ := before.filled kept held
        exact ⟨good, exists_mem_set here own (step.keeps_own sound)⟩
      · obtain rfl := Option.some.inj (held.symm.trans filled)
        exact ⟨good, after, List.mem_set bound _, answered ▸ sound.settles _ stage⟩

theorem Steps.sound (steps : Steps action .initial session) : session.Sound action := by
  induction steps with
  | refl => exact ⟨nofun, nofun⟩
  | tail _ step ih => exact Step.sound step ih

/-! ### Runs that come late -/

/-- A run that was first polled when this result was kept. -/
structure Visit.Late (kept : ρ) (visit : Visit σ ρ) : Prop where
  never : visit.invocations = 0
  stage : visit.stage = .fresh ∨ visit.stage = .answered kept ∨ visit.stage = .dropped

theorem Visit.Step.late {visit after : Visit σ ρ} {latch rest : Latch ρ} {kept : ρ}
    (step : Visit.Step action visit latch after rest) (held : latch.value = some kept)
    (before : visit.Late kept) : after.Late kept := by
  cases step with
  | hit found =>
    obtain rfl := Option.some.inj (held.symm.trans found)
    exact ⟨before.never, .inr (.inl rfl)⟩
  | miss empty =>
    rw [held] at empty
    cases empty
  | drop => exact ⟨before.never, .inr (.inr rfl)⟩
  | invoke | goOn | complete | panic | settle =>
    rcases before.stage with stage | stage | stage <;> cases stage

theorem Step.late {kept : ρ} {index : Nat} (step : Step action session next)
    (held : session.cell.value = some kept)
    (before : ∀ visit, session.visits[index]? = some visit → visit.Late kept) :
    ∀ visit, next.visits[index]? = some visit → visit.Late kept := by
  intro visit found
  cases step with
  | call =>
    rcases getElem?_concat_eq_some found with old | ⟨-, rfl⟩
    · exact before visit old
    · exact ⟨rfl, .inl rfl⟩
  | visit here step =>
    rcases getElem?_set_eq_some found with ⟨rfl, rfl⟩ | ⟨-, same⟩
    · exact step.late held (before _ here)
    · exact before visit same

theorem Steps.late {kept : ρ} {index : Nat} (steps : Steps action session later)
    (held : session.cell.value = some kept)
    (before : ∀ visit, session.visits[index]? = some visit → visit.Late kept) :
    ∀ visit, later.visits[index]? = some visit → visit.Late kept := by
  induction steps with
  | refl => exact before
  | tail steps step ih => exact Step.late step (Steps.keeps steps held) ih

/-! ### All runs -/

/-- A run fills the latch with the result of its own invocation and answers with it. -/
def Session.Fills (session next : Session σ ρ) : Prop :=
  ∃ (index : Nat) (visit : Visit σ ρ) (result : ρ),
    session.visits[index]? = some visit ∧ visit.stage = .settles result ∧
      visit.own = some result ∧ HasFailure.isFailure result = false ∧
      session.cell.value = none ∧ next.cell.value = some result ∧
      next.visits[index]? = some { visit with stage := .answered result }

theorem Step.fills (step : Step action session next) (sound : session.Sound action) :
    next.cell = session.cell ∨ session.Fills next := by
  cases step with
  | call => exact .inl rfl
  | @visit index visit after rest here step =>
    rcases step.fills with same | ⟨result, good, empty, filled, stage, answered⟩
    · exact .inl same
    · have own := (sound.visits visit (List.mem_of_getElem? here)).settles result stage
      refine .inr ⟨index, visit, result, here, stage, own, good, empty, filled, ?_⟩
      rw [List.getElem?_set_self (List.getElem?_eq_some_iff.mp here).1, answered]

/-- Whether the run has come to nothing. -/
def Stage.hasFailed : Stage σ ρ → Bool
  | answered result => HasFailure.isFailure result
  | panicked => true
  | dropped => true
  | _ => false

theorem Step.latch_of_failed (step : Step action session next) {index : Nat} {visit : Visit σ ρ}
    (found : next.visits[index]? = some visit) (moved : session.visits[index]? ≠ some visit)
    (failed : visit.stage.hasFailed = true) : next.cell = session.cell := by
  cases step with
  | call => rfl
  | visit here step =>
    rcases getElem?_set_eq_some found with ⟨rfl, rfl⟩ | ⟨-, same⟩
    · rcases step.fills with same | ⟨result, good, _, _, _, rfl⟩
      · exact same
      · exact absurd (good.symm.trans failed) Bool.false_ne_true
    · exact absurd same moved

/-- The runs of a session, now and later. -/
structure Session.Agrees (action : Action σ ρ) (session later : Session σ ρ) : Prop where
  /-- What the latch is filled with stays, and is the result of a run that did not fail. -/
  kept : ∀ kept, session.cell.value = some kept → later.cell.value = some kept ∧
    HasFailure.isFailure kept = false ∧ ∃ visit ∈ session.visits, visit.own = some kept
  fills : ∀ next, Step action session next → next.cell = session.cell ∨ session.Fills next
  failed : ∀ next (index : Nat) (visit : Visit σ ρ), Step action session next →
    next.visits[index]? = some visit → session.visits[index]? ≠ some visit →
      visit.stage.hasFailed = true → next.cell = session.cell
  /-- A run invokes the action at most once. Its answer is its own failure or what is kept. -/
  visits : ∀ visit ∈ session.visits, visit.invocations ≤ 1 ∧
    (∀ result, visit.own = some result → action.Gives result) ∧
    ∀ result, visit.stage = .answered result →
      (HasFailure.isFailure result = true → visit.own = some result) ∧
      (HasFailure.isFailure result = false → session.cell.value = some result)
  agree : ∀ visit ∈ session.visits, ∀ other ∈ later.visits, ∀ first second,
    visit.stage = .answered first → HasFailure.isFailure first = false →
      other.stage = .answered second → HasFailure.isFailure second = false → first = second
  /-- A run that is first polled when the latch is filled invokes nothing. -/
  late : ∀ kept (index : Nat), session.cell.value = some kept →
    (∀ visit : Visit σ ρ, session.visits[index]? = some visit → visit.stage = .fresh) →
      ∀ visit : Visit σ ρ, later.visits[index]? = some visit → visit.Late kept

/-- However the runs of an action with a latch interleave. -/
theorem Steps.agrees (reached : Steps action .initial session)
    (steps : Steps action session later) : session.Agrees action later := by
  have sound := Steps.sound reached
  refine ⟨?_, fun next step => step.fills sound, fun next index visit step => step.latch_of_failed,
    ?_, ?_, ?_⟩
  · intro kept held
    obtain ⟨good, own⟩ := sound.filled kept held
    exact ⟨Steps.keeps steps held, good, own⟩
  · intro visit member
    have known := sound.visits visit member
    exact ⟨known.once, known.given, fun result answered =>
      ⟨known.failure result answered, known.kept result answered⟩⟩
  · intro visit member other later first second answered good answeredToo goodToo
    have early := Steps.keeps steps ((sound.visits visit member).kept first answered good)
    have late := ((Steps.sound (reached.trans steps)).visits other later).kept second answeredToo
      goodToo
    exact Option.some.inj (early.symm.trans late)
  · intro kept index held fresh
    refine Steps.late steps held fun visit found => ?_
    have known := sound.visits visit (List.mem_of_getElem? found)
    have stage := fresh visit found
    exact ⟨(known.before (by rw [stage]; rfl)).1, .inl stage⟩

/-- An action that always gives another result. -/
def echo : Action Nat (Verdict Nat) :=
  .lazily fun state => .ready (.success state) state

/-- Two runs have raced with different results, and a third one is only called. -/
def raced : Session Nat (Verdict Nat) where
  cell := ⟨some (.success 2)⟩
  visits := [⟨.answered (.success 2), 1, some (.success 1)⟩,
    ⟨.answered (.success 2), 1, some (.success 2)⟩, .fresh]

theorem steps_raced : Steps echo .initial raced := by
  have called : Steps echo .initial ⟨.empty, [.fresh, .fresh, .fresh]⟩ :=
    ((Relation.ReflTransGen.refl.tail .call).tail .call).tail .call
  have missed := (called.tail (@Session.Step.visit _ _ _ _ _ 0 _ _ _ rfl (.miss rfl))).tail
    (@Session.Step.visit _ _ _ _ _ 1 _ _ _ rfl (.miss rfl))
  have invoked := (missed.tail (@Session.Step.visit _ _ _ _ _ 0 _ _ _ rfl (.invoke 1))).tail
    (@Session.Step.visit _ _ _ _ _ 1 _ _ _ rfl (.invoke 2))
  have completed := (invoked.tail (@Session.Step.visit _ _ _ _ _ 0 _ _ _ rfl .complete)).tail
    (@Session.Step.visit _ _ _ _ _ 1 _ _ _ rfl .complete)
  have settled := (completed.tail (@Session.Step.visit _ _ _ _ _ 1 _ _ _ rfl .settle)).tail
    (@Session.Step.visit _ _ _ _ _ 0 _ _ _ rfl .settle)
  exact settled

end Deferred.Cached
