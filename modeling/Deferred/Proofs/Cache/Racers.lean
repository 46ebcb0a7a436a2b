import Deferred.Attempt
import Deferred.Proofs.Cache.SharedProgram
import Deferred.Proofs.Notebook

/-! Runs that race with the one that fills the latch. What a run answers once the latch is filled
depends on nothing but the result of its own invocation: a failure passes through, and for anything
else the answer is what is kept. A run that has not looked at the latch by then has no invocation of
its own, so that only a racer can still answer a failure. -/

namespace Deferred.Cached

variable {σ ρ : Type} [HasFailure ρ] {action : Action σ ρ} {session next later : Session σ ρ}

/-- What the run answers when this result is kept. -/
def Visit.due (kept : ρ) (visit : Visit σ ρ) : ρ :=
  match visit.own with
  | some own => if HasFailure.isFailure own then own else kept
  | none => kept

theorem Visit.due_of_own {kept own : ρ} {visit : Visit σ ρ} (same : visit.own = some own) :
    visit.due kept = if HasFailure.isFailure own then own else kept := by
  unfold due
  rw [same]

theorem Visit.due_of_none {kept : ρ} {visit : Visit σ ρ} (none : visit.own = none) :
    visit.due kept = kept := by
  unfold due
  rw [none]

/-! ### Failures pass through -/

/-- A run whose own result is a failure answers that failure. -/
def Visit.Passes (visit : Visit σ ρ) : Prop :=
  ∀ result own, visit.stage = .answered result → visit.own = some own →
    HasFailure.isFailure own = true → result = own

theorem Visit.Step.passes {visit after : Visit σ ρ} {latch rest : Latch ρ}
    (step : Visit.Step action visit latch after rest) (sound : visit.Sound action latch) :
    after.Passes := by
  intro answer own answered mine failed
  cases step with
  | hit held =>
    have none := (sound.before rfl).2
    rw [none] at mine
    cases mine
  | @settle result count =>
    cases answered
    obtain rfl : own = result := Option.some.inj (mine.symm.trans (sound.settles result rfl))
    rw [Latch.offer, if_pos failed]
  | miss | invoke | goOn | complete | panic | drop => cases answered

theorem Step.passes (step : Step action session next) (sound : session.Sound action)
    (before : ∀ visit ∈ session.visits, visit.Passes) : ∀ visit ∈ next.visits, visit.Passes := by
  intro visit member
  cases step with
  | call =>
    rcases List.mem_append.mp member with old | new
    · exact before visit old
    · rw [List.mem_singleton.mp new]
      intro result own answered
      cases answered
  | visit here step =>
    rcases List.mem_or_eq_of_mem_set member with old | rfl
    · exact before visit old
    · exact step.passes (sound.visits _ (List.mem_of_getElem? here))

theorem Steps.passes (steps : Steps action .initial session) :
    ∀ visit ∈ session.visits, visit.Passes := by
  induction steps with
  | refl => exact nofun
  | tail steps step ih => exact Step.passes step (Steps.sound steps) ih

/-- Once a result is kept, each run has answered or will answer what is due. -/
theorem Steps.answers_due (steps : Steps action .initial session) {kept : ρ}
    (held : session.cell.value = some kept) {visit : Visit σ ρ} (member : visit ∈ session.visits)
    {result : ρ} (answered : visit.stage = .answered result) : result = visit.due kept := by
  have sound := (Steps.sound steps).visits visit member
  have good (fine : HasFailure.isFailure result = false) : result = kept :=
    Option.some.inj ((sound.kept result answered fine).symm.trans held)
  cases mine : visit.own with
  | none =>
    rw [Visit.due_of_none mine]
    refine good (Bool.eq_false_iff.mpr fun failed => ?_)
    rw [sound.failure result answered failed] at mine
    cases mine
  | some own =>
    rw [Visit.due_of_own mine]
    split
    next failed => exact Steps.passes steps visit member result own answered mine failed
    next fine =>
      refine good (Bool.eq_false_iff.mpr fun failed => fine ?_)
      obtain rfl := Option.some.inj ((sound.failure result answered failed).symm.trans mine)
      exact failed

/-! ### Racers -/

/-- What the runs answer once the latch is filled. It stays as it is, and every run that answers
answers what is kept, whatever its invocation came to, unless it came to a failure: that is then the
answer. A run that had not begun by then, or is called later, invokes nothing. -/
structure Answers (action : Action σ ρ) (kept : ρ) (session later : Session σ ρ) : Prop where
  stays : later.cell.value = some kept
  due : ∀ visit ∈ later.visits, ∀ result, visit.stage = .answered result →
    result = visit.due kept ∧ ∀ own, visit.own = some own → action.Gives own
  late : ∀ index : Nat, (∀ visit, session.visits[index]? = some visit → visit.stage = .fresh) →
    ∀ visit, later.visits[index]? = some visit →
      visit.invocations = 0 ∧ ∀ result, visit.stage = .answered result → result = kept

theorem Steps.answers (reached : Steps action .initial session) {kept : ρ}
    (held : session.cell.value = some kept) (steps : Steps action session later) :
    Answers action kept session later := by
  have whole := reached.trans steps
  have stays := Steps.keeps steps held
  refine ⟨stays, fun visit member result answered => ?_, fun index fresh visit found => ?_⟩
  · exact ⟨Steps.answers_due whole stays member answered,
      ((Steps.sound whole).visits visit member).given⟩
  · have late : visit.Late kept := by
      refine Steps.late steps held (fun early there => ?_) visit found
      have stage := fresh early there
      have sound := (Steps.sound reached).visits early (List.mem_of_getElem? there)
      exact ⟨(sound.before (by rw [stage]; rfl)).1, .inl stage⟩
    refine ⟨late.never, fun result answered => ?_⟩
    rcases late.stage with stage | stage | stage
    · rw [stage] at answered; cases answered
    · rw [stage] at answered; cases answered; rfl
    · rw [stage] at answered; cases answered

/-- The result of a run that shows a visit, as the visit has it. -/
theorem Answers.of_aligned {kept : ρ} (answers : Answers action kept session later)
    {place : Place σ (Latch ρ)} {runs last : List (Running σ ρ)}
    (before : Program.Aligned (Shows place action) session.visits runs)
    (after : Program.Aligned (Shows place action) later.visits last) {index : Nat} {result : ρ}
    (answered : last[index]? = some (.answered result)) :
    result = kept ∨
      HasFailure.isFailure result = true ∧ action.Gives result ∧ index < runs.length := by
  obtain ⟨visit, found, shows⟩ := after.exists_visit answered
  cases shows with
  | @answered _ count own =>
    obtain ⟨due, gives⟩ := answers.due _ (List.mem_of_getElem? found) result rfl
    by_cases early : index < runs.length
    · cases own with
      | none => exact .inl due
      | some own =>
        rw [Visit.due_of_own rfl] at due
        split at due
        next failed => exact .inr ⟨due ▸ failed, due ▸ gives own rfl, early⟩
        next => exact .inl due
    · refine .inl ((answers.late index (fun visit there => ?_) _ found).2 result rfl)
      rw [← before.length] at early
      exact absurd (List.getElem?_eq_some_iff.mp there).1 early

/-- Once a run has filled the latch, the runs answer what is kept but for failures of racers, in
every session. Every program is one: whatever answers in it after the latch was filled answers what
is kept, or the failure of an invocation of its own, which was called before. -/
theorem racers_answer (action : Action σ ρ) (kept : ρ) :
    (∀ session later : Session σ ρ, Steps action .initial session →
      session.cell.value = some kept → Steps action session later →
        Answers action kept session later) ∧
    ∀ (place : Place σ (Latch ρ)) (start : σ) (program last : Program σ ρ),
      (∀ state, (action.awaited state).Keeps place (place.get state)) →
      place.get start = .empty →
      Program.Turns (action.cached place).awaited place ⟨start, []⟩ program →
      (place.get program.state).value = some kept →
      Program.Turns (action.cached place).awaited place program last →
        (∃ visits later : List (Visit σ ρ),
          Program.Aligned (Shows place action) visits program.runs ∧
          Program.Aligned (Shows place action) later last.runs ∧
          Answers action kept ⟨place.get program.state, visits⟩ ⟨place.get last.state, later⟩) ∧
        ∀ (index : Nat) (result : ρ), last.runs[index]? = some (.answered result) →
          result = kept ∨ HasFailure.isFailure result = true ∧ action.Gives result ∧
            index < program.runs.length := by
  refine ⟨fun session later reached held steps => Steps.answers reached held steps, ?_⟩
  intro place start program last keeps empty turns held more
  obtain ⟨visits, before, reached⟩ := steps_of_turns keeps empty turns
  obtain ⟨later, after, steps⟩ := (shown keeps).turns_from more before
  have answers := Steps.answers reached held steps
  exact ⟨⟨visits, later, before, after, answers⟩, fun index result answered =>
    answers.of_aligned before after answered⟩

/-! ### A racer that fails -/

/-- A latch and the number of calls so far. -/
abbrev Tally : Type := Notebook (Latch (Verdict Nat) × Nat)

def Tally.latch : Place Tally (Latch (Verdict Nat)) :=
  ⟨fun tally => tally.cell.1, fun latch tally => { tally with cell := (latch, tally.cell.2) },
    fun _ _ => rfl⟩

/-- The first call comes to a value, and each later one comes to an error after it. -/
def wavering : Attempt Tally Nat :=
  .new (ε := Error) fun tally =>
    let call := tally.cell.2
    (.ok do
      Future.sleep (10 * (call + 1))
      return if call = 0 then .ok 1 else .error (.message "late"),
      { tally with cell := (tally.cell.1, call + 1) })

/-- The turns of a program that runs this attempt behind a latch. -/
abbrev Tally.Turns : Program Tally (Verdict Nat) → Program Tally (Verdict Nat) → Prop :=
  Program.Turns (wavering.cached latch).awaited latch

/-- A run that has made this call and sleeps. -/
def sleeper (call : Nat) : Running Tally (Verdict Nat) :=
  ((wavering.cached Tally.latch).awaited (.opened (.empty, call))).running

/-- Both runs have begun, and the first one has filled the latch. -/
def filled : Program Tally (Verdict Nat) where
  state := { Notebook.opened (⟨some (.success 1)⟩, 2) with time := 10, left := 127 }
  runs := [.answered (.success 1), sleeper 1]

theorem turns_filled : Tally.Turns ⟨.opened (.empty, 0), []⟩ filled := by
  have called : Tally.Turns ⟨.opened (.empty, 0), []⟩ _ :=
    (Relation.ReflTransGen.refl.tail .call).tail .call
  have first : Tally.Turns _ ⟨.opened (.empty, 1), [sleeper 0, .stopped .passed _]⟩ :=
    called.poll 0 rfl rfl rfl rfl
  have begun : Tally.Turns _ ⟨.opened (.empty, 2), [sleeper 0, sleeper 1]⟩ :=
    first.poll 1 rfl rfl rfl rfl
  have later : Tally.Turns _
      ⟨{ Notebook.opened (.empty, 2) with time := 10 }, [sleeper 0, sleeper 1]⟩ :=
    begun.tail (.other rfl)
  exact later.poll 0 rfl rfl rfl rfl

/-- Then the second one wakes with its error. -/
def outrun : Program Tally (Verdict Nat) where
  state := { filled.state with time := 20, left := 126, log := [.message "late"] }
  runs := [.answered (.success 1), .answered (.failure (.message "late"))]

theorem turns_outrun : Tally.Turns filled outrun := by
  have later : Tally.Turns filled ⟨{ filled.state with time := 20 }, filled.runs⟩ :=
    .single (.other rfl)
  exact later.poll 1 rfl rfl rfl rfl

/-- A run can answer a failure after another one has filled the latch. -/
theorem racer_misses_latch :
    ¬∀ (program last : Program Tally (Verdict Nat)) (kept : Verdict Nat),
      Tally.Turns ⟨.opened (.empty, 0), []⟩ program →
        (Tally.latch.get program.state).value = some kept → Tally.Turns program last →
          ∀ (index : Nat) (result : Verdict Nat), last.runs[index]? = some (.answered result) →
            program.runs[index]? ≠ some (.answered result) → result = kept := by
  intro claimed
  cases claimed _ _ (.success 1) turns_filled rfl turns_outrun 1 (.failure (.message "late")) rfl
    nofun

theorem wavering_keeps (state : Tally) :
    (wavering.awaited state).Keeps Tally.latch (Tally.latch.get state) := by
  refine .waiting rfl (fun _ => rfl) fun s => ?_
  dsimp only [Future.pay, Future.afford, Bind.bind, Poll.bind, Poll.contained, Future.contained]
  generalize (if state.cell.2 = 0 then .ok 1 else .error (.message "late") : Except Error Nat) =
    outcome
  by_cases allowed : 0 < Host.allowance s
  · rw [if_pos allowed]
    cases outcome <;> exact .ready rfl
  · rw [if_neg allowed]
    refine .waiting rfl (fun _ => rfl) fun _ => ?_
    cases outcome <;> exact .ready rfl

/-- The racer answers an error of its own, and a run that is called then answers what is kept. -/
theorem overtaken_answer :
    ∃ last, Tally.Turns filled last ∧
      last.runs = [.answered (.success 1), .answered (.failure (.message "late")),
        .answered (.success 1)] ∧
      (∃ visits, Answers wavering (.success 1) ⟨Tally.latch.get filled.state, visits⟩
        ⟨Tally.latch.get filled.state, visits⟩) ∧
      wavering.Gives (.failure (.message "late")) := by
  have called : Tally.Turns filled _ := turns_outrun.tail .call
  have answered : Tally.Turns filled _ := called.poll 2 rfl rfl rfl rfl
  obtain ⟨sessions, programs⟩ := racers_answer wavering (.success 1)
  obtain ⟨visits, -, reached⟩ := steps_of_turns wavering_keeps rfl turns_filled
  obtain ⟨-, results⟩ := programs _ _ _ _ wavering_keeps rfl turns_filled rfl answered
  have own := (results 1 (.failure (.message "late")) rfl).resolve_left nofun
  exact ⟨_, answered, rfl, ⟨visits, sessions _ _ reached rfl .refl⟩, own.2.1⟩

end Deferred.Cached
