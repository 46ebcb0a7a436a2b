import Deferred.Proofs.Answers
import Deferred.Proofs.Laws.Sequencing

/-! Alternatives. However they are nested, only the order in which they stand makes a difference:
the first one is run, and each further one in the poll in which the one before it has ended, for as
long as what that one has come to is to be mended. What is answered is the result of the last one
that has been run.

An attempt is mended where it fails. A search is mended where nothing was found. -/

namespace Deferred

variable {σ α ρ : Type}

namespace Action

/-- Goes on after this result with one action after the other, for as long as there is something to
mend. -/
def fallBack (mends : ρ → Bool) : List (Action σ ρ) → ρ → Future σ ρ
  | [], result => pure result
  | next :: later, result =>
      if mends result then next.awaited >>= fallBack mends later else pure result

variable {mends : ρ → Bool}

theorem fallBack_of_fine (later : List (Action σ ρ)) {result : ρ} (fine : mends result = false) :
    fallBack mends later result = pure result := by
  cases later with
  | nil => rfl
  | cons next later =>
    unfold fallBack
    rw [fine]
    rfl

theorem fallBack_append (first later : List (Action σ ρ)) (result : ρ) :
    fallBack mends (first ++ later) result =
      fallBack mends first result >>= fallBack mends later := by
  induction first generalizing result with
  | nil => rfl
  | cons next first ih =>
    cases ends : mends result with
    | false => rw [fallBack_of_fine _ ends, fallBack_of_fine _ ends, pure_bind,
        fallBack_of_fine _ ends]
    | true =>
      simp only [List.cons_append, fallBack, ends, ↓reduceIte, bind_assoc]
      exact congrArg (next.awaited >>= ·) (funext ih)

/-- An action that is several alternatives may as well be listed as these. -/
theorem fallBack_block {action first : Action σ ρ} {others : List (Action σ ρ)}
    (block : action.awaited = first.awaited >>= fallBack mends others)
    (later : List (Action σ ρ)) (result : ρ) :
    fallBack mends (action :: later) result =
      fallBack mends (first :: others ++ later) result := by
  simp only [List.cons_append, fallBack, block]
  split
  · rw [bind_assoc]
    exact congrArg (first.awaited >>= ·) (funext fun _ => (fallBack_append _ _ _).symm)
  · rfl

end Action

/-! ### Nested alternatives -/

/-- Alternatives, nested in any way. There is always a first one. -/
inductive Choice (ι : Type) where
  | only (alternative : ι)
  | either (first second : Choice ι)

namespace Choice

variable {ι : Type}

def first : Choice ι → ι
  | only alternative => alternative
  | either choice _ => choice.first

def later : Choice ι → List ι
  | only _ => []
  | either choice other => choice.later ++ other.first :: other.later

/-- All alternatives, in the order in which they stand. -/
def all (choice : Choice ι) : List ι :=
  choice.first :: choice.later

def join (orElse : ι → ι → ι) : Choice ι → ι
  | only alternative => alternative
  | either choice other => orElse (choice.join orElse) (other.join orElse)

end Choice

/-- The operation runs the second action where there is something to mend. -/
def Mending (mends : ρ → Bool) (orElse : Action σ ρ → Action σ ρ → Action σ ρ) : Prop :=
  ∀ action other, orElse action other =
    action.andThen fun result => if mends result then other.awaited else pure result

section
variable {mends : ρ → Bool} {orElse : Action σ ρ → Action σ ρ → Action σ ρ}

theorem Mending.awaited (mending : Mending mends orElse) (action other : Action σ ρ) :
    (orElse action other).awaited = action.awaited >>= Action.fallBack mends [other] := by
  rw [mending, Action.awaited_andThen]
  refine congrArg (action.awaited >>= ·) (funext fun result => ?_)
  unfold Action.fallBack
  split
  · exact (bind_pure other.awaited).symm
  · rfl

theorem Mending.awaited_join (mending : Mending mends orElse) (choice : Choice (Action σ ρ)) :
    (choice.join orElse).awaited =
      choice.first.awaited >>= Action.fallBack mends choice.later := by
  induction choice with
  | only action => exact (bind_pure action.awaited).symm
  | either choice other ih ihOther =>
    calc
      _ = (choice.join orElse).awaited >>= Action.fallBack mends [other.join orElse] :=
        mending.awaited _ _
      _ = choice.first.awaited >>= fun result =>
          Action.fallBack mends choice.later result >>=
            Action.fallBack mends [other.join orElse] := by rw [ih, bind_assoc]
      _ = choice.first.awaited >>= fun result =>
          Action.fallBack mends choice.later result >>=
            Action.fallBack mends (other.first :: other.later) := by
        refine congrArg (choice.first.awaited >>= ·) (funext fun result => ?_)
        refine congrArg (Action.fallBack mends choice.later result >>= ·) (funext fun middle => ?_)
        rw [Action.fallBack_block ihOther, List.append_nil]
      _ = choice.first.awaited >>= Action.fallBack mends (choice.either other).later :=
        congrArg (choice.first.awaited >>= ·)
          (funext fun result => (Action.fallBack_append _ _ result).symm)

end

/-! ### Complete runs -/

/-- The first alternatives are run in turn, and none of the others. Whatever they have come to
before the answer was to be mended, and the answer is fine or no alternative is left. -/
def SettlesInTurn (mends : ρ → Bool) (actions : List (Action σ ρ)) (state : σ) (inputs : List σ)
    (answer : ρ) (last : σ) : Prop :=
  ∃ run left earlier, actions = run ++ left ∧
    Poll.InTurn (run.map Action.awaited) state inputs (earlier ++ [answer]) last ∧
    (∀ result ∈ earlier, mends result = true) ∧ (mends answer = true → left = [])

section
variable {mends : ρ → Bool} {state last : σ} {inputs : List σ} {action : Action σ ρ}
  {actions : List (Action σ ρ)} {answer : ρ}

/-- The first alternative gives the answer, or it is mended by the others. -/
theorem settlesInTurn_cons_iff :
    SettlesInTurn mends (action :: actions) state inputs answer last ↔
      ((action.awaited state).Answers inputs answer last ∧ (mends answer = true → actions = [])) ∨
      ∃ first later result middle, inputs = first ++ later ∧
        (action.awaited state).Answers first result middle ∧ mends result = true ∧
        SettlesInTurn mends actions middle later answer last := by
  constructor
  · rintro ⟨run, left, earlier, split, inTurn, fails, exhausted⟩
    cases run with
    | nil =>
      obtain ⟨-, none, -⟩ := Poll.inTurn_nil_iff.mp inTurn
      exact absurd none (List.append_ne_nil_of_right_ne_nil _ (List.cons_ne_nil _ _))
    | cons _ run =>
      obtain ⟨rfl, rfl⟩ := List.cons.inj split
      obtain ⟨first, later, result, results, middle, rfl, answers, runs, rest⟩ :=
        Poll.inTurn_cons_iff.mp inTurn
      cases earlier with
      | nil =>
        obtain ⟨rfl, rfl⟩ := List.cons.inj answers
        have none := List.eq_nil_of_length_eq_zero rest.length_eq
        obtain rfl : run = [] := List.map_eq_nil_iff.mp none
        obtain ⟨rfl, -, rfl⟩ := Poll.inTurn_nil_iff.mp rest
        rw [List.append_nil]
        exact .inl ⟨runs, exhausted⟩
      | cons _ earlier =>
        obtain ⟨rfl, rfl⟩ := List.cons.inj answers
        obtain ⟨failed, fails⟩ := List.forall_mem_cons.mp fails
        exact .inr ⟨first, later, _, middle, rfl, runs, failed,
          run, left, earlier, rfl, rest, fails, exhausted⟩
  · rintro (⟨runs, exhausted⟩ |
      ⟨first, later, result, middle, rfl, runs, failed, run, left, earlier, rfl, rest, fails,
        exhausted⟩)
    · have inTurn : Poll.InTurn [action.awaited] state (inputs ++ []) [answer] last :=
        .next runs .none
      rw [List.append_nil] at inTurn
      exact ⟨[action], actions, [], rfl, inTurn, nofun, exhausted⟩
    · exact ⟨action :: run, left, result :: earlier, rfl, .next runs rest,
        List.forall_mem_cons.mpr ⟨failed, fails⟩, exhausted⟩

theorem not_settlesInTurn_nil : ¬SettlesInTurn mends [] state inputs answer last := by
  rintro ⟨run, left, earlier, split, inTurn, -, -⟩
  obtain ⟨rfl, rfl⟩ := List.append_eq_nil_iff.mp split.symm
  obtain ⟨-, none, -⟩ := Poll.inTurn_nil_iff.mp inTurn
  exact absurd none (List.append_ne_nil_of_right_ne_nil _ (List.cons_ne_nil _ _))

theorem fallBack_answers_iff :
    ((action.awaited >>= Action.fallBack mends actions) state).Answers inputs answer last ↔
      SettlesInTurn mends (action :: actions) state inputs answer last := by
  induction actions generalizing action state inputs with
  | nil =>
    rw [settlesInTurn_cons_iff]
    have alone : action.awaited >>= Action.fallBack mends [] = action.awaited := bind_pure _
    rw [alone]
    refine ⟨fun runs => .inl ⟨runs, fun _ => rfl⟩, ?_⟩
    rintro (⟨runs, -⟩ | ⟨_, _, _, _, -, -, -, settles⟩)
    · exact runs
    · exact absurd settles not_settlesInTurn_nil
  | cons next actions ih =>
    rw [settlesInTurn_cons_iff]
    refine Poll.answers_bind_iff.trans ⟨?_, ?_⟩
    · rintro ⟨first, later, result, middle, rfl, runs, rest⟩
      unfold Action.fallBack at rest
      split at rest
      next failed => exact .inr ⟨first, later, result, middle, rfl, runs, failed, ih.mp rest⟩
      next fine =>
        obtain ⟨rfl, rfl, rfl⟩ := Poll.answers_ready_iff.mp rest
        rw [List.append_nil]
        exact .inl ⟨runs, fun failed => absurd failed fine⟩
    · rintro (⟨runs, exhausted⟩ | ⟨first, later, result, middle, rfl, runs, failed, rest⟩)
      · refine ⟨inputs, [], answer, last, (List.append_nil _).symm, runs, ?_⟩
        have fine : mends answer = false :=
          Bool.eq_false_iff.mpr fun failed => nomatch exhausted failed
        rw [Action.fallBack_of_fine _ fine]
        exact .ready
      · refine ⟨first, later, result, middle, rfl, runs, ?_⟩
        unfold Action.fallBack
        rw [if_pos failed]
        exact ih.mpr rest

end

/-! ### The laws -/

/-- The laws of alternatives. One that only says what is to be mended is a unit on the left. On the
right it gives its own answer in place of the one that was to be mended. -/
structure Alternatives (mends : ρ → Bool) (orElse : Action σ ρ → Action σ ρ → Action σ ρ) :
    Prop where
  assoc : ∀ action other last, (orElse (orElse action other) last).Alike
    (orElse action (orElse other last))
  inOrder : ∀ choice : Choice (Action σ ρ), (choice.join orElse).awaited =
    choice.first.awaited >>= Action.fallBack mends choice.later
  answers : ∀ (choice : Choice (Action σ ρ)) (state : σ) (inputs : List σ) (answer : ρ) (last : σ),
    ((choice.join orElse).awaited state).Answers inputs answer last ↔
      SettlesInTurn mends choice.all state inputs answer last
  unit_left : ∀ bad, mends bad = true → ∀ action, (orElse (.lazily (pure bad)) action).Alike action
  unit_right : ∀ bad action, (orElse action (.lazily (pure bad))).Alike
    (action.andThen fun result => pure (if mends result then bad else result))

theorem Mending.alternatives {mends : ρ → Bool} {orElse : Action σ ρ → Action σ ρ → Action σ ρ}
    (mending : Mending mends orElse) : Alternatives mends orElse where
  assoc action other last := by
    refine .of_awaited ?_
    calc
      _ = action.awaited >>= Action.fallBack mends [other, last] :=
        mending.awaited_join (.either (.either (.only action) (.only other)) (.only last))
      _ = _ :=
        (mending.awaited_join (.either (.only action) (.either (.only other) (.only last)))).symm
  inOrder := mending.awaited_join
  answers choice _ _ _ _ := by
    rw [mending.awaited_join]
    exact fallBack_answers_iff
  unit_left bad fails action := by
    refine .of_awaited ?_
    rw [mending.awaited]
    show Action.fallBack mends [action] bad = _
    unfold Action.fallBack
    rw [if_pos fails]
    exact bind_pure action.awaited
  unit_right bad action := by
    refine .of_awaited ?_
    rw [mending, Action.awaited_andThen, Action.awaited_andThen]
    refine congrArg (action.awaited >>= ·) (funext fun result => ?_)
    split <;> rfl

theorem Attempt.mending_orElse :
    Mending Verdict.isFailure (Attempt.orElse (σ := σ) (α := α)) := by
  intro attempt other
  refine congrArg attempt.andThen (funext fun verdict => ?_)
  cases verdict <;> rfl

theorem Search.mending_orElse :
    Mending Finding.isAbsentOrFailure (Search.orElse (σ := σ) (α := α)) := by
  intro search other
  refine congrArg search.andThen (funext fun finding => ?_)
  cases finding <;> rfl

end Deferred
