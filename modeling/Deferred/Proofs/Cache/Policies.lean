import Deferred.Proofs.Cache.AloneProgram
import Deferred.Proofs.Cache.Retrying
import Deferred.Proofs.Likeness.Blindness

/-! The two caches on uses that follow one another. With nobody else around the gate lets every run
pass at once and the latch is set by nobody else, so that either cache invokes the action until one
result is good, and keeps that one.

There is one difference. To be admitted by the gate costs as much as the end of a wait, so that a
run behind the gate has less allowance left than the same run before the latch. An action that does
not look at the allowance cannot tell, until it has to stop because none is left. -/

namespace Deferred

variable {σ ρ : Type}

/-- What can be seen of a state if not the allowance. -/
structure View (σ : Type) [Host σ] where
  Seen : Type
  see : σ → Seen
  now : ∀ {s t}, see s = see t → Host.now s = Host.now t
  record : ∀ {s t} error, see s = see t → see (Host.record error s) = see (Host.record error t)
  trace : ∀ {s t} event, see s = see t → see (Host.trace event s) = see (Host.trace event t)
  allow : ∀ count state, see (Host.allow count state) = see state

namespace View

variable [Host σ] (view : View σ)

/-- The same can be seen of both states, and the first one allows no more. -/
structure Within (s t : σ) : Prop where
  same : view.see s = view.see t
  allowance : Host.allowance s ≤ Host.allowance t

/-- A turn of code that does not look at the allowance. -/
def Respects (turn : σ → σ) : Prop :=
  ∀ s t, view.Within s t → view.Within (turn s) (turn t)

variable {view} {s t : σ}

theorem Within.spent (within : view.Within s t) : view.Within (Host.spend s) t where
  same := (view.allow _ s).trans within.same
  allowance := by
    rw [show Host.allowance (Host.spend s) = _ from Host.allowance_allow _ s]
    exact Nat.le_trans (Nat.sub_le _ 1) within.allowance

variable (view)

def likeness : Likeness σ where
  Index := Unit
  alike _ := view.Within
  waits _ := True
  tasks _ := True
  roomy := True
  now within := view.now within.same
  richer _ within := within.allowance
  record error within := by
    refine ⟨view.record error within.same, ?_⟩
    rw [Host.allowance_record, Host.allowance_record]
    exact within.allowance
  trace event within := by
    refine ⟨view.trace event within.same, ?_⟩
    rw [Host.allowance_trace, Host.allowance_trace]
    exact within.allowance
  spend {_ s t} within := by
    refine ⟨(view.allow _ s).trans (within.same.trans (view.allow _ t).symm), ?_⟩
    rw [show Host.allowance (Host.spend s) = _ from Host.allowance_allow _ s,
      show Host.allowance (Host.spend t) = _ from Host.allowance_allow _ t]
    exact Nat.sub_le_sub_right within.allowance 1
  clock _ := trivial
  either _ _ := trivial

end View

/-- Counts how often the action is called. -/
def Action.counted (action : Action σ ρ) : Action (σ × Nat) ρ where
  call := fun s => action.along.call (s.1, s.2 + 1)

theorem Action.awaited_counted (action : Action σ ρ) (s : σ × Nat) :
    action.counted.awaited s = (action.awaited s.1).along (s.2 + 1) :=
  action.awaited_along (s.1, s.2 + 1)

/-- How many of the runs, one after the other, have to invoke an action whose first good result is
kept: all up to the one that comes to this result. -/
def invocations [HasFailure ρ] : List (Running σ ρ) → Nat
  | [] => 0
  | run :: later => if run.good?.isSome then 1 else invocations later + 1

theorem invocations_concat [HasFailure ρ] (runs : List (Running σ ρ)) (run : Running σ ρ) :
    invocations (runs ++ [run]) =
      if (settled runs).isSome then invocations runs else invocations runs + 1 := by
  induction runs with
  | nil => cases good : run.good? <;> simp [invocations, settled]
  | cons first later ih =>
    cases good : first.good? with
    | none =>
      have same : settled (first :: later) = settled later := by
        unfold settled
        rw [List.findSome?_cons, good]
      simp only [List.cons_append, invocations, good, ih, same, Option.isSome_none,
        Bool.false_eq_true, ↓reduceIte]
      split <;> rfl
    | some result =>
      have same : settled (first :: later) = some result := by
        unfold settled
        rw [List.findSome?_cons, good]
      simp only [List.cons_append, invocations, good, same, Option.isSome_some, ↓reduceIte]

theorem invocations_concat_of_none [HasFailure ρ] {runs : List (Running σ ρ)}
    (none : settled runs = none) (run : Running σ ρ) :
    invocations (runs ++ [run]) = invocations runs + 1 := by
  rw [invocations_concat, none]
  rfl

theorem invocations_concat_of_some [HasFailure ρ] {runs : List (Running σ ρ)} {kept : ρ}
    (some : settled runs = some kept) (run : Running σ ρ) :
    invocations (runs ++ [run]) = invocations runs := by
  rw [invocations_concat, some]
  rfl

/-! ### In step -/

namespace Policies

variable [Host σ] [HasFailure ρ] {view : View σ} {past : List (Running ((σ × Nat) × Gate ρ) ρ)}

/-- Between the uses: nobody is at the gate, and either cache keeps the first good result. -/
structure Left (view : View σ) (past : List (Running ((σ × Nat) × Gate ρ) ρ))
    (s : (σ × Nat) × Gate ρ) (t : (σ × Nat) × Latch ρ) : Prop where
  within : view.Within s.1.1 t.1.1
  count : s.1.2 = invocations past
  counted : t.1.2 = invocations past
  holder : s.2.holder = none
  queue : s.2.queue = []
  stored : s.2.value = settled past
  kept : t.2.value = settled past

/-- While a run is going on, which has been admitted with this ticket. -/
structure Inside (view : View σ) (past : List (Running ((σ × Nat) × Gate ρ) ρ)) (ticket : Nat)
    (s : (σ × Nat) × Gate ρ) (t : (σ × Nat) × Latch ρ) : Prop where
  within : view.Within s.1.1 t.1.1
  count : s.1.2 = invocations past + 1
  counted : t.1.2 = invocations past + 1
  gate : ∃ issued, s.2 = ⟨none, some ticket, [], issued⟩
  latch : t.2 = .empty
  unsettled : settled past = none

section
variable {ticket : Nat} {s : (σ × Nat) × Gate ρ} {t : (σ × Nat) × Latch ρ}

/-- A run that comes to nothing makes room. -/
theorem Inside.leave (inside : Inside view past ticket s t) {run : Running _ ρ}
    (bad : run.good? = none) :
    Left view (past ++ [run]) (Place.own.modify (Gate.leave ticket) s) t := by
  obtain ⟨within, count, counted, ⟨issued, gate⟩, latch, none⟩ := inside
  have free : s.2.leave ticket = ⟨Option.none, Option.none, [], issued⟩ := by
    rw [gate]
    exact if_pos rfl
  have unsettled : settled (past ++ [run]) = Option.none :=
    (settled_concat_of_none bad).trans none
  have total := invocations_concat_of_none none run
  refine ⟨within, count.trans total.symm, counted.trans total.symm, ?_, ?_, ?_, ?_⟩
  · exact congrArg Gate.holder free
  · exact congrArg Gate.queue free
  · exact (congrArg Gate.value free).trans unsettled.symm
  · exact (congrArg Latch.value latch).trans unsettled.symm

/-- A good result is kept by either cache. -/
theorem Inside.store (inside : Inside view past ticket s t) {result : ρ}
    (good : HasFailure.isFailure result = false) :
    Left view (past ++ [.answered result]) (Place.own.modify (Gate.store result) s)
      (t.1, ⟨some result⟩) := by
  obtain ⟨within, count, counted, -, -, none⟩ := inside
  have settles : settled (past ++ [.answered result]) = some result := by
    rw [settled_concat, none, Running.good?_of_good good, Option.none_or]
  have total := invocations_concat_of_none none (.answered result)
  exact ⟨within, count.trans total.symm, counted.trans total.symm, rfl, rfl, settles.symm,
    settles.symm⟩

end

/-- Uses in which other code can reach neither the count nor the cell. -/
def moves {κ : Type} (uses : List (List (σ → σ))) (turns : List (σ → σ)) :
    List (Move ((σ × Nat) × κ)) :=
  Move.course (uses.map (List.map (outside ∘ outside))) (turns.map (outside ∘ outside))

/-- What both programs have in common. -/
abbrev usage (view : View σ) (ρ : Type) [HasFailure ρ] :
    Usage ((σ × Nat) × Gate ρ) ((σ × Nat) × Latch ρ) ρ where
  Kind := Nat
  left := Left view
  pace past ticket := {
    Index := Nat
    alike bound s t := Inside view past ticket s t ∧ Host.allowance s ≤ bound
    waits wait other := wait.deadline = other.deadline ∧
      ∀ s t, Inside view past ticket s t → wait.opens s = other.opens t ∧
        Left view (past ++ [.dropped]) (wait.release s) (other.release t)
    tasks := SameTask
    excused _ s := Host.allowance s = 0
    late _ := False
    slow _ := False }
  tasks := SameTask
  allowed s := 0 < Host.allowance s

theorem allowance_spend_le (s : σ) : Host.allowance (Host.spend s) ≤ Host.allowance s := by
  rw [show Host.allowance (Host.spend s) = _ from Host.allowance_allow _ s]
  exact Nat.sub_le _ 1

/-- An invocation behind the gate, and one before the latch. -/
theorem inside_inStep {ticket count issued : Nat} (unsettled : settled past = none)
    (counts : count = invocations past + 1) {i : view.likeness.pace.Index} {first second : Poll σ ρ}
    (inStep : first.InStep view.likeness.pace (Pace.returns _) i second) :
    (CachedAlone.inside .own ticket
        ((first.along count).along ⟨none, some ticket, [], issued⟩)).InStep
      ((usage view ρ).pace past ticket) ((usage view ρ).leaving past ticket) i.2
      (((second.along count).along .empty).bind (Cached.settle .own)) := by
  have fresh : ∀ {s t : σ} (issued : Nat), view.Within s t →
      Inside view past ticket ((s, count), ⟨none, some ticket, [], issued⟩) ((t, count), .empty) :=
    fun issued within => ⟨within, counts, counts, ⟨issued, rfl⟩, rfl, unsettled⟩
  induction inStep generalizing issued with
  | @ready i result _ s t ended =>
    obtain ⟨_, ⟨⟩, ⟨⟩, within, -⟩ := ended
    show Poll.InStep _ _ _ (Poll.holding _ (CachedAlone.settle .own ticket result _))
      (Cached.settle .own result _)
    unfold CachedAlone.settle
    cases ends : HasFailure.isFailure result with
    | true =>
      rw [Retry.settle_of_failure ends (t, count)]
      exact .ready ⟨rfl, (fresh issued within).leave (Running.good?_of_failure ends)⟩
    | false =>
      rw [Retry.settle_of_good ends (t, count)]
      exact .ready ⟨rfl, (fresh issued within).store ends⟩
  | panic ended =>
    obtain ⟨_, ⟨⟩, -⟩ := ended
  | @waiting _ wait other _ _ _ _ alike waits _ ih =>
    refine .waiting ⟨fresh issued alike.1, alike.2⟩ ⟨waits.deadline, ?_⟩ ?_
    · intro s t inside
      have released : Inside view past ticket (outside (outside wait.release) s)
          (outside (outside other.release) t) :=
        { inside with within := waits.releases (i := ()) inside.within }
      exact ⟨waits.opens (i := ()) inside.within, released.leave rfl⟩
    · rintro bound ⟨⟨s, m⟩, gate⟩ ⟨⟨t, n⟩, latch⟩ ⟨inside, few⟩ opens
      obtain ⟨issued, rfl⟩ := inside.gate
      obtain rfl := inside.latch
      obtain rfl : m = count := inside.count.trans counts.symm
      obtain rfl : n = m := inside.counted.trans counts.symm
      exact ih ((), bound) s t ⟨inside.within, few⟩ opens
  | @spawn _ child _ _ _ _ _ tasks _ ih =>
    obtain ⟨-, rfl⟩ := tasks
    exact .spawn ⟨fun s => (child s.1).along s.2, rfl, rfl⟩ ih
  | excused excused =>
    have halts := (excused.along count).along (⟨none, some ticket, [], issued⟩ : Gate ρ)
    exact .excused (halts.bind.holding.mono fun _ none => none.2.1)
  | behind late => exact absurd trivial late.1
  | ahead slow => exact absurd trivial slow.1

variable {action : Action σ ρ}

omit [Host σ] [HasFailure ρ] in
theorem awaited_counted_along {κ : Type} (s : σ) (count : Nat) (cell : κ) :
    action.counted.along.awaited ((s, count), cell) =
      ((action.awaited s).along (count + 1)).along cell := by
  rw [Action.awaited_along, Action.awaited_counted]

/-- A run that finds nobody at the gate and nothing behind it. -/
theorem admitted_inStep (blind : action.Blind view.likeness) (unsettled : settled past = none)
    {s t : σ} (within : view.Within s t) (issued : Nat) :
    ((action.counted.along.cachedAlone .own).awaited
        ((s, invocations past), ⟨none, none, [], issued⟩)).InStep
      ((usage view ρ).pace past issued) ((usage view ρ).leaving past issued) (Host.allowance s)
      ((action.counted.along.cached .own).awaited ((t, invocations past), .empty)) := by
  have arrives : (action.counted.along.cachedAlone .own).awaited
      ((s, invocations past), ⟨none, none, [], issued⟩) =
        CachedAlone.paid .own issued
          (fun after => CachedAlone.inside .own issued (action.counted.along.awaited after))
          ((s, invocations past), ⟨none, some issued, [], issued + 1⟩) :=
    CachedAlone.cachedAlone_awaited _ _ _
  have looks : (action.counted.along.cached .own).awaited ((t, invocations past), .empty) =
      (((action.awaited t).along (invocations past + 1)).along .empty).bind
        (Cached.settle .own) := by
    rw [Retry.cached_of_empty, awaited_counted_along]
  rw [arrives.trans (CachedAlone.paid_eq _ _ _ _), looks]
  by_cases affords : 0 < Host.allowance s
  · rw [if_pos (show 0 < Host.allowance ((s, invocations past), _) from affords)]
    have enters : (CachedAlone.inside .own issued (((action.awaited (Host.spend s)).along _).along
        ⟨none, some issued, [], issued + 1⟩)).InStep
          ((usage view ρ).pace past issued) _ (Host.allowance s) _ :=
      inside_inStep unsettled rfl
        (blind.awaited ((), _) _ _ ⟨within.spent, allowance_spend_le s⟩)
    rwa [← awaited_counted_along] at enters
  · rw [if_neg (show ¬0 < Host.allowance ((s, invocations past), _) from affords)]
    exact .excused (Nat.eq_zero_of_not_pos affords)

/-- A run that finds something kept. -/
theorem settled_inStep {kept : ρ} (settles : settled past = some kept)
    {s : (σ × Nat) × Gate ρ} {t : (σ × Nat) × Latch ρ} (left : Left view past s t)
    (ticket bound : Nat) :
    ((action.counted.along.cachedAlone .own).awaited s).InStep ((usage view ρ).pace past ticket)
      ((usage view ρ).leaving past ticket) bound
      ((action.counted.along.cached .own).awaited t) := by
  obtain ⟨state, value, holder, queue, issued⟩ := s
  obtain ⟨other, ⟨held⟩⟩ := t
  obtain rfl : held = some kept := left.kept.trans settles
  obtain rfl : value = some kept := left.stored.trans settles
  have alone : (action.counted.along.cachedAlone .own).awaited
      (state, ⟨some kept, holder, queue, issued⟩) =
        .ready kept (state, ⟨some kept, holder, queue, issued⟩) :=
    CachedAlone.cachedAlone_awaited _ _ _
  rw [alone, Retry.cached_of_set]
  have same : settled (past ++ [.answered kept]) = settled past := by
    rw [settled_concat, settles, Option.some_or]
  have total := invocations_concat_of_some settles (.answered kept)
  refine .ready ⟨rfl, ?_⟩
  exact { left with
    count := left.count.trans total.symm
    counted := left.counted.trans total.symm
    stored := left.stored.trans same.symm
    kept := left.kept.trans same.symm }

theorem lawful (blind : action.Blind view.likeness) :
    (usage view ρ).Lawful (action.counted.along.cachedAlone .own).awaited
      (action.counted.along.cached .own).awaited where
  orderly past ticket := {
    deadline := And.left
    opens := fun waits alike => (waits.2 _ _ alike.1).1
    releases := fun waits alike => (waits.2 _ _ alike.1).2
    tasks := id
    excused := fun none => Nat.not_lt.mpr (Nat.le_of_eq none)
    late := id
    slow := id }
  begins past s t left := by
    cases settles : settled past with
    | some kept => exact ⟨0, 0, settled_inStep settles left 0 0⟩
    | none =>
      obtain ⟨⟨s, m⟩, value, holder, queue, issued⟩ := s
      obtain ⟨⟨t, n⟩, ⟨kept⟩⟩ := t
      obtain ⟨within, rfl, rfl, rfl, rfl, stored, empty⟩ := left
      obtain rfl : value = none := stored.trans settles
      obtain rfl : kept = none := empty.trans settles
      exact ⟨issued, _, admitted_inStep blind settles within issued⟩

theorem turns_outside {turn : σ → σ} (respects : view.Respects turn) :
    (usage view ρ).Turns (outside (outside turn)) (outside (outside turn)) where
  alike past ticket bound s t alike := by
    obtain ⟨inside, -⟩ := alike
    exact ⟨_, { inside with within := respects _ _ inside.within }, Nat.le_refl _⟩
  left past s t left := { left with within := respects _ _ left.within }

section
variable (action : Action σ ρ) (start : σ) (uses : List (List (σ → σ))) (turns : List (σ → σ))

/-- The program of these uses with a gate. -/
def alone : Scene ((σ × Nat) × Gate ρ) ρ :=
  .play (action.counted.along.cachedAlone .own) (.opened ((start, 0), .fresh)) (moves uses turns)

/-- The program of these uses with a latch. -/
def shared : Scene ((σ × Nat) × Latch ρ) ρ :=
  .play (action.counted.along.cached .own) (.opened ((start, 0), .empty)) (moves uses turns)

/-- No run behind the gate stops where nothing is left of the allowance. -/
def Affords : Prop :=
  (Scene.opened ((start, 0), .fresh)).StopsIn (0 < Host.allowance ·)
    (action.counted.along.cachedAlone .own) (moves uses turns)

end

/-- All that is seen of the two programs is the same, each has invoked the action as often as the
runs so far had to, and each keeps the first good result. -/
structure Agree (view : View σ) (alone : Scene ((σ × Nat) × Gate ρ) ρ)
    (shared : Scene ((σ × Nat) × Latch ρ) ρ) : Prop where
  standings : alone.standings = shared.standings
  seen : view.see alone.state.1.1 = view.see shared.state.1.1
  tasks : List.Forall₂ SameTask alone.tasks shared.tasks
  invoked : alone.state.1.2 = invocations alone.runs
  invokedShared : shared.state.1.2 = invocations alone.runs
  stored : alone.state.2.value = settled alone.runs
  kept : shared.state.2.value = settled alone.runs

theorem agree_of_during (blind : action.Blind view.likeness) {before : List (Running _ ρ)}
    {alone : Scene ((σ × Nat) × Gate ρ) ρ} {shared : Scene ((σ × Nat) × Latch ρ) ρ}
    (during : (usage view ρ).During ((usage view ρ).Begun past) past before alone shared) :
    Agree view alone shared := by
  have standings := Usage.During.standings (lawful blind) during.begun
  obtain ⟨⟨run, mate, runs, -, begun⟩, -, tasks⟩ := during
  cases begun with
  | waits alike =>
    obtain ⟨inside, -⟩ := alike
    obtain ⟨issued, gate⟩ := inside.gate
    have unsettled : settled alone.runs = none := by
      rw [runs]
      exact (settled_concat_of_none rfl).trans inside.unsettled
    have total : invocations alone.runs = invocations past + 1 := by
      rw [runs]
      exact invocations_concat_of_none inside.unsettled _
    exact ⟨standings, inside.within.same, tasks, inside.count.trans total.symm,
      inside.counted.trans total.symm, (congrArg Gate.value gate).trans unsettled.symm,
      (congrArg Latch.value inside.latch).trans unsettled.symm⟩
  | done _ left =>
    rw [← runs] at left
    exact ⟨standings, left.within.same, tasks, left.count, left.counted, left.stored, left.kept⟩

end Policies

/-- On uses one after the other nobody can tell the two caches apart, whichever results the action
comes to and wherever its runs are dropped, while those behind the gate do not use up the allowance
of a turn. The action is invoked by each run up to the first one with a good result, and by no run
after that. -/
theorem cachedAlone_agrees [Host σ] [HasFailure ρ] (view : View σ) (action : Action σ ρ)
    (blind : action.Blind view.likeness) (start : σ) (uses : List (List (σ → σ)))
    (turns : List (σ → σ)) (polled : [] ∉ turns :: uses)
    (respects : ∀ moves ∈ turns :: uses, ∀ turn ∈ moves, view.Respects turn)
    (affords : Policies.Affords action start uses turns) :
    Policies.Agree view (Policies.alone action start uses turns)
      (Policies.shared action start uses turns) := by
  have turned : ∀ moves : List (σ → σ), (∀ turn ∈ moves, view.Respects turn) →
      List.Forall₂ (Policies.usage view ρ).Turns (moves.map (outside ∘ outside))
        (moves.map (outside ∘ outside)) := by
    intro moves respects
    rw [List.forall₂_map_left_iff, List.forall₂_map_right_iff, List.forall₂_same]
    exact fun turn member => Policies.turns_outside (respects turn member)
  have every : List.Forall₂ (List.Forall₂ (Policies.usage view ρ).Turns)
      (uses.map (List.map (outside ∘ outside))) (uses.map (List.map (outside ∘ outside))) := by
    rw [List.forall₂_map_left_iff, List.forall₂_map_right_iff, List.forall₂_same]
    exact fun moves member => turned moves (respects moves (.tail _ member))
  have begun : (Policies.usage view ρ).left [] ((start, 0), .fresh) ((start, 0), .empty) :=
    ⟨⟨rfl, Nat.le_refl _⟩, rfl, rfl, rfl, rfl, rfl, rfl⟩
  have unpolled : [] ∉ uses.map (List.map (outside (κ := Gate ρ) ∘ outside (κ := Nat))) := by
    intro empty
    obtain ⟨moves, member, none⟩ := List.mem_map.mp empty
    obtain rfl := List.map_eq_nil_iff.mp none
    exact polled (.tail _ member)
  have begins : turns.map (outside (κ := Gate ρ) ∘ outside (κ := Nat)) ≠ [] := by
    intro none
    obtain rfl := List.map_eq_nil_iff.mp none
    exact polled (.head _)
  obtain ⟨past, before, during⟩ := (Policies.lawful blind).course_begun begun every
    (fun empty => absurd empty unpolled) affords (turned turns (respects turns (.head _))) begins
  exact Policies.agree_of_during blind during

/-! ### A pair of entries -/

namespace Notebook

/-- Everything in the notebook but what is left. -/
def bare (κ : Type) : View (Notebook κ) where
  Seen := Notebook κ
  see book := { book with left := 0 }
  now same := (congrArg time same :)
  record error same := (congrArg (Host.record error) same :)
  trace event same := (congrArg (Host.trace event) same :)
  allow _ _ := rfl

/-- Makes an entry and answers with its position. -/
def enter (entry : Nat) : Future (Notebook (List Nat)) Nat := do
  place.step fun entries => (entries.length, entries ++ [entry])

/-- Makes two entries side by side, the first of them after the given time. -/
def enterBoth (millis : Nat) : Attempt (Notebook (List Nat)) (Nat × Nat) :=
  (Attempt.lift (pure (do Future.sleep millis; enter 1))).join (Attempt.lift (pure (enter 2)))
    (fun _ => pure ()) (fun _ => pure ()) (fun _ _ => pure true) fun a b => pure (a, b)

theorem blind_place (κ : Type) : Place.Blind (bare κ).likeness (place (κ := κ)) := by
  rintro i s t ⟨⟨same, few⟩, bound⟩
  refine ⟨(congrArg cell same :), ?_⟩
  exact fun value => ⟨⟨(congrArg (place.set value) same :), few⟩, bound⟩

theorem calm_enter (entry : Nat) : (enter entry).Calm (bare _).likeness :=
  .step (blind_place _) _

theorem blind_enterBoth (millis : Nat) : (enterBoth millis).Blind (bare _).likeness := by
  have first := (Future.Calm.sleep millis).bind fun _ => calm_enter 1
  have built : Built (.blind (bare (List Nat)).likeness True) (enterBoth millis) :=
    .join trivial (.lift (Manner.gives_pure first.blind))
      (.lift (Manner.gives_pure (calm_enter 2).blind))
      ⟨fun _ => .pure _, fun _ => .pure _, fun _ _ => .pure _, fun _ _ => .pure _⟩
  exact built.blind fun _ => trivial

theorem respects_refill (κ : Type) : (bare κ).Respects Host.refill :=
  fun _ _ within => ⟨within.same, Nat.le_refl _⟩

theorem respects_elapse (κ : Type) (time : Nat) : (bare κ).Respects (Host.elapse time) :=
  fun _ _ within => ⟨(congrArg (fun book : Notebook κ => { book with time }) within.same :),
    within.allowance⟩

end Notebook

/-- Where the allowance is as good as used up, admission by the gate takes what is left of it. The
first entry of an exclusive run is then put off to the next turn, and the second one is made first;
before the latch they are made in their order. -/
theorem cachedAlone_differs :
    let book : Notebook (List Nat) := { Notebook.opened [] with left := 1 }
    let action := Notebook.enterBoth 0
    let turns := [id, Host.refill]
    action.Blind (Notebook.bare _).likeness ∧
      (∀ turn ∈ turns, (Notebook.bare (List Nat)).Respects turn) ∧
      (Policies.alone action book [] turns).standings ≠
        (Policies.shared action book [] turns).standings := by
  refine ⟨Notebook.blind_enterBoth 0, ?_, ?_⟩
  · simp only [List.forall_mem_cons, List.not_mem_nil, false_implies, implies_true, and_true]
    exact ⟨fun _ _ => id, Notebook.respects_refill _⟩
  · intro same
    have answers : [Standing.answered (Verdict.success (1, 0))] = [.answered (.success (0, 1))] :=
      same
    cases answers

theorem Notebook.affords_enterBoth : Policies.Affords (enterBoth 1) (opened [])
    [[id], [id, Host.elapse 1]] [id] := by
  -- The four polls: two of them stop at the wait, the others come to an end.
  refine ⟨trivial, trivial, ?_, trivial, trivial, trivial, ?_, trivial, ?_, trivial, trivial,
    trivial, ?_, trivial⟩
  all_goals rintro _ ⟨⟩ _
  · exact Nat.succ_pos 126
  · exact Nat.succ_pos 125
  · trivial
  · trivial

/-- A run that is dropped where it waits, one that is not, and one that finds what it has left. -/
theorem cachedAlone_agrees_entered :
    Policies.Agree (Notebook.bare _)
      (Policies.alone (Notebook.enterBoth 1) (.opened []) [[id], [id, Host.elapse 1]] [id])
      (Policies.shared (Notebook.enterBoth 1) (.opened []) [[id], [id, Host.elapse 1]] [id]) := by
  have respects : ∀ moves ∈ [[id], [id], [id, Host.elapse 1]], ∀ turn ∈ moves,
      (Notebook.bare (List Nat)).Respects turn := by
    simp only [List.forall_mem_cons, List.not_mem_nil, false_implies, implies_true, and_true]
    exact ⟨fun _ _ => id, fun _ _ => id, fun _ _ => id, Notebook.respects_elapse _ 1⟩
  exact cachedAlone_agrees _ _ (Notebook.blind_enterBoth 1) _ _ _ (by simp) respects
    Notebook.affords_enterBoth

end Deferred
