import Deferred.Proofs.Cache.Invocation
import Deferred.Proofs.Cache.Line
import Deferred.Proofs.Cache.Session

/-! Any number of runs of an action behind a gate. Each access to the gate is a step of its own, and
so is each turn of an invocation, so that other runs may come in between. Who is in the line at the
gate is a live run, and only the run that has the way is inside. -/

namespace Deferred.CachedAlone

variable {σ ρ : Type}

/-- Where a run stands. A run that was called may have to wait for its turn, as may one that was
let in. -/
inductive Stage (σ ρ : Type) where
  | fresh
  | waits (ticket : Nat)
  | called (ticket : Nat)
  | admitted (ticket : Nat)
  | invokes (ticket : Nat) (poll : Poll σ ρ)
  | settles (ticket : Nat) (result : ρ)
  | answered (result : ρ)
  | panicked
  | dropped

namespace Stage

/-- The ticket of a run that has arrived at the gate and not left it. -/
def ticket? : Stage σ ρ → Option Nat
  | waits ticket => some ticket
  | called ticket => some ticket
  | admitted ticket => some ticket
  | invokes ticket _ => some ticket
  | settles ticket _ => some ticket
  | _ => none

/-- The ticket of a run that has been let in. -/
def inside? : Stage σ ρ → Option Nat
  | admitted ticket => some ticket
  | invokes ticket _ => some ticket
  | settles ticket _ => some ticket
  | _ => none

theorem ticket_of_inside (stage : Stage σ ρ) {ticket : Nat}
    (inside : stage.inside? = some ticket) : stage.ticket? = some ticket := by
  cases stage with
  | admitted | invokes | settles => exact inside
  | fresh | waits | called | answered | panicked | dropped => cases inside

def isInvoking : Stage σ ρ → Bool
  | invokes _ _ => true
  | settles _ _ => true
  | _ => false

/-- Whether the run has not invoked the action yet. -/
def isBefore : Stage σ ρ → Bool
  | fresh => true
  | waits _ => true
  | called _ => true
  | admitted _ => true
  | _ => false

/-- Whether the run is at a point between two polls. -/
def mayDrop : Stage σ ρ → Bool
  | fresh => true
  | waits _ => true
  | called _ => true
  | admitted _ => true
  | invokes _ poll => poll.isWaiting
  | _ => false

/-- What is left of the gate when the run is dropped. -/
def depart (stage : Stage σ ρ) (gate : Gate ρ) : Gate ρ :=
  match stage.ticket? with
  | some ticket => gate.leave ticket
  | none => gate

end Stage

/-- A run, with the number of its invocations and the result of the last one. -/
structure Visit (σ ρ : Type) where
  stage : Stage σ ρ
  invocations : Nat
  own : Option ρ

def Visit.fresh : Visit σ ρ := ⟨.fresh, 0, none⟩

/-- One step of a run, and what it does to the gate. -/
inductive Visit.Step [HasFailure ρ] (action : Action σ ρ) :
    Visit σ ρ → Gate ρ → Visit σ ρ → Gate ρ → Prop where
  | settled {count own gate kept rest} (arrived : gate.arrive = (.settled kept, rest)) :
      Step action ⟨.fresh, count, own⟩ gate ⟨.answered kept, count, own⟩ rest
  | admitted {count own gate ticket rest} (arrived : gate.arrive = (.admitted ticket, rest)) :
      Step action ⟨.fresh, count, own⟩ gate ⟨.admitted ticket, count, own⟩ rest
  | queued {count own gate ticket rest} (arrived : gate.arrive = (.queued ticket, rest)) :
      Step action ⟨.fresh, count, own⟩ gate ⟨.waits ticket, count, own⟩ rest
  | call {ticket count own gate} (calls : gate.calls ticket = true) :
      Step action ⟨.waits ticket, count, own⟩ gate ⟨.called ticket, count, own⟩ gate
  | take {ticket count own gate kept} (held : gate.value = some kept) :
      Step action ⟨.called ticket, count, own⟩ gate ⟨.answered kept, count, own⟩ gate
  | enter {ticket count own gate} (empty : gate.value = none) :
      Step action ⟨.called ticket, count, own⟩ gate ⟨.admitted ticket, count, own⟩ gate
  | invoke {ticket count own gate} (state : σ) :
      Step action ⟨.admitted ticket, count, own⟩ gate
        ⟨.invokes ticket (action.awaited state), count + 1, own⟩ gate
  | goOn {ticket poll next count own gate} (goes : poll.GoesOn next) :
      Step action ⟨.invokes ticket poll, count, own⟩ gate ⟨.invokes ticket next, count, own⟩ gate
  | complete {ticket result state count own gate} :
      Step action ⟨.invokes ticket (.ready result state), count, own⟩ gate
        ⟨.settles ticket result, count, some result⟩ gate
  | panic {ticket payload state count own gate} :
      Step action ⟨.invokes ticket (.panic payload state), count, own⟩ gate
        ⟨.panicked, count, own⟩ (gate.leave ticket)
  | fail {ticket result count own gate} (failed : HasFailure.isFailure result = true) :
      Step action ⟨.settles ticket result, count, own⟩ gate ⟨.answered result, count, own⟩
        (gate.leave ticket)
  | store {ticket result count own gate} (good : HasFailure.isFailure result = false) :
      Step action ⟨.settles ticket result, count, own⟩ gate ⟨.answered result, count, own⟩
        (gate.store result)
  | drop {stage count own gate} (may : stage.mayDrop = true) :
      Step action ⟨stage, count, own⟩ gate ⟨.dropped, count, own⟩ (stage.depart gate)

/-- The gate and all runs that were ever called. -/
abbrev Session (σ ρ : Type) : Type := Deferred.Session (Gate ρ) (Visit σ ρ)

def Session.initial : Session σ ρ := ⟨.fresh, []⟩

abbrev Step [HasFailure ρ] (action : Action σ ρ) : Session σ ρ → Session σ ρ → Prop :=
  Deferred.Session.Step .fresh (Visit.Step action)

abbrev Steps [HasFailure ρ] (action : Action σ ρ) : Session σ ρ → Session σ ρ → Prop :=
  Deferred.Session.Steps .fresh (Visit.Step action)

variable {session next later : Session σ ρ}

/-! ### The line -/

/-- A run that is inside has the way, and so has one that was called while there is no value. -/
structure Visit.Placed (gate : Gate ρ) (visit : Visit σ ρ) : Prop where
  inside : ∀ ticket, visit.stage.inside? = some ticket → gate.holder = some ticket
  called : ∀ ticket, visit.stage = .called ticket → gate.value = none →
    gate.holder = some ticket

structure Session.Lined (session : Session σ ρ) : Prop where
  gate : session.cell.Lined
  placed : ∀ visit ∈ session.visits, visit.Placed session.cell
  bound : ∀ visit ∈ session.visits, ∀ ticket, visit.stage.ticket? = some ticket →
    ticket < session.cell.issued
  apart : ∀ (first second : Nat) (one other : Visit σ ρ) (ticket : Nat),
    session.visits[first]? = some one → session.visits[second]? = some other →
      one.stage.ticket? = some ticket → other.stage.ticket? = some ticket → first = second
  line : session.cell.value = none → ∀ ticket,
    ticket ∈ session.cell.line ↔ ∃ visit ∈ session.visits, visit.stage.ticket? = some ticket

/-- A run that has been called just now has no ticket. -/
theorem getElem?_of_call {visits : List (Visit σ ρ)} {index : Nat} {visit : Visit σ ρ}
    {ticket : Nat} (found : (visits ++ [Visit.fresh])[index]? = some visit)
    (holds : visit.stage.ticket? = some ticket) : visits[index]? = some visit := by
  rcases getElem?_concat_eq_some found with old | ⟨-, rfl⟩
  · exact old
  · cases holds

theorem Session.Lined.call (lined : session.Lined) :
    Session.Lined { session with visits := session.visits ++ [.fresh] } where
  gate := lined.gate
  placed visit member := by
    rcases List.mem_append.mp member with old | new
    · exact lined.placed visit old
    · rw [List.mem_singleton.mp new]
      exact ⟨nofun, nofun⟩
  bound visit member := by
    rcases List.mem_append.mp member with old | new
    · exact lined.bound visit old
    · rw [List.mem_singleton.mp new]
      exact nofun
  apart first second one other ticket here there mine yours :=
    lined.apart first second one other ticket (getElem?_of_call here mine)
      (getElem?_of_call there yours) mine yours
  line empty ticket := by
    rw [lined.line empty]
    simp [Visit.fresh, Stage.ticket?, or_and_right, exists_or]

/-- The way belongs to the live run that has waited longest. -/
theorem Session.Lined.holder_live (lined : session.Lined) {ticket : Nat}
    (holds : session.cell.holder = some ticket) :
    (∃ visit ∈ session.visits, visit.stage.ticket? = some ticket) ∧
      ∀ visit ∈ session.visits, ∀ other, visit.stage.ticket? = some other → ticket ≤ other := by
  have line := lined.line (lined.gate.value_of_holder holds)
  refine ⟨(line ticket).mp ?_, fun visit member other mine => ?_⟩
  · rw [Gate.line, holds]
    exact List.mem_cons_self
  · exact lined.gate.holder_le holds ((line other).mpr ⟨visit, member, mine⟩)

/-- Nobody waits for a way that is free. -/
theorem Session.Lined.free (lined : session.Lined) (empty : session.cell.value = none)
    (free : session.cell.holder = none) :
    ∀ visit ∈ session.visits, visit.stage.ticket? = none := by
  intro visit member
  cases mine : visit.stage.ticket? with
  | none => rfl
  | some ticket =>
    have held := (lined.line empty ticket).mpr ⟨visit, member, mine⟩
    rw [Gate.line, free, lined.gate.manned free] at held
    cases held

variable [HasFailure ρ] {action : Action σ ρ}

/-! ### The gate -/

/-- What a step of a run has to do with the line. -/
inductive Crossing (visit after : Visit σ ρ) (gate : Gate ρ) : Gate ρ → Prop where
  | stays (same : after.stage.ticket? = visit.stage.ticket?) : Crossing visit after gate gate
  | joins {rest} (joined : gate.Joined rest) (before : visit.stage.ticket? = none)
      (ticket : after.stage.ticket? = some gate.issued) : Crossing visit after gate rest
  | leaves {ticket} (before : visit.stage.ticket? = some ticket)
      (gone : after.stage.ticket? = none) : Crossing visit after gate (gate.leave ticket)
  | takes (filled : gate.value ≠ none) (gone : after.stage.ticket? = none) :
      Crossing visit after gate gate
  | stores {ticket result} (before : visit.stage = .settles ticket result)
      (good : HasFailure.isFailure result = false)
      (answered : after = { visit with stage := .answered result }) :
      Crossing visit after gate (gate.store result)

theorem Visit.Step.crossing {visit after : Visit σ ρ} {gate rest : Gate ρ} (lined : gate.Lined)
    (step : Visit.Step action visit gate after rest) : Crossing visit after gate rest := by
  cases step with
  | settled arrived =>
    obtain ⟨-, rfl⟩ := Gate.eq_of_settled arrived
    exact .stays rfl
  | admitted arrived =>
    obtain ⟨rfl, joined, -⟩ := Gate.joined_of_admitted lined arrived
    exact .joins joined rfl rfl
  | queued arrived =>
    obtain ⟨rfl, joined⟩ := Gate.joined_of_queued arrived
    exact .joins joined rfl rfl
  | take held => exact .takes (by rw [held]; exact Option.some_ne_none _) rfl
  | call | enter | invoke | goOn | complete => exact .stays rfl
  | panic | fail => exact .leaves rfl rfl
  | store good => exact .stores rfl good rfl
  | @drop stage =>
    unfold Stage.depart
    split
    · next ticket holds => exact .leaves holds rfl
    · next none => exact .stays none.symm

theorem Crossing.issued_le {visit after : Visit σ ρ} {gate rest : Gate ρ}
    (crossing : Crossing visit after gate rest) : gate.issued ≤ rest.issued := by
  cases crossing with
  | joins joined => exact joined.issued ▸ Nat.le_succ _
  | leaves => exact Nat.le_of_eq (Gate.issued_leave gate _).symm
  | stays | takes | stores => exact Nat.le_refl _

/-- A run keeps its ticket, or gets one that is new. -/
theorem Crossing.ticket {visit after : Visit σ ρ} {gate rest : Gate ρ} {ticket : Nat}
    (crossing : Crossing visit after gate rest) (holds : after.stage.ticket? = some ticket) :
    visit.stage.ticket? = some ticket ∨ ticket = gate.issued ∧ ticket < rest.issued := by
  cases crossing with
  | stays same => exact .inl (same ▸ holds)
  | joins joined before new =>
    obtain rfl := Option.some.inj (new.symm.trans holds)
    exact .inr ⟨rfl, joined.issued ▸ Nat.lt_succ_self _⟩
  | leaves before gone | takes filled gone =>
    rw [gone] at holds
    cases holds
  | stores before good answered =>
    rw [answered] at holds
    cases holds

theorem Crossing.lined {visit after : Visit σ ρ} {gate rest : Gate ρ}
    (crossing : Crossing visit after gate rest) (lined : gate.Lined) : rest.Lined := by
  cases crossing with
  | stays | takes => exact lined
  | joins joined => exact lined.join joined
  | leaves => exact lined.leave _
  | stores => exact .store _

theorem Visit.Step.placed {visit after : Visit σ ρ} {gate rest : Gate ρ} (lined : gate.Lined)
    (step : Visit.Step action visit gate after rest) (before : visit.Placed gate) :
    after.Placed rest := by
  cases step with
  | admitted arrived =>
    refine ⟨?_, nofun⟩
    intro ticket same
    cases same
    exact (Gate.joined_of_admitted lined arrived).2.2
  | call calls =>
    refine ⟨nofun, ?_⟩
    intro ticket same empty
    cases same
    simpa [Gate.calls, empty] using calls
  | enter empty =>
    refine ⟨?_, nofun⟩
    intro ticket same
    cases same
    exact before.called _ rfl empty
  | invoke | goOn | complete => exact ⟨before.inside, nofun⟩
  | settled | queued | take | panic | fail | store | drop => exact ⟨nofun, nofun⟩

/-- What a run does at the gate leaves those with another ticket where they are. -/
theorem Crossing.placed {visit after other : Visit σ ρ} {gate rest : Gate ρ}
    (crossing : Crossing visit after gate rest) (stepping : visit.Placed gate)
    (apart : ∀ ticket, visit.stage.ticket? = some ticket → other.stage.ticket? ≠ some ticket)
    (before : other.Placed gate) : other.Placed rest := by
  cases crossing with
  | stays | takes => exact before
  | joins joined =>
    refine ⟨fun ticket inside => joined.holder ticket (before.inside ticket inside), ?_⟩
    exact fun ticket called _ => joined.holder ticket (before.called ticket called joined.value.1)
  | @leaves gone holds =>
    have differs : ∀ ticket, other.stage.ticket? = some ticket → ticket ≠ gone := by
      rintro ticket mine rfl
      exact apart ticket holds mine
    refine ⟨fun ticket inside => ?_, fun ticket called empty => ?_⟩
    · have holder := before.inside ticket inside
      rw [Gate.holder_leave_of_ne, holder]
      rw [holder]
      exact fun same => differs ticket (other.stage.ticket_of_inside inside) (Option.some.inj same)
    · rw [Gate.value_leave] at empty
      have holder := before.called ticket called empty
      rw [Gate.holder_leave_of_ne, holder]
      rw [holder]
      exact fun same => differs ticket (by rw [called]; rfl) (Option.some.inj same)
  | @stores ticket _ settles =>
    refine ⟨fun mine inside => ?_, fun _ _ => nofun⟩
    have holder := stepping.inside ticket (by rw [settles]; rfl)
    obtain rfl := Option.some.inj (holder.symm.trans (before.inside mine inside))
    exact absurd (other.stage.ticket_of_inside inside) (apart _ (by rw [settles]; rfl))

theorem Session.Lined.line_visit (lined : session.Lined) {index : Nat} {visit after : Visit σ ρ}
    {gate : Gate ρ} (here : session.visits[index]? = some visit)
    (crossing : Crossing visit after session.cell gate) (empty : gate.value = none)
    (ticket : Nat) : ticket ∈ gate.line ↔
      ∃ entry ∈ session.visits.set index after, entry.stage.ticket? = some ticket := by
  rw [exists_mem_set_iff here after]
  have before (empty : session.cell.value = none) := (lined.line empty ticket).trans
    (exists_mem_iff here fun entry => entry.stage.ticket? = some ticket)
  cases crossing with
  | stays same => rw [same]; exact before empty
  | joins joined none own =>
    rw [joined.line, List.mem_append, before joined.value.1, List.mem_singleton, none, own]
    simp [or_comm, eq_comm]
  | @leaves gone holds none =>
    rw [Gate.value_leave] at empty
    rw [lined.gate.line_leave, List.mem_filter, before empty, holds, none]
    refine ⟨?_, ?_⟩
    · rintro ⟨same | others, apart⟩
      · exact absurd (Option.some.inj same).symm (of_decide_eq_true apart)
      · exact .inr others
    · rintro (same | others)
      · cases same
      · refine ⟨.inr others, decide_eq_true ?_⟩
        rintro rfl
        obtain ⟨place, entry, apart, there, mine⟩ := others
        exact apart (lined.apart index place visit entry ticket here there holds mine)
  | takes filled => exact absurd empty filled
  | stores => cases empty

theorem Session.Lined.visit (lined : session.Lined) {index : Nat} {visit after : Visit σ ρ}
    {gate : Gate ρ} (here : session.visits[index]? = some visit)
    (step : Visit.Step action visit session.cell after gate) :
    Session.Lined ⟨gate, session.visits.set index after⟩ := by
  have crossing := step.crossing lined.gate
  have member := List.mem_of_getElem? here
  have placed := lined.placed visit member
  -- Nobody else has the ticket that the run has after its step.
  have alone : ∀ place other ticket, index ≠ place → session.visits[place]? = some other →
      after.stage.ticket? = some ticket → other.stage.ticket? ≠ some ticket := by
    intro place other ticket apart there mine yours
    rcases crossing.ticket mine with old | ⟨rfl, -⟩
    · exact apart (lined.apart index place visit other ticket here there old yours)
    · exact Nat.lt_irrefl _ (lined.bound other (List.mem_of_getElem? there) _ yours)
  refine ⟨crossing.lined lined.gate, ?_, ?_, ?_, fun empty => lined.line_visit here crossing empty⟩
  · intro other held
    obtain ⟨place, there⟩ := List.mem_iff_getElem?.mp held
    rcases getElem?_set_eq_some there with ⟨-, rfl⟩ | ⟨apart, there⟩
    · exact step.placed lined.gate placed
    · refine crossing.placed placed (fun ticket mine yours => ?_)
        (lined.placed other (List.mem_of_getElem? there))
      exact apart (lined.apart index place visit other ticket here there mine yours)
  · intro other held ticket mine
    rcases List.mem_or_eq_of_mem_set held with old | rfl
    · exact Nat.lt_of_lt_of_le (lined.bound other old ticket mine) crossing.issued_le
    · rcases crossing.ticket mine with old | ⟨-, new⟩
      · exact Nat.lt_of_lt_of_le (lined.bound visit member ticket old) crossing.issued_le
      · exact new
  · intro first second one other ticket found there mine yours
    rcases getElem?_set_eq_some found with ⟨rfl, rfl⟩ | ⟨left, old⟩ <;>
      rcases getElem?_set_eq_some there with ⟨rfl, rfl⟩ | ⟨right, same⟩
    · rfl
    · exact absurd yours (alone second other ticket right same mine)
    · exact absurd mine (alone first one ticket left old yours)
    · exact lined.apart first second one other ticket old same mine yours

theorem Step.lined (step : Step action session next) (lined : session.Lined) : next.Lined := by
  cases step with
  | call => exact lined.call
  | visit here step => exact lined.visit here step

theorem Steps.lined (steps : Steps action .initial session) : session.Lined := by
  induction steps with
  | refl => exact ⟨Gate.lined_fresh, nofun, nofun, nofun, fun _ _ => ⟨nofun, nofun⟩⟩
  | tail _ step ih => exact Step.lined step ih

end Deferred.CachedAlone
