import Deferred.Proofs.Laws.Pipelines
import Deferred.Proofs.Laws.Widening

/-! Filters. What an attempt does not accept is the failure `bottom`, and what a search does not
accept is absent. The difference goes away where a search is narrowed, so an attempt may as well be
filtered as a search. Two filters in a row are one filter: the second one is asked only about what
the first one has accepted, and each panic is a failure of its own. -/

namespace Deferred

variable {σ α ρ τ υ : Type} {F : Type → Type}

/-- Accepts what both accept. The second is asked about nothing else. -/
def bothAccept (p q : α → Code σ Bool) (a : α) : Code σ Bool := do
  if ← p a then q a else return false

theorem Action.andThen_andThen (action : Action σ ρ) (next : ρ → Future σ τ)
    (last : τ → Future σ υ) :
    (action.andThen next).andThen last = action.andThen fun result => next result >>= last :=
  congrArg lazily (bind_assoc action.awaited next last)

section
variable {p q : α → Code σ Bool} {a : α} {state middle : σ}

theorem bothAccept_of_panic {payload : Payload} (panics : p a state = (.error payload, middle)) :
    bothAccept p q a state = (.error payload, middle) :=
  Code.bind_of_error panics

theorem bothAccept_of_false (rejects : p a state = (.ok false, middle)) :
    bothAccept p q a state = (.ok false, middle) :=
  Code.bind_of_ok rejects

theorem bothAccept_of_true (accepts : p a state = (.ok true, middle)) :
    bothAccept p q a state = q a middle :=
  Code.bind_of_ok accepts

end

/-- What becomes of a value behind two filters. -/
inductive Sifts [Host σ] (kind : Kind σ F) (p q : α → Code σ Bool) (a : α) (state : σ) :
    F α → σ → Prop where
  | firstPanics {payload after} (panics : p a state = (.error payload, after)) :
      Sifts kind p q a state (kind.stop (kind.failed (.panicked payload.reads)))
        (Host.record (.panicked payload.reads) after)
  | firstRejects {last} (rejects : p a state = (.ok false, last)) :
      Sifts kind p q a state (kind.stop kind.rejected) last
  | secondPanics {middle payload after} (accepts : p a state = (.ok true, middle))
      (panics : q a middle = (.error payload, after)) :
      Sifts kind p q a state (kind.stop (kind.failed (.panicked payload.reads)))
        (Host.record (.panicked payload.reads) after)
  | secondRejects {middle last} (accepts : p a state = (.ok true, middle))
      (rejects : q a middle = (.ok false, last)) :
      Sifts kind p q a state (kind.stop kind.rejected) last
  | bothAccept {middle last} (accepts : p a state = (.ok true, middle))
      (follows : q a middle = (.ok true, last)) : Sifts kind p q a state (kind.value a) last

namespace Kind

variable [Host σ] {kind : Kind σ F} {p q : α → Code σ Bool}

/-- Sifting what has been sifted is sifting once. -/
theorem sift_sift (p q : α → Code σ Bool) (a : α) :
    (kind.sift p a >>= fun kept => kind.follow kept (kind.sift q)) =
      kind.sift (bothAccept p q) a := by
  unfold sift bothAccept
  rw [Future.caught_bind, bind_assoc, bind_assoc]
  refine bind_congr (x := Future.caught (p a)) fun answer => ?_
  rcases answer with panic | _ | _
  · exact kind.follow_failure panic _
  · exact kind.follow_stop kind.rejected _
  · exact kind.follow_value a _

/-- The filters of a kind keep a value if it is accepted. -/
def Filters (kind : Kind σ F)
    (filter : ∀ {α : Type}, Action σ (F α) → (α → Code σ Bool) → Action σ (F α)) : Prop :=
  ∀ {α : Type} (action : Action σ (F α)) (accepts : α → Code σ Bool),
    filter action accepts = action.andThen fun result => kind.follow result (kind.sift accepts)

theorem sift_bothAccept_answers_iff {a : α} {state last : σ} {inputs : List σ} {result : F α} :
    (kind.sift (bothAccept p q) a state).Answers inputs result last ↔
      inputs = [] ∧ Sifts kind p q a state result last := by
  refine sift_answers_iff.trans ⟨fun runs => ?_, ?_⟩
  · rcases asked : p a state with ⟨payload | _ | _, middle⟩
    · cases runs with
      | panicked raises =>
        cases (bothAccept_of_panic asked).symm.trans raises
        exact ⟨rfl, .firstPanics asked⟩
      | accepted calls => cases (bothAccept_of_panic asked).symm.trans calls
      | rejected calls => cases (bothAccept_of_panic asked).symm.trans calls
    · cases runs with
      | panicked raises => cases (bothAccept_of_false asked).symm.trans raises
      | accepted calls => cases (bothAccept_of_false asked).symm.trans calls
      | rejected calls =>
        cases (bothAccept_of_false asked).symm.trans calls
        exact ⟨rfl, .firstRejects asked⟩
    · cases runs with
      | panicked raises =>
        exact ⟨rfl, .secondPanics asked ((bothAccept_of_true asked).symm.trans raises)⟩
      | accepted calls =>
        exact ⟨rfl, .bothAccept asked ((bothAccept_of_true asked).symm.trans calls)⟩
      | rejected calls =>
        exact ⟨rfl, .secondRejects asked ((bothAccept_of_true asked).symm.trans calls)⟩
  · rintro ⟨rfl, panics | rejects | ⟨accepts, panics⟩ | ⟨accepts, rejects⟩ | ⟨accepts, follows⟩⟩
    · exact .panicked (bothAccept_of_panic panics)
    · exact .rejected (bothAccept_of_false rejects)
    · exact .panicked ((bothAccept_of_true accepts).trans panics)
    · exact .rejected ((bothAccept_of_true accepts).trans rejects)
    · exact .accepted ((bothAccept_of_true accepts).trans follows)

end Kind

/-- Two filters in a row. They are one filter, whose complete runs hand on a result without a value
as it is and sift a value. -/
structure Fusing [Host σ] (kind : Kind σ F)
    (filter : ∀ {α : Type}, Action σ (F α) → (α → Code σ Bool) → Action σ (F α)) : Prop where
  fuse : ∀ {α : Type} (action : Action σ (F α)) (p q : α → Code σ Bool),
    filter (filter action p) q = filter action (bothAccept p q)
  answers : ∀ {α : Type} (action : Action σ (F α)) (p q : α → Code σ Bool) (state : σ)
    (inputs : List σ) (result : F α) (last : σ),
    ((filter (filter action p) q).awaited state).Answers inputs result last ↔
      (∃ reason, (action.awaited state).Answers inputs (kind.stop reason) last ∧
        result = kind.stop reason) ∨
      ∃ a middle, (action.awaited state).Answers inputs (kind.value a) middle ∧
        Sifts kind p q a middle result last

section
variable [Host σ]

theorem Kind.Filters.fuse {kind : Kind σ F}
    {filter : ∀ {α : Type}, Action σ (F α) → (α → Code σ Bool) → Action σ (F α)}
    (filters : kind.Filters filter) (action : Action σ (F α)) (p q : α → Code σ Bool) :
    filter (filter action p) q = filter action (bothAccept p q) := by
  calc
    _ = (filter action p).andThen fun kept => kind.follow kept (kind.sift q) := filters _ q
    _ = (action.andThen fun result => kind.follow result (kind.sift p)).andThen
        fun kept => kind.follow kept (kind.sift q) := congrArg (Action.andThen · _) (filters _ p)
    _ = action.andThen fun result => kind.follow result (kind.sift (bothAccept p q)) := by
      refine (Action.andThen_andThen _ _ _).trans ?_
      refine congrArg action.andThen (funext fun result => ?_)
      rw [kind.follow_assoc]
      exact congrArg (kind.follow result) (funext fun a => sift_sift p q a)
    _ = _ := (filters action (bothAccept p q)).symm

theorem Kind.Filters.fusing {kind : Kind σ F}
    {filter : ∀ {α : Type}, Action σ (F α) → (α → Code σ Bool) → Action σ (F α)}
    (filters : kind.Filters filter) : Fusing kind filter where
  fuse := filters.fuse
  answers action p q state inputs result last := by
    have awaited : (filter (filter action p) q).awaited = action.awaited >>= fun result =>
        kind.follow result (kind.sift (bothAccept p q)) :=
      congrArg Action.awaited ((filters.fuse action p q).trans (filters action _))
    rw [awaited]
    refine (kind.bind_answers_iff fun reason => kind.follow_stop reason _).trans
      (or_congr_right ⟨?_, ?_⟩)
    · rintro ⟨first, later, a, middle, rfl, runs, goesOn⟩
      rw [kind.follow_value] at goesOn
      obtain ⟨rfl, sifts⟩ := sift_bothAccept_answers_iff.mp goesOn
      rw [List.append_nil]
      exact ⟨a, middle, runs, sifts⟩
    · rintro ⟨a, middle, runs, sifts⟩
      refine ⟨inputs, [], a, middle, (List.append_nil _).symm, runs, ?_⟩
      rw [kind.follow_value]
      exact sift_bothAccept_answers_iff.mpr ⟨rfl, sifts⟩

/-- Filtering an attempt as a search, and asking for a value in the end. -/
theorem Attempt.narrow_filter_widen (attempt : Attempt σ α) (accepts : α → Code σ Bool) :
    (attempt.widen.filter accepts).narrow = attempt.filter accepts := by
  rw [filter_eq, Search.filter_eq, widen_andThen]
  refine (Action.andThen_andThen _ _ _).trans ?_
  refine congrArg attempt.andThen (funext fun verdict => ?_)
  cases verdict with
  | failure error => rfl
  | success a =>
    show Future.caught (accepts a) >>= _ >>= _ = Future.caught (accepts a) >>= _
    rw [bind_assoc]
    refine bind_congr (x := Future.caught (accepts a)) fun answer => ?_
    rcases answer with panic | _ | _ <;> rfl

/-- The filters of attempts and searches agree up to narrowing, and both of them fuse. -/
theorem filters_agree_and_fuse :
    (∀ {α : Type} (attempt : Attempt σ α) (accepts : α → Code σ Bool),
      (attempt.widen.filter accepts).narrow = attempt.filter accepts) ∧
      Fusing (σ := σ) Verdict.kind Attempt.filter ∧ Fusing (σ := σ) Finding.kind Search.filter :=
  ⟨Attempt.narrow_filter_widen, Kind.Filters.fusing Attempt.filter_eq,
    Kind.Filters.fusing Search.filter_eq⟩

end

end Deferred
