import Mathlib.Data.List.Forall2
import Mathlib.Data.List.ReduceOption
import Deferred.Feed
import Deferred.Proofs.Answers
import Deferred.Proofs.Boundary.Futures

/-! Feeds as lists of passages. What an item of a source comes to, after all stages that it has to
pass, is the answer of a future: the item that comes out, or none. A feed made of such passages has
them one after the other, and gathering it is nothing but to await them in this order and to keep
the items. A stage behind the feed is one more stage for each of its passages. -/

namespace Deferred

variable {σ α β γ : Type}

/-- The way of one item through the stages of a feed. -/
abbrev Passage (σ α : Type) : Type := Future σ (Option α)

namespace Passage

/-- Nothing to pass yet. -/
def item (value : α) : Passage σ α :=
  fun state => .ready (some value) state

/-- The value of the future, if it succeeds. -/
def success (future : Future σ (Verdict α)) : Passage σ α :=
  fun state => (future state).map Verdict.toOption

/-- One more stage: code is called with the item, and its result says what comes out. -/
def stage (code : α → Code σ γ) (keep : α → γ → Option β) (passage : Passage σ α) :
    Future σ (Option β) := do
  match ← passage with
  | some value => return keep value (← (code value : Future σ γ))
  | none => return none

def map (f : α → Code σ β) : Passage σ α → Passage σ β :=
  stage f fun _ mapped => some mapped

def filter (accepts : α → Code σ Bool) : Passage σ α → Passage σ α :=
  stage accepts fun value accepted => if accepted then some value else none

end Passage

/-- One passage after the other. -/
def Flow.ofPassages : List (Passage σ α) → Flow σ α
  | [] => empty
  | passage :: later => fun state => .ofPoll (passage state) fun
      | some value => fun after => .item value (ofPassages later) id after
      | none => ofPassages later

/-! ### Adaptors -/

namespace Items

theorem ofPoll_bind (poll : Poll σ α) (next : α → σ → Poll σ β) (last : β → σ → Items σ γ) :
    ofPoll (poll.bind next) last =
      ofPoll poll fun value state => ofPoll (next value state) last := by
  induction poll with
  | ready | panic => rfl
  | waiting wait resume state ih => exact congrArg (waiting wait · state) (funext ih)
  | spawn child rest state ih => exact congrArg (spawn child · state) (funext ih)

/-- An adaptor that only looks at items and at the end. -/
theorem adapt_ofPoll {adapt : Items σ β → Items σ γ}
    (panics : ∀ payload release state,
      adapt (panic payload release state) = panic payload release state)
    (waits : ∀ wait resume state,
      adapt (waiting wait resume state) = waiting wait (fun s => adapt (resume s)) state)
    (spawns : ∀ child rest state,
      adapt (spawn child rest state) = spawn child (fun s => adapt (rest s)) state)
    (poll : Poll σ α) (next : α → σ → Items σ β) :
    adapt (ofPoll poll next) = ofPoll poll fun value state => adapt (next value state) := by
  induction poll with
  | ready => rfl
  | panic payload state => exact panics payload id state
  | waiting wait resume state ih =>
    exact (waits wait _ state).trans (congrArg (waiting wait · state) (funext ih))
  | spawn child rest state ih =>
    exact (spawns child _ state).trans (congrArg (spawn child · state) (funext ih))

theorem map_ofPoll (f : β → Code σ γ) (poll : Poll σ α) (next : α → σ → Items σ β) :
    (ofPoll poll next).map f = ofPoll poll fun value state => (next value state).map f :=
  adapt_ofPoll (fun _ _ _ => rfl) (fun _ _ _ => rfl) (fun _ _ _ => rfl) poll next

theorem filter_ofPoll (accepts : β → Code σ Bool) (poll : Poll σ α) (next : α → σ → Items σ β) :
    (ofPoll poll next).filter accepts =
      ofPoll poll fun value state => (next value state).filter accepts :=
  adapt_ofPoll (fun _ _ _ => rfl) (fun _ _ _ => rfl) (fun _ _ _ => rfl) poll next

theorem append_ofPoll (second : Flow σ β) (poll : Poll σ α) (next : α → σ → Items σ β) :
    (ofPoll poll next).append second =
      ofPoll poll fun value state => (next value state).append second :=
  adapt_ofPoll (fun _ _ _ => rfl) (fun _ _ _ => rfl) (fun _ _ _ => rfl) poll next

theorem gather_ofPoll (poll : Poll σ α) (next : α → σ → Items σ β) :
    (ofPoll poll next).gather = poll.bind fun value state => (next value state).gather := by
  induction poll with
  | ready | panic => rfl
  | waiting wait resume state ih => exact congrArg (Poll.waiting wait · state) (funext ih)
  | spawn child rest state ih => exact congrArg (Poll.spawn child · state) (funext ih)

end Items

namespace Flow

theorem ofPassages_items (values : List α) :
    ofPassages (values.map Passage.item) = (ofList values : Flow σ α) := by
  induction values with
  | nil => rfl
  | cons value values ih =>
    funext state
    show Items.item value (ofPassages _) id state = .item value (ofList values) id state
    rw [ih]

theorem map_ofPassages (f : α → Code σ β) (passages : List (Passage σ α)) (state : σ) :
    (ofPassages passages state).map f = ofPassages (passages.map (·.map f)) state := by
  induction passages generalizing state with
  | nil => rfl
  | cons passage later ih =>
    refine (Items.map_ofPoll f _ _).trans (Eq.trans ?_ (Items.ofPoll_bind _ _ _).symm)
    refine congrArg (Items.ofPoll (passage state)) (funext fun item => funext fun after => ?_)
    cases item with
    | none => exact ih after
    | some value =>
      show Items.map f (.item value (ofPassages later) id after) =
        Items.ofPoll ((Future.ofCode (f value) after).bind _) _
      -- nothing is held by the item, so that a panic here is that of the passage
      unfold Items.map Future.ofCode
      rcases f value after with ⟨payload | mapped, last⟩
      · rfl
      · exact congrArg (Items.item mapped · id last) (funext ih)

theorem filter_ofPassages (accepts : α → Code σ Bool) (passages : List (Passage σ α)) (state : σ) :
    (ofPassages passages state).filter accepts =
      ofPassages (passages.map (·.filter accepts)) state := by
  induction passages generalizing state with
  | nil => rfl
  | cons passage later ih =>
    refine (Items.filter_ofPoll accepts _ _).trans (Eq.trans ?_ (Items.ofPoll_bind _ _ _).symm)
    refine congrArg (Items.ofPoll (passage state)) (funext fun item => funext fun after => ?_)
    cases item with
    | none => exact ih after
    | some value =>
      show Items.filter accepts (.item value (ofPassages later) id after) =
        Items.ofPoll ((Future.ofCode (accepts value) after).bind _) _
      unfold Items.filter Future.ofCode
      rcases accepts value after with ⟨payload | accepted, last⟩
      · rfl
      · cases accepted with
        | true => exact congrArg (Items.item value · id last) (funext ih)
        | false => exact ih last

theorem append_ofPassages (first second : List (Passage σ α)) (state : σ) :
    (ofPassages first state).append (ofPassages second) = ofPassages (first ++ second) state := by
  induction first generalizing state with
  | nil => rfl
  | cons passage later ih =>
    refine (Items.append_ofPoll (ofPassages second) _ _).trans ?_
    refine congrArg (Items.ofPoll (passage state)) (funext fun item => funext fun after => ?_)
    cases item with
    | none => exact ih after
    | some value => exact congrArg (Items.item value · id after) (funext ih)

theorem gather_ofPassages (passages : List (Passage σ α)) (state : σ) :
    (ofPassages passages state).gather = (passages.filterMapM id : Future σ (List α)) state := by
  induction passages generalizing state with
  | nil => rfl
  | cons passage later ih =>
    rw [List.filterMapM_cons]
    refine (Items.gather_ofPoll _ _).trans ?_
    refine congrArg (Poll.bind (passage state)) (funext fun item => funext fun after => ?_)
    cases item with
    | none => exact ih after
    | some value =>
      refine (Items.gather_item value (ofPassages later) id after).trans ?_
      rw [ih]
      rfl

end Flow

/-! ### Complete runs -/

section
variable {passages : List (Passage σ α)} {state last : σ} {inputs : List σ}

/-- All passages in turn, and the items that have come out. -/
theorem filterMapM_answers_iff {values : List α} :
    ((passages.filterMapM id : Future σ (List α)) state).Answers inputs values last ↔
      ∃ items, Poll.InTurn passages state inputs items last ∧ values = items.reduceOption := by
  induction passages generalizing state inputs values with
  | nil =>
    refine Poll.answers_ready_iff.trans ⟨?_, ?_⟩
    · rintro ⟨rfl, rfl, rfl⟩
      exact ⟨[], .none, rfl⟩
    · rintro ⟨items, inTurn, rfl⟩
      obtain ⟨rfl, rfl, rfl⟩ := Poll.inTurn_nil_iff.mp inTurn
      exact ⟨rfl, rfl, rfl⟩
  | cons passage later ih =>
    rw [List.filterMapM_cons]
    refine Poll.answers_bind_iff.trans ⟨?_, ?_⟩
    · rintro ⟨first, rest, item, middle, rfl, passes, goesOn⟩
      cases item with
      | none =>
        obtain ⟨items, inTurn, rfl⟩ := ih.mp goesOn
        exact ⟨none :: items, .next passes inTurn, rfl⟩
      | some value =>
        obtain ⟨_, _, _, _, rfl, goesOn, ends⟩ := Poll.answers_bind_iff.mp goesOn
        obtain ⟨rfl, rfl, rfl⟩ := Poll.answers_ready_iff.mp ends
        obtain ⟨items, inTurn, rfl⟩ := ih.mp goesOn
        rw [List.append_nil]
        exact ⟨some value :: items, .next passes inTurn, rfl⟩
    · rintro ⟨_, inTurn, rfl⟩
      obtain ⟨first, rest, item, items, middle, rfl, rfl, passes, inTurn⟩ :=
        Poll.inTurn_cons_iff.mp inTurn
      have goesOn := ih.mpr ⟨items, inTurn, rfl⟩
      refine ⟨first, rest, item, middle, rfl, passes, ?_⟩
      cases item with
      | none => exact goesOn
      | some value =>
        exact goesOn.bind_at_once .ready

/-- The first passage that panics is the last one that has begun. -/
theorem filterMapM_panics_iff {payload : Payload} :
    ((passages.filterMapM id : Future σ (List α)) state).Panics inputs payload last ↔
      Poll.BreaksOff passages state inputs payload last := by
  induction passages generalizing state inputs with
  | nil => exact ⟨nofun, nofun⟩
  | cons passage later ih =>
    rw [List.filterMapM_cons]
    refine Poll.panics_bind_iff.trans ⟨?_, ?_⟩
    · rintro (panics | ⟨first, rest, item, middle, rfl, passes, goesOn⟩)
      · exact .here panics
      · cases item with
        | none => exact .later passes (ih.mp goesOn)
        | some value =>
          rcases Poll.panics_bind_iff.mp goesOn with goesOn | ⟨_, _, _, _, -, -, ends⟩
          · exact .later passes (ih.mp goesOn)
          · cases ends
    · rintro (panics | ⟨passes, rest⟩)
      · exact .inl panics
      · refine .inr ⟨_, _, _, _, rfl, passes, ?_⟩
        have goesOn := ih.mpr rest
        split
        · exact goesOn
        · exact Poll.panics_bind_iff.mpr (.inl goesOn)

end

/-! ### Stages -/

namespace Future

/-- The future may answer so. -/
def Returns (future : Future σ α) (answer : α) : Prop :=
  ∃ state inputs last, (future state).Answers inputs answer last

end Future

theorem Poll.InTurn.returns {futures : List (Future σ α)} {state last : σ} {inputs : List σ}
    {answers : List α} (inTurn : InTurn futures state inputs answers last) :
    List.Forall₂ Future.Returns futures answers := by
  induction inTurn with
  | none => exact .nil
  | next runs _ ih => exact .cons ⟨_, _, _, runs⟩ ih

section
variable {code : α → Code σ γ} {keep : α → γ → Option β} {passage : Passage σ α}

/-- What a stage may make of a list: the code is called with one value after the other. -/
inductive Staged (code : α → Code σ γ) (keep : α → γ → Option β) : List α → List β → Prop where
  | nil : Staged code keep [] []
  | cons {value result values kept} (returns : (code value).Returns result)
      (rest : Staged code keep values kept) :
      Staged code keep (value :: values) ((keep value result).toList ++ kept)

/-- If the results of the code are those of a function, then there is only one such list. -/
theorem Staged.eq_filterMap {g : α → γ} {values : List α} {kept : List β}
    (staged : Staged code keep values kept)
    (gives : ∀ value result, (code value).Returns result → result = g value) :
    kept = values.filterMap fun value => keep value (g value) := by
  induction staged with
  | nil => rfl
  | @cons value _ _ _ returns _ ih =>
    obtain rfl := gives _ _ returns
    rw [ih, List.filterMap_cons]
    cases keep value (g value) <;> rfl

namespace Passage

theorem returns_item {value : α} {given : Option α}
    (returns : (item value : Passage σ α).Returns given) : given = some value := by
  obtain ⟨_, _, _, ⟨⟩⟩ := returns
  rfl

theorem returns_success {future : Future σ (Verdict α)} {given : Option α}
    (returns : (success future).Returns given) :
    ∃ verdict, future.Returns verdict ∧ given = verdict.toOption := by
  obtain ⟨state, _, _, answers⟩ := returns
  obtain ⟨_, _, verdict, _, -, begins, ends⟩ := Poll.answers_bind_iff.mp answers
  obtain ⟨-, rfl, -⟩ := Poll.answers_ready_iff.mp ends
  exact ⟨verdict, ⟨state, _, _, begins⟩, rfl⟩

section
variable {state last : σ} {inputs : List σ}

/-- The code is called with what has come through, once and in the state that is left by then. -/
theorem stage_answers_iff {given : Option β} :
    (stage code keep passage state).Answers inputs given last ↔
      ((passage state).Answers inputs none last ∧ given = none) ∨
      ∃ value middle result, (passage state).Answers inputs (some value) middle ∧
        code value middle = (.ok result, last) ∧ given = keep value result := by
  constructor
  · intro answers
    obtain ⟨first, _, source, middle, rfl, begins, goesOn⟩ := Poll.answers_bind_iff.mp answers
    cases source with
    | none =>
      obtain ⟨rfl, rfl, rfl⟩ := Poll.answers_ready_iff.mp goesOn
      rw [List.append_nil]
      exact .inl ⟨begins, rfl⟩
    | some value =>
      obtain ⟨_, _, result, after, rfl, calls, ends⟩ := Poll.answers_bind_iff.mp goesOn
      obtain ⟨rfl, called⟩ := Future.ofCode_answers_iff.mp calls
      obtain ⟨rfl, rfl, rfl⟩ := Poll.answers_ready_iff.mp ends
      rw [List.append_nil, List.append_nil]
      exact .inr ⟨value, middle, result, begins, called, rfl⟩
  · rintro (⟨begins, rfl⟩ | ⟨value, middle, result, begins, called, rfl⟩)
    · exact begins.bind_at_once .ready
    · have calls := Future.ofCode_answers_iff.mpr ⟨rfl, called⟩
      exact begins.bind_at_once (calls.bind_at_once .ready)

theorem stage_panics_iff {payload : Payload} :
    (stage code keep passage state).Panics inputs payload last ↔
      (passage state).Panics inputs payload last ∨
      ∃ value middle, (passage state).Answers inputs (some value) middle ∧
        code value middle = (.error payload, last) := by
  refine Poll.panics_bind_iff.trans (or_congr_right ⟨?_, ?_⟩)
  · rintro ⟨first, _, source, middle, rfl, begins, panics⟩
    cases source with
    | none => cases panics
    | some value =>
      rcases Poll.panics_bind_iff.mp panics with panics | ⟨_, _, _, _, -, -, panics⟩
      · obtain ⟨rfl, called⟩ := Future.ofCode_panics_iff.mp panics
        rw [List.append_nil]
        exact ⟨value, middle, begins, called⟩
      · cases panics
  · rintro ⟨value, middle, begins, called⟩
    refine ⟨inputs, [], some value, middle, (List.append_nil inputs).symm, begins, ?_⟩
    exact Poll.panics_bind_iff.mpr (.inl (Future.ofCode_panics_iff.mpr ⟨rfl, called⟩))

end

theorem wakes_stage (wakes : ∀ state, (passage state).Wakes) (state : σ) :
    (stage code keep passage state).Wakes :=
  (wakes state).bind fun
    | none, _ => trivial
    | some _, _ => Future.wakes_ofCode.bind fun _ _ => trivial

theorem staged_of_returns {passages : List (Passage σ α)} {items : List (Option β)}
    (returns : List.Forall₂ Future.Returns (passages.map (stage code keep)) items) :
    ∃ sources, List.Forall₂ Future.Returns passages sources ∧
      Staged code keep sources.reduceOption items.reduceOption := by
  induction passages generalizing items with
  | nil =>
    obtain rfl := List.forall₂_nil_left_iff.mp returns
    exact ⟨[], .nil, .nil⟩
  | cons passage later ih =>
    obtain ⟨item, others, first, rest, rfl⟩ := List.forall₂_cons_left_iff.mp returns
    obtain ⟨sources, given, staged⟩ := ih rest
    obtain ⟨state, inputs, last, answers⟩ := first
    rcases stage_answers_iff.mp answers with
      ⟨passes, rfl⟩ | ⟨value, middle, result, passes, called, rfl⟩
    · exact ⟨_, .cons ⟨state, inputs, last, passes⟩ given, staged⟩
    · have keeps : (keep value result :: others).reduceOption =
          (keep value result).toList ++ others.reduceOption := by
        cases keep value result <;> rfl
      rw [keeps]
      exact ⟨_, .cons ⟨state, inputs, middle, passes⟩ given, .cons ⟨middle, last, called⟩ staged⟩

end Passage

theorem wakes_filterMapM {passages : List (Passage σ α)}
    (wakes : ∀ passage ∈ passages, ∀ state, (passage state).Wakes) (state : σ) :
    ((passages.filterMapM id : Future σ (List α)) state).Wakes := by
  induction passages generalizing state with
  | nil => trivial
  | cons passage later ih =>
    obtain ⟨first, others⟩ := List.forall_mem_cons.mp wakes
    rw [List.filterMapM_cons]
    refine (first state).bind fun item after => ?_
    cases item with
    | none => exact ih others after
    | some value => exact (ih others after).bind fun _ _ => trivial

end

end Deferred
