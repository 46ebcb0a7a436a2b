import Mathlib.Data.List.ReduceOption
import Deferred.Proofs.Boundary.Soundness
import Deferred.Proofs.Feeds.Passages
import Deferred.Proofs.Feeds.Sinks
import Deferred.Proofs.Notebook
import Deferred.Proofs.Pace.Private

/-! Feeds that denote lists: those that are built without a merge, from items and attempts by any
nesting of `map`, `filter` and `append`. When such a feed is started its attempts are called, the
earlier ones first, and nothing else is done. All that follows are passages, one for each item of a
source, and a gathered run awaits them in the order of the sources. What it answers is the list that
the recipe reads as. -/

namespace Deferred

variable {σ : Type}

inductive Recipe (σ : Type) [Host σ] : Type → Type 1 where
  | empty {α : Type} : Recipe σ α
  | single {α : Type} (value : α) : Recipe σ α
  | ofList {α : Type} (values : List α) : Recipe σ α
  | ofAttempt {α : Type} (attempt : Attempt σ α) (built : Built Manner.any attempt) : Recipe σ α
  | map {α β : Type} (source : Recipe σ α) (f : α → Code σ β) : Recipe σ β
  | filter {α : Type} (source : Recipe σ α) (accepts : α → Code σ Bool) : Recipe σ α
  | append {α : Type} (first second : Recipe σ α) : Recipe σ α

namespace Recipe

variable [Host σ]

def feed {α : Type} : Recipe σ α → Feed σ α
  | empty => .empty
  | single value => .single value
  | ofList values => .ofList values
  | ofAttempt attempt _ => .ofAttempt attempt
  | map source f => source.feed.map f
  | filter source accepts => source.feed.filter accepts
  | append first second => first.feed.append second.feed

/-- The passages of one run. -/
def passages {α : Type} : Recipe σ α → Code σ (List (Passage σ α))
  | empty => return []
  | single value => return [.item value]
  | ofList values => return values.map .item
  | ofAttempt attempt _ => do return [.success (← attempt.call)]
  | map source f => do return (← source.passages).map (Passage.map f)
  | filter source accepts => do return (← source.passages).map (Passage.filter accepts)
  | append first second => do return (← first.passages) ++ (← second.passages)

theorem start_feed {α : Type} (recipe : Recipe σ α) :
    recipe.feed.start = do return Flow.ofPassages (← recipe.passages) := by
  induction recipe with
  | empty => rfl
  | single value => exact congrArg pure (Flow.ofPassages_items [value]).symm
  | ofList values => exact congrArg pure (Flow.ofPassages_items values).symm
  | ofAttempt attempt =>
    simp only [feed, passages, Feed.ofAttempt, bind_assoc, pure_bind]
    refine congrArg (attempt.call >>= ·) (funext fun future => ?_)
    refine congrArg pure (funext fun state => ?_)
    refine Eq.trans ?_ (Items.ofPoll_bind (future state) _ _).symm
    refine congrArg (Items.ofPoll (future state)) (funext fun verdict => funext fun after => ?_)
    cases verdict <;> rfl
  | map source f ih =>
    simp only [feed, passages, Feed.map, ih, bind_assoc, pure_bind, Flow.map_ofPassages]
    rfl
  | filter source accepts ih =>
    simp only [feed, passages, Feed.filter, ih, bind_assoc, pure_bind, Flow.filter_ofPassages]
    rfl
  | append first second ih ihSecond =>
    simp only [feed, passages, Feed.append, ih, ihSecond, bind_assoc, pure_bind,
      Flow.append_ofPassages]
    rfl

/-- Awaited one after the other, the passages are all that is left of a gathered run. -/
theorem gather_feed {α : Type} (recipe : Recipe σ α) :
    recipe.feed.gather =
      .lift do return (List.filterMapM id (← recipe.passages) : Future σ (List α)) := by
  have builds : (do let flow ← recipe.feed.start; return fun state => (flow state).gather) =
      (do return List.filterMapM id (← recipe.passages) : Code σ (Future σ (List α))) := by
    simp only [start_feed, bind_assoc, pure_bind, Flow.gather_ofPassages]
    rfl
  exact congrArg Attempt.lift builds

theorem flow_feed {α : Type} (recipe : Recipe σ α) {state begun : σ}
    {passages : List (Passage σ α)} (starts : recipe.passages state = (.ok passages, begun)) :
    recipe.feed.flow state = Flow.ofPassages passages begun := by
  have started : recipe.feed.start state = (.ok (Flow.ofPassages passages), begun) := by
    rw [start_feed]
    exact Code.bind_of_ok starts
  unfold Feed.flow
  rw [started]

/-- The passages that a run may have. -/
inductive Opens : {α : Type} → Recipe σ α → List (Passage σ α) → Prop where
  | empty {α} : Opens (empty : Recipe σ α) []
  | single {α} {value : α} : Opens (single value) [.item value]
  | ofList {α} {values : List α} : Opens (ofList values) (values.map .item)
  | ofAttempt {α} {attempt : Attempt σ α} {built : Built Manner.any attempt}
      {future : Future σ (Verdict α)} (returns : attempt.call.Returns future) :
      Opens (ofAttempt attempt built) [.success future]
  | map {α β} {source : Recipe σ α} {f : α → Code σ β} {passages : List (Passage σ α)}
      (opens : Opens source passages) : Opens (source.map f) (passages.map (Passage.map f))
  | filter {α} {source : Recipe σ α} {accepts : α → Code σ Bool} {passages : List (Passage σ α)}
      (opens : Opens source passages) :
      Opens (source.filter accepts) (passages.map (Passage.filter accepts))
  | append {α} {first second : Recipe σ α} {passages later : List (Passage σ α)}
      (opens : Opens first passages) (follows : Opens second later) :
      Opens (first.append second) (passages ++ later)

/-- Nothing panics when the feed is started, since no call of an attempt does. -/
theorem opens {α : Type} (recipe : Recipe σ α) (state : σ) :
    ∃ passages begun, recipe.passages state = (.ok passages, begun) ∧ recipe.Opens passages := by
  induction recipe generalizing state with
  | empty => exact ⟨_, state, rfl, .empty⟩
  | single value => exact ⟨_, state, rfl, .single⟩
  | ofList values => exact ⟨_, state, rfl, .ofList⟩
  | ofAttempt attempt built =>
    obtain ⟨future, begun, called, -, -⟩ := built.sound Manner.any_within state
    exact ⟨_, begun, Code.bind_of_ok called, .ofAttempt ⟨state, begun, called⟩⟩
  | map source f ih =>
    obtain ⟨passages, begun, starts, opens⟩ := ih state
    exact ⟨_, begun, Code.bind_of_ok starts, .map opens⟩
  | filter source accepts ih =>
    obtain ⟨passages, begun, starts, opens⟩ := ih state
    exact ⟨_, begun, Code.bind_of_ok starts, .filter opens⟩
  | append first second ih ihSecond =>
    obtain ⟨passages, between, starts, opens⟩ := ih state
    obtain ⟨later, begun, follows, more⟩ := ihSecond between
    exact ⟨_, begun, (Code.bind_of_ok starts).trans (Code.bind_of_ok follows), .append opens more⟩

/-- A function of the recipe panics with this payload and leaves this state. -/
def Raises {α : Type} : Recipe σ α → Payload → σ → Prop
  | map source f, payload, last =>
      source.Raises payload last ∨ ∃ value before, f value before = (.error payload, last)
  | filter source accepts, payload, last =>
      source.Raises payload last ∨ ∃ value before, accepts value before = (.error payload, last)
  | append first second, payload, last => first.Raises payload last ∨ second.Raises payload last
  | _, _, _ => False

/-- No attempt of the recipe waits for what never comes. -/
def Wakes {α : Type} : Recipe σ α → Prop
  | ofAttempt attempt _ => ∀ future, attempt.call.Returns future → ∀ state, (future state).Wakes
  | map source _ => source.Wakes
  | filter source _ => source.Wakes
  | append first second => first.Wakes ∧ second.Wakes
  | _ => True

/-- The lists that the recipe may be read as: `map` and `filter` with what their functions return
for one item after the other, and an attempt with its value, if it may succeed with that. -/
def Reads {α : Type} : Recipe σ α → List α → Prop
  | empty, items => items = []
  | single value, items => items = [value]
  | ofList values, items => items = values
  | ofAttempt attempt _, items => ∃ future verdict, attempt.call.Returns future ∧
      future.Returns verdict ∧ items = verdict.toOption.toList
  | map source f, items => ∃ values, source.Reads values ∧
      Staged f (fun _ mapped => some mapped) values items
  | filter source accepts, items => ∃ values, source.Reads values ∧
      Staged accepts (fun value accepted => if accepted then some value else none) values items
  | append first second, items => ∃ values others, first.Reads values ∧ second.Reads others ∧
      items = values ++ others

/-- The list that the recipe denotes if what its functions return depends on nothing but the item,
and whether its attempts succeed, and with which value, on nothing at all. -/
inductive Lists : {α : Type} → Recipe σ α → List α → Prop where
  | empty {α} : Lists (empty : Recipe σ α) []
  | single {α} {value : α} : Lists (single value) [value]
  | ofList {α} {values : List α} : Lists (ofList values) values
  | ofAttempt {α} {attempt : Attempt σ α} {built : Built Manner.any attempt} {item : Option α}
      (answers : ∀ future verdict, attempt.call.Returns future → future.Returns verdict →
        verdict.toOption = item) : Lists (ofAttempt attempt built) item.toList
  | map {α β} {source : Recipe σ α} {f : α → Code σ β} {items : List α} (lists : Lists source items)
      (g : α → β) (gives : ∀ item value, (f item).Returns value → value = g item) :
      Lists (source.map f) (items.map g)
  | filter {α} {source : Recipe σ α} {accepts : α → Code σ Bool} {items : List α}
      (lists : Lists source items) (p : α → Bool)
      (gives : ∀ item accepted, (accepts item).Returns accepted → accepted = p item) :
      Lists (source.filter accepts) (items.filter p)
  | append {α} {first second : Recipe σ α} {items others : List α} (lists : Lists first items)
      (follows : Lists second others) : Lists (first.append second) (items ++ others)

theorem Opens.raises {α : Type} {recipe : Recipe σ α} {passages : List (Passage σ α)}
    (opens : recipe.Opens passages) {passage : Passage σ α} (member : passage ∈ passages)
    {state last : σ} {inputs : List σ} {payload : Payload}
    (panics : (passage state).Panics inputs payload last) : recipe.Raises payload last := by
  induction opens generalizing state inputs with
  | empty => cases member
  | single =>
    obtain rfl := List.mem_singleton.mp member
    cases panics
  | ofList =>
    obtain ⟨value, -, rfl⟩ := List.mem_map.mp member
    cases panics
  | @ofAttempt _ _ built _ returns =>
    obtain rfl := List.mem_singleton.mp member
    obtain ⟨before, after, called⟩ := returns
    obtain ⟨_, _, again, -, keeps⟩ := built.sound Manner.any_within before
    obtain ⟨⟩ := called.symm.trans again
    -- the attempt contains its panics itself, and nothing is called with its verdict
    rcases Poll.panics_bind_iff.mp panics with panics | ⟨_, _, _, _, -, -, panics⟩
    · exact absurd panics (keeps state).not_panics
    · cases panics
  | map _ ih | filter _ ih =>
    obtain ⟨source, there, rfl⟩ := List.mem_map.mp member
    rcases Passage.stage_panics_iff.mp panics with panics | ⟨value, before, -, called⟩
    · exact .inl (ih there panics)
    · exact .inr ⟨value, before, called⟩
  | append _ _ ih ihSecond =>
    exact (List.mem_append.mp member).imp (ih · panics) (ihSecond · panics)

theorem Opens.wakes {α : Type} {recipe : Recipe σ α} {passages : List (Passage σ α)}
    (opens : recipe.Opens passages) (wakes : recipe.Wakes) :
    ∀ passage ∈ passages, ∀ state, (passage state).Wakes := by
  induction opens with
  | empty => nofun
  | single => exact List.forall_mem_singleton.mpr fun _ => trivial
  | ofList => exact List.forall_mem_map.mpr fun _ _ _ => trivial
  | ofAttempt returns =>
    exact List.forall_mem_singleton.mpr fun state =>
      (wakes _ returns state).bind fun _ _ => trivial
  | map _ ih | filter _ ih =>
    exact List.forall_mem_map.mpr fun source member => Passage.wakes_stage (ih wakes source member)
  | append _ _ ih ihSecond => exact List.forall_mem_append.mpr ⟨ih wakes.1, ihSecond wakes.2⟩

theorem Opens.reads {α : Type} {recipe : Recipe σ α} {passages : List (Passage σ α)}
    (opens : recipe.Opens passages) {items : List (Option α)}
    (returns : List.Forall₂ Future.Returns passages items) : recipe.Reads items.reduceOption := by
  induction opens with
  | empty =>
    obtain rfl := List.forall₂_nil_left_iff.mp returns
    rfl
  | single =>
    obtain ⟨item, _, given, none, rfl⟩ := List.forall₂_cons_left_iff.mp returns
    obtain rfl := List.forall₂_nil_left_iff.mp none
    rw [Passage.returns_item given]
    rfl
  | @ofList _ values =>
    have same : List.Forall₂ Eq (values.map some) items :=
      List.forall₂_map_left_iff.mpr <| (List.forall₂_map_left_iff.mp returns).imp
        fun _ _ given => (Passage.returns_item given).symm
    rw [List.forall₂_eq_eq_eq] at same
    rw [← same]
    show List.filterMap id (values.map some) = values
    rw [List.filterMap_map]
    exact List.filterMap_some
  | ofAttempt called =>
    obtain ⟨item, _, given, none, rfl⟩ := List.forall₂_cons_left_iff.mp returns
    obtain rfl := List.forall₂_nil_left_iff.mp none
    obtain ⟨verdict, answers, rfl⟩ := Passage.returns_success given
    exact ⟨_, verdict, called, answers, List.reduceOption_singleton _⟩
  | map _ ih | filter _ ih =>
    obtain ⟨sources, given, staged⟩ := Passage.staged_of_returns returns
    exact ⟨_, ih given, staged⟩
  | @append _ _ _ passages later _ _ ih ihSecond =>
    have first := List.forall₂_take passages.length returns
    have second := List.forall₂_drop passages.length returns
    rw [List.take_left] at first
    rw [List.drop_left] at second
    refine ⟨_, _, ih first, ihSecond second, ?_⟩
    rw [← List.reduceOption_append, List.take_append_drop]

theorem Lists.unique {α : Type} {recipe : Recipe σ α} {items values : List α}
    (lists : recipe.Lists items) (reads : recipe.Reads values) : values = items := by
  induction lists with
  | empty | single | ofList => exact reads
  | ofAttempt answers =>
    obtain ⟨future, verdict, called, returns, rfl⟩ := reads
    rw [answers future verdict called returns]
  | map _ g gives ih =>
    obtain ⟨others, reads, staged⟩ := reads
    rw [staged.eq_filterMap gives, ih reads]
    exact congrFun List.filterMap_eq_map' _
  | filter _ p gives ih =>
    obtain ⟨others, reads, staged⟩ := reads
    rw [staged.eq_filterMap gives, ih reads]
    exact congrFun List.filterMap_eq_filter _
  | append _ _ ih ihSecond =>
    obtain ⟨_, _, reads, follows, rfl⟩ := reads
    rw [ih reads, ihSecond follows]

section
variable {α : Type} (recipe : Recipe σ α)

/-- A run that starts the feed and then awaits its passages in turn. It succeeds with all that comes
out, or the panic of a function ends it where it happens. -/
def RunsTo (state : σ) (inputs : List σ) (verdict : Verdict (List α)) (last : σ) : Prop :=
  ∃ passages begun, recipe.passages state = (.ok passages, begun) ∧
    ((∃ items, Poll.InTurn passages begun inputs items last ∧
        verdict = .success items.reduceOption) ∨
      ∃ payload before, Poll.BreaksOff passages begun inputs payload before ∧
        recipe.Raises payload before ∧ verdict = .failure (.panicked payload.reads) ∧
        last = Host.record (.panicked payload.reads) before)

/-- How the runs of a gathered recipe go. They start without a panic, and then they only await
passages. Each of them ends if no attempt waits for what never comes. What it succeeds with is a
list that the recipe may be read as; and if there is but one such list, then every run gives it
again, however many there have been. -/
structure Gathered : Prop where
  passes : recipe.feed.gather =
    .lift do return (List.filterMapM id (← recipe.passages) : Future σ (List α))
  starts : ∀ state, ∃ passages begun, recipe.passages state = (.ok passages, begun)
  answers : ∀ state inputs verdict last,
    (recipe.feed.gather.awaited state).Answers inputs verdict last ↔
      recipe.RunsTo state inputs verdict last
  ends : recipe.Wakes → ∀ state, (recipe.feed.gather.awaited state).Wakes ∧
    ∃ inputs verdict last, (recipe.feed.gather.awaited state).Answers inputs verdict last
  reads : ∀ state inputs items last,
    (recipe.feed.gather.awaited state).Answers inputs (.success items) last → recipe.Reads items
  lists : ∀ items, recipe.Lists items → ∀ count state inputs verdicts last,
    Poll.InTurn (List.replicate count recipe.feed.gather.awaited) state inputs verdicts last →
      ∀ verdict ∈ verdicts, verdict = .success items ∨
        ∃ payload before, recipe.Raises payload before ∧
          verdict = .failure (.panicked payload.reads)

variable {recipe} {state last : σ} {inputs : List σ} {verdict : Verdict (List α)}

theorem awaited_gather_feed {begun : σ} {passages : List (Passage σ α)}
    (starts : recipe.passages state = (.ok passages, begun)) :
    recipe.feed.gather.awaited state =
      (List.filterMapM id passages begun : Poll σ (List α)).judged := by
  rw [Feed.awaited_gather, recipe.flow_feed starts, Flow.gather_ofPassages]

theorem gather_answers_iff :
    (recipe.feed.gather.awaited state).Answers inputs verdict last ↔
      recipe.RunsTo state inputs verdict last := by
  obtain ⟨passages, begun, starts, opens⟩ := recipe.opens state
  rw [awaited_gather_feed starts]
  refine Poll.judged_answers_iff.trans ⟨?_, ?_⟩
  · rintro (⟨values, rfl, answers⟩ | ⟨payload, before, rfl, rfl, panics⟩)
    · obtain ⟨items, inTurn, rfl⟩ := filterMapM_answers_iff.mp answers
      exact ⟨passages, begun, starts, .inl ⟨items, inTurn, rfl⟩⟩
    · have breaks := filterMapM_panics_iff.mp panics
      obtain ⟨passage, member, _, _, panics⟩ := breaks.panics
      exact ⟨passages, begun, starts,
        .inr ⟨payload, before, breaks, opens.raises member panics, rfl, rfl⟩⟩
  · rintro ⟨_, _, again, ends⟩
    obtain ⟨⟩ := starts.symm.trans again
    rcases ends with ⟨items, inTurn, rfl⟩ | ⟨payload, before, breaks, -, rfl, rfl⟩
    · exact .inl ⟨_, rfl, filterMapM_answers_iff.mpr ⟨items, inTurn, rfl⟩⟩
    · exact .inr ⟨payload, before, rfl, rfl, filterMapM_panics_iff.mpr breaks⟩

theorem reads_of_answers {items : List α}
    (answers : (recipe.feed.gather.awaited state).Answers inputs (.success items) last) :
    recipe.Reads items := by
  obtain ⟨passages, begun, starts, ⟨given, inTurn, same⟩ | ⟨_, _, _, _, ⟨⟩, _⟩⟩ :=
    gather_answers_iff.mp answers
  obtain ⟨⟩ := same
  obtain ⟨_, _, again, opens⟩ := recipe.opens state
  obtain ⟨⟩ := starts.symm.trans again
  exact opens.reads inTurn.returns

theorem Lists.answers {items : List α} (lists : recipe.Lists items)
    (answers : (recipe.feed.gather.awaited state).Answers inputs verdict last) :
    verdict = .success items ∨ ∃ payload before, recipe.Raises payload before ∧
      verdict = .failure (.panicked payload.reads) := by
  cases verdict with
  | success values =>
    rw [lists.unique (reads_of_answers answers)]
    exact .inl rfl
  | failure error =>
    obtain ⟨_, _, _, ⟨_, _, ⟨⟩⟩ | ⟨payload, before, _, raises, failed, _⟩⟩ :=
      gather_answers_iff.mp answers
    exact .inr ⟨payload, before, raises, failed⟩

theorem Wakes.ends (wakes : recipe.Wakes) (state : σ) :
    (recipe.feed.gather.awaited state).Wakes ∧
      ∃ inputs verdict last, (recipe.feed.gather.awaited state).Answers inputs verdict last := by
  obtain ⟨passages, begun, starts, opens⟩ := recipe.opens state
  have goesOn := wakes_filterMapM (opens.wakes wakes) begun
  rw [awaited_gather_feed starts]
  refine ⟨goesOn.contained.bind fun _ _ => trivial, ?_⟩
  obtain ⟨inputs, ending, last, ends⟩ := goesOn.ends
  cases ending with
  | ok items => exact ⟨inputs, _, last, Poll.judged_answers_iff.mpr (.inl ⟨items, rfl, ends⟩)⟩
  | error payload =>
    exact ⟨inputs, _, _, Poll.judged_answers_iff.mpr (.inr ⟨payload, last, rfl, rfl, ends⟩)⟩

theorem gathered (recipe : Recipe σ α) : recipe.Gathered where
  passes := recipe.gather_feed
  starts state := by
    obtain ⟨passages, begun, starts, -⟩ := recipe.opens state
    exact ⟨passages, begun, starts⟩
  answers _ _ _ _ := gather_answers_iff
  ends wakes := wakes.ends
  reads _ _ _ _ := reads_of_answers
  lists items lists count state inputs verdicts last inTurn verdict member := by
    -- each verdict is that of one run, in whatever state the runs before it have left
    obtain ⟨index, bound, rfl⟩ := List.getElem_of_mem member
    obtain ⟨same, each⟩ := List.forall₂_iff_get.mp inTurn.returns
    have returns := each index (same ▸ bound) bound
    rw [List.get_eq_getElem, List.getElem_replicate] at returns
    obtain ⟨_, _, _, answers⟩ := returns
    exact lists.answers answers

end

end Recipe

section
variable [Host σ] {α β : Type}

/-- The verdict on what does not panic is a success with its value. -/
theorem Poll.Obeys.judged_inStep {account : Account σ} {due : α → Option Error} {poll : Poll σ α}
    {start : σ} (obeys : poll.Obeys account False due start) (f : α → β) :
    (poll.map f).judged.InStep (.strict Eq Eq Eq) (Pace.same _) ()
      (poll.map fun value => .success (f value)) := by
  induction poll generalizing start with
  | ready => exact .ready ⟨rfl, rfl⟩
  | panic => exact obeys.1.elim
  | waiting wait resume state ih =>
    refine .waiting rfl ⟨rfl, fun _ _ => congrArg _, fun _ _ => congrArg _⟩ ?_
    rintro ⟨⟩ woken _ rfl opens
    exact ih woken (obeys.2.2 woken opens)
  | spawn child rest state ih => exact .spawn rfl (ih state (obeys.2.2 state))

/-- Gathering the feed of an attempt is resolving the attempt. -/
theorem Feed.gather_ofAttempt {attempt : Attempt σ α} (built : Built Manner.any attempt)
    (state : σ) :
    ((Feed.ofAttempt attempt).gather.awaited state).InStep (.strict Eq Eq Eq) (Pace.same _) ()
      ((attempt.resolve (fun value => pure [value]) fun _ => pure []).awaited state) := by
  obtain ⟨future, begun, called, -, keeps⟩ := built.sound Manner.any_within state
  let items : Verdict α → List α := fun verdict => verdict.toOption.toList
  have gathers : (Feed.ofAttempt attempt).gather.awaited state =
      ((future begun).map items).judged := by
    have starts : (Recipe.ofAttempt attempt built).passages state =
        (.ok [.success future], begun) := Code.bind_of_ok called
    refine (Recipe.awaited_gather_feed starts).trans (congrArg Poll.judged ?_)
    rw [List.filterMapM_cons]
    refine (Poll.bind_assoc (future begun) _ _).trans ?_
    refine congrArg (Poll.bind (future begun)) (funext fun verdict => ?_)
    cases verdict <;> rfl
  have resolves : (attempt.resolve (fun value => pure [value]) fun _ => pure []).awaited state =
      (future begun).map fun verdict => .success (items verdict) := by
    show (attempt.awaited state).bind _ = _
    rw [Action.awaited_of_call called]
    refine congrArg (Poll.bind (future begun)) (funext fun verdict => ?_)
    cases verdict <;> rfl
  rw [gathers, resolves]
  exact (keeps begun).judged_inStep items

/-- Feeds without a merge denote lists. A gathered run calls the attempts of the feed and then
awaits one passage after the other. A stage of a passage calls its function once with the item that
has come through, in the state that is left by then, and not at all if none has. The run succeeds
with all that comes out, which is the list that the recipe reads as, or it ends with the first panic
of a function. The feed of an attempt alone is gathered as the attempt is resolved. -/
theorem feeds_denote_lists :
    (∀ (α : Type) (recipe : Recipe σ α), recipe.Gathered) ∧
      (∀ (α β γ : Type) (code : α → Code σ γ) (keep : α → γ → Option β) (passage : Passage σ α)
          (state : σ) (inputs : List σ) (given : Option β) (last : σ),
        (passage.stage code keep state).Answers inputs given last ↔
          ((passage state).Answers inputs none last ∧ given = none) ∨
          ∃ value middle result, (passage state).Answers inputs (some value) middle ∧
            code value middle = (.ok result, last) ∧ given = keep value result) ∧
      ∀ (α : Type) (attempt : Attempt σ α), Built Manner.any attempt → ∀ state,
        ((Feed.ofAttempt attempt).gather.awaited state).InStep (.strict Eq Eq Eq) (Pace.same _) ()
          ((attempt.resolve (fun value => pure [value]) fun _ => pure []).awaited state) :=
  ⟨fun _ recipe => recipe.gathered, fun _ _ _ _ _ _ _ _ _ _ => Passage.stage_answers_iff,
    fun _ _ built => Feed.gather_ofAttempt built⟩

end

theorem Recipe.lists_ofVerdict [Host σ] {α : Type} (verdict : Verdict α) :
    (ofAttempt (.ofVerdict verdict) (.ofVerdict verdict) : Recipe σ α).Lists
      verdict.toOption.toList := by
  refine .ofAttempt ?_
  rintro _ _ ⟨_, _, ⟨⟩⟩ ⟨_, _, _, ⟨⟩⟩
  rfl

/-- Two of four items, which are counted on their way, and two attempts, one of which fails. -/
def basket : Recipe (Notebook Nat) Nat :=
  .append
    (.map (.filter (.ofList [1, 2, 3, 4]) fun n => pure (n % 2 == 0)) fun n book =>
      (.ok (n * 10), { book with cell := book.cell + 1 }))
    (.append (.ofAttempt (.success 5) (.ofVerdict _))
      (.ofAttempt (.failure .bottom) (.ofVerdict _)))

/-- Nothing in the basket panics, and it is gathered to the same list however much was counted. -/
theorem basket_gathered :
    basket.Wakes ∧ basket.Lists [20, 40, 5] ∧
      ∀ state, ∃ inputs last,
        (basket.feed.gather.awaited state).Answers inputs (.success [20, 40, 5]) last := by
  have wakes : basket.Wakes := by
    refine ⟨trivial, ?_, ?_⟩
    all_goals
      rintro _ ⟨_, _, ⟨⟩⟩ state
      trivial
  have even : ∀ item accepted, (pure (item % 2 == 0) : Code (Notebook Nat) Bool).Returns accepted →
      accepted = (item % 2 == 0) := by
    rintro _ _ ⟨_, _, ⟨⟩⟩
    rfl
  have lists : basket.Lists [20, 40, 5] := by
    refine .append (.map (.filter .ofList _ even) (· * 10) ?_)
      (.append (Recipe.lists_ofVerdict (.success 5)) (Recipe.lists_ofVerdict (.failure .bottom)))
    rintro _ _ ⟨_, _, ⟨⟩⟩
    rfl
  have calm : ∀ payload last, ¬basket.Raises payload last := by
    rintro _ _ (((none | ⟨_, _, ⟨⟩⟩) | ⟨_, _, ⟨⟩⟩) | (none | none))
    all_goals exact none
  have law := (feeds_denote_lists (σ := Notebook Nat)).1 Nat basket
  refine ⟨wakes, lists, fun state => ?_⟩
  obtain ⟨-, inputs, verdict, last, answers⟩ := law.ends wakes state
  rcases law.lists _ lists 1 state _ [verdict] last (.next answers .none) verdict
    List.mem_cons_self with rfl | ⟨payload, before, raises, -⟩
  · exact ⟨inputs, last, answers⟩
  · exact absurd raises (calm payload before)

end Deferred
