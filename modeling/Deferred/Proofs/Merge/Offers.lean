import Deferred.Proofs.Merge.TaskTurns

/-! What the task of an input does in a turn, read off its stream: the items that it pulls, each
with whether the hub took it, and what is left of the stream. When the consumer is gone the hub
takes nothing: the task polls its stream on, and drops it with the first item that comes. -/

namespace Deferred.Merge

variable {σ α : Type}

/-- An item that an input has pulled from its stream and offered to the hub. -/
structure Offer (α : Type) where
  index : Nat
  value : α
  taken : Bool
deriving DecidableEq

/-- The items that the hub has taken, in their order. -/
def takenOf (offers : List (Offer α)) : List α :=
  (offers.filter (·.taken)).map (·.value)

@[simp] theorem takenOf_append (offers more : List (Offer α)) :
    takenOf (offers ++ more) = takenOf offers ++ takenOf more := by
  simp [takenOf]

/-- What is left of the task of an input whose stream has stopped at this point. -/
def inputJob [Host σ] (place : Place σ (Hub α)) (index : Nat) (cursor : Cursor σ α) : Job σ :=
  ⟨cursor.wait, fun state => feedTask place index (cursor.resume state)⟩

section turn

variable [Host σ] (place : Place σ (Hub α)) (index : Nat)

/-- What the task of an input offers in a turn, until it has to wait or is over. -/
def offers : Items σ α → List (Offer α)
  | .item value rest _ state =>
      match deliver place value state with
      | (true, after) => ⟨index, value, true⟩ :: offers (rest after)
      | (false, _) => [⟨index, value, false⟩]
  | .ended _ => []
  | .panic _ _ _ => []
  | .waiting _ _ _ => []
  | .spawn _ rest state => offers (rest state)

/-- Where that turn leaves the stream, unless the task is over and the stream is dropped. -/
def remains : Items σ α → Option (Cursor σ α)
  | .item value rest _ state =>
      match deliver place value state with
      | (true, after) => remains (rest after)
      | (false, _) => none
  | .ended _ => none
  | .panic _ _ _ => none
  | .waiting wait resume _ => some ⟨wait, resume⟩
  | .spawn _ rest state => remains (rest state)

theorem job_feedTask (items : Items σ α) :
    (feedTask place index items).job = (remains place items).map (inputJob place index) := by
  induction items with
  | item value rest release state ih =>
    simp only [feedTask, Items.toTask, remains]
    rcases deliver place value state with ⟨_ | _, after⟩
    · rfl
    · exact ih after
  | ended | panic | waiting => rfl
  | spawn child rest state ih => exact ih state

/-- The turn of an input whose consumer is gone, at this node of its stream: what it offers, what is
left of its task, and the state after it. For as long as the stream gives nothing the task goes on
with it. The first item, which is refused, is the last one: the stream is dropped there and then. -/
inductive Lingers : Items σ α → List (Offer α) → Option (Job σ) → σ → Prop where
  | waits {wait resume state} :
      Lingers (.waiting wait resume state) [] (some (inputJob place index ⟨wait, resume⟩)) state
  | ends {state} :
      Lingers (.ended state) [] none (place.modify (Hub.checkOut index none) state)
  | panics {payload release state} :
      Lingers (.panic payload release state) [] none
        (place.modify (Hub.checkOut index (some payload)) (release state))
  | refused {value rest release state} :
      Lingers (.item value rest release state) [⟨index, value, false⟩] none
        (place.modify (Hub.checkOut index none)
          (release (Host.trace .inputStopped (place.set (place.get state) state))))
  | spawns {child rest state offered job after} (lingers : Lingers (rest state) offered job after) :
      Lingers (.spawn child rest state) offered job after

end turn

section facts

variable {place : Place σ (Hub α)} {cancellation : Cancellation σ}

/-- What has happened to the hub and the flag when an input has handed over these items. -/
structure Serves (place : Place σ (Hub α)) (cancellation : Cancellation σ) (before : σ)
    (values : List α) (after : σ) : Prop where
  queue : (place.get after).queue.toList = (place.get before).queue.toList ++ values
  attached : (place.get after).attached = (place.get before).attached
  flag : (cancellation.flag.get before).Becomes (cancellation.flag.get after)

namespace Serves

variable {before between after : σ} {values more : List α}

theorem trans (first : Serves place cancellation before values between)
    (second : Serves place cancellation between more after) :
    Serves place cancellation before (values ++ more) after where
  queue := by rw [second.queue, first.queue, List.append_assoc]
  attached := second.attached.trans first.attached
  flag := first.flag.trans second.flag

theorem ofSpares (spares : Spares place cancellation before after) :
    Serves place cancellation before [] after where
  queue := by rw [spares.hub, List.append_nil]
  attached := by rw [spares.hub]
  flag := spares.flag

end Serves

variable [Host σ] {index : Nat}

theorem Lingers.refuses {items : Items σ α} {offered : List (Offer α)} {job : Option (Job σ)}
    {after : σ} (lingers : Lingers place index items offered job after) :
    offered = [] ∨ ∃ value, offered = [⟨index, value, false⟩] ∧ job = none := by
  induction lingers with
  | waits | ends | panics => exact .inl rfl
  | refused => exact .inr ⟨_, rfl, rfl⟩
  | spawns _ ih => exact ih

/-- A turn of an input without a consumer. -/
theorem ItemsSpare.lingers {start : σ} {items : Items σ α}
    (spares : ItemsSpare place cancellation start items)
    (gone : (place.get start).attached = false) :
    Lingers place index items (offers place index items) (feedTask place index items).job
      (feedTask place index items).state := by
  induction spares with
  | @item start value rest release state spares =>
    have refuses : deliver place value state =
        (false, Host.trace .inputStopped (place.set (place.get state) state)) := by
      rw [deliver_eq, if_neg (by rw [spares.hub, gone]; exact Bool.false_ne_true)]
    simp only [feedTask, Items.toTask, offers, refuses]
    exact .refused
  | ended => exact .ends
  | panic => exact .panics
  | waiting => exact .waits
  | spawn spares _ ih => exact .spawns (ih _ (by rw [spares.hub, gone]))

theorem Serves.checkOut (apart : Apart place cancellation) (payload : Option Payload) (state : σ) :
    Serves place cancellation state []
      (place.modify (Hub.checkOut index payload) state) := by
  obtain ⟨hub, flag⟩ := apart.modify (Hub.checkOut index payload) state
  refine ⟨?_, ?_, flag ▸ .refl⟩ <;> rw [hub]
  · exact (List.append_nil _).symm
  · rfl

/-- A turn of an input, whether the consumer is there or not. -/
theorem ItemsSpare.serves (apart : Apart place cancellation) {start : σ} {items : Items σ α}
    (spares : ItemsSpare place cancellation start items) :
    Serves place cancellation start (takenOf (offers place index items))
      (feedTask place index items).state := by
  induction spares with
  | @item start value rest release state spares releases _ ih =>
    refine (Serves.ofSpares spares).trans ?_
    simp only [feedTask, Items.toTask, offers]
    rw [deliver_eq]
    by_cases attached : (place.get state).attached = true
    · rw [if_pos attached]
      have pushed : Serves place cancellation state [value]
          (place.set ((place.get state).enqueue value).notify state) := by
        refine ⟨?_, ?_, apart.flag_set _ state ▸ .refl⟩ <;> rw [place.get_set]
        · exact Hub.toList_enqueue _ value
        · rfl
      exact pushed.trans (ih _)
    · rw [if_neg attached]
      have stops : Spares place cancellation state
          (Host.trace .inputStopped (place.set (place.get state) state)) :=
        ⟨(apart.hub_trace _ _).trans (place.get_set _ _),
          (apart.flag_trace _ _).trans (apart.flag_set _ state) ▸ .refl⟩
      exact (Serves.ofSpares (stops.trans (releases _))).trans (.checkOut apart _ _)
  | ended spares => exact (Serves.ofSpares spares).trans (.checkOut apart _ _)
  | panic spares releases =>
    exact (Serves.ofSpares (spares.trans (releases _))).trans (.checkOut apart _ _)
  | waiting spares => exact .ofSpares spares
  | spawn spares _ ih => exact (Serves.ofSpares spares).trans (ih _)

/-- What is left of a stream that spares the hub spares it too. -/
theorem ItemsSpare.resumes {start : σ} {items : Items σ α}
    (spares : ItemsSpare place cancellation start items) {cursor : Cursor σ α}
    (left : remains place items = some cursor) (state : σ) :
    ItemsSpare place cancellation state (cursor.resume state) := by
  induction spares with
  | @item start value rest release before spares releases resumes ih =>
    simp only [remains] at left
    rcases delivered : deliver place value before with ⟨_ | _, after⟩ <;>
      rw [delivered] at left
    · cases left
    · exact ih after left
  | ended | panic => cases left
  | waiting spares resumes =>
    obtain rfl := Option.some.inj left
    exact resumes state
  | spawn spares resumes ih => exact ih _ left

end facts

end Deferred.Merge
