import Deferred.Proofs.Merge.Departure

/-! What a merged run delivers. What an input of a program has pulled from its stream are items of a
run of its feed, and while the consumer is there all of them are enqueued. A poll that ends a run
which was not cancelled finds the queue empty and all streams at their end: what was yielded by then
is an interleaving of all items of all inputs. -/

namespace Deferred

variable {σ α : Type}

/-- Where the stream of a feed stands that has offered these items to the hub. When it was dropped
at an item that the hub did not take, that item is the last one. -/
inductive Feed.Streams (feed : Feed σ α) :
    List (Merge.Offer α) → Option (Cursor σ α) → Prop where
  | runs {offers cursor} (gives : feed.Gives (offers.map (·.value)) cursor)
      (taken : ∀ offer ∈ offers, offer.taken = true) : Streams feed offers (some cursor)
  | finishes {offers} (finishes : feed.Finishes (offers.map (·.value)))
      (taken : ∀ offer ∈ offers, offer.taken = true) : Streams feed offers none
  | panics {offers payload} (panics : feed.Panics (offers.map (·.value)) payload)
      (taken : ∀ offer ∈ offers, offer.taken = true) : Streams feed offers none
  | stops {offers last cursor} (gives : feed.Gives ((offers ++ [last]).map (·.value)) cursor)
      (taken : ∀ offer ∈ offers, offer.taken = true) (refused : last.taken = false) :
      Streams feed (offers ++ [last]) none

namespace Merge

theorem takenOf_eq_map {offers : List (Offer α)} (taken : ∀ offer ∈ offers, offer.taken = true) :
    takenOf offers = offers.map (·.value) := by
  rw [takenOf, List.filter_eq_self.mpr taken]

end Merge

namespace Feed.Streams

variable {feed : Feed σ α} {offers : List (Merge.Offer α)} {stream : Option (Cursor σ α)}

theorem gives (streams : feed.Streams offers stream) :
    ∃ cursor, feed.Gives (offers.map (·.value)) cursor := by
  cases streams with
  | runs gives | stops gives => exact ⟨_, gives⟩
  | finishes finishes => obtain ⟨cursor, _, _, gives, _⟩ := finishes; exact ⟨cursor, gives⟩
  | panics panics => obtain ⟨cursor, _, _, _, gives, _⟩ := panics; exact ⟨cursor, gives⟩

theorem takenOf_prefix (streams : feed.Streams offers stream) :
    Merge.takenOf offers <+: offers.map (·.value) := by
  cases streams with
  | runs _ taken | finishes _ taken | panics _ taken =>
    exact Merge.takenOf_eq_map taken ▸ List.prefix_rfl
  | @stops offers last _ _ taken refused =>
    have none : Merge.takenOf [last] = [] := by simp [Merge.takenOf, refused]
    rw [Merge.takenOf_append, none, List.append_nil, Merge.takenOf_eq_map taken, List.map_append]
    exact List.prefix_append _ _

/-- A stream that is over and was not dropped at an item has ended with its feed. -/
theorem ends (streams : feed.Streams offers none)
    (taken : ∀ offer ∈ offers, offer.taken = true) :
    feed.Finishes (offers.map (·.value)) ∨
      ∃ payload, feed.Panics (offers.map (·.value)) payload := by
  cases streams with
  | finishes finishes => exact .inl finishes
  | panics panics => exact .inr ⟨_, panics⟩
  | stops _ _ refused =>
    rw [taken _ (List.mem_append_right _ List.mem_cons_self)] at refused
    cases refused

/-- A turn of an input is a piece of the run of its feed. -/
theorem turn [Host σ] (place : Place σ (Hub α)) (index : Nat) {cursor : Cursor σ α} {state : σ}
    (streams : feed.Streams offers (some cursor)) (opens : cursor.wait.opens state = true) :
    feed.Streams (offers ++ Merge.offers place index (cursor.resume state))
      (Merge.remains place (cursor.resume state)) := by
  generalize node : cursor.resume state = items
  induction items generalizing offers cursor state with
  | item value rest release after ih =>
    cases streams with
    | runs gives taken =>
      have given := gives.item opens node
      simp only [Merge.offers, Merge.remains]
      rcases Merge.deliver place value after with ⟨_ | _, left⟩ <;> dsimp only
      · exact .stops (by rw [List.map_append]; exact given) taken rfl
      · have runs : feed.Streams (offers ++ [⟨index, value, true⟩]) (some (Flow.cursor rest)) := by
          refine .runs (by rw [List.map_append]; exact given) fun offer member => ?_
          rcases List.mem_append.mp member with old | new
          · exact taken offer old
          · rw [List.mem_singleton.mp new]
        have later := ih left runs rfl rfl
        rw [List.append_assoc] at later
        exact later
  | ended after =>
    cases streams with
    | runs gives taken =>
      rw [Merge.offers, List.append_nil]
      exact .finishes ⟨cursor, state, after, gives, opens, node⟩ taken
  | panic payload release after =>
    cases streams with
    | runs gives taken =>
      rw [Merge.offers, List.append_nil]
      exact .panics ⟨cursor, state, release, after, gives, opens, node⟩ taken
  | waiting wait resume after =>
    cases streams with
    | runs gives taken =>
      rw [Merge.offers, List.append_nil]
      exact .runs (gives.waiting opens node) taken
  | spawn child rest after ih =>
    cases streams with
    | runs gives taken =>
      have runs : feed.Streams offers (some (Flow.cursor rest)) :=
        .runs (gives.spawn opens node) taken
      exact ih after runs rfl rfl

end Feed.Streams

namespace Merge

section offers

variable [Host σ] {place : Place σ (Hub α)} {cancellation : Cancellation σ}

theorem index_of_mem_offers {index : Nat} {items : Items σ α} {offer : Offer α}
    (member : offer ∈ offers place index items) : offer.index = index := by
  induction items with
  | item value rest release state ih =>
    simp only [offers] at member
    rcases delivered : deliver place value state with ⟨_ | _, after⟩ <;> rw [delivered] at member
    · rw [List.mem_singleton.mp member]
    · rcases List.mem_cons.mp member with rfl | member
      · rfl
      · exact ih after member
  | ended | panic | waiting => cases member
  | spawn child rest state ih => exact ih state member

/-- While the consumer is there the hub takes all that is offered. -/
theorem ItemsSpare.takes {index : Nat} {start : σ} {items : Items σ α}
    (spares : ItemsSpare place cancellation start items)
    (attached : (place.get start).attached = true) :
    ∀ offer ∈ offers place index items, offer.taken = true := by
  induction spares with
  | @item start value rest release state spares _ _ ih =>
    have there : (place.get state).attached = true := by rw [spares.hub]; exact attached
    intro offer member
    simp only [offers] at member
    rw [deliver_eq, if_pos there] at member
    rcases List.mem_cons.mp member with rfl | member
    · rfl
    · refine ih _ ?_ offer member
      rw [place.get_set]
      exact there
  | ended | panic | waiting =>
    intro offer member
    cases member
  | spawn spares _ ih => exact ih _ (by rw [spares.hub]; exact attached)

end offers

/-! ### Programs -/

namespace Chronicle

/-- The items of this input that were enqueued. -/
def enqueuedOf (now : Chronicle σ α) (index : Nat) : List α :=
  takenOf (now.offers.filter (·.index == index))

/-- What is offered comes from the streams of the feeds. -/
structure Traced (feeds : List (Feed σ α)) (now : Chronicle σ α) : Prop where
  known : ∀ offer ∈ now.offers, offer.index < now.streams.length
  streams : ∀ (index : Nat) (feed : Feed σ α) (stream : Option (Cursor σ α)),
    feeds[index]? = some feed → now.streams[index]? = some stream →
      feed.Streams (now.offers.filter (·.index == index)) stream
  taken : ∀ cursor, now.consumer = some cursor → ∀ offer ∈ now.offers, offer.taken = true

/-- A program that has lost, repeated and reordered nothing. -/
structure Faithful [Host σ] (place : Place σ (Hub α)) (cancellation : Cancellation σ)
    (feeds : List (Feed σ α)) (now : Chronicle σ α) : Prop where
  /-- What was ever enqueued is what was yielded followed by what is queued. -/
  conserved : now.enqueued = now.yielded ++ (place.get now.state).queue.toList
  known : ∀ offer ∈ now.offers, offer.index < feeds.length
  /-- What an input has pulled are items of a run of its feed, and the beginning of it was
  enqueued. -/
  inputs : ∀ (index : Nat) (feed : Feed σ α), feeds[index]? = some feed →
    (∃ cursor, feed.Gives (now.pulled index) cursor) ∧ now.enqueuedOf index <+: now.pulled index
  /-- When a poll ends a run that was not cancelled, all items of all inputs were yielded. -/
  complete : ∀ cursor, now.consumer = some cursor → (cursor.poll now.state).cursor = none →
    cancellation.isCancelled now.state = false →
      (∀ (index : Nat) (feed : Feed σ α), feeds[index]? = some feed →
        feed.Finishes (now.pulled index) ∨ ∃ payload, feed.Panics (now.pulled index) payload) ∧
      (cursor.poll now.state).yields = [] ∧
      Interleaves ((List.range feeds.length).map now.pulled) now.yielded

theorem Traced.nothing {feeds : List (Feed σ α)} {now : Chronicle σ α} (traced : now.Traced feeds)
    (none : now.streams = []) : now.offers = [] := by
  refine List.eq_nil_iff_forall_not_mem.mpr fun offer member => ?_
  have bound := traced.known offer member
  rw [none] at bound
  exact absurd bound (Nat.not_lt_zero _)

theorem Traced.inputs {feeds : List (Feed σ α)} {now : Chronicle σ α} (traced : now.Traced feeds)
    {index : Nat} {feed : Feed σ α} (found : feeds[index]? = some feed) :
    (∃ cursor, feed.Gives (now.pulled index) cursor) ∧
      now.enqueuedOf index <+: now.pulled index := by
  rcases there : now.streams[index]? with _ | stream
  · have none : now.offers.filter (·.index == index) = [] := by
      refine List.filter_eq_nil_iff.mpr fun offer member same => ?_
      have bound := traced.known offer member
      have beyond := List.getElem?_eq_none_iff.mp there
      rw [beq_iff_eq.mp same] at bound
      omega
    unfold pulled enqueuedOf
    rw [none]
    exact ⟨⟨_, .start⟩, List.prefix_rfl⟩
  · have streams := traced.streams index feed stream found there
    exact ⟨streams.gives, streams.takenOf_prefix⟩

section traced

variable [Host σ] {place : Place σ (Hub α)} {cancellation : Cancellation σ}
  {feeds : List (Feed σ α)} {now next : Chronicle σ α} {run : Run σ α}

theorem Traced.consumer (traced : now.Traced feeds)
    (sound : now.Sound place cancellation feeds) {cursor : Cursor σ α}
    (here : now.consumer = some cursor) {state : σ} {consumer : Option (Cursor σ α)}
    {tasks : List (Option (Job σ))} {yielded : List α} {polls : Nat} :
    Traced feeds { now with
      state, consumer, tasks, yielded, polls
      streams :=
        if now.polls = 0 then feeds.map fun feed => some feed.flow.cursor else now.streams } := by
  split
  case isTrue none =>
    have nothing := traced.nothing (sound.fresh none).1
    refine ⟨?_, fun index feed stream found there => ?_, ?_⟩ <;> dsimp only at * <;> rw [nothing]
    · nofun
    · rw [List.getElem?_map, found] at there
      obtain rfl := Option.some.inj there
      exact .runs .start nofun
    · nofun
  case isFalse begun =>
    exact ⟨traced.known, traced.streams, fun _ _ => traced.taken cursor here⟩

theorem Traced.input (traced : now.Traced feeds) (sound : now.Sound place cancellation feeds)
    (reached : Reachable feeds run) (shows : now.toProgram.Shows place cancellation feeds run)
    {index : Nat} {cursor : Cursor σ α}
    (here : now.streams[index]? = some (some cursor)) (opens : cursor.wait.opens now.state = true)
    {state : σ} {tasks : List (Option (Job σ))} :
    Traced feeds { now with
      state, tasks
      streams := now.streams.set index (remains place (cursor.resume now.state))
      offers := now.offers ++ Merge.offers place index (cursor.resume now.state) } where
  known offer member := by
    rw [List.length_set]
    rcases List.mem_append.mp member with old | new
    · exact traced.known offer old
    · rw [index_of_mem_offers new]
      exact (List.getElem?_eq_some_iff.mp here).1
  streams other feed stream found there := by
    have own (offer) (member : offer ∈ Merge.offers place index (cursor.resume now.state)) :
        offer.index = index := index_of_mem_offers member
    rw [List.filter_append]
    rcases getElem?_set_eq_some there with ⟨rfl, rfl⟩ | ⟨apart, there⟩
    · rw [List.filter_eq_self.mpr fun offer member => beq_iff_eq.mpr (own offer member)]
      exact (traced.streams index feed _ found here).turn place index opens
    · have none : (Merge.offers place index (cursor.resume now.state)).filter
          (·.index == other) = [] :=
        List.filter_eq_nil_iff.mpr fun offer member same =>
          apart ((own offer member).symm.trans (beq_iff_eq.mp same))
      rw [none, List.append_nil]
      exact traced.streams other feed stream found there
  taken consumer there offer member := by
    rcases List.mem_append.mp member with old | new
    · exact traced.taken consumer there offer old
    · have attached := shows.attached reached there
      exact (sound.spares index cursor here now.state).takes attached offer new

theorem Turn.traced (traced : now.Traced feeds) (sound : now.Sound place cancellation feeds)
    (reached : Reachable feeds run) (shows : now.toProgram.Shows place cancellation feeds run)
    (turn : Turn place cancellation feeds now next) : next.Traced feeds := by
  cases turn with
  | consumer here => exact traced.consumer sound here
  | input here task opens => exact traced.input sound reached shows here opens
  | supervisor | other => exact ⟨traced.known, traced.streams, traced.taken⟩
  | drop => exact ⟨traced.known, traced.streams, nofun⟩

theorem Turns.traced (apart : Apart place cancellation)
    (spares : ∀ feed ∈ feeds, ∀ state, ItemsSpare place cancellation state (feed.flow state))
    {state : σ} (new : place.get state = .new)
    (flag : Flag.lowered.Becomes (cancellation.flag.get state))
    (turns : Turns place cancellation feeds (.start (flow place feeds cancellation) state) now) :
    now.Traced feeds := by
  induction turns with
  | refl => exact ⟨nofun, nofun, nofun⟩
  | tail earlier turn ih =>
    obtain ⟨run, reached, shows⟩ := Program.exists_run apart spares new flag (Turns.program earlier)
    exact turn.traced ih (Turns.sound apart spares new flag earlier) reached shows

/-- What a poll that ends an uncancelled run has found. -/
theorem Traced.complete (apart : Apart place cancellation) (traced : now.Traced feeds)
    (sound : now.Sound place cancellation feeds) (reached : Reachable feeds run)
    (shows : now.toProgram.Shows place cancellation feeds run) {cursor : Cursor σ α}
    (here : now.consumer = some cursor) (ended : (cursor.poll now.state).cursor = none)
    (lowered : cancellation.isCancelled now.state = false) :
    (∀ (index : Nat) (feed : Feed σ α), feeds[index]? = some feed →
      feed.Finishes (now.pulled index) ∨ ∃ payload, feed.Panics (now.pulled index) payload) ∧
    Interleaves ((List.range feeds.length).map now.pulled) now.yielded := by
  obtain ⟨marked, empty⟩ := (sound.closes apart).drains cursor here lowered ended
  have finished := shows.supervisor_over reached marked
  have begun : 0 < now.polls := Nat.pos_of_ne_zero fun none => by
    rw [(sound.fresh none).2.1] at finished
    cases finished
  have taken := traced.taken cursor here
  refine ⟨fun index feed found => ?_, ?_⟩
  · have bound := (List.getElem?_eq_some_iff.mp found).1
    rw [← (sound.begun begun).1] at bound
    have there := List.getElem?_eq_getElem bound
    rw [sound.streams_over reached shows finished _ (List.getElem_mem bound)] at there
    exact (traced.streams index feed none found there).ends fun offer member =>
      taken offer (List.mem_filter.mp member).1
  · have kept := sound.kept
    rw [empty, List.append_nil, enqueued, takenOf_eq_map taken] at kept
    have all : (now.offers.map fun offer => (offer.index, offer.value)).map Prod.snd =
        now.yielded := by
      rw [List.map_map]
      exact kept
    rw [← all]
    refine interleaves_of_tagged _ (fun entry member => ?_) fun index part found => ?_
    · obtain ⟨offer, offered, rfl⟩ := List.mem_map.mp member
      have bound := traced.known offer offered
      rw [(sound.begun begun).1] at bound
      simpa using bound
    · rw [List.getElem?_map, Option.map_eq_some_iff] at found
      obtain ⟨other, there, rfl⟩ := found
      obtain ⟨-, rfl⟩ := List.getElem?_eq_some_iff.mp there
      simp [itemsOf, pulled, List.filter_map, Function.comp_def]

/-- Whatever the order of its turns, a program delivers what its feeds give. -/
theorem Turns.faithful (apart : Apart place cancellation)
    (spares : ∀ feed ∈ feeds, ∀ state, ItemsSpare place cancellation state (feed.flow state))
    {state : σ} (new : place.get state = .new)
    (flag : Flag.lowered.Becomes (cancellation.flag.get state))
    (turns : Turns place cancellation feeds (.start (flow place feeds cancellation) state) now) :
    now.Faithful place cancellation feeds := by
  obtain ⟨run, reached, shows⟩ := Program.exists_run apart spares new flag (Turns.program turns)
  have sound := Turns.sound apart spares new flag turns
  have traced := Turns.traced apart spares new flag turns
  refine ⟨sound.kept, fun offer member => ?_, fun index feed found => traced.inputs found,
    fun cursor here ended lowered => ?_⟩
  · have bound := traced.known offer member
    rwa [(sound.begun (sound.begun_of_stream (List.getElem?_eq_getElem bound))).1] at bound
  · obtain ⟨ends, whole⟩ := traced.complete apart sound reached shows here ended lowered
    refine ⟨ends, ?_, whole⟩
    obtain ⟨-, empty⟩ := (sound.closes apart).drains cursor here lowered ended
    have opens : cursor.wait.opens now.state = true := by
      refine Classical.byContradiction fun closed => ?_
      rw [Cursor.poll_of_closed closed] at ended
      cases ended
    have before := sound.kept
    have after := ((Turn.consumer here opens).sound apart spares reached shows sound).kept
    rw [empty, List.append_nil] at before
    have same : now.enqueued =
        now.yielded ++ (cursor.resume now.state).yields ++ _ := after
    rw [before, List.append_assoc, List.self_eq_append_right] at same
    rw [Cursor.poll_of_opens opens]
    exact (List.append_eq_nil_iff.mp same).1

end traced

end Chronicle

/-- Nothing is lost, repeated or reordered, however the steps of a merged run follow each other, and
however a program takes its turns: each program has a chronicle, and what any chronicle tells is
what the feeds have given. -/
theorem items_conserved_in_order (feeds : List (Feed σ α)) :
    (∀ run, Reachable feeds run → run.Faithful feeds) ∧
    ∀ [Host σ] (place : Place σ (Hub α)) (cancellation : Cancellation σ) (state : σ),
      Apart place cancellation →
      (∀ feed ∈ feeds, ∀ s, ItemsSpare place cancellation s (feed.flow s)) →
      place.get state = .new → Flag.lowered.Becomes (cancellation.flag.get state) →
      (∀ program, Program.Turns place cancellation
        (.start (flow place feeds cancellation) state) program →
          ∃ now : Chronicle σ α, now.toProgram = program ∧ Chronicle.Turns place cancellation feeds
            (.start (flow place feeds cancellation) state) now) ∧
      ∀ now, Chronicle.Turns place cancellation feeds
        (.start (flow place feeds cancellation) state) now →
          now.Faithful place cancellation feeds := by
  refine ⟨fun run reached => reached.faithful, ?_⟩
  intro host place cancellation state apart spares new flag
  exact ⟨fun program turns => Chronicle.exists_turns apart spares new flag turns,
    fun now turns => Chronicle.Turns.faithful apart spares new flag turns⟩

namespace Desk

/-- The supervisor has closed the hub and the consumer has yielded both items. -/
theorem turns_drained : ∃ now : Chronicle Desk Nat,
    Chronicle.Turns hub token feeds (.start (flow hub feeds token) opened) now ∧
    now.yielded = [7, 8] ∧ token.isCancelled now.state = false ∧
    ∃ cursor, now.consumer = some cursor ∧ (cursor.poll now.state).cursor = none := by
  have closed := (turns_waiting.tail turn_pushed).tail
    (@Chronicle.Turn.supervisor _ _ _ hub token feeds pushed _ rfl rfl)
  have drained := (closed.tail (.consumer rfl rfl)).tail (.consumer rfl rfl)
  exact ⟨_, drained, rfl, rfl, _, rfl, rfl⟩

end Desk

open Desk in
theorem two_items_conserved :
    (∀ input ∈ (Run.complete 7 : Run Unit Nat).inputs, input.Completed) ∧
      Interleaves [[7]] (Run.complete 7 : Run Unit Nat).yielded ∧
    ∃ (now : Chronicle Desk Nat) (cursor : Cursor Desk Nat),
      Chronicle.Turns hub token feeds (.start (flow hub feeds token) opened) now ∧
      now.consumer = some cursor ∧ (cursor.poll now.state).cursor = none ∧
      now.enqueued = now.yielded ++ (hub.get now.state).queue.toList ∧
      now.yielded = [7, 8] ∧ Interleaves [now.pulled 0] now.yielded := by
  obtain ⟨now, told, yielded, lowered, cursor, here, ended⟩ := turns_drained
  obtain ⟨steps, -⟩ := items_conserved_in_order ([.single 7] : List (Feed Unit Nat))
  obtain ⟨-, completed, interleaves⟩ := (steps _ (Reachable.complete 7 ())).complete rfl
  obtain ⟨-, programs⟩ := items_conserved_in_order feeds
  have faithful := (programs hub token opened apart spares rfl .refl).2 now told
  obtain ⟨-, -, whole⟩ := faithful.complete cursor here ended lowered
  exact ⟨completed, interleaves, now, cursor, told, here, ended, faithful.conserved, yielded, whole⟩

end Merge
end Deferred
