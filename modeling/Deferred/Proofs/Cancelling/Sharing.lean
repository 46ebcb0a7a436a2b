import Deferred.Proofs.Cancelling.Handles

/-! Cancellations are shared, permanent and never missed. Whoever has a handle sees at once what was
cancelled through any handle of the same origin, and nothing else; once cancelled, it stays so; and
a wait ends in the next turn that it has after the flag was raised, but never before. -/

namespace Deferred.Cancelling

variable {σ : Type} [Host σ]

/-- What a turn in this state makes of the wait. -/
def Watch.outlook (watch : Watch σ) (state : σ) : Option (Running σ Unit) :=
  watch.watching.outlook watch.source.cancellation state

namespace Program

variable {flags : Flags σ} {now next later : Program σ}

/-! ### What turns leave as it was -/

theorem Turn.grows (turn : Turn flags now next) :
    now.copies <+: next.copies ∧ now.cancels <+: next.cancels := by
  cases turn with
  | token | scope | copy | surround | lend =>
    exact ⟨List.prefix_append _ _, List.prefix_rfl⟩
  | cancel => exact ⟨List.prefix_rfl, List.prefix_append _ _⟩
  | begin | poll | note | test | drop | other => exact ⟨List.prefix_rfl, List.prefix_rfl⟩

theorem Turns.grows (turns : Turns flags now later) :
    now.copies <+: later.copies ∧ now.cancels <+: later.cancels := by
  induction turns with
  | refl => exact ⟨List.prefix_rfl, List.prefix_rfl⟩
  | tail _ turn ih => exact ⟨ih.1.trans turn.grows.1, ih.2.trans turn.grows.2⟩

/-- While a wait has its turn, nobody makes a handle or cancels. -/
theorem Turn.watches_or_handles (turn : Turn flags now next) :
    next.watches = now.watches ∨ next.copies = now.copies ∧ next.cancels = now.cancels := by
  cases turn with
  | token | scope | copy | surround | lend | cancel | other => exact .inl rfl
  | begin | poll | note | test | drop => exact .inr ⟨rfl, rfl⟩

/-! ### What handles tell -/

theorem Sound.isCancelled_iff (sound : now.Sound flags) {copy : Copy σ}
    (here : copy ∈ now.copies) :
    copy.isCancelled now.state = true ↔ now.Cancelled copy.origin := by
  rw [Copy.isCancelled, Cancellation.isCancelled_eq (sound.held copy here), ← raises_pos_iff]
  exact decide_eq_true_iff

/-- A handle whose origin is younger than the program so far is cancelled by what comes after. -/
theorem Sound.cancelled_iff_of_young (sound : now.Sound flags) {more : List (Copy σ)}
    (grown : later.cancels = now.cancels ++ more) {origin : Nat}
    (young : now.copies.length ≤ origin) :
    later.Cancelled origin ↔ ∃ other ∈ more, other.origin = origin := by
  rw [cancelled_append_iff grown]
  exact or_iff_right (sound.not_cancelled_of_young young)

/-! ### What waits come to -/

theorem Sound.held_refill (sound : now.Sound flags) {copy : Copy σ} (here : copy ∈ now.copies) :
    copy.place.get (Host.refill now.state) = .raisedTimes (now.raises copy.origin) :=
  (sound.other (flags.still_allow _ _)).held copy here

theorem Sound.outlook_iff (sound : now.Sound flags) {watch : Watch σ} (here : watch ∈ now.watches)
    (pending : watch.watching.Pending) :
    watch.outlook (Host.refill now.state) = some (.answered ()) ↔
      watch.source.isCancelled now.state = true := by
  obtain ⟨source, stands⟩ := sound.watches watch here
  have held := sound.held_refill source
  rw [sound.isCancelled_iff source, ← raises_pos_iff]
  exact ⟨stands.raised_of_outlook held, stands.outlook_of_raised pending held⟩

/-- A wait that is over after a turn was over before, or its flag was raised before. -/
theorem Sound.resolved (sound : now.Sound flags) (turn : Turn flags now next) {index : Nat}
    {watch : Watch σ} (here : next.watches[index]? = some watch)
    (ended : watch.watching = .resting (.answered ())) :
    now.watches[index]? = some watch ∨ watch.source.isCancelled now.state = true := by
  rcases turn.watches_or_handles with same | ⟨copies, cancels⟩
  · rw [same] at here
    exact .inl here
  · -- A wait had its turn, so whoever has cancelled by now had cancelled before.
    obtain ⟨source, stands⟩ := (turn.sound sound).watches watch (List.mem_of_getElem? here)
    rw [copies] at source
    rw [ended] at stands
    cases stands with
    | ended raised =>
      have cancelled := raises_pos_iff.mp raised
      rw [Cancelled, cancels] at cancelled
      exact .inr ((sound.isCancelled_iff source).mpr cancelled)

theorem Sound.not_panicked (sound : now.Sound flags) {watch : Watch σ}
    (here : watch ∈ now.watches) : watch.watching ≠ .resting .panicked := by
  intro panicked
  have stands := (sound.watches watch here).2
  rw [panicked] at stands
  cases stands

/-- Nobody can tell the state of the program from this one. -/
structure Alike (now : Program σ) (state : σ) : Prop where
  told : ∀ copy ∈ now.copies, copy.isCancelled state = copy.isCancelled now.state
  outlook : ∀ watch ∈ now.watches,
    watch.outlook (Host.refill state) = watch.outlook (Host.refill now.state)

/-- To cancel what is cancelled changes nothing. -/
theorem Sound.alike_cancel (sound : now.Sound flags) {copy : Copy σ} (here : copy ∈ now.copies)
    (cancelled : now.Cancelled copy.origin) : now.Alike (copy.handle.cancel now.state).2 := by
  have soundToo := sound.cancel here
  -- The flag is raised once more, but no flag is raised that was not raised before.
  have alike (origin : Nat) : Cancelled { now with
      state := (copy.handle.cancel now.state).2
      cancels := now.cancels ++ [copy] } origin ↔ now.Cancelled origin := by
    apply (cancelled_append_iff rfl).trans
    apply or_iff_left_of_imp
    intro again
    obtain ⟨other, member, same⟩ := again
    rw [← same, List.mem_singleton.mp member]
    exact cancelled
  constructor
  case told =>
    intro other member
    rw [Bool.eq_iff_iff, sound.isCancelled_iff member]
    exact (soundToo.isCancelled_iff member).trans (alike other.origin)
  case outlook =>
    intro watch member
    obtain ⟨source, stands⟩ := sound.watches watch member
    apply stands.outlook_congr (soundToo.held_refill source) (sound.held_refill source)
    rw [raises_pos_iff, raises_pos_iff]
    exact alike watch.source.origin

/-! ### All of it -/

/-- After any turns: handles have one flag if they have one origin, and only then; a handle is
cancelled if somebody has cancelled through one of its origin, and only then; it stays cancelled;
what is made anew is cancelled by nobody but those who cancel through it or a copy of it; a wait
that goes on ends in its next turn if its flag is raised, and only then; no other turn ends it
either; and to cancel again changes nothing. -/
theorem Turns.shared_permanent_and_heard {first : σ} (reached : Turns flags (start first) now)
    (turns : Turns flags now later) :
    (∀ copy ∈ now.copies, ∀ other ∈ now.copies,
      copy.place = other.place ↔ copy.origin = other.origin) ∧
    (∀ copy ∈ now.copies,
      (copy.isCancelled now.state = true ↔ ∃ other ∈ now.cancels, other.origin = copy.origin) ∧
      copy ∈ later.copies ∧
      (copy.isCancelled now.state = true → copy.isCancelled later.state = true)) ∧
    (∃ more, later.cancels = now.cancels ++ more ∧
      ∀ copy ∈ later.copies, now.copies.length ≤ copy.origin →
        (copy.isCancelled later.state = true ↔ ∃ other ∈ more, other.origin = copy.origin)) ∧
    (∀ watch ∈ now.watches, watch.watching ≠ .resting .panicked ∧
      (watch.watching.Pending →
        (watch.outlook (Host.refill now.state) = some (.answered ()) ↔
          watch.source.isCancelled now.state = true))) ∧
    (∀ next, Turn flags now next → ∀ (index : Nat) (watch : Watch σ),
      next.watches[index]? = some watch → watch.watching = .resting (.answered ()) →
        now.watches[index]? = some watch ∨ watch.source.isCancelled now.state = true) ∧
    ∀ copy ∈ now.copies, copy.isCancelled now.state = true →
      now.Alike (copy.handle.cancel now.state).2 := by
  have sound := reached.sound (sound_start first)
  have soundLater := turns.sound sound
  obtain ⟨copies, cancels⟩ := turns.grows
  obtain ⟨more, grown⟩ := cancels
  have permanent : ∀ copy ∈ now.copies, copy.isCancelled now.state = true →
      copy.isCancelled later.state = true := by
    intro copy member told
    have cancelled := (sound.isCancelled_iff member).mp told
    have still := (cancelled_append_iff grown.symm).mpr (.inl cancelled)
    exact (soundLater.isCancelled_iff (copies.subset member)).mpr still
  refine ⟨sound.shared, ?_, ⟨more, grown.symm, ?_⟩, ?_, ?_, ?_⟩
  · intro copy member
    exact ⟨sound.isCancelled_iff member, copies.subset member, permanent copy member⟩
  · intro copy member young
    rw [soundLater.isCancelled_iff member]
    exact sound.cancelled_iff_of_young grown.symm young
  · intro watch member
    exact ⟨sound.not_panicked member, sound.outlook_iff member⟩
  · intro next turn index watch here ended
    exact sound.resolved turn here ended
  · intro copy member told
    exact sound.alike_cancel member ((sound.isCancelled_iff member).mp told)

end Program

/-! ### A token, its surroundings and another token -/

section
open Script

def sharedToken : Copy World := ⟨.token ⟨World.flagShelf.place 0⟩, 0⟩

def surroundings : Copy World := ⟨.scope ⟨⟨World.flagShelf.place 0⟩⟩, 0⟩

def otherToken : Copy World := ⟨.token ⟨World.flagShelf.place 1⟩, 2⟩

def beginner : Watch World :=
  ⟨sharedToken, .resting (.stopped .passed sharedToken.cancellation.cancelled)⟩

def listener : Watch World :=
  ⟨sharedToken, .resting (.stopped (sharedToken.cancellation.wait 0) Future.pay)⟩

/-- Two wait for the token, of whom one listens, and somebody has cancelled through the
surroundings. -/
def halfCancelled : Program World where
  state := { World.initial false with flags := ⟨#[Flag.lowered.raise, .lowered]⟩ }
  copies := [sharedToken, surroundings, otherToken]
  watches := [listener, beginner]
  cancels := [surroundings]

theorem turns_halfCancelled :
    Program.Turns World.allFlags (.start (.initial false)) halfCancelled := by
  let one : World := { World.initial false with flags := ⟨#[.lowered]⟩ }
  let two : World := { World.initial false with flags := ⟨#[.lowered, .lowered]⟩ }
  let handles := [sharedToken, surroundings, otherToken]
  have token : Program.Turn World.allFlags (.start (.initial false))
      ⟨one, [sharedToken], [], []⟩ := .token rfl
  have scope : Program.Turn World.allFlags ⟨one, [sharedToken], [], []⟩
      ⟨one, [sharedToken, surroundings], [], []⟩ := .surround List.mem_cons_self
  have fresh : Program.Turn World.allFlags ⟨one, [sharedToken, surroundings], [], []⟩
      ⟨two, handles, [], []⟩ := .token rfl
  have begins (watches : List (Watch World)) : Program.Turn World.allFlags
      ⟨two, handles, watches, []⟩ ⟨two, handles, watches ++ [beginner], []⟩ :=
    .begin List.mem_cons_self
  have listens : Program.Turn World.allFlags ⟨two, handles, [beginner, beginner], []⟩
      ⟨two, handles, [listener, beginner], []⟩ :=
    @Program.Turn.poll _ _ _ ⟨two, handles, [beginner, beginner], []⟩ 0 _ _ _ rfl rfl rfl
  have cancels : Program.Turn World.allFlags ⟨two, handles, [listener, beginner], []⟩
      halfCancelled :=
    @Program.Turn.cancel _ _ _ ⟨two, handles, [listener, beginner], []⟩ surroundings
      (List.mem_cons_of_mem _ List.mem_cons_self)
  have made := Relation.ReflTransGen.tail (.tail (.single token) scope) fresh
  exact .tail (.tail (.tail (.tail made (begins [])) (begins [beginner])) listens) cancels

/-- The one who listened has ended. -/
def resolved : Program World :=
  halfCancelled.move 0 listener (.resting (.answered ())) (Host.spend halfCancelled.state)

theorem turns_resolved : Program.Turns World.allFlags halfCancelled resolved :=
  .single (@Program.Turn.poll _ _ _ halfCancelled 0 _ _ _ rfl rfl rfl)

/-- The token sees what was done through its surroundings, and goes on seeing it; the other token
sees nothing; and both waits are due. -/
theorem cancelled_through_surroundings :
    (sharedToken.isCancelled halfCancelled.state = true ∧
      otherToken.isCancelled halfCancelled.state = false) ∧
    sharedToken.isCancelled resolved.state = true ∧
    listener.outlook (Host.refill halfCancelled.state) = some (.answered ()) ∧
    beginner.outlook (Host.refill halfCancelled.state) = some (.answered ()) := by
  obtain ⟨-, told, -, waits, -⟩ :=
    Program.Turns.shared_permanent_and_heard turns_halfCancelled turns_resolved
  obtain ⟨sharedTold, -, stays⟩ := told sharedToken List.mem_cons_self
  have cancelled := sharedTold.mpr ⟨surroundings, List.mem_cons_self, rfl⟩
  have apart : otherToken.isCancelled halfCancelled.state = false := by
    have member : otherToken ∈ halfCancelled.copies :=
      List.mem_cons_of_mem _ (List.mem_cons_of_mem _ List.mem_cons_self)
    apply Bool.eq_false_of_not_eq_true
    intro otherTold
    obtain ⟨copy, here, same⟩ := (told otherToken member).1.mp otherTold
    rw [List.mem_singleton.mp here] at same
    cases same
  have listened := (waits listener List.mem_cons_self).2 trivial
  have begun := (waits beginner (List.mem_cons_of_mem _ List.mem_cons_self)).2 trivial
  exact ⟨⟨cancelled, apart⟩, stays cancelled, listened.mpr cancelled, begun.mpr cancelled⟩

end
end Deferred.Cancelling
