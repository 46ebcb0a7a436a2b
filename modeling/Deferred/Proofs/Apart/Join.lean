import Deferred.Proofs.Apart.Meeting

/-! A join of two sides that share nothing. Run together, each side does what it does alone: it
comes to the same result, leaves its own part of the state as it does alone, and makes the same
entries at the same times. Both are done when the later one is.

What both sides do share is the allowance of a turn. A side that does one thing after the other is
at worst put off to the next turn, which has the same time. But where there is a join on one of the
sides, the order in which its own branches go on may depend on what the other side has left of the
allowance. So the allowance has to last if there are such joins. -/

namespace Deferred

variable {σ α β γ κ : Type}

section
variable [Host σ]

/-- Code that takes no time. -/
def Code.Timeless (code : Code σ α) : Prop :=
  ∀ state, Host.now (code state).2 = Host.now state

def Manner.timeless : Manner σ where
  code := Code.Timeless
  future _ _ := True
  flow _ := True
  place _ := True
  joins := True
  gates := True
  sinks := True

end

/-- The action joins two others, and combines their results in this way. -/
inductive JoinOf [Host σ] :
    {α β γ : Type} → Action σ α → Action σ β → (α → β → Future σ γ) → Action σ γ → Prop where
  | attempts {α β γ κ : Type} (left : Attempt σ α) (right : Attempt σ β)
      {keyLeft : α → Code σ κ} {keyRight : β → Code σ κ} {sameKey : κ → κ → Code σ Bool}
      {combine : α → β → Code σ γ}
      (code : Manner.timeless.Joins keyLeft keyRight sameKey combine) :
      JoinOf left right (Attempt.joinVerdicts keyLeft keyRight sameKey combine)
        (left.join right keyLeft keyRight sameKey combine)
  | searches {α β γ κ : Type} (left : Search σ α) (right : Search σ β)
      {keyLeft : α → Code σ κ} {keyRight : β → Code σ κ} {sameKey : κ → κ → Code σ Bool}
      {combine : α → β → Code σ γ}
      (code : Manner.timeless.Joins keyLeft keyRight sameKey combine) :
      JoinOf left right (Search.joinFindings keyLeft keyRight sameKey combine)
        (left.join right keyLeft keyRight sameKey combine)

variable [Host σ]

/-- A future that is ready in its first poll, and in no time. -/
def Future.AtOnce (future : Future σ α) : Prop :=
  ∀ state, ∃ result last, future state = .ready result last ∧ Host.now last = Host.now state

namespace Code.Timeless

theorem bind {code : Code σ α} {next : α → Code σ β} (timeless : code.Timeless)
    (follows : ∀ value, (next value).Timeless) : (code >>= next).Timeless := by
  intro state
  have time := timeless state
  cases first : code state with
  | mk answer after =>
    rw [first] at time
    cases answer with
    | ok value =>
      rw [Code.bind_of_ok first]
      exact (follows value after).trans time
    | error payload =>
      rw [Code.bind_of_error first]
      exact time

theorem contain {code : Code σ α} (timeless : code.Timeless) (state : σ) :
    Host.now (contain code state).2 = Host.now state := by
  have time := timeless state
  unfold Deferred.contain
  cases same : code state with
  | mk answer after =>
    rw [same] at time
    cases answer with
    | ok value => exact time
    | error payload => exact (Host.now_record _ after).trans time

theorem keysAgree {keyLeft : α → Code σ κ} {keyRight : β → Code σ κ}
    {sameKey : κ → κ → Code σ Bool} {combine : α → β → Code σ γ}
    (code : Manner.timeless.Joins keyLeft keyRight sameKey combine) (a : α) (b : β) :
    (Attempt.keysAgree keyLeft keyRight sameKey a b).Timeless :=
  bind (code.keyLeft a) fun x => bind (code.keyRight b) fun y => code.sameKey x y

end Code.Timeless

namespace Future.AtOnce

protected theorem pure (value : α) : (Pure.pure value : Future σ α).AtOnce :=
  fun state => ⟨value, state, rfl, rfl⟩

theorem contain_bind {code : Code σ α} {next : Except Error α → Future σ β}
    (timeless : code.Timeless) (follows : ∀ answer, (next answer).AtOnce) :
    (liftM (contain code) >>= next : Future σ β).AtOnce := by
  intro state
  obtain ⟨result, last, ready, time⟩ := follows (contain code state).1 (contain code state).2
  exact ⟨result, last, ready, time.trans (timeless.contain state)⟩

end Future.AtOnce

namespace JoinOf

variable {left : Action σ α} {right : Action σ β} {combine : α → β → Future σ γ}
  {joint : Action σ γ} (join : JoinOf left right combine joint)
include join

/-- Both calls, one after the other, and then both futures side by side. -/
theorem awaited {state between after : σ} {first : Future σ α} {second : Future σ β}
    (called : left.call state = (.ok first, between))
    (calls : right.call between = (.ok second, after)) :
    joint.awaited state =
      (Future.both first second after).bind fun results => combine results.1 results.2 := by
  let joined : Future σ γ := fun state =>
    (Future.both first second state).bind fun results => combine results.1 results.2
  have both : joint.call state = (.ok joined, after) := by
    cases join <;> exact (Code.bind_of_ok called).trans (Code.bind_of_ok calls)
  exact Action.awaited_of_call both

theorem atOnce (a : α) (b : β) : (combine a b).AtOnce := by
  cases join with
  | attempts _ _ code =>
    match a, b with
    | .failure _, _ => exact .pure _
    | .success _, .failure _ => exact .pure _
    | .success a, .success b =>
      refine .contain_bind (Code.Timeless.keysAgree code a b) ?_
      rintro (_ | _ | _)
      · exact .pure _
      · exact .pure _
      · exact .contain_bind (code.combine a b) fun _ => .pure _
  | searches _ _ code =>
    match a, b with
    | .failed _, _ => exact .pure _
    | .found _, .failed _ => exact .pure _
    | .absent, .failed _ => exact .pure _
    | .found _, .absent => exact .pure _
    | .absent, .found _ => exact .pure _
    | .absent, .absent => exact .pure _
    | .found a, .found b =>
      refine .contain_bind (Code.Timeless.keysAgree code a b) ?_
      rintro (_ | _ | _)
      · exact .pure _
      · exact .pure _
      · exact .contain_bind (code.combine a b) fun _ => .pure _

end JoinOf

/-- Called and awaited by itself from this state, the action comes to this result in that state. -/
def Action.RunsTo {ρ : Type} (action : Action σ ρ) (start : σ) (result : ρ) (last : σ) : Prop :=
  (action.awaited start).Ends result last

namespace Division

variable {division : Division σ} {joins : Prop}

/-- A call from two states that the side finds alike. -/
theorem exists_called {ρ : Type} {action : Action σ ρ} {s t : σ}
    (blind : action.Blind (division.likeness joins)) (left : division.left s = division.left t)
    (time : Host.now s = Host.now t) (allowance : joins → Host.allowance s ≤ Host.allowance t) :
    ∃ future after later,
      action.call s = (.ok future, after) ∧ action.call t = (.ok future, later) ∧
      future.Calm (division.likeness joins) ∧ Host.allowance after ≤ Host.allowance s ∧
      division.Alike joins (division.since s t) after later := by
  obtain ⟨future, after, later, called, again, alike, calm⟩ :=
    blind _ s t (alike_since left time allowance)
  exact ⟨future, after, later, called, again, calm, alike.2, alike.1⟩

/-- Nothing keeps the right side from its first poll. -/
theorem standsBy_first {future : Future σ α} {s t : σ}
    (calm : future.Calm (division.likeness joins)) (left : division.left s = division.left t)
    (time : Host.now s = Host.now t) (allowance : joins → Host.allowance s ≤ Host.allowance t) :
    division.StandsBy joins s t (.rests .passed future) (future t) where
  closed _ _ _ closed := by cases closed
  opened next same now _ few := by
    refine ⟨t, future t, fun _ _ => Iff.rfl, rfl, calm _ next t ?_⟩
    exact alike_since (same.trans left) (now.trans time) fun joined =>
      Nat.le_trans few (allowance joined)

end Division

namespace JoinOf

variable {division : Division σ} {joins : Prop} {left : Action σ α} {right : Action σ β}
  {combine : α → β → Future σ γ} {joint : Action σ γ}

theorem concludes (join : JoinOf left right combine joint)
    (first : left.Blind (division.likeness joins))
    (second : right.Blind (division.swap.likeness joins)) {start : σ}
    (affords : joins → (joint.awaited start).Affords) :
    division.Concludes start (joint.awaited start) (left.awaited start) (right.awaited start)
      fun results => combine results.1 results.2 := by
  obtain ⟨future, sl, _, called, again, calm, fewLeft, alike⟩ :=
    division.exists_called first (rfl : division.left start = _) rfl fun _ => Nat.le_refl _
  cases called.symm.trans again
  have untouched : division.swap.left sl = division.swap.left start := alike.right
  obtain ⟨other, sr, tr, calledRight, alone, calmRight, fewRight, alikeRight⟩ :=
    division.swap.exists_called second untouched alike.time fun _ => fewLeft
  have kept : division.left sr = division.left sl := alikeRight.right
  have mixed : division.Mixed start sr sl tr := by
    obtain ⟨ofLeft, both, single⟩ := division.journal_of_alike alike
    obtain ⟨ofRight, bothRight, singleRight⟩ := division.swap.journal_of_alike alikeRight
    have started : division.Mixed start start start start := ⟨[], by simp [itemsOf]⟩
    exact (started.add_left both single).add_right bothRight singleRight
  have due : division.Due joins sr sl (future sr) (future sl) :=
    calm _ sr sl (Division.alike_since kept alikeRight.time fun _ => fewRight)
  have waits : division.swap.StandsBy joins sr tr (.rests .passed other) (other tr) :=
    division.swap.standsBy_first calmRight alikeRight.left
      (alikeRight.time.trans alikeRight.mate.symm) alikeRight.allowance
  rw [join.awaited called calledRight] at affords ⊢
  rw [Action.awaited_of_call called, Action.awaited_of_call alone]
  rcases due.first waits mixed with meets | halts
  · exact meets.concludes affords
  · exact absurd affords (Division.not_affords_of_spent halts.bind)

/-- Each side of a join does what it does alone, from the same start: it comes to the same result,
and both leave in their own parts and in the journal what each of them leaves alone. The join is
done when the later of them is. -/
theorem runs_apart (join : JoinOf left right combine joint)
    (first : Built (.blind (division.likeness joins) joins) left)
    (second : Built (.blind (division.swap.likeness joins) joins) right) (start : σ)
    (affords : joins → (joint.awaited start).Affords) :
    (∀ a one b other, left.RunsTo start a one → right.RunsTo start b other →
      ∃ both result last, division.Joined start one other both ∧
        combine a b both = .ready result last ∧ joint.RunsTo start result last ∧
        Host.now last = max (Host.now one) (Host.now other)) ∧
      ∀ result last, joint.RunsTo start result last →
        (∃ a one, left.RunsTo start a one) ∧ ∃ b other, right.RunsTo start b other := by
  rcases join.concludes (first.blind id) (second.blind id) affords with
    ⟨a, one, b, other, both, alone, apart, joined, ends⟩ | ⟨never, side⟩
  · refine ⟨?_, fun _ _ _ => ⟨⟨a, one, alone⟩, b, other, apart⟩⟩
    intro a' one' b' other' runsLeft runsRight
    obtain ⟨rfl, rfl⟩ := alone.unique runsLeft
    obtain ⟨rfl, rfl⟩ := apart.unique runsRight
    obtain ⟨result, last, ready, time⟩ := join.atOnce a b both
    refine ⟨both, result, last, joined, ready, (ends result last).mpr ?_, time.trans joined.time⟩
    show (combine a b both).Ends result last
    rw [ready]
    exact Poll.ends_ready_iff.mpr ⟨rfl, rfl⟩
  · refine ⟨?_, fun result last runs => absurd runs (never result last)⟩
    intro a one b other runsLeft runsRight
    rcases side with neverLeft | neverRight
    · exact absurd runsLeft (neverLeft a one)
    · exact absurd runsRight (neverRight b other)

end JoinOf

/-! ### Two who write in one journal -/

inductive Note where
  | error (error : Error)
  | event (event : Event)
  | entry (entry : Nat)

/-- A host with two pages, one for each side, and a journal in which everything is dated. -/
structure Diary where
  time : Nat
  left : Nat
  journal : List (Nat × Note)
  page : Bool → List Nat

namespace Diary

def opened : Diary := ⟨0, Host.turn, [], fun _ => []⟩

instance : Host Diary where
  now := time
  allowance := left
  elapse time diary := { diary with time }
  allow left diary := { diary with left }
  record error diary :=
    { diary with journal := diary.journal ++ [(diary.time, .error error)] }
  trace event diary :=
    { diary with journal := diary.journal ++ [(diary.time, .event event)] }
  now_elapse _ _ := rfl
  now_allow _ _ := rfl
  now_record _ _ := rfl
  now_trace _ _ := rfl
  allowance_elapse _ _ := rfl
  allowance_allow _ _ := rfl
  allowance_record _ _ := rfl
  allowance_trace _ _ := rfl

/-- Each side has a page to itself. -/
def division (mine : Bool) : Division Diary where
  Left := List Nat
  Right := List Nat
  Entry := Note
  left diary := diary.page mine
  right diary := diary.page !mine
  journal := journal
  record error := ⟨fun _ => rfl, fun _ => rfl, fun _ _ _ => ⟨[.error error], rfl, rfl⟩⟩
  trace event := ⟨fun _ => rfl, fun _ => rfl, fun _ _ _ => ⟨[.event event], rfl, rfl⟩⟩
  elapse _ := ⟨fun _ => rfl, fun _ => rfl, fun _ => rfl⟩
  allow _ := ⟨fun _ => rfl, fun _ => rfl, fun _ => rfl⟩

def write (mine : Bool) (entry : Nat) (diary : Diary) : Diary :=
  { diary with
    journal := diary.journal ++ [(diary.time, .entry entry)]
    page := fun side => if side = mine then diary.page side ++ [entry] else diary.page side }

/-- Makes an entry on a page, and answers with its position. -/
def enter (mine : Bool) (entry : Nat) : Future Diary Nat :=
  fun diary => .ready (diary.page mine).length (diary.write mine entry)

/-- Empty waits, one after the other. -/
def pauses : Nat → Future Diary Unit
  | 0 => pure ()
  | count + 1 => do
      Future.sleep 0
      pauses count

/-- Makes an entry after a wait. -/
def entering (mine : Bool) (entry : Nat) (waits : Future Diary Unit) : Attempt Diary Nat :=
  .lift (pure (do waits; enter mine entry))

def pair {α β : Type} (left : Attempt Diary α) (right : Attempt Diary β) : Attempt Diary (α × β) :=
  left.join right (fun _ => pure ()) (fun _ => pure ()) (fun _ _ => pure true)
    fun a b => pure (a, b)

theorem calm_enter (joins : Prop) (mine : Bool) (entry : Nat) :
    (enter mine entry).Calm ((division mine).likeness joins) := by
  rintro i s t ⟨alike, bound⟩
  have same : s.page mine = t.page mine := alike.left
  have written : (division mine).Alike joins i.1 (s.write mine entry) (t.write mine entry) := by
    refine Division.Alike.acts alike ?_ ?_ ⟨[.entry entry], rfl, rfl⟩ ?_ ?_
    · simp [division, write, same]
    · simp [division, write]
    · exact fun _ => rfl
    · exact fun _ => rfl
  exact .ready ⟨(s.page mine).length, rfl, congrArg (Except.ok ·.length) same.symm, written, bound⟩

theorem calm_pauses {like : Likeness Diary} (count : Nat) : (pauses count).Calm like := by
  induction count with
  | zero => exact .pure ()
  | succ count ih => exact (Future.Calm.sleep 0).bind fun _ => ih

section
variable {like : Likeness Diary} {joins : Prop}

theorem built_entering {mine : Bool} {waits : Future Diary Unit}
    (calm : waits.Calm ((division mine).likeness joins)) (entry : Nat) :
    Built (.blind ((division mine).likeness joins) joins) (entering mine entry waits) := by
  have entered := calm.bind fun _ => calm_enter joins mine entry
  exact .lift (Manner.gives_pure entered.blind)

theorem built_pair {α β : Type} {left : Attempt Diary α} {right : Attempt Diary β}
    (allowed : joins) (first : Built (.blind like joins) left)
    (second : Built (.blind like joins) right) : Built (.blind like joins) (pair left right) :=
  .join allowed first second
    ⟨fun _ => .pure _, fun _ => .pure _, fun _ _ => .pure _, fun _ _ => .pure _⟩

end

theorem joinOf_pair {α β : Type} (left : Attempt Diary α) (right : Attempt Diary β) :
    JoinOf left right
      (Attempt.joinVerdicts (fun _ => pure ()) (fun _ => pure ()) (fun _ _ => pure true)
        fun a b => pure (a, b))
      (pair left right) :=
  .attempts left right ⟨fun _ _ => rfl, fun _ _ => rfl, fun _ _ _ => rfl, fun _ _ _ => rfl⟩

end Diary

theorem Diary.affords_pair :
    ((Diary.pair (Diary.entering false 1 (.sleep 5)) (Diary.pair (Diary.entering true 2 (.sleep 3))
      (Diary.entering true 3 (.sleep 1)))).awaited .opened).Affords := by
  -- The polls stop at the times 0, 1 and 3, and the last one comes to an end.
  refine ⟨Nat.succ_pos 127, ?_⟩
  rintro _ ⟨⟩
  refine ⟨Nat.succ_pos 126, ?_⟩
  rintro _ ⟨⟩
  refine ⟨Nat.succ_pos 126, ?_⟩
  rintro _ ⟨⟩
  trivial

/-- An entry after a while, and two more that the other side makes side by side. -/
theorem JoinOf.runs_apart_entered :
    let left := Diary.entering false 1 (.sleep 5)
    let right := Diary.pair (Diary.entering true 2 (.sleep 3)) (Diary.entering true 3 (.sleep 1))
    ∃ one other both result last, left.RunsTo .opened (.success 0) one ∧
      right.RunsTo .opened (.success (1, 0)) other ∧
      (Diary.division false).Joined .opened one other both ∧
      (Diary.pair left right).RunsTo .opened result last ∧ Host.now last = 5 := by
  intro left right
  have first : Built (.blind ((Diary.division false).likeness True) True) left :=
    Diary.built_entering (.sleep 5) 1
  have second : Built (.blind ((Diary.division false).swap.likeness True) True) right :=
    Diary.built_pair trivial (Diary.built_entering (.sleep 3) 2)
      (Diary.built_entering (.sleep 1) 3)
  obtain ⟨together, -⟩ := JoinOf.runs_apart (Diary.joinOf_pair left right) first second .opened
    fun _ => Diary.affords_pair
  obtain ⟨both, result, last, joined, -, runs, time⟩ := together _ _ _ _ ⟨2, rfl⟩ ⟨3, rfl⟩
  exact ⟨_, _, both, result, last, ⟨2, rfl⟩, ⟨3, rfl⟩, joined, runs, time⟩

/-- Where the left side has used up the allowance of the turn, the first wait of the right side is
put off to the next turn. What follows the wait then comes after what the other branch does,
although it comes first when the right side is alone. -/
theorem JoinOf.runs_apart_differs :
    let left := Diary.entering false 1 (Diary.pauses 128)
    let right := Diary.pair (Diary.entering true 2 (.sleep 0)) (Diary.entering true 3 (pure ()))
    let division := Diary.division false
    Built (.blind (division.likeness True) True) left ∧
      Built (.blind (division.swap.likeness True) True) right ∧
      (∃ one, left.RunsTo .opened (.success 0) one) ∧
      (∃ other, right.RunsTo .opened (.success (0, 1)) other) ∧
      (∃ last, (Diary.pair left right).RunsTo .opened (.success (0, 1, 0)) last) ∧
      ∀ last, ¬(Diary.pair left right).RunsTo .opened (.success (0, 0, 1)) last := by
  intro left right division
  have runs : ∃ last, (Diary.pair left right).RunsTo .opened (.success (0, 1, 0)) last :=
    ⟨_, 2, rfl⟩
  refine ⟨Diary.built_entering (Diary.calm_pauses 128) 1, ?_, ⟨_, 1, rfl⟩, ⟨_, 1, rfl⟩, runs, ?_⟩
  · exact Diary.built_pair trivial (Diary.built_entering (.sleep 0) 2)
      (Diary.built_entering (.pure ()) 3)
  · rintro last other
    obtain ⟨_, ends⟩ := runs
    have same := (ends.unique other).1
    cases same

end Deferred
