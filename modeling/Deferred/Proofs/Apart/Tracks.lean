import Deferred.Proofs.Apart.Division
import Deferred.Proofs.Apart.Halves

/-! One side of two, beside the other and alone. Whenever a poll of both has come to a stop, the
half of this side stands where the side alone has come to as well, unless it is put off to the next
turn because the other side has taken from the allowance; then it is still to do what it has done
alone, at the same time. What a half waits for is due at the same time in either run. -/

namespace Deferred

variable {σ α β : Type} [Host σ]

namespace Wait

variable {wait : Wait σ} {s t : σ}

theorem Punctual.opens_iff (punctual : wait.Punctual) :
    wait.opens s = true ↔ ∃ time, wait.deadline = some time ∧ time ≤ Host.now s := by
  rw [punctual.opens, Option.any_eq_true]
  simp only [decide_eq_true_eq]

/-- Punctual waits open in states of the same time. -/
theorem Punctual.opens_eq (punctual : wait.Punctual) (same : Host.now s = Host.now t) :
    wait.opens s = wait.opens t := by
  rw [punctual.opens, punctual.opens, same]

theorem IsTurn.opens_refill (turn : wait.IsTurn) (state : σ) :
    wait.opens (Host.refill state) = true := by
  rw [turn.opens]
  show decide (0 < Host.allowance (Host.allow _ state)) = true
  rw [Host.allowance_allow]
  rfl

/-- A wait for the clock or for the next turn. -/
def Timely (wait : Wait σ) : Prop :=
  wait.Punctual ∨ wait.IsTurn

theorem Timely.punctual {time : Nat} (timely : wait.Timely) (deadline : wait.deadline = some time) :
    wait.Punctual :=
  timely.resolve_right fun turn => by cases turn.deadline.symm.trans deadline

theorem Timely.lt {time : Nat} (timely : wait.Timely) (deadline : wait.deadline = some time)
    (closed : wait.opens (Host.refill s) = false) : Host.now s < time := by
  refine Nat.not_le.mp fun past => absurd closed (ne_false_of_eq_true ?_)
  rw [(timely.punctual deadline).opens_iff]
  exact ⟨time, deadline, Nat.le_trans past (Nat.le_of_eq (Host.now_allow _ s).symm)⟩

/-- The clock does not run past what is waited for. -/
structure Reaches (wait : Wait σ) (s t : σ) : Prop where
  time : Host.now t = Host.now s ∨ wait.opens (Host.refill s) = false ∧ Host.now s ≤ Host.now t ∧
    ∀ time, wait.deadline = some time → Host.now t ≤ time

theorem Reaches.le (reaches : wait.Reaches s t) : Host.now s ≤ Host.now t := by
  rcases reaches.time with same | ⟨-, later, -⟩
  · exact Nat.le_of_eq same.symm
  · exact later

omit [Host σ] in
theorem of_earlier {first second : Option Nat} {time : Nat}
    (earliest : earlier first second = some time) :
    (first = some time ∨ second = some time) ∧ (∀ due, first = some due → time ≤ due) ∧
      ∀ due, second = some due → time ≤ due := by
  cases first <;> cases second <;> simp [earlier] at earliest ⊢ <;> omega

section
variable {first second : Wait σ} (one : first.Timely) (other : second.Timely)
include one other

theorem reaches_either (found : (first.either second).next? s = some t) :
    first.Reaches s t ∧ second.Reaches s t := by
  unfold next? at found
  dsimp only at found
  split at found
  next =>
    obtain rfl := Option.some.inj found
    exact ⟨⟨.inl (Host.now_allow _ s)⟩, ⟨.inl (Host.now_allow _ s)⟩⟩
  next closed =>
    obtain ⟨shut, closes⟩ := Bool.or_eq_false_iff.mp (Bool.eq_false_iff.mpr closed)
    obtain ⟨time, deadline, found⟩ := Option.bind_eq_some_iff.mp found
    obtain ⟨whose, leFirst, leSecond⟩ := of_earlier deadline
    have later : Host.now s < time := by
      rcases whose with deadline | deadline
      · exact one.lt deadline shut
      · exact other.lt deadline closes
    split at found
    next =>
      obtain rfl := Option.some.inj found
      have now : Host.now (Host.elapse time (Host.refill s)) = time := Host.now_elapse _ _
      rw [← now] at later leFirst leSecond
      have passes := Nat.le_of_lt later
      exact ⟨⟨.inr ⟨shut, passes, leFirst⟩⟩, ⟨.inr ⟨closes, passes, leSecond⟩⟩⟩
    next => cases found

/-- Where the clock is of no use either. -/
theorem closed_of_next_none (never : (first.either second).next? s = none) :
    (first.opens (Host.refill s) = false ∧ second.opens (Host.refill s) = false) ∧
      first.deadline = none ∧ second.deadline = none := by
  unfold next? at never
  dsimp only at never
  split at never
  next => cases never
  next closed =>
    refine ⟨Bool.or_eq_false_iff.mp (Bool.eq_false_iff.mpr closed), ?_⟩
    cases deadline : earlier first.deadline second.deadline with
    | none =>
      cases ofFirst : first.deadline <;> cases ofSecond : second.deadline <;>
        simp [earlier, ofFirst, ofSecond] at deadline ⊢
    | some time =>
      have opens : ∀ {wait : Wait σ}, wait.Timely → wait.deadline = some time →
          wait.opens (Host.elapse time (Host.refill s)) = true := by
        intro wait timely deadline
        rw [(timely.punctual deadline).opens_iff]
        exact ⟨time, deadline, Nat.le_of_eq (Host.now_elapse _ _).symm⟩
      have found : (first.either second).opens (Host.elapse time (Host.refill s)) = true := by
        rcases (of_earlier deadline).1 with whose | whose
        · exact Bool.or_eq_true_iff.mpr (.inl (opens one whose))
        · exact Bool.or_eq_true_iff.mpr (.inr (opens other whose))
      rw [show (first.either second).deadline = some time from deadline] at never
      exact absurd never (by simp [found])

end

end Wait

namespace Division

variable (division : Division σ) (joins : Prop)

/-- The same state but for the time, in a turn that has just begun. -/
structure Fresh (s t : σ) : Prop where
  left : division.left t = division.left s
  right : division.right t = division.right s
  journal : division.journal t = division.journal s
  allowance : Host.allowance t = Host.turn

theorem fresh_of_next {wait : Wait σ} {s t : σ} (found : wait.next? s = some t) :
    division.Fresh s t := by
  have refilled : division.Fresh s (Host.refill s) :=
    ⟨(division.allow _).left s, (division.allow _).right s, (division.allow _).journal s,
      Host.allowance_allow _ s⟩
  unfold Wait.next? at found
  dsimp only at found
  split at found
  next => exact Option.some.inj found ▸ refilled
  next =>
    obtain ⟨time, -, found⟩ := Option.bind_eq_some_iff.mp found
    split at found
    next =>
      obtain rfl := Option.some.inj found
      have later := division.elapse time
      exact ⟨(later.left _).trans refilled.left, (later.right _).trans refilled.right,
        (later.journal _).trans refilled.journal,
        (Host.allowance_elapse time _).trans refilled.allowance⟩
    next => cases found

/-- How a half of both, which has stopped in the state `s`, stands to the side alone, whose
computation is at this point in the state `t`. -/
inductive Tracks (s t : σ) : Half σ α → Poll σ α → Prop where
  | done {value} (left : division.left s = division.left t) (time : Host.now t ≤ Host.now s) :
      Tracks s t (.done value) (.ready value t)
  | rests {wait other resume next} (left : division.left s = division.left t)
      (time : Host.now t ≤ Host.now s) (waits : (division.likeness joins).Waits wait other)
      (resumes : ∀ i s t, (division.likeness joins).pace.alike i s t → wait.opens s = true →
        (resume s).InStep (division.likeness joins).pace (Pace.returns _) i (next t))
      (rested : Host.now t = Host.now s ∨ wait.opens s = false) :
      Tracks s t (.rests wait resume) (.waiting other next t)
  /-- Put off, while the side alone has gone on in the same turn. -/
  | late {wait resume alone} (left : division.left s = division.left t)
      (time : Host.now t = Host.now s) (patient : ¬joins) (turn : wait.IsTurn)
      (resumes : ∀ i s, (division.likeness joins).pace.alike i s t → wait.opens s = true →
        (resume s).InStep (division.likeness joins).pace (Pace.returns _) i alone) :
      Tracks s t (.rests wait resume) alone

/-- A half that is about to be polled in the state `s`, and the same poll alone. -/
def Due (s t : σ) (poll alone : Poll σ α) : Prop :=
  poll.InStep (division.likeness joins).pace (Pace.returns _)
    (division.since s t, Host.allowance s) alone

variable {division joins} {s t next : σ} {half : Half σ α} {alone : Poll σ α}

namespace Tracks

theorem left (tracks : division.Tracks joins s t half alone) :
    division.left s = division.left t := by
  cases tracks <;> assumption

theorem time (tracks : division.Tracks joins s t half alone) : Host.now t ≤ Host.now s := by
  cases tracks with
  | done _ time => exact time
  | rests _ time => exact time
  | late _ time => exact Nat.le_of_eq time

theorem timely (tracks : division.Tracks joins s t half alone) : half.wait.Timely := by
  cases tracks with
  | done => exact .inl Wait.punctual_forever
  | rests _ _ waits => exact .inl waits.first
  | late _ _ _ turn => exact .inr turn

/-- Nothing changes for a half while the other side is polled. -/
theorem keeps (tracks : division.Tracks joins s t half alone)
    (left : division.left next = division.left s) (time : Host.now next = Host.now s) :
    division.Tracks joins next t half alone := by
  cases tracks with
  | done same before => exact .done (left.trans same) (time ▸ before)
  | rests same before waits resumes rested =>
    refine .rests (left.trans same) (time ▸ before) waits resumes ?_
    rw [time, waits.first.opens_eq time]
    exact rested
  | late same now patient turn resumes =>
    exact .late (left.trans same) (now.trans time.symm) patient turn resumes

/-- A half that is not polled while the clock runs on. -/
theorem waits_on (tracks : division.Tracks joins s t half alone)
    (left : division.left next = division.left s) (reaches : half.wait.Reaches s next)
    (closed : half.wait.opens next = false) : division.Tracks joins next t half alone := by
  cases tracks with
  | done same before => exact .done (left.trans same) (Nat.le_trans before reaches.le)
  | rests same before waits resumes =>
    exact .rests (left.trans same) (Nat.le_trans before reaches.le) waits resumes (.inr closed)
  | late same now patient turn resumes =>
    rcases reaches.time with time | ⟨shut, -⟩
    · exact .late (left.trans same) (now.trans time.symm) patient turn resumes
    · exact absurd (turn.opens_refill s) (Bool.eq_false_iff.mp shut)

/-- The side alone goes on at the time at which its half is polled. -/
theorem exists_next {wait other : Wait σ} (waits : (division.likeness joins).Waits wait other)
    (before : Host.now t ≤ Host.now s) (rested : Host.now t = Host.now s ∨ wait.opens s = false)
    (reaches : wait.Reaches s next) (opens : wait.opens next = true) :
    ∃ mate, other.next? t = some mate ∧ Host.now next = Host.now mate := by
  obtain ⟨time, deadline, past⟩ := waits.first.opens_iff.mp opens
  have deadlineAlone : other.deadline = some time := waits.deadline.symm.trans deadline
  have opens_of_le : ∀ {state}, time ≤ Host.now state → wait.opens state = true :=
    fun le => waits.first.opens_iff.mpr ⟨time, deadline, le⟩
  have opensAlone : ∀ {state}, time ≤ Host.now state → other.opens state = true :=
    fun le => waits.second.opens_iff.mpr ⟨time, deadlineAlone, le⟩
  have now_refill : ∀ state : σ, Host.now (Host.refill state) = Host.now state := Host.now_allow _
  by_cases soon : time ≤ Host.now t
  · -- Both have stopped at the time that has come already, and go on in a new turn.
    have now_t : Host.now t = Host.now s :=
      rested.resolve_right (ne_false_of_eq_true (opens_of_le (Nat.le_trans soon before)))
    have now_next : Host.now next = Host.now s := by
      refine reaches.time.resolve_right fun shut => ?_
      have fresh : wait.opens (Host.refill s) = true := opens_of_le (by rw [now_refill]; omega)
      exact absurd shut.1 (ne_false_of_eq_true fresh)
    refine ⟨Host.refill t, if_pos (opensAlone ?_), ?_⟩
    · rwa [now_refill]
    · rw [now_next, now_refill, now_t]
  · have shut : other.opens (Host.refill t) ≠ true := by
      rw [Ne, waits.second.opens_iff, now_refill]
      rintro ⟨other, same, le⟩
      obtain rfl := Option.some.inj (deadlineAlone.symm.trans same)
      exact soon le
    have now_next : Host.now next = time := by
      rcases reaches.time with same | ⟨-, -, atMost⟩
      · have open_s : wait.opens s = true := opens_of_le (by omega)
        have now_t := rested.resolve_right (ne_false_of_eq_true open_s)
        exact absurd past (by omega)
      · exact Nat.le_antisymm (atMost time deadline) past
    have later : Host.now (Host.elapse time (Host.refill t)) = time := Host.now_elapse _ _
    refine ⟨Host.elapse time (Host.refill t), ?_, now_next.trans later.symm⟩
    unfold Wait.next?
    dsimp only
    rw [if_neg shut, deadlineAlone]
    exact if_pos (opensAlone (Nat.le_of_eq later.symm))

/-- A half that is polled now, when its side alone is polled as well. -/
theorem due (tracks : division.Tracks joins s t half alone)
    (left : division.left next = division.left s) (reaches : half.wait.Reaches s next)
    (opens : half.wait.opens next = true) (allowance : Host.allowance next ≤ Host.turn) :
    ∃ mate goesOn, alone.EndAlike goesOn ∧ division.journal mate = division.journal t ∧
      division.Due joins next mate (half.resume next) goesOn := by
  cases tracks with
  | done => cases opens
  | rests same before waits resumes rested =>
    obtain ⟨mate, found, time⟩ := exists_next waits before rested reaches opens
    have fresh := division.fresh_of_next found
    have there := (left.trans same).trans fresh.left.symm
    refine ⟨mate, _, Poll.endAlike_of_next found, fresh.journal, ?_⟩
    exact resumes _ next mate (alike_since there time fun _ => fresh.allowance ▸ allowance) opens
  | late same now patient turn resumes =>
    have now_next : Host.now next = Host.now s := by
      rcases reaches.time with time | ⟨shut, -⟩
      · exact time
      · exact absurd (turn.opens_refill s) (Bool.eq_false_iff.mp shut)
    refine ⟨t, alone, fun _ _ => Iff.rfl, rfl, resumes _ next ?_ opens⟩
    exact alike_since (left.trans same) (now_next.trans now.symm) fun joined =>
      absurd joined patient

end Tracks

/-- A poll comes to where the same poll alone comes to, or it is put off. With joins around it may
have to stop for lack of allowance instead. -/
theorem settles {i : (division.likeness joins).pace.Index} {poll alone : Poll σ α}
    (inStep : poll.InStep (division.likeness joins).pace (Pace.returns _) i alone) :
    (∃ half s t goesOn, poll = half.stop s ∧ alone.EndAlike goesOn ∧
      (division.likeness joins).pace.alike i s t ∧ division.Tracks joins s t half goesOn) ∨
      poll.HaltsIn ((division.likeness joins).pace.excused i) := by
  induction inStep with
  | @ready _ value _ s t ended =>
    obtain ⟨_, ⟨⟩, ⟨⟩, alike, few⟩ := ended
    have time : Host.now t = Host.now s := alike.mate.trans alike.time.symm
    exact .inl ⟨.done value, s, t, _, rfl, fun _ _ => Iff.rfl, ⟨alike, few⟩,
      .done alike.left (Nat.le_of_eq time)⟩
  | panic ended =>
    obtain ⟨_, ⟨⟩, -⟩ := ended
  | waiting alike waits resumes =>
    have time := alike.1.mate.trans alike.1.time.symm
    exact .inl ⟨.rests _ _, _, _, _, rfl, fun _ _ => Iff.rfl, alike,
      .rests alike.1.left (Nat.le_of_eq time) waits resumes (.inl time)⟩
  | spawn tasks => exact tasks.1.elim
  | excused excused => exact .inr excused
  | behind late alike resumes =>
    have time := alike.1.mate.trans alike.1.time.symm
    exact .inl ⟨.rests _ _, _, _, _, rfl, fun _ _ => Iff.rfl, alike,
      .late alike.1.left time late.1 late.2 resumes⟩
  | @ahead i other wait next s t slow alike _ ih =>
    have refilled : (division.likeness joins).pace.alike i s (Host.refill t) :=
      ⟨alike.1.refill slow.1, alike.2⟩
    have opens := slow.2.opens_refill t
    have found : wait.next? t = some (Host.refill t) := if_pos opens
    refine (ih i (Host.refill t) refilled opens).imp_left ?_
    rintro ⟨half, s, t, goesOn, stops, same, rest⟩
    exact ⟨half, s, t, goesOn, stops, (Poll.endAlike_of_next found).trans same, rest⟩

end Division
end Deferred
