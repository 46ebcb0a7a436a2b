import Deferred.Proofs.Apart.Tracks
import Deferred.Proofs.Interleaves

/-! Two sides next to each other, and each of them alone. After every poll of both, each half stands
where its side alone stands, and the later of the two sides has the time of both. So both come to an
end when the later side does, and each entry of the journal is one of either side. -/

namespace Deferred

variable {σ α β : Type} [Host σ]

namespace Division

variable (division : Division σ) (joins : Prop)

/-- The journal holds the entries that both sides have made alone since the start. -/
def Mixed (start s one other : σ) : Prop :=
  ∃ entries : List (Nat × Nat × division.Entry), (∀ entry ∈ entries, entry.1 < 2) ∧
    division.journal s = division.journal start ++ entries.map Prod.snd ∧
    division.journal one = division.journal start ++ itemsOf entries 0 ∧
    division.journal other = division.journal start ++ itemsOf entries 1

/-- Both halves where they have stopped, and both sides alone. -/
structure Meeting (start : σ) (half : Half σ α) (mate : Half σ β) (s one other : σ)
    (alone : Poll σ α) (apart : Poll σ β) : Prop where
  left : division.Tracks joins s one half alone
  right : division.swap.Tracks joins s other mate apart
  time : Host.now s = max (Host.now one) (Host.now other)
  mixed : division.Mixed start s one other

/-- A half that stands by while the other side is polled, and may be polled after it. -/
structure StandsBy (s t : σ) (half : Half σ α) (alone : Poll σ α) : Prop where
  closed : ∀ next, division.left next = division.left s → Host.now next = Host.now s →
    half.wait.opens next = false → division.Tracks joins next t half alone
  opened : ∀ next, division.left next = division.left s → Host.now next = Host.now s →
    half.wait.opens next = true → Host.allowance next ≤ Host.allowance s →
    ∃ later goesOn, alone.EndAlike goesOn ∧ division.journal later = division.journal t ∧
      division.Due joins next later (half.resume next) goesOn

/-- A poll of both comes to a stop where both sides meet. -/
def Meets (start : σ) (poll : Poll σ (α × β)) (alone : Poll σ α) (apart : Poll σ β) : Prop :=
  ∃ (half : Half σ α) (mate : Half σ β) (s one other : σ) (ofLeft : Poll σ α) (ofRight : Poll σ β),
    poll = half.both mate s ∧ alone.EndAlike ofLeft ∧ apart.EndAlike ofRight ∧
      division.Meeting joins start half mate s one other ofLeft ofRight

/-- Nothing is left of the allowance where there are joins on either side. -/
def Spent (state : σ) : Prop :=
  joins ∧ Host.allowance state = 0

variable {division joins} {start s t one other : σ} {half : Half σ α} {mate : Half σ β}
  {alone : Poll σ α} {apart : Poll σ β} {entries : List (Nat × division.Entry)}

theorem Mixed.add_left (mixed : division.Mixed start s one other) {next goesOn : σ}
    (both : division.journal next = division.journal s ++ entries)
    (single : division.journal goesOn = division.journal one ++ entries) :
    division.Mixed start next goesOn other := by
  obtain ⟨before, known, whole, ofLeft, ofRight⟩ := mixed
  refine ⟨before ++ entries.map (0, ·), ?_, ?_, ?_, ?_⟩
  · intro entry member
    rcases List.mem_append.mp member with member | member
    · exact known entry member
    · obtain ⟨_, -, rfl⟩ := List.mem_map.mp member
      exact Nat.zero_lt_two
  · rw [both, whole, List.map_append, List.map_map, List.append_assoc]
    exact congrArg _ (congrArg _ (List.map_id entries).symm)
  · rw [single, ofLeft, itemsOf_append, itemsOf_tag_self, List.append_assoc]
  · rw [ofRight, itemsOf_append, itemsOf_tag_ne entries (by decide), List.append_nil]

theorem Mixed.add_right (mixed : division.Mixed start s one other) {next goesOn : σ}
    (both : division.journal next = division.journal s ++ entries)
    (single : division.journal goesOn = division.journal other ++ entries) :
    division.Mixed start next one goesOn := by
  obtain ⟨before, known, whole, ofLeft, ofRight⟩ := mixed
  refine ⟨before ++ entries.map (1, ·), ?_, ?_, ?_, ?_⟩
  · intro entry member
    rcases List.mem_append.mp member with member | member
    · exact known entry member
    · obtain ⟨_, -, rfl⟩ := List.mem_map.mp member
      exact Nat.one_lt_two
  · rw [both, whole, List.map_append, List.map_map, List.append_assoc]
    exact congrArg _ (congrArg _ (List.map_id entries).symm)
  · rw [ofLeft, itemsOf_append, itemsOf_tag_ne entries (by decide), List.append_nil]
  · rw [single, ofRight, itemsOf_append, itemsOf_tag_self, List.append_assoc]

/-- What one side adds to its journal alone is added to the journal of both. -/
theorem journal_of_alike {base : division.Base} (alike : division.Alike joins base s t) :
    ∃ entries, division.journal s = base.before ++ entries ∧
      division.journal t = base.apart ++ entries := by
  obtain ⟨entries, both, single⟩ := alike.journal
  exact ⟨_, both, single⟩

/-- The right half is polled where the left one has stopped. -/
theorem Due.beside {poll goesOn : Poll σ β} (due : division.swap.Due joins s other poll goesOn)
    (tracks : division.Tracks joins s one half alone) (mixed : division.Mixed start s one other) :
    division.Meets joins start (half.beside poll) alone goesOn ∨
      (half.beside poll).HaltsIn (Spent joins) := by
  refine (settles due).imp ?_ ?_
  · rintro ⟨mate, next, later, apart, rfl, same, ⟨alike, -⟩, right⟩
    have left : division.left next = division.left s := alike.right
    have time : Host.now next = Host.now s := alike.time
    have now : Host.now later = Host.now s := alike.mate
    have before := tracks.time
    obtain ⟨entries, both, single⟩ := journal_of_alike alike
    exact ⟨half, mate, next, one, later, alone, apart, rfl, fun _ _ => Iff.rfl, same,
      tracks.keeps left time, right, by omega, mixed.add_right both single⟩
  · intro halts
    exact half.halts_beside (halts.mono fun _ excused => ⟨excused.1, excused.2.1⟩)

theorem Meets.trans {poll : Poll σ (α × β)} {goesOn : Poll σ α} {later : Poll σ β}
    (meets : division.Meets joins start poll goesOn later) (left : alone.EndAlike goesOn)
    (right : apart.EndAlike later) : division.Meets joins start poll alone apart := by
  obtain ⟨half, mate, s, one, other, ofLeft, ofRight, stops, sameLeft, sameRight, meeting⟩ := meets
  exact ⟨half, mate, s, one, other, ofLeft, ofRight, stops, left.trans sameLeft,
    right.trans sameRight, meeting⟩

/-- Nothing is left for the right half where the left one has stopped with nothing left. -/
theorem StandsBy.after_halts (standsBy : division.swap.StandsBy joins s other mate apart)
    {i : (division.likeness joins).pace.Index} {poll : Poll σ α}
    (right : i.1.right = division.right s) (time : i.1.time = Host.now s)
    (halts : poll.HaltsIn ((division.likeness joins).pace.excused i)) :
    (mate.after poll).HaltsIn (Spent joins) := by
  induction poll with
  | ready | panic => exact False.elim halts
  | waiting wait resume next =>
    obtain ⟨joined, none, apart, alike⟩ := halts
    have alike : division.Alike joins i.1 next apart := alike
    show (mate.after ((Half.rests wait resume).stop next)).HaltsIn _
    rw [Half.after_stop]
    split
    next opens =>
      obtain ⟨_, _, -, -, due⟩ := standsBy.opened next (alike.right.trans right)
        (alike.time.trans time) opens (by omega)
      refine Poll.InStep.besideWaiting_halts due wait resume _ (fun _ late => late.1 joined) ?_ ?_
      · intro _ _ same
        exact ⟨joined, Nat.le_zero.mp (none ▸ same.2)⟩
      · intro _ excused
        exact ⟨joined, excused.2.1⟩
    next => cases mate <;> exact ⟨joined, none⟩
  | spawn child rest next ih =>
    cases mate <;> exact ih next halts

/-- The left half is polled, and the right one after it if it may. -/
theorem Due.first {poll goesOn : Poll σ α} (due : division.Due joins s one poll goesOn)
    (standsBy : division.swap.StandsBy joins s other mate apart)
    (mixed : division.Mixed start s one other) :
    division.Meets joins start (mate.after poll) goesOn apart ∨
      (mate.after poll).HaltsIn (Spent joins) := by
  rcases settles due with ⟨half, next, later, alone, rfl, same, ⟨alike, few⟩, tracks⟩ | halts
  · have right : division.right next = division.right s := alike.right
    have time : Host.now next = Host.now s := alike.time
    have now : Host.now later = Host.now s := alike.mate
    obtain ⟨entries, both, single⟩ := journal_of_alike alike
    have grown := mixed.add_left both single
    rw [Half.after_stop]
    split
    next opens =>
      obtain ⟨mine, goesOn, ends, journal, due⟩ := standsBy.opened next right time opens few
      obtain ⟨entries, known, whole, ofLeft, ofRight⟩ := grown
      have mixed : division.Mixed start next later mine :=
        ⟨entries, known, whole, ofLeft, journal.trans ofRight⟩
      exact (due.beside tracks mixed).imp_left fun meets => meets.trans same ends
    next closed =>
      have waits := standsBy.closed next right time (Bool.eq_false_iff.mpr closed)
      have before := waits.time
      exact .inl ⟨half, mate, next, later, other, alone, apart, rfl, same, fun _ _ => Iff.rfl,
        tracks, waits, by omega, grown⟩
  · exact .inr (standsBy.after_halts rfl rfl halts)

theorem Tracks.standsBy {next : σ} (tracks : division.Tracks joins s t half alone)
    (left : division.left next = division.left s) (reaches : half.wait.Reaches s next)
    (allowance : Host.allowance next ≤ Host.turn) : division.StandsBy joins next t half alone := by
  have reached : ∀ {later : σ}, Host.now later = Host.now next → half.wait.Reaches s later := by
    intro later time
    refine ⟨?_⟩
    rw [time]
    exact reaches.time
  refine ⟨?_, ?_⟩
  · intro later same time closed
    exact tracks.waits_on (same.trans left) (reached time) closed
  · intro later same time opens few
    exact tracks.due (same.trans left) (reached time) opens (Nat.le_trans few allowance)

/-- The next poll of both. -/
theorem Meeting.poll {next : σ}
    (meeting : division.Meeting joins start half mate s one other alone apart)
    (found : (half.wait.either mate.wait).next? s = some next) :
    division.Meets joins start (half.poll mate next) alone apart ∨
      (half.poll mate next).HaltsIn (Spent joins) := by
  have fresh := division.fresh_of_next found
  have full : Host.allowance next ≤ Host.turn := Nat.le_of_eq fresh.allowance
  obtain ⟨reachesLeft, reachesRight⟩ :=
    Wait.reaches_either meeting.left.timely meeting.right.timely found
  have standsBy := meeting.right.standsBy fresh.right reachesRight full
  obtain ⟨entries, known, whole, ofLeft, ofRight⟩ := meeting.mixed
  unfold Half.poll
  split
  next opens =>
    obtain ⟨mine, goesOn, ends, journal, due⟩ :=
      meeting.left.due fresh.left reachesLeft opens full
    have mixed : division.Mixed start next mine other :=
      ⟨entries, known, fresh.journal.trans whole, journal.trans ofLeft, ofRight⟩
    exact (due.first standsBy mixed).imp_left fun meets => meets.trans ends fun _ _ => Iff.rfl
  next closed =>
    have waits := meeting.left.waits_on fresh.left reachesLeft (Bool.eq_false_iff.mpr closed)
    have opens : mate.wait.opens next = true :=
      (Bool.or_eq_true_iff.mp (Wait.opens_of_next found)).resolve_left closed
    obtain ⟨mine, goesOn, ends, journal, due⟩ := standsBy.opened next rfl rfl opens (Nat.le_refl _)
    have mixed : division.Mixed start next one mine :=
      ⟨entries, known, fresh.journal.trans whole, ofLeft, journal.trans ofRight⟩
    exact (due.beside waits mixed).imp_left fun meets => meets.trans (fun _ _ => Iff.rfl) ends

/-! ### To the end -/

variable (division)

/-- Both sides have been at work since the start. Each has left its own part, and has made entries
in the journal, as it does alone. The time is that of the later side. -/
structure Joined (start one other both : σ) : Prop where
  left : division.left both = division.left one
  right : division.right both = division.right other
  time : Host.now both = max (Host.now one) (Host.now other)
  journal : ∃ ofLeft ofRight whole, division.journal one = division.journal start ++ ofLeft ∧
    division.journal other = division.journal start ++ ofRight ∧
    division.journal both = division.journal start ++ whole ∧ Interleaves [ofLeft, ofRight] whole

/-- Both sides come to an end alone, and what follows goes on where both are done; or one of them
never does, and then nothing follows. -/
def Concludes {γ : Type} (start : σ) (joint : Poll σ γ) (alone : Poll σ α) (apart : Poll σ β)
    (follows : α × β → Future σ γ) : Prop :=
  (∃ a one b other both, alone.Ends a one ∧ apart.Ends b other ∧
      division.Joined start one other both ∧ joint.EndAlike (follows (a, b) both)) ∨
    (∀ result last, ¬joint.Ends result last) ∧
      ((∀ a one, ¬alone.Ends a one) ∨ ∀ b other, ¬apart.Ends b other)

variable {division} {γ : Type} {follows : α × β → Future σ γ}

theorem Meeting.joined (meeting : division.Meeting joins start half mate s one other alone apart) :
    division.Joined start one other s where
  left := meeting.left.left
  right := meeting.right.left
  time := meeting.time
  journal := by
    obtain ⟨entries, known, whole, ofLeft, ofRight⟩ := meeting.mixed
    refine ⟨_, _, _, ofLeft, ofRight, whole, interleaves_of_tagged entries known ?_⟩
    rintro (_ | _ | _) part ⟨⟩ <;> rfl

theorem Tracks.not_ends (tracks : division.Tracks joins s t half alone)
    (closed : half.wait.opens (Host.refill s) = false) (never : half.wait.deadline = none) :
    (∃ value, half = .done value) ∨ ∀ value last, ¬alone.Ends value last := by
  cases tracks with
  | done => exact .inl ⟨_, rfl⟩
  | rests _ _ waits =>
    have neverAlone := waits.deadline.symm.trans never
    refine .inr (Poll.not_ends_of_closed ?_ neverAlone)
    rw [waits.second.opens, neverAlone]
    rfl
  | late _ _ _ turn => exact absurd (turn.opens_refill s) (Bool.eq_false_iff.mp closed)

/-- What a poll of both comes to: both sides are at their ends, or both wait, and if nothing opens
the wait then one of the sides waits for ever. -/
theorem Meets.cases {poll : Poll σ (α × β)} (meets : division.Meets joins start poll alone apart) :
    (∃ a one b other both, poll = .ready (a, b) both ∧ alone.Ends a one ∧ apart.Ends b other ∧
        division.Joined start one other both) ∨
      ∃ wait resume s, poll = .waiting wait resume s ∧
        (∀ next, wait.next? s = some next →
          division.Meets joins start (resume next) alone apart ∨
            (resume next).HaltsIn (Spent joins)) ∧
        (wait.next? s = none → wait.opens (Host.refill s) = false ∧ wait.deadline = none ∧
          ((∀ a one, ¬alone.Ends a one) ∨ ∀ b other, ¬apart.Ends b other)) := by
  obtain ⟨half, mate, s, one, other, ofLeft, ofRight, rfl, sameLeft, sameRight, meeting⟩ := meets
  rcases half.both_cases mate s with
    ⟨a, b, rfl, rfl⟩ | ⟨wait, resume, both, deadline, opens, goesOn⟩
  · have joined := meeting.joined
    obtain ⟨left, right, -, -⟩ := meeting
    cases left
    cases right
    exact .inl ⟨a, one, b, other, s, rfl, (sameLeft a one).mpr (Poll.ends_ready_iff.mpr ⟨rfl, rfl⟩),
      (sameRight b other).mpr (Poll.ends_ready_iff.mpr ⟨rfl, rfl⟩), joined⟩
  · refine .inr ⟨wait, resume, s, both, ?_, ?_⟩
    · intro next found
      rw [goesOn next (Wait.opens_of_next found)]
      rw [Wait.next?_congr deadline opens] at found
      exact (meeting.poll found).imp_left fun meets => meets.trans sameLeft sameRight
    · intro found
      rw [Wait.next?_congr deadline opens] at found
      obtain ⟨⟨shut, closed⟩, never, neither⟩ :=
        Wait.closed_of_next_none meeting.left.timely meeting.right.timely found
      refine ⟨?_, ?_, ?_⟩
      · rw [opens]
        exact Bool.or_eq_false_iff.mpr ⟨shut, closed⟩
      · rw [deadline]
        show Wait.earlier half.wait.deadline mate.wait.deadline = none
        rw [never, neither]
        rfl
      · rcases meeting.left.not_ends shut never with ⟨a, rfl⟩ | left
        · rcases meeting.right.not_ends closed neither with ⟨b, rfl⟩ | right
          · cases both
          · exact .inr fun b other ends => right b other ((sameRight b other).mp ends)
        · exact .inl fun a one ends => left a one ((sameLeft a one).mp ends)

theorem not_affords_of_spent {poll : Poll σ α} (halts : poll.HaltsIn (Spent joins)) :
    ¬(joins → poll.Affords) := by
  intro affords
  by_cases joined : joins
  · exact (halts.mono fun _ spent => spent.2).not_affords (affords joined)
  · exact halts.nowhere fun _ spent => joined spent.1

theorem Meets.concludes {poll : Poll σ (α × β)}
    (meets : division.Meets joins start poll alone apart)
    (affords : joins → (poll.bind follows).Affords) :
    division.Concludes start (poll.bind follows) alone apart follows := by
  induction poll with
  | ready value state =>
    rcases meets.cases with ⟨a, one, b, other, _, ⟨⟩, left, right, joined⟩ | ⟨_, _, _, ⟨⟩, -⟩
    exact .inl ⟨a, one, b, other, state, left, right, joined, fun _ _ => Iff.rfl⟩
  | waiting wait resume s ih =>
    rcases meets.cases with ⟨_, _, _, _, _, ⟨⟩, -⟩ | ⟨_, _, _, ⟨⟩, goesOn, stays⟩
    cases found : wait.next? s with
    | none =>
      obtain ⟨closed, never, side⟩ := stays found
      exact .inr ⟨Poll.not_ends_of_closed closed never, side⟩
    | some next =>
      have same : ((Poll.waiting wait resume s).bind follows).EndAlike
          ((resume next).bind follows) := Poll.endAlike_of_next found
      have affordsNext : joins → ((resume next).bind follows).Affords :=
        fun joined => (affords joined).2 next found
      rcases goesOn next found with meets | halts
      · rcases ih next meets affordsNext with
          ⟨a, one, b, other, both, left, right, joined, ends⟩ | ⟨never, side⟩
        · exact .inl ⟨a, one, b, other, both, left, right, joined, same.trans ends⟩
        · exact .inr ⟨fun result last ends => never result last ((same result last).mp ends), side⟩
      · exact absurd affordsNext (not_affords_of_spent halts.bind)
  | panic | spawn =>
    rcases meets.cases with ⟨_, _, _, _, _, ⟨⟩, -⟩ | ⟨_, _, _, ⟨⟩, -⟩

end Division
end Deferred
