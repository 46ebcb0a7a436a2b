import Deferred.Proofs.Likeness.Blindness

/-! A state that two sides share without reaching into each other. Each side has a part of its own,
and both make entries in one journal, which neither reads. Code is apart from the other side if it
is blind to everything but its own part and the time: then it does the same, and makes the same
entries at the same times, whatever the other side has done. -/

namespace Deferred

variable {σ : Type}

/-- What a state consists of for the two sides. Entries are kept with their times. -/
structure Parts (σ : Type) where
  Left : Type
  Right : Type
  Entry : Type
  left : σ → Left
  right : σ → Right
  journal : σ → List (Nat × Entry)

namespace Parts

variable (parts : Parts σ)

/-- The same parts from the other side. -/
def swap : Parts σ :=
  ⟨parts.Right, parts.Left, parts.Entry, parts.right, parts.left, parts.journal⟩

/-- An act that changes neither of the parts nor the journal. -/
structure Keeps (act : σ → σ) : Prop where
  left : ∀ state, parts.left (act state) = parts.left state
  right : ∀ state, parts.right (act state) = parts.right state
  journal : ∀ state, parts.journal (act state) = parts.journal state

/-- An act that only makes entries. Either part decides which. -/
structure Writes [Host σ] (act : σ → σ) : Prop where
  left : ∀ state, parts.left (act state) = parts.left state
  right : ∀ state, parts.right (act state) = parts.right state
  journal : ∀ s t, parts.left s = parts.left t ∨ parts.right s = parts.right t →
    ∃ entries : List parts.Entry,
      parts.journal (act s) = parts.journal s ++ entries.map (Host.now s, ·) ∧
        parts.journal (act t) = parts.journal t ++ entries.map (Host.now t, ·)

end Parts

/-- The services of the host touch neither part. -/
structure Division (σ : Type) [Host σ] extends Parts σ where
  record : ∀ error, toParts.Writes (Host.record error)
  trace : ∀ event, toParts.Writes (Host.trace event)
  elapse : ∀ time, toParts.Keeps (Host.elapse time)
  allow : ∀ count, toParts.Keeps (Host.allow count)

/-- A wait that only the clock ends, if anything does. -/
structure Wait.Punctual [Host σ] (wait : Wait σ) : Prop where
  opens : ∀ state, wait.opens state = wait.deadline.any fun time => decide (time ≤ Host.now state)

namespace Wait

variable [Host σ]

theorem punctual_forever : (forever : Wait σ).Punctual :=
  ⟨fun _ => rfl⟩

theorem punctual_clock (time : Nat) : (clock time : Wait σ).Punctual :=
  ⟨fun _ => rfl⟩

theorem Punctual.either {first second : Wait σ} (one : first.Punctual) (other : second.Punctual) :
    (first.either second).Punctual := by
  refine ⟨fun state => ?_⟩
  show (first.opens state || second.opens state) = (earlier first.deadline second.deadline).any _
  rw [one.opens, other.opens]
  cases first.deadline with
  | none => cases second.deadline <;> rfl
  | some a =>
    cases second.deadline with
    | none => exact Bool.or_false _
    | some b =>
      show (decide (a ≤ _) || decide (b ≤ _)) = decide (min a b ≤ _)
      rw [← Bool.decide_or]
      exact decide_eq_decide.mpr (by omega)

end Wait

namespace Parts

variable {parts : Parts σ} {act : σ → σ}

theorem Keeps.swap (keeps : parts.Keeps act) : parts.swap.Keeps act :=
  ⟨keeps.right, keeps.left, keeps.journal⟩

theorem Writes.swap [Host σ] (writes : parts.Writes act) : parts.swap.Writes act :=
  ⟨writes.right, writes.left, fun s t same => writes.journal s t same.symm⟩

end Parts

namespace Division

variable [Host σ] (division : Division σ)

def swap : Division σ where
  toParts := division.toParts.swap
  record error := (division.record error).swap
  trace event := (division.trace event).swap
  elapse time := (division.elapse time).swap
  allow count := (division.allow count).swap

/-- What two states are compared with: the journals before, and what may not change meanwhile. -/
structure Base where
  before : List (Nat × division.Entry)
  apart : List (Nat × division.Entry)
  right : division.Right
  time : Nat

/-- What they are compared with where the comparison begins. -/
def since (s t : σ) : division.Base :=
  ⟨division.journal s, division.journal t, division.right s, Host.now s⟩

/-- The left side finds the same in both states, and has made the same entries since. The right side
finds in the first one what it found before. With joins around, the first state allows no more. -/
structure Alike (joins : Prop) (base : division.Base) (s t : σ) : Prop where
  left : division.left s = division.left t
  right : division.right s = base.right
  time : Host.now s = base.time
  mate : Host.now t = base.time
  journal : ∃ entries : List division.Entry,
    division.journal s = base.before ++ entries.map (base.time, ·) ∧
      division.journal t = base.apart ++ entries.map (base.time, ·)
  allowance : joins → Host.allowance s ≤ Host.allowance t

variable {division} {joins : Prop} {base : division.Base} {s t : σ}

/-- States stay alike when the left side acts on them, and makes entries, in the same way. -/
theorem Alike.acts {act : σ → σ} (alike : division.Alike joins base s t)
    (left : division.left (act s) = division.left (act t))
    (right : division.right (act s) = division.right s)
    (writes : ∃ entries : List division.Entry,
      division.journal (act s) = division.journal s ++ entries.map (Host.now s, ·) ∧
        division.journal (act t) = division.journal t ++ entries.map (Host.now t, ·))
    (now : ∀ state, Host.now (act state) = Host.now state)
    (allowance : ∀ state, Host.allowance (act state) = Host.allowance state) :
    division.Alike joins base (act s) (act t) where
  left := left
  right := right.trans alike.right
  time := (now s).trans alike.time
  mate := (now t).trans alike.mate
  journal := by
    obtain ⟨before, first, second⟩ := alike.journal
    obtain ⟨entries, one, other⟩ := writes
    refine ⟨before ++ entries, ?_, ?_⟩
    · rw [one, first, alike.time, List.map_append, List.append_assoc]
    · rw [other, second, alike.mate, List.map_append, List.append_assoc]
  allowance := by
    rw [allowance, allowance]
    exact alike.allowance

theorem Alike.writes {act : σ → σ} (alike : division.Alike joins base s t)
    (writes : division.Writes act) (now : ∀ state, Host.now (act state) = Host.now state)
    (allowance : ∀ state, Host.allowance (act state) = Host.allowance state) :
    division.Alike joins base (act s) (act t) :=
  alike.acts ((writes.left s).trans (alike.left.trans (writes.left t).symm)) (writes.right s)
    (writes.journal s t (.inl alike.left)) now allowance

theorem Alike.spend (alike : division.Alike joins base s t) :
    division.Alike joins base (Host.spend s) (Host.spend t) where
  left := ((division.allow _).left s).trans (alike.left.trans ((division.allow _).left t).symm)
  right := ((division.allow _).right s).trans alike.right
  time := (Host.now_allow _ s).trans alike.time
  mate := (Host.now_allow _ t).trans alike.mate
  journal := by
    unfold Host.spend
    rw [(division.allow _).journal s, (division.allow _).journal t]
    exact alike.journal
  allowance joined := by
    unfold Host.spend
    rw [Host.allowance_allow, Host.allowance_allow]
    exact Nat.sub_le_sub_right (alike.allowance joined) 1

/-- The second state may be given a turn of its own. -/
theorem Alike.refill (alike : division.Alike joins base s t) (patient : ¬joins) :
    division.Alike joins base s (Host.refill t) where
  left := alike.left.trans ((division.allow _).left t).symm
  right := alike.right
  time := alike.time
  mate := (Host.now_allow _ t).trans alike.mate
  journal := by
    unfold Host.refill
    rw [(division.allow _).journal t]
    exact alike.journal
  allowance joined := absurd joined patient

variable (division)

/-- How code of the left side compares states. -/
def likeness (joins : Prop) : Likeness σ where
  Index := division.Base
  alike := division.Alike joins
  waits := Wait.Punctual
  tasks _ := False
  roomy := joins
  now alike := alike.time.trans alike.mate.symm
  richer joined alike := alike.allowance joined
  record error alike :=
    alike.writes (division.record error) (Host.now_record error) (Host.allowance_record error)
  trace event alike :=
    alike.writes (division.trace event) (Host.now_trace event) (Host.allowance_trace event)
  spend := Alike.spend
  clock := Wait.punctual_clock
  either := Wait.Punctual.either

variable {division}

theorem alike_since (left : division.left s = division.left t) (time : Host.now s = Host.now t)
    (allowance : joins → Host.allowance s ≤ Host.allowance t) :
    (division.likeness joins).pace.alike (division.since s t, Host.allowance s) s t := by
  refine ⟨?_, Nat.le_refl _⟩
  exact ⟨left, rfl, rfl, time.symm, ⟨[], by simp [since]⟩, allowance⟩

end Division
end Deferred
