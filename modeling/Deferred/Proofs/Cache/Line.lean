import Deferred.Gate

/-! The line at a gate: the visitor that has the way, and those that queue for it. It is sorted by
the tickets, so that whoever leaves it, from whatever place, leaves the way to the one that has
waited longest. -/

namespace Deferred

namespace Gate

variable {ρ : Type}

def line (gate : Gate ρ) : List Nat :=
  gate.holder.toList ++ gate.queue

/-- Nobody waits for a way that is free, or before somebody who came later. -/
structure Lined (gate : Gate ρ) : Prop where
  sorted : gate.line.Pairwise (· < ·)
  bound : ∀ ticket ∈ gate.line, ticket < gate.issued
  manned : gate.holder = none → gate.queue = []
  done : gate.value.isSome = true → gate.line = []

theorem lined_fresh : (fresh : Gate ρ).Lined :=
  ⟨.nil, nofun, fun _ => rfl, fun _ => rfl⟩

theorem Lined.store {gate : Gate ρ} (value : ρ) : (gate.store value).Lined :=
  ⟨.nil, nofun, fun _ => rfl, fun _ => rfl⟩

theorem Lined.value_of_holder {gate : Gate ρ} (lined : gate.Lined) {ticket : Nat}
    (holds : gate.holder = some ticket) : gate.value = none := by
  cases value : gate.value with
  | none => rfl
  | some kept =>
    have empty := lined.done (by rw [value]; rfl)
    rw [line, holds] at empty
    cases empty

/-- Who has the way has waited longest. -/
theorem Lined.holder_le {gate : Gate ρ} (lined : gate.Lined) {first ticket : Nat}
    (holds : gate.holder = some first) (member : ticket ∈ gate.line) : first ≤ ticket := by
  have sorted := lined.sorted
  rw [line, holds] at sorted member
  rcases List.mem_cons.mp member with same | later
  · exact Nat.le_of_eq same.symm
  · exact Nat.le_of_lt (List.rel_of_pairwise_cons sorted later)

/-- An arrival at a gate without a value takes the next ticket to the end of the line. -/
theorem arrive_eq (gate : Gate ρ) :
    (∃ kept, gate.value = some kept ∧ gate.arrive = (.settled kept, gate)) ∨
      gate.value = none ∧ gate.holder = none ∧ gate.arrive = (.admitted gate.issued,
        { gate with holder := some gate.issued, issued := gate.issued + 1 }) ∨
      gate.value = none ∧ gate.holder ≠ none ∧ gate.arrive = (.queued gate.issued,
        { gate with queue := gate.queue ++ [gate.issued], issued := gate.issued + 1 }) := by
  obtain ⟨value, holder, queue, issued⟩ := gate
  cases value with
  | some kept => exact .inl ⟨kept, rfl, rfl⟩
  | none =>
    cases holder with
    | none => exact .inr (.inl ⟨rfl, rfl, rfl⟩)
    | some ticket => exact .inr (.inr ⟨rfl, Option.some_ne_none ticket, rfl⟩)

theorem eq_of_settled {gate rest : Gate ρ} {kept : ρ}
    (arrived : gate.arrive = (.settled kept, rest)) : gate.value = some kept ∧ rest = gate := by
  rcases gate.arrive_eq with ⟨value, held, same⟩ | ⟨_, _, same⟩ | ⟨_, _, same⟩
  · rw [same] at arrived
    obtain ⟨⟨rfl⟩, rfl⟩ := Prod.mk.inj arrived
    exact ⟨held, rfl⟩
  · rw [same] at arrived
    cases arrived
  · rw [same] at arrived
    cases arrived

/-- What becomes of the line when somebody joins it. -/
structure Joined (gate rest : Gate ρ) : Prop where
  value : gate.value = none ∧ rest.value = none
  issued : rest.issued = gate.issued + 1
  line : rest.line = gate.line ++ [gate.issued]
  holder : ∀ ticket, gate.holder = some ticket → rest.holder = some ticket
  manned : rest.holder ≠ none

theorem joined_of_admitted {gate rest : Gate ρ} {ticket : Nat} (lined : gate.Lined)
    (arrived : gate.arrive = (.admitted ticket, rest)) :
    ticket = gate.issued ∧ gate.Joined rest ∧ rest.holder = some ticket := by
  rcases gate.arrive_eq with ⟨kept, _, same⟩ | ⟨empty, free, same⟩ | ⟨_, _, same⟩
  · rw [same] at arrived
    cases arrived
  · rw [same] at arrived
    obtain ⟨⟨rfl⟩, rfl⟩ := Prod.mk.inj arrived
    refine ⟨rfl, ⟨⟨empty, empty⟩, rfl, ?_, ?_, Option.some_ne_none _⟩, rfl⟩
    · simp [Gate.line, free, lined.manned free]
    · intro ticket holds
      rw [free] at holds
      cases holds
  · rw [same] at arrived
    cases arrived

theorem joined_of_queued {gate rest : Gate ρ} {ticket : Nat}
    (arrived : gate.arrive = (.queued ticket, rest)) :
    ticket = gate.issued ∧ gate.Joined rest := by
  rcases gate.arrive_eq with ⟨kept, _, same⟩ | ⟨_, _, same⟩ | ⟨empty, taken, same⟩
  · rw [same] at arrived
    cases arrived
  · rw [same] at arrived
    cases arrived
  · rw [same] at arrived
    obtain ⟨⟨rfl⟩, rfl⟩ := Prod.mk.inj arrived
    exact ⟨rfl, ⟨empty, empty⟩, rfl, by simp [Gate.line], fun _ => id, taken⟩

theorem Lined.join {gate rest : Gate ρ} (lined : gate.Lined) (joined : gate.Joined rest) :
    rest.Lined := by
  refine ⟨?_, ?_, fun free => absurd free joined.manned, ?_⟩
  · rw [joined.line, List.pairwise_append]
    refine ⟨lined.sorted, List.pairwise_singleton _ _, fun ticket member other last => ?_⟩
    rw [List.mem_singleton.mp last]
    exact lined.bound ticket member
  · intro ticket member
    rw [joined.line] at member
    rw [joined.issued]
    rcases List.mem_append.mp member with old | last
    · exact Nat.lt_succ_of_lt (lined.bound ticket old)
    · rw [List.mem_singleton.mp last]
      exact Nat.lt_succ_self _
  · rw [joined.value.2]
    exact nofun

/-- Leaving takes the ticket out of the line, from whatever place. -/
theorem Lined.line_leave {gate : Gate ρ} (lined : gate.Lined) (ticket : Nat) :
    (gate.leave ticket).line = gate.line.filter (· ≠ ticket) := by
  by_cases holds : gate.holder = some ticket
  · have sorted := lined.sorted
    rw [line, holds] at sorted
    have apart : gate.queue.filter (· ≠ ticket) = gate.queue :=
      List.filter_eq_self.mpr fun other member =>
        decide_eq_true (Nat.ne_of_gt (List.rel_of_pairwise_cons sorted member))
    have moved : (gate.leave ticket).line = gate.queue := by
      rw [leave, if_pos holds, line]
      cases gate.queue <;> rfl
    rw [moved, line, holds, List.filter_append, apart]
    simp
  · have kept : gate.holder.toList.filter (· ≠ ticket) = gate.holder.toList :=
      List.filter_eq_self.mpr fun other member =>
        decide_eq_true fun same => holds (same ▸ Option.mem_toList.mp member)
    rw [leave, if_neg holds, line, line, List.filter_append, kept]

theorem value_leave (gate : Gate ρ) (ticket : Nat) : (gate.leave ticket).value = gate.value := by
  unfold leave
  split <;> rfl

theorem issued_leave (gate : Gate ρ) (ticket : Nat) : (gate.leave ticket).issued = gate.issued := by
  unfold leave
  split <;> rfl

theorem holder_leave_of_ne {gate : Gate ρ} {ticket : Nat} (apart : gate.holder ≠ some ticket) :
    (gate.leave ticket).holder = gate.holder := by
  rw [leave, if_neg apart]

theorem Lined.leave {gate : Gate ρ} (lined : gate.Lined) (ticket : Nat) :
    (gate.leave ticket).Lined := by
  refine ⟨?_, ?_, ?_, ?_⟩
  · rw [lined.line_leave]
    exact lined.sorted.filter _
  · intro other member
    rw [lined.line_leave] at member
    rw [issued_leave]
    exact lined.bound other (List.mem_filter.mp member).1
  · intro free
    by_cases holds : gate.holder = some ticket
    · rw [Gate.leave, if_pos holds] at free ⊢
      rw [List.head?_eq_none_iff.mp free]
      rfl
    · rw [Gate.leave, if_neg holds] at free ⊢
      rw [lined.manned free]
      rfl
  · rw [value_leave, lined.line_leave]
    intro filled
    rw [lined.done filled]
    rfl

end Gate
end Deferred
