/-! A signal for one listener. Giving it calls the listener; if nobody waits for it, it is kept for
the next one. Signals that are kept count as one. -/

namespace Deferred

inductive Listener where
  | nobody | waiting | called
deriving DecidableEq

structure Signal where
  kept : Bool
  listener : Listener
deriving DecidableEq

namespace Signal

def given : Signal := ⟨true, .nobody⟩

def give (signal : Signal) : Signal :=
  match signal.listener with
  | .waiting => { signal with listener := .called }
  | _ => { signal with kept := true }

/-- Takes the signal that was kept, or begins to wait for the next one. -/
def listen (signal : Signal) : Bool × Signal :=
  if signal.kept then (true, { signal with kept := false })
  else (false, { signal with listener := .waiting })

def isCalled (signal : Signal) : Bool :=
  signal.listener == .called

/-- The listener goes on. -/
def answer (signal : Signal) : Signal :=
  { signal with listener := .nobody }

/-- The listener gives up. A call that it has not answered is kept for the next one. -/
def leave (signal : Signal) : Signal :=
  if signal.isCalled then given else signal.answer

/-- Whether the listener, or the next one, goes on at once. -/
def isPending (signal : Signal) : Bool :=
  signal.kept || signal.isCalled

@[simp] theorem isPending_give (signal : Signal) : signal.give.isPending = true := by
  obtain ⟨kept, listener⟩ := signal
  cases listener <;> simp [give, isPending, isCalled]

/-- A call that was not answered yet stands. -/
theorem isCalled_give {signal : Signal} (called : signal.isCalled = true) :
    signal.give.isCalled = true := by
  obtain ⟨kept, listener⟩ := signal
  cases listener with
  | called => rfl
  | nobody | waiting => cases called

theorem listener_give_eq_nobody {signal : Signal} (nobody : signal.listener = .nobody) :
    signal.give.listener = .nobody := by
  simp [give, nobody]

theorem listener_leave (signal : Signal) : signal.leave.listener = .nobody := by
  unfold leave
  split <;> rfl

theorem listen_eq_true {signal rest : Signal} (heard : signal.listen = (true, rest)) :
    rest.listener = signal.listener := by
  obtain ⟨kept, listener⟩ := signal
  cases kept <;> simp only [listen, Bool.false_eq_true, ↓reduceIte, Prod.mk.injEq, true_and,
    false_and] at heard
  exact heard ▸ rfl

theorem kept_of_listen {signal rest : Signal} (heard : signal.listen = (true, rest)) :
    signal.kept = true ∧ rest.kept = false := by
  obtain ⟨kept, listener⟩ := signal
  cases kept <;> simp only [listen, Bool.false_eq_true, ↓reduceIte, Prod.mk.injEq, true_and,
    false_and] at heard
  exact ⟨rfl, heard ▸ rfl⟩

theorem listen_eq_false {signal rest : Signal} (unheard : signal.listen = (false, rest)) :
    signal.kept = false ∧ rest = ⟨false, .waiting⟩ := by
  obtain ⟨kept, listener⟩ := signal
  cases kept <;> simp only [listen, Bool.false_eq_true, ↓reduceIte, Prod.mk.injEq, true_and,
    reduceCtorEq, false_and] at unheard
  exact ⟨rfl, unheard.symm⟩

end Signal
end Deferred
