import Deferred.Proofs.Boundary.History
import Deferred.Proofs.Notebook

/-! A ledger of errors. The program has a log, to which the host records, and code of the user's
keeps count of what it raises: the error of a panic when it panics, and the error that it returns
where the library asks for one. How it keeps count is left open; the library does not touch it. What
the library records is then exactly what was raised. -/

namespace Deferred

variable {σ ρ : Type}

structure Ledger (σ : Type) [Host σ] where
  log : σ → List Error
  raised : σ → List Error
  log_record : ∀ error state, log (Host.record error state) = log state ++ [error]
  raised_record : ∀ error state, raised (Host.record error state) = raised state
  log_trace : ∀ event state, log (Host.trace event state) = log state
  raised_trace : ∀ event state, raised (Host.trace event state) = raised state
  log_allow : ∀ count state, log (Host.allow count state) = log state
  raised_allow : ∀ count state, raised (Host.allow count state) = raised state

namespace Ledger

variable [Host σ] (ledger : Ledger σ)

/-- Everything raised has been logged in its turn, and besides it only what is due was raised. -/
def Owes (due : Option Error) (first last : σ) : Prop :=
  ∃ errors, ledger.log last = ledger.log first ++ errors ∧
    ledger.raised last = ledger.raised first ++ errors ++ due.toList

structure Still (first last : σ) : Prop where
  log : ledger.log last = ledger.log first
  raised : ledger.raised last = ledger.raised first

def account : Account σ where
  owes := ledger.Owes
  still := ledger.Still
  owes_self _ := ⟨[], by simp, by simp⟩
  owes_trans := by
    rintro due first middle last ⟨errors, log, raised⟩ ⟨more, logMore, raisedMore⟩
    refine ⟨errors ++ more, by rw [logMore, log, List.append_assoc], ?_⟩
    rw [raisedMore, raised]
    simp
  owes_still := by
    rintro due first middle last ⟨errors, log, raised⟩ ⟨sameLog, sameRaised⟩
    exact ⟨errors, sameLog.trans log, sameRaised.trans raised⟩
  still_self _ := ⟨rfl, rfl⟩
  still_trans first second :=
    ⟨second.log.trans first.log, second.raised.trans first.raised⟩
  still_trace event state := ⟨ledger.log_trace event state, ledger.raised_trace event state⟩
  still_allow count state := ⟨ledger.log_allow count state, ledger.raised_allow count state⟩
  owes_record := by
    rintro error first last ⟨errors, log, raised⟩
    refine ⟨errors ++ [error], ?_, ?_⟩
    · rw [ledger.log_record, log, List.append_assoc]
    · rw [ledger.raised_record, raised]
      simp

/-- The errors logged in a turn. -/
def logged (turn : σ × σ) : List Error :=
  (ledger.log turn.2).drop (ledger.log turn.1).length

/-- The errors raised in a turn. -/
def captured (turn : σ × σ) : List Error :=
  (ledger.raised turn.2).drop (ledger.raised turn.1).length

/-- Entries are only added. -/
structure Grows (turn : σ × σ) : Prop where
  log : ledger.log turn.1 <+: ledger.log turn.2
  raised : ledger.raised turn.1 <+: ledger.raised turn.2

/-- The errors of the inputs that have panicked, in the order of the inputs. -/
def panicsOf {α : Type} (hub : Hub α) (inputs : Nat) : List Error :=
  (List.range inputs).filterMap fun index => (hub.panicOf index).map .ofPanic

/-- The host leaves the hub alone when it records. -/
structure Leaves {α : Type} (hub : Place σ (Hub α)) : Prop where
  record : ∀ error state, hub.get (Host.record error state) = hub.get state
  trace : ∀ event state, hub.get (Host.trace event state) = hub.get state

/-- A turn of a task. The input of a merge may end with a panic, which it leaves with the hub; the
supervisor then logs what the hub was left with. -/
inductive TaskTurn : σ × σ → Prop where
  | settled {turn} (same : ledger.logged turn = ledger.captured turn) : TaskTurn turn
  | panicked {turn} {α : Type} (hub : Place σ (Hub α)) (index : Nat) (payload : Payload)
      (before : σ) (checksOut : turn.2 = hub.modify (Hub.checkOut index (some payload)) before)
      (raises : ledger.captured turn = ledger.logged turn ++ [.ofPanic payload]) : TaskTurn turn
  | reported {turn} {α : Type} (hub : Place σ (Hub α)) (inputs : Nat) (before : σ)
      (wrapsUp : turn.2 = Merge.wrapUp hub inputs before)
      (reports : Leaves hub →
        ledger.logged turn = ledger.captured turn ++ panicsOf (hub.get before) inputs) :
      TaskTurn turn

variable {ledger}

theorem Owes.logged {due : Option Error} {turn : σ × σ} (owes : ledger.Owes due turn.1 turn.2) :
    ledger.captured turn = ledger.logged turn ++ due.toList := by
  obtain ⟨errors, log, raised⟩ := owes
  unfold captured Ledger.logged
  rw [log, raised, List.append_assoc, List.drop_left, List.drop_left]

theorem Owes.grows {due : Option Error} {turn : σ × σ} (owes : ledger.Owes due turn.1 turn.2) :
    ledger.Grows turn := by
  obtain ⟨errors, log, raised⟩ := owes
  refine ⟨⟨errors, log.symm⟩, ⟨errors ++ due.toList, ?_⟩⟩
  rw [raised, List.append_assoc]

section
variable {α : Type} {hub : Place σ (Hub α)}

theorem recordPanic_apply (leaves : Leaves hub) (state : σ) (index : Nat) :
    hub.get (Merge.recordPanic hub state index) = hub.get state ∧
      ledger.log (Merge.recordPanic hub state index) =
        ledger.log state ++ (((hub.get state).panicOf index).map .ofPanic).toList ∧
      ledger.raised (Merge.recordPanic hub state index) = ledger.raised state := by
  unfold Merge.recordPanic
  cases (hub.get state).panicOf index with
  | none => exact ⟨rfl, (List.append_nil _).symm, rfl⟩
  | some payload =>
    refine ⟨(leaves.trace _ _).trans (leaves.record _ _), ?_, ?_⟩
    · exact (ledger.log_trace _ _).trans (ledger.log_record _ _)
    · exact (ledger.raised_trace _ _).trans (ledger.raised_record _ _)

theorem recordPanics_apply (leaves : Leaves hub) (inputs : List Nat) (state : σ) :
    ledger.log (inputs.foldl (Merge.recordPanic hub) state) =
        ledger.log state ++
          inputs.filterMap (fun index => ((hub.get state).panicOf index).map .ofPanic) ∧
      ledger.raised (inputs.foldl (Merge.recordPanic hub) state) = ledger.raised state := by
  induction inputs generalizing state with
  | nil => exact ⟨(List.append_nil _).symm, rfl⟩
  | cons index inputs ih =>
    obtain ⟨same, log, raised⟩ := @recordPanic_apply _ _ ledger _ _ leaves state index
    obtain ⟨logRest, raisedRest⟩ := ih (Merge.recordPanic hub state index)
    refine ⟨?_, raisedRest.trans raised⟩
    rw [List.foldl_cons, logRest, log, same, List.append_assoc]
    cases noted : (hub.get state).panicOf index with
    | none => simp [noted]
    | some payload => simp [noted]

/-- What a supervisor logs in the end, and that nothing is raised by it. -/
theorem wrapUp_apply (apart : hub.Obeys ledger.account) (leaves : Leaves hub) (inputs : Nat)
    (state : σ) :
    ledger.log (Merge.wrapUp hub inputs state) =
        ledger.log state ++ panicsOf (hub.get state) inputs ∧
      ledger.raised (Merge.wrapUp hub inputs state) = ledger.raised state := by
  obtain ⟨log, raised⟩ := @recordPanics_apply _ _ ledger _ _ leaves (List.range inputs) state
  have still := apart.modify Hub.close
    (Host.trace .inputsFinished ((List.range inputs).foldl (Merge.recordPanic hub) state))
  refine ⟨?_, ?_⟩
  · exact (still.log.trans (ledger.log_trace _ _)).trans log
  · exact (still.raised.trans (ledger.raised_trace _ _)).trans raised

end

theorem taskTurn_of {turn : σ × σ} (kept : ledger.account.TaskTurn turn) :
    ledger.TaskTurn turn := by
  have settled : ledger.Owes none turn.1 turn.2 → ledger.TaskTurn turn := fun owes =>
    .settled (by simpa using (Owes.logged owes).symm)
  obtain ⟨ends, allowed, owes | ended⟩ := kept
  · exact settled owes
  cases allowed with
  | own => exact settled ended
  | @input α hub apart index =>
    obtain ⟨payload, before, owes, same⟩ := ended
    have due : ledger.Owes (payload.map .ofPanic) turn.1 turn.2 :=
      same ▸ ledger.account.owes_still owes (apart.modify (Hub.checkOut index payload) before)
    cases payload with
    | none => exact settled due
    | some payload => exact .panicked hub index payload before same (Owes.logged due)
  | @supervisor α hub apart inputs =>
    obtain ⟨before, owes, same⟩ := ended
    refine .reported hub inputs before same fun leaves => ?_
    obtain ⟨log, raised⟩ := wrapUp_apply apart leaves inputs before
    obtain ⟨errors, logBefore, raisedBefore⟩ := owes
    have nothing : ledger.captured turn = errors := by
      unfold captured
      rw [same, raised, raisedBefore, Option.toList_none, List.append_nil, List.drop_left]
    unfold logged
    rw [same, log, logBefore, List.append_assoc, List.drop_left, nothing]

end Ledger

/-- Everything that is built from code that keeps count of what it raises logs exactly that, in the
same order, and nothing is ever erased. So does every task that it spawns, but for the inputs of a
merge that panic: their panics are logged in the end, in the order of the inputs. -/
theorem Built.logs_captures [Host σ] {ledger : Ledger σ} {action : Action σ ρ}
    (built : Built (.obeying ledger.account) action) {own others : List (σ × σ)}
    {run : Running σ ρ} {tasks : List (Option (Job σ))}
    (history : action.History own others run tasks) :
    own.flatMap ledger.logged = own.flatMap ledger.captured ∧
      (∀ turn ∈ own, ledger.Grows turn) ∧ ∀ turn ∈ others, ledger.TaskTurn turn := by
  have kept := (built.sound (Manner.obeying_within _)).kept history
  refine ⟨?_, fun turn member => Ledger.Owes.grows (kept.own turn member),
    fun turn member => Ledger.taskTurn_of (kept.others turn member)⟩
  refine congrArg List.flatten (List.map_congr_left fun turn member => ?_)
  exact (by simpa using (Ledger.Owes.logged (kept.own turn member)).symm)

/-- The errors noted down in a notebook are those that were raised. -/
def Notebook.ledger {κ : Type} : Ledger (Notebook κ) where
  log := Notebook.log
  raised := Notebook.noted
  log_record _ _ := rfl
  raised_record _ _ := rfl
  log_trace _ _ := rfl
  raised_trace _ _ := rfl
  log_allow _ _ := rfl
  raised_allow _ _ := rfl

/-- Builds a future that answers with an error, which is noted down. -/
def refuse (error : Error) : Code (Notebook Unit) (Future (Notebook Unit) (Except Error Nat)) :=
  pure fun book => .ready (.error error) (book.note error)

def shout (text : String) (_ : Nat) : Code (Notebook Unit) Nat :=
  fun book => (.error (.owned text), book.note (.panicked text))

theorem gives_refuse (error : Error) :
    Code.Gives Notebook.ledger.account (Future.Obeys Notebook.ledger.account owedFor)
      (refuse error) :=
  .pure fun book => ⟨[], (List.append_nil book.log).symm, by simp [Notebook.note, Notebook.ledger,
    owedFor, Error.new, IsError.toError]⟩

theorem obeys_shout (text : String) (value : Nat) :
    (shout text value).Obeys Notebook.ledger.account :=
  fun book => ⟨[], (List.append_nil book.log).symm, by simp [Notebook.note, Notebook.ledger,
    Error.ofPanic, Payload.text?]⟩

/-- Refused, and then shouted down, and once more. -/
def refusals : Action (Notebook Unit) (Verdict Nat) :=
  ((Attempt.new (refuse (.message "refused"))).orElse
    ((Attempt.success 1).map (shout "kaboom"))).retried (.atOnce 2)

theorem refusals_logged :
    ∃ own, refusals.History own [] (.answered (.failure (.panicked "kaboom"))) [] ∧
      own.flatMap Notebook.ledger.captured = [.message "refused", .panicked "kaboom",
        .message "refused", .panicked "kaboom"] ∧
      own.flatMap Notebook.ledger.logged = own.flatMap Notebook.ledger.captured := by
  have refused := gives_refuse (.message "refused")
  have built : Built (.obeying Notebook.ledger.account) refusals :=
    .retried (.orElse (.new ⟨refused.obeys, refused.fine⟩)
      (.map (.ofVerdict _) (obeys_shout "kaboom"))) _
  have called : refusals.History _ [] (.stopped .passed _) [] :=
    .call (rfl : refusals.call (.opened ()) = _)
  have polled := called.poll (rfl : Wait.passed.opens (Notebook.opened ()) = true)
  exact ⟨_, polled, by decide, (built.logs_captures polled).1⟩

end Deferred
