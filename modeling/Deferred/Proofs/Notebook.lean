import Deferred.Code

/-! A host that keeps everything in a notebook: the errors that were recorded, the errors that code
of the user's has noted down itself, the events, and one cell of its own. -/

namespace Deferred

structure Notebook (κ : Type) where
  time : Nat
  left : Nat
  log : List Error
  noted : List Error
  events : List Event
  cell : κ

namespace Notebook

variable {κ : Type}

def opened (cell : κ) : Notebook κ := ⟨0, Host.turn, [], [], [], cell⟩

instance : Host (Notebook κ) where
  now := time
  allowance := left
  elapse time book := { book with time }
  allow left book := { book with left }
  record error book := { book with log := book.log ++ [error] }
  trace event book := { book with events := book.events ++ [event] }
  now_elapse _ _ := rfl
  now_allow _ _ := rfl
  now_record _ _ := rfl
  now_trace _ _ := rfl
  allowance_elapse _ _ := rfl
  allowance_allow _ _ := rfl
  allowance_record _ _ := rfl
  allowance_trace _ _ := rfl

theorem log_record (error : Error) (book : Notebook κ) :
    (Host.record error book).log = book.log ++ [error] := rfl

theorem log_trace (event : Event) (book : Notebook κ) : (Host.trace event book).log = book.log :=
  rfl

theorem log_allow (count : Nat) (book : Notebook κ) : (Host.allow count book).log = book.log :=
  rfl

def place : Place (Notebook κ) κ :=
  ⟨cell, fun cell book => { book with cell }, fun _ _ => rfl⟩

/-- Notes an error down, so that a panic or a returned error that follows can be told by it. -/
def note (error : Error) (book : Notebook κ) : Notebook κ :=
  { book with noted := book.noted ++ [error] }

end Notebook
end Deferred
