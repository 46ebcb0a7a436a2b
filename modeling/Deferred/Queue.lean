/-! First in, first out. A queue keeps what was pushed last in reverse and turns it around when the
front is used up, so that a push and a pop are cheap however long the queue is. What counts is the
list of its items: a push adds at the end of it and a pop takes its head. -/

namespace Deferred

structure Queue (α : Type) where
  front : List α
  back : List α

namespace Queue

variable {α : Type}

def empty : Queue α := ⟨[], []⟩

def toList (queue : Queue α) : List α :=
  queue.front ++ queue.back.reverse

def length (queue : Queue α) : Nat :=
  queue.front.length + queue.back.length

def push (queue : Queue α) (value : α) : Queue α :=
  { queue with back := value :: queue.back }

def pop (queue : Queue α) : Option α × Queue α :=
  match queue.front with
  | value :: rest => (some value, ⟨rest, queue.back⟩)
  | [] =>
      match queue.back.reverse with
      | [] => (none, empty)
      | value :: rest => (some value, ⟨rest, []⟩)

@[simp] theorem toList_empty : (empty : Queue α).toList = [] := rfl

@[simp] theorem length_toList (queue : Queue α) : queue.toList.length = queue.length := by
  simp [toList, length]

@[simp] theorem toList_push (queue : Queue α) (value : α) :
    (queue.push value).toList = queue.toList ++ [value] := by
  simp [toList, push]

@[simp] theorem pop_fst (queue : Queue α) : queue.pop.1 = queue.toList.head? := by
  obtain ⟨front, back⟩ := queue
  cases front with
  | cons value rest => rfl
  | nil => simp only [pop, toList, List.nil_append]; split <;> simp_all

@[simp] theorem toList_pop_snd (queue : Queue α) : queue.pop.2.toList = queue.toList.tail := by
  obtain ⟨front, back⟩ := queue
  cases front with
  | cons value rest => rfl
  | nil => simp only [pop, toList, List.nil_append]; split <;> simp_all [empty]

end Queue
end Deferred
