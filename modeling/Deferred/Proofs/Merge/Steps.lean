import Deferred.Proofs.Merge.Interleaving

/-! What a step of each part of a merged run does to the hub. -/

namespace Deferred.Merge

variable {σ α : Type}

section input

variable {index : Nat} {alive : Prop} {stage next : Stage σ α} {hub after : Hub α}
  {produced pushed : List α}

theorem Stage.Step.toList (step : Stage.Step index alive stage hub produced pushed next after) :
    after.queue.toList = hub.queue.toList ++ pushed := by
  cases step with
  | push => exact Hub.toList_enqueue hub _
  | pull | upgrade | refuse | signal | release | leave => exact (List.append_nil _).symm

theorem Stage.Step.running (step : Stage.Step index alive stage hub produced pushed next after) :
    after.running = hub.running := by
  cases step <;> rfl

theorem Stage.Step.attached (step : Stage.Step index alive stage hub produced pushed next after) :
    after.attached = hub.attached := by
  cases step <;> rfl

theorem Stage.isDone_ofItems (items : Items σ α) : (Stage.ofItems items).isDone = false := by
  cases items <;> rfl

/-- A task that is over takes no step, and the step with which it ends is noted. -/
theorem Stage.Step.ends (step : Stage.Step index alive stage hub produced pushed next after) :
    stage.isDone = false ∧ after.ends.length = hub.ends.length + next.isDone.toNat := by
  cases step with
  | pull => exact ⟨rfl, by rw [Stage.isDone_ofItems]; rfl⟩
  | leave => exact ⟨rfl, List.length_append⟩
  | upgrade | refuse | push | signal | release => exact ⟨rfl, rfl⟩

end input

section supervisor

variable {inputs : Nat} {alive : Prop} {supervisor next : Supervisor} {hub after : Hub α}
  {recorded : List (Nat × Error)}

/-- The supervisor touches nothing but the mark and the signal. -/
theorem Supervisor.Step.frame
    (step : Supervisor.Step inputs alive supervisor hub recorded next after) :
    after.queue = hub.queue ∧ after.attached = hub.attached ∧ after.ends = hub.ends := by
  cases step <;> exact ⟨rfl, rfl, rfl⟩

end supervisor

section consumer

variable {flag : Flag} {consumer next : Consumer} {hub after : Hub α} {yielded : List α}

def Consumer.isGone : Consumer → Bool
  | ended _ => true
  | dropped => true
  | _ => false

theorem Consumer.Step.toList (step : Consumer.Step flag consumer hub yielded next after) :
    hub.queue.toList = yielded ++ after.queue.toList := by
  cases step with
  | item popped | last popped => exact Hub.toList_of_pop popped
  | none popped | finish popped => exact Hub.toList_of_pop popped
  | heard kept | heardLate kept => rw [(Hub.eq_of_listen kept).2]; rfl
  | listen none | waitLate none => rw [(Hub.eq_of_listen none).2]; rfl
  | cancelled | look | runs | closed | stop | wait | skip | subscribe | answer | obey | again =>
    rfl

/-- The consumer touches neither the mark of the supervisor nor the ends of the inputs. -/
theorem Consumer.Step.frame (step : Consumer.Step flag consumer hub yielded next after) :
    after.running = hub.running ∧ after.ends = hub.ends := by
  cases step with
  | item popped | last popped | none popped | finish popped =>
    rw [Hub.eq_of_pop popped]; exact ⟨rfl, rfl⟩
  | heard kept | heardLate kept => rw [(Hub.eq_of_listen kept).2]; exact ⟨rfl, rfl⟩
  | listen none | waitLate none => rw [(Hub.eq_of_listen none).2]; exact ⟨rfl, rfl⟩
  | cancelled | look | runs | closed | stop | wait | skip | subscribe | answer | obey | again =>
    exact ⟨rfl, rfl⟩

/-- A consumer that is gone takes no step, and it lets go of the hub when it ends. -/
theorem Consumer.Step.attached (step : Consumer.Step flag consumer hub yielded next after) :
    consumer.isGone = false ∧ after.attached = (hub.attached && !next.isGone) := by
  cases step with
  | item popped | last popped | none popped =>
    rw [Hub.eq_of_pop popped]; exact ⟨rfl, (Bool.and_true _).symm⟩
  | heard kept | heardLate kept =>
    rw [(Hub.eq_of_listen kept).2]; exact ⟨rfl, (Bool.and_true _).symm⟩
  | listen none | waitLate none =>
    rw [(Hub.eq_of_listen none).2]; exact ⟨rfl, (Bool.and_true _).symm⟩
  | cancelled | finish => exact ⟨rfl, (Bool.and_false _).symm⟩
  | look | runs | closed | stop | wait | skip | subscribe | answer | obey | again =>
    exact ⟨rfl, (Bool.and_true _).symm⟩

end consumer

end Deferred.Merge
