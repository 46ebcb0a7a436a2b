import Mathlib.Logic.Function.Iterate
import Deferred.Error

/-! What makes an error the error it is. Given as the reason of another error, any number of times,
it stays what it was, so that nothing but a user's own error is ever wrapped. Two errors are equal
when they are of one kind and have the same bare text: the words that the text of a panic begins
with are always the same, and texts of different kinds are never compared. -/

namespace Deferred.Error

/-! ### Errors as reasons -/

/-- How an error comes about. In the last case it is an error that is given as a reason. -/
inductive Making where
  | message (text : String)
  | panic (payload : Payload)
  | invalidJoin
  | bottom
  | cause (own : Cause)
  | again (making : Making)

namespace Making

def error : Making → Error
  | message text => .message text
  | panic payload => .ofPanic payload
  | invalidJoin => .invalidJoin
  | bottom => .bottom
  | cause own => .new own
  | again making => .new making.error

/-- How it came about before it was given as a reason. -/
def first : Making → Making
  | again making => making.first
  | making => making

theorem error_first (making : Making) : making.first.error = making.error := by
  induction making with
  | again making ih => exact ih
  | message | panic | invalidJoin | bottom | cause => rfl

/-- What is wrapped is a user's own error, which was there from the first. -/
theorem first_eq_cause {making : Making} {cause : Cause}
    (wraps : making.error.cause? = some cause) : making.first = .cause cause := by
  induction making with
  | again making ih => exact ih wraps
  | cause own =>
    have same : some own = some cause := wraps
    obtain rfl := Option.some.inj same
    rfl
  | message | panic | invalidJoin | bottom =>
    simp [error, ofPanic, cause?] at wraps

end Making

theorem new_iterate (error : Error) (count : Nat) :
    (Error.new : Error → Error)^[count] error = error := by
  induction count with
  | zero => rfl
  | succ count ih =>
    rw [Function.iterate_succ_apply', ih]
    rfl

/-! ### Equality -/

theorem text_of_panicked {error : Error} (panicked : error.kind = .panicked) :
    error.text = "computation panicked: " ++ error.bareText := by
  cases error with
  | panicked text => rfl
  | failed | message | invalidJoin | bottom => cases panicked

theorem text_of_not_panicked {error : Error} (other : error.kind ≠ .panicked) :
    error.text = error.bareText := by
  cases error with
  | panicked text => exact absurd rfl other
  | failed | message | invalidJoin | bottom => rfl

/-- Within one kind the text tells as much as the bare text. -/
theorem text_inj_of_kind {first second : Error} (same : first.kind = second.kind) :
    first.text = second.text ↔ first.bareText = second.bareText := by
  by_cases panicked : first.kind = .panicked
  · rw [text_of_panicked panicked, text_of_panicked (same ▸ panicked)]
    exact String.append_right_inj _
  · rw [text_of_not_panicked panicked, text_of_not_panicked (same ▸ panicked)]

theorem beq_iff {first second : Error} :
    (first == second) = true ↔
      first.kind = second.kind ∧ first.bareText = second.bareText := by
  change (first.kind == second.kind && first.text == second.text) = true ↔ _
  rw [Bool.and_eq_true, beq_iff_eq, beq_iff_eq]
  exact and_congr_right text_inj_of_kind

theorem equivalence_beq : Equivalence fun first second : Error => (first == second) = true where
  refl error := beq_iff.mpr ⟨rfl, rfl⟩
  symm same := by
    obtain ⟨kind, text⟩ := beq_iff.mp same
    exact beq_iff.mpr ⟨kind.symm, text.symm⟩
  trans same alike := by
    obtain ⟨kind, text⟩ := beq_iff.mp same
    obtain ⟨otherKind, otherText⟩ := beq_iff.mp alike
    exact beq_iff.mpr ⟨kind.trans otherKind, text.trans otherText⟩

/-- A message that reads like a panic is another error, though their texts are the same. -/
example : (message "computation panicked: boom" == panicked "boom") = false := by decide

/-- However errors are made and given as reasons of others: none of them ever wraps an error that
is not a user's own, and as a reason an error keeps its kind, its texts and what it wraps. Of all
errors those are equal that are of one kind and have the same bare text, and only the text of a
panic is more than that. -/
theorem kept_as_reason_and_told_by_text :
    (∀ making : Making, making.error = making.first.error ∧
      ∀ cause : Cause, making.error.cause? = some cause → making.first = .cause cause) ∧
    (∀ (error : Error) (count : Nat),
      let wrapped := (Error.new : Error → Error)^[count] error
      wrapped.kind = error.kind ∧ wrapped.text = error.text ∧
        wrapped.bareText = error.bareText ∧ wrapped.isPanic = error.isPanic ∧
        wrapped.cause? = error.cause?) ∧
    (Equivalence fun first second : Error => (first == second) = true) ∧
    (∀ first second : Error, (first == second) = true ↔
      first.kind = second.kind ∧ first.bareText = second.bareText) ∧
    (∀ error : Error,
      (error.kind = .panicked → error.text = "computation panicked: " ++ error.bareText) ∧
        (error.kind ≠ .panicked → error.text = error.bareText)) := by
  refine ⟨fun making => ⟨making.error_first.symm, fun cause => Making.first_eq_cause⟩, ?_,
    equivalence_beq, fun first second => beq_iff,
    fun error => ⟨text_of_panicked, text_of_not_panicked⟩⟩
  intro error count
  rw [new_iterate]
  simp

/-- A user's own error that is given as a reason twice, and the error of a panic. -/
theorem refused_kept_as_reason :
    (Making.again (.again (.cause ⟨"io", "refused", "Refused"⟩))).first =
        .cause ⟨"io", "refused", "Refused"⟩ ∧
      (ofPanic (.owned "boom")).text = "computation panicked: " ++ "boom" ∧
      bottom.text = bottom.bareText := by
  obtain ⟨makings, -, -, -, texts⟩ := kept_as_reason_and_told_by_text
  refine ⟨(makings _).2 _ rfl, (texts _).1 rfl, (texts _).2 ?_⟩
  decide

end Deferred.Error
