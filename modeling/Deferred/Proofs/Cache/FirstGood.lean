import Deferred.Latch

/-! What a latch makes of any sequence of offers. It keeps the first one that is not a failure, and
from then on nothing changes it; whatever is offered, a failure is answered with itself and
anything else with what is kept by then. All that caching promises rests on this. -/

namespace Deferred.Latch

variable {ρ : Type} [HasFailure ρ]

/-- The latch after these offers, one after the other. -/
def offerAll (latch : Latch ρ) (offers : List ρ) : Latch ρ :=
  offers.foldl (fun held result => (held.offer result).2) latch

/-- The first offer that is not a failure. -/
def firstGood (offers : List ρ) : Option ρ :=
  offers.find? fun result => !HasFailure.isFailure result

theorem firstGood_cons_of_failure {result : ρ} (failure : HasFailure.isFailure result = true)
    (offers : List ρ) : firstGood (result :: offers) = firstGood offers := by
  simp [firstGood, failure]

theorem firstGood_cons_of_good {result : ρ} (good : HasFailure.isFailure result = false)
    (offers : List ρ) : firstGood (result :: offers) = some result := by
  simp [firstGood, good]

theorem firstGood_append (earlier later : List ρ) :
    firstGood (earlier ++ later) = (firstGood earlier).or (firstGood later) := by
  simp [firstGood, List.find?_append]

/-! ### One offer -/

theorem offer_of_failure (latch : Latch ρ) {result : ρ}
    (failure : HasFailure.isFailure result = true) : latch.offer result = (result, latch) := by
  simp [offer, failure]

/-- The answer to a good result is what the latch keeps afterwards. -/
theorem offer_of_good (latch : Latch ρ) {result : ρ}
    (good : HasFailure.isFailure result = false) :
    latch.offer result = (latch.value.getD result, ⟨some (latch.value.getD result)⟩) := by
  obtain ⟨value⟩ := latch
  cases value <;> simp [offer, good]

/-! ### Any sequence of offers -/

/-- The induction is on the offers, over any latch, since each offer changes the latch that the
later ones are made to. -/
theorem value_offerAll (latch : Latch ρ) (offers : List ρ) :
    (latch.offerAll offers).value = latch.value.or (firstGood offers) := by
  induction offers generalizing latch with
  | nil => simp [offerAll, firstGood]
  | cons result offers ih =>
    have later : latch.offerAll (result :: offers) = (latch.offer result).2.offerAll offers := rfl
    rw [later, ih]
    cases kind : HasFailure.isFailure result with
    | true => rw [offer_of_failure latch kind, firstGood_cons_of_failure kind]
    | false =>
      rw [offer_of_good latch kind, firstGood_cons_of_good kind]
      cases latch.value <;> rfl

theorem offerAll_of_set {latch : Latch ρ} (set : latch.value ≠ none) (offers : List ρ) :
    latch.offerAll offers = latch := by
  obtain ⟨kept, held⟩ := Option.ne_none_iff_exists'.mp set
  have value := value_offerAll latch offers
  rw [held, Option.some_or, ← held] at value
  exact congrArg Latch.mk value

theorem answer_of_good (earlier : List ρ) {result : ρ}
    (good : HasFailure.isFailure result = false) :
    some (((empty : Latch ρ).offerAll earlier).offer result).1 =
      firstGood (earlier ++ [result]) := by
  have kept : ((empty : Latch ρ).offerAll earlier).value = firstGood earlier :=
    value_offerAll empty earlier
  rw [offer_of_good _ good, firstGood_append, firstGood_cons_of_good good, kept]
  cases firstGood earlier <;> rfl

/-- Wherever a sequence of offers to a new latch has come: the latch keeps the first of them that
is not a failure, if there was one, and counts as set just then. The next offer is answered with
itself if it is a failure, and otherwise with the first good one up to and with it. Once something
is kept no later offer changes the latch. The failures are the errors, so absence is kept like a
value. -/
theorem settles_on_first_good :
    (∀ (ρ : Type) [HasFailure ρ] (earlier later : List ρ),
      let latch := (empty : Latch ρ).offerAll earlier
      latch.value = firstGood earlier ∧
        (latch.isSet = true ↔ latch.value ≠ none) ∧
        (∀ result, HasFailure.isFailure result = true → (latch.offer result).1 = result) ∧
        (∀ result, HasFailure.isFailure result = false →
          some (latch.offer result).1 = firstGood (earlier ++ [result])) ∧
        (latch.value ≠ none → latch.offerAll later = latch)) ∧
    (∀ (α : Type) (verdict : Verdict α),
      HasFailure.isFailure verdict = true ↔ ∃ error, verdict = .failure error) ∧
    (∀ (α : Type) (finding : Finding α),
      HasFailure.isFailure finding = true ↔ ∃ error, finding = .failed error) := by
  refine ⟨?_, ?_, ?_⟩
  · intro ρ _ earlier later latch
    refine ⟨value_offerAll empty earlier, ?_, ?_, ?_, ?_⟩
    · simp [isSet, Option.isSome_iff_ne_none]
    · intro result failure
      rw [offer_of_failure latch failure]
    · intro result good
      exact answer_of_good earlier good
    · intro set
      exact offerAll_of_set set later
  · intro α verdict
    cases verdict <;> simp [HasFailure.isFailure, Verdict.isFailure]
  · intro α finding
    cases finding <;> simp [HasFailure.isFailure, Finding.isFailure]

/-- After a failure absence is offered, and then a value: the value is answered with absence. -/
theorem absence_settled :
    ((empty : Latch (Finding Nat)).offerAll [.failed .bottom, .absent]).value = some .absent ∧
      (((empty : Latch (Finding Nat)).offerAll [.failed .bottom, .absent]).offer (.found 1)).1 =
        .absent := by
  obtain ⟨kept, -, -, answers, -⟩ :=
    settles_on_first_good.1 (Finding Nat) [.failed .bottom, .absent] []
  exact ⟨kept, Option.some.inj (answers (.found 1) rfl)⟩

end Deferred.Latch
