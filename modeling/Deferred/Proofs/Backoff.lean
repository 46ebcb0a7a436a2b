import Mathlib.Algebra.GroupWithZero.Nat
import Deferred.RetryPlan

/-! The waits of a plan that doubles them, reckoned without bounds. Each number on the way is exact
or it is refused, and it is refused only where it does not fit; whatever does not fit is beyond the
greatest span. So the wait before a retry is the exact one or, from some retry on, the greatest. -/

namespace Deferred

namespace Duration

theorem limit_lt : limit < 2 ^ 128 := by decide

theorem toNat_wide (span : Duration) : span.wide.toNat = span.nanos := by
  rw [wide, BitVec.toNat_ofNat]
  exact Nat.mod_eq_of_lt (Nat.lt_of_le_of_lt span.nanos_le limit_lt)

theorem power_eq_some_iff {times : UInt32} {power : Wide} :
    power? times = some power ↔ power.toNat = 2 ^ times.toNat := by
  have few : times < 128 ↔ times.toNat < 128 := UInt32.lt_iff_toNat_lt
  unfold power?
  split
  next fits =>
    have shifted : ((1 : Wide) <<< times.toNat).toNat = 2 ^ times.toNat := by
      rw [BitVec.toNat_shiftLeft, show (1 : Wide).toNat = 1 from rfl, Nat.shiftLeft_eq, Nat.one_mul]
      exact Nat.mod_eq_of_lt (Nat.pow_lt_pow_right (by decide) (few.mp fits))
    rw [← shifted, Option.some.injEq, ← BitVec.toNat_inj]
    exact eq_comm
  next many =>
    have least : 2 ^ 128 ≤ 2 ^ times.toNat :=
      Nat.pow_le_pow_right (by decide) (Nat.le_of_not_lt fun fits => many (few.mpr fits))
    have bound := power.isLt
    exact ⟨nofun, fun same => by omega⟩

theorem product_eq_some_iff {first second product : Wide} :
    product? first second = some product ↔ product.toNat = first.toNat * second.toNat := by
  unfold product? BitVec.umulOverflow
  split
  next beyond =>
    have bound := product.isLt
    have least := of_decide_eq_true beyond
    exact ⟨nofun, fun same => by omega⟩
  next fits =>
    have same : (first * second).toNat = first.toNat * second.toNat := by
      rw [BitVec.toNat_mul]
      exact Nat.mod_eq_of_lt (Nat.lt_of_not_le fun beyond => fits (decide_eq_true beyond))
    rw [← same, Option.some.injEq, ← BitVec.toNat_inj]
    exact eq_comm

theorem ofWide_eq_some_iff {nanos : Wide} {span : Duration} :
    ofWide? nanos = some span ↔ span.nanos = nanos.toNat := by
  have seconds : (nanos / 1000000000).toNat = nanos.toNat / 1000000000 := BitVec.toNat_udiv
  have begun : (nanos % 1000000000).toNat = nanos.toNat % 1000000000 := BitVec.toNat_umod
  unfold ofWide?
  dsimp only
  split
  next fits =>
    rw [Option.some.injEq]
    obtain ⟨total, bound⟩ := span
    unfold ofParts
    simp only [mk.injEq, UInt64.toNat_ofNatLT, UInt32.toNat_ofNatLT, seconds, begun]
    omega
  next beyond =>
    have bound := span.nanos_le
    unfold limit UInt64.size at bound
    rw [seconds, begun] at beyond
    unfold UInt64.size UInt32.size at beyond
    exact ⟨nofun, fun same => by omega⟩

/-- A step that has its exact number, or refuses one that does not fit. -/
theorem exact_or_beyond {result : Option Wide} {number : Nat}
    (exactly : ∀ wide, result = some wide ↔ wide.toNat = number) :
    (∃ wide, result = some wide ∧ wide.toNat = number) ∨ result = none ∧ 2 ^ 128 ≤ number := by
  rcases Nat.lt_or_ge number (2 ^ 128) with fits | beyond
  · have same : (BitVec.ofNatLT number fits).toNat = number := BitVec.toNat_ofNatLT number fits
    exact .inl ⟨_, (exactly _).mpr same, same⟩
  · refine .inr ⟨Option.eq_none_iff_forall_ne_some.mpr fun wide found => ?_, beyond⟩
    have bound := wide.isLt
    rw [(exactly wide).mp found] at bound
    omega

/-- The greatest span is the one nearest to a number that does not fit. -/
theorem nanos_ofWide (nanos : Wide) :
    ((ofWide? nanos).getD greatest).nanos = min nanos.toNat limit := by
  rcases Nat.lt_or_ge limit nanos.toNat with beyond | fits
  · have none : ofWide? nanos = none := Option.eq_none_iff_forall_ne_some.mpr fun span found => by
      have bound := span.nanos_le
      rw [ofWide_eq_some_iff.mp found] at bound
      omega
    rw [none, Nat.min_eq_right (Nat.le_of_lt beyond)]
    rfl
  · rw [(@ofWide_eq_some_iff nanos ⟨_, fits⟩).mpr rfl, Nat.min_eq_left fits]
    rfl

/-- The doubled span, in unbounded numbers. -/
theorem nanos_doubled (span : Duration) (times : UInt32) :
    (span.doubled times).nanos = min (span.nanos * 2 ^ times.toNat) limit := by
  have bound := limit_lt
  unfold doubled
  split
  next empty => rw [empty, Nat.zero_mul, Nat.zero_min]; rfl
  next started =>
    have least : 2 ^ times.toNat ≤ span.nanos * 2 ^ times.toNat :=
      Nat.le_mul_of_pos_left _ (Nat.pos_of_ne_zero started)
    rcases exact_or_beyond fun _ => power_eq_some_iff with ⟨power, found, ofPower⟩ | ⟨none, beyond⟩
    · rw [found, Option.bind_some]
      rcases exact_or_beyond fun _ => product_eq_some_iff with
        ⟨product, found, ofProduct⟩ | ⟨none, beyond⟩
      · rw [found, Option.bind_some, nanos_ofWide, ofProduct, toNat_wide, ofPower]
      · rw [toNat_wide, ofPower] at beyond
        rw [none, Nat.min_eq_right (by omega)]
        rfl
    · rw [none, Nat.min_eq_right (by omega)]
      rfl

end Duration

namespace RetryPlan

theorem toNat_doublings (retry : Nat) :
    (doublings retry).toNat = min (retry - 1) (UInt32.size - 1) := by
  unfold doublings
  split
  next fits => rw [UInt32.toNat_ofNatLT]; omega
  next many =>
    rw [UInt32.toNat_ofNat_of_lt' (by decide)]
    omega

/-- What 32 bits cannot tell any more makes no difference. -/
theorem nanos_doublings (initial : Duration) (retry : Nat) :
    (initial.doubled (doublings retry)).nanos =
      min (initial.nanos * 2 ^ (retry - 1)) Duration.limit := by
  rw [Duration.nanos_doubled, toNat_doublings]
  rcases Nat.eq_zero_or_pos initial.nanos with empty | started
  · rw [empty, Nat.zero_mul, Nat.zero_mul]
  · rcases Nat.le_total (retry - 1) (UInt32.size - 1) with few | many
    · rw [Nat.min_eq_left few]
    -- So many doublings of a single nanosecond are already beyond the greatest span.
    · have reached : ∀ times, 128 ≤ times → Duration.limit ≤ initial.nanos * 2 ^ times := by
        intro times enough
        have least := Nat.le_mul_of_pos_left (2 ^ times) started
        have power : 2 ^ 128 ≤ 2 ^ times := Nat.pow_le_pow_right (by decide) enough
        have bound := Duration.limit_lt
        omega
      have enough : 128 ≤ UInt32.size - 1 := by decide
      rw [Nat.min_eq_right many, Nat.min_eq_right (reached _ enough),
        Nat.min_eq_right (reached _ (Nat.le_trans enough many))]

/-- The wait before a retry is the initial span times the power of two, in unbounded numbers, or the
greatest span if that is less. So an empty span stays empty, and each wait is twice the one before
it for as long as that fits. Nothing on the way is wrapped around or cut off: the number of
doublings stops at the greatest number, the power, the product and the span each are what they
should be, and are missing only where they do not fit. -/
theorem waits_double_until_greatest (initial : Duration) (budget : UInt64) (earlier : Nat) :
    (∃ delay next : Duration,
      (doubling initial budget).waitBefore (earlier + 1) = some delay ∧
      (doubling initial budget).waitBefore (earlier + 2) = some next ∧
      delay.nanos = min (initial.nanos * 2 ^ earlier) Duration.greatest.nanos ∧
      (initial.nanos = 0 → delay.nanos = 0) ∧ delay.nanos ≤ next.nanos ∧
      next.nanos = min (2 * delay.nanos) Duration.greatest.nanos) ∧
    (doublings (earlier + 1)).toNat = min earlier (UInt32.size - 1) ∧
    initial.wide.toNat = initial.nanos ∧
    (∀ times power, Duration.power? times = some power ↔ power.toNat = 2 ^ times.toNat) ∧
    (∀ first second product, Duration.product? first second = some product ↔
      product.toNat = first.toNat * second.toNat) ∧
    ∀ nanos span, Duration.ofWide? nanos = some span ↔ span.nanos = nanos.toNat := by
  refine ⟨⟨_, _, rfl, rfl, ?_⟩, toNat_doublings (earlier + 1), initial.toNat_wide,
    fun _ _ => Duration.power_eq_some_iff, fun _ _ _ => Duration.product_eq_some_iff,
    fun _ _ => Duration.ofWide_eq_some_iff⟩
  have delay := nanos_doublings initial (earlier + 1)
  have next := nanos_doublings initial (earlier + 2)
  have twice : initial.nanos * 2 ^ (earlier + 1) = 2 * (initial.nanos * 2 ^ earlier) := by
    rw [Nat.pow_succ]
    ac_rfl
  rw [Nat.add_sub_cancel] at delay
  rw [show earlier + 2 - 1 = earlier + 1 from rfl, twice] at next
  have greatest : Duration.greatest.nanos = Duration.limit := rfl
  refine ⟨delay, fun empty => ?_, ?_, ?_⟩
  · rw [delay, empty, Nat.zero_mul, Nat.zero_min]
  · omega
  · omega

/-- One nanosecond, doubled to the last span that is exact. -/
example : (doubling ⟨1, by decide⟩ 200).waitBefore 94 = some ⟨2 ^ 93, by decide⟩ ∧
    (doubling ⟨1, by decide⟩ 200).waitBefore 95 = some .greatest := by decide

end RetryPlan
end Deferred
