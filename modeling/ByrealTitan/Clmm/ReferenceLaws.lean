import ByrealTitan.Clmm.Laws
import ByrealTitan.Clmm.Reference
import Mathlib.Tactic.Linarith

/-!
# `Clmm.ReferenceLaws` — what the concrete crates satisfy

The laws that theorems over arbitrary crates assume, shown for `Reference`: the bitmap search stays on its
side of where it starts, and a swap step is monotone in the remaining input. The latter comes from the
roundings: the price that an input short of the target buys stays short of it and costs no more than the
input (`StepCurve`).
-/

namespace ByrealTitan.Clmm.Reference

open Direction

/-! ## The bitmap search -/

theorem arrayTicks_pos {spacing : Nat} (h : 0 < spacing) : 0 < arrayTicks spacing := by
  unfold arrayTicks tickArraySize
  omega

/-- A search downwards finds a marked array at or below its start, and above its last index. -/
theorem searchBitmap_down {bitmap : List UInt64} {count : Nat} {index i : Int}
    (h : searchBitmap bitmap (-1) count index = some i) :
    i ≤ index ∧ index - count < i ∧ marked bitmap (i + 512) = true ∧
      ∀ j, i < j → j ≤ index → marked bitmap (j + 512) = false := by
  induction count generalizing index with
  | zero => cases h
  | succ count ih =>
      unfold searchBitmap at h
      split at h
      next hmark =>
        cases h
        exact ⟨by omega, by omega, hmark, fun j _ _ => by omega⟩
      next hmark =>
        obtain ⟨hle, hlow, hi, hskip⟩ := ih h
        refine ⟨by omega, by omega, hi, fun j hj hj' => ?_⟩
        by_cases hjx : j = index
        · rw [hjx]
          exact Bool.eq_false_iff.mpr hmark
        · exact hskip j hj (by omega)

/-- A search upwards finds a marked array at or above its start, and below its last index. -/
theorem searchBitmap_up {bitmap : List UInt64} {count : Nat} {index i : Int}
    (h : searchBitmap bitmap 1 count index = some i) :
    index ≤ i ∧ i < index + count ∧ marked bitmap (i + 512) = true ∧
      ∀ j, index ≤ j → j < i → marked bitmap (j + 512) = false := by
  induction count generalizing index with
  | zero => cases h
  | succ count ih =>
      unfold searchBitmap at h
      split at h
      next hmark =>
        cases h
        exact ⟨by omega, by omega, hmark, fun j _ _ => by omega⟩
      next hmark =>
        obtain ⟨hle, hlow, hi, hskip⟩ := ih h
        refine ⟨by omega, by omega, hi, fun j hj hj' => ?_⟩
        by_cases hjx : j = index
        · rw [hjx]
          exact Bool.eq_false_iff.mpr hmark
        · exact hskip j (by omega) hj'

/-- **What the search of the pool's bitmap finds** is the next marked array in its direction. -/
theorem nextInitializedTickArrayStartIndex_eq_true {bitmap : List UInt64} {last next : Int} {spacing : Nat}
    {zeroForOne : Bool}
    (h : nextInitializedTickArrayStartIndex bitmap last spacing zeroForOne = (true, next)) :
    ∃ i, next = i * arrayTicks spacing ∧ -512 ≤ i ∧ i < 512 ∧ marked bitmap (i + 512) = true ∧
      Further zeroForOne (last / arrayTicks spacing) i ∧
      ∀ j, Further zeroForOne (last / arrayTicks spacing) j → Further zeroForOne j i →
        marked bitmap (j + 512) = false := by
  unfold nextInitializedTickArrayStartIndex firstMarked at h
  cases zeroForOne with
  | true =>
      simp only [if_true] at h
      split at h
      next => cases h
      next hin =>
        split at h
        next i hfirst =>
          cases h
          split at hfirst
          next => cases hfirst
          next =>
            obtain ⟨hle, hlow, hmark, hskip⟩ := searchBitmap_down hfirst
            refine ⟨i, rfl, by omega, by omega, hmark, by rw [further_down]; omega, fun j hj hji => ?_⟩
            rw [further_down] at hj hji
            exact hskip j (by omega) (by omega)
        next => cases h
  | false =>
      simp only [Bool.false_eq_true, if_false] at h
      split at h
      next => cases h
      next hin =>
        split at h
        next i hfirst =>
          cases h
          split at hfirst
          next => cases hfirst
          next =>
            obtain ⟨hle, hlow, hmark, hskip⟩ := searchBitmap_up hfirst
            refine ⟨i, rfl, by omega, by omega, hmark, by rw [further_up]; omega, fun j hj hji => ?_⟩
            rw [further_up] at hj hji
            exact hskip j (by omega) (by omega)
        next => cases h

/-- An array with an index further on starts further on than anything in the array before. -/
theorem further_of_index {last i : Int} {spacing : Nat} {zeroForOne : Bool} (hspacing : 0 < spacing)
    (h : Further zeroForOne (last / arrayTicks spacing) i) :
    Further zeroForOne last (i * arrayTicks spacing) := by
  have hat := arrayTicks_pos hspacing
  have hdiv := Int.mul_ediv_add_emod last (arrayTicks spacing)
  have hlow := Int.emod_nonneg last (ne_of_gt hat)
  have hhigh := Int.emod_lt_of_pos last hat
  cases zeroForOne with
  | true =>
      rw [further_down] at h ⊢
      calc i * arrayTicks spacing ≤ (last / arrayTicks spacing + -1) * arrayTicks spacing :=
            Int.mul_le_mul_of_nonneg_right (by omega) (Int.le_of_lt hat)
        _ < last := by linarith
  | false =>
      rw [further_up] at h ⊢
      calc last < (last / arrayTicks spacing + 1) * arrayTicks spacing := by linarith
        _ ≤ i * arrayTicks spacing := Int.mul_le_mul_of_nonneg_right (by omega) (Int.le_of_lt hat)

/-- What the search of the pool's bitmap finds lies strictly further in its direction. -/
theorem nextInitializedTickArrayStartIndex_further {bitmap : List UInt64} {last next : Int} {spacing : Nat}
    {zeroForOne : Bool} (hspacing : 0 < spacing)
    (h : nextInitializedTickArrayStartIndex bitmap last spacing zeroForOne = (true, next)) :
    Further zeroForOne last next := by
  obtain ⟨i, rfl, -, -, -, hfurther, -⟩ := nextInitializedTickArrayStartIndex_eq_true h
  exact further_of_index hspacing hfurther

/-- Where the search of the pool's bitmap gives up: where it started, or at the edge of the bitmap. -/
theorem nextInitializedTickArrayStartIndex_eq_false {bitmap : List UInt64} {last edge : Int}
    {spacing : Nat} {zeroForOne : Bool} (hspacing : 0 < spacing)
    (h : nextInitializedTickArrayStartIndex bitmap last spacing zeroForOne = (false, edge)) :
    edge = last ∨ Further zeroForOne last edge := by
  unfold nextInitializedTickArrayStartIndex at h
  cases zeroForOne with
  | true =>
      simp only [if_true] at h
      split at h
      next =>
        cases h
        exact Or.inl rfl
      next hin =>
        split at h
        next => cases h
        next =>
          cases h
          refine Or.inr (further_of_index hspacing ?_)
          rw [further_down]
          omega
  | false =>
      simp only [Bool.false_eq_true, if_false] at h
      split at h
      next =>
        cases h
        exact Or.inl rfl
      next hin =>
        split at h
        next => cases h
        next =>
          cases h
          refine Or.inr (further_of_index hspacing ?_)
          rw [further_up]
          omega

/-- The search of the empty extension ends further on. -/
theorem emptyExtensionNext_further {last : Int} {spacing : Nat} {zeroForOne : Bool}
    (hspacing : 0 < spacing) :
    Further zeroForOne last (emptyExtensionNext last spacing zeroForOne).2 := by
  have hat := arrayTicks_pos hspacing
  unfold emptyExtensionNext
  cases zeroForOne with
  | true =>
      rw [further_down]
      have := Int.ediv_mul_le (last - arrayTicks spacing) (show 512 * arrayTicks spacing ≠ 0 by omega)
      simp only [if_true]
      omega
  | false =>
      rw [further_up]
      have := Int.lt_ediv_add_one_mul_self (last + arrayTicks spacing)
        (show 0 < 512 * arrayTicks spacing by omega)
      simp only [Bool.false_eq_true, if_false]
      omega

/-! ## Swap steps -/

theorem divUp_le_iff {a b c : Nat} (hb : 0 < b) : divUp a b ≤ c ↔ a ≤ b * c := by
  unfold divUp
  rw [Nat.div_le_iff_le_mul_add_pred hb]
  omega

theorem le_mul_divUp {a b : Nat} (hb : 0 < b) : a ≤ b * divUp a b := (divUp_le_iff hb).mp (Nat.le_refl _)

theorem divUp_zero_right (a : Nat) : divUp a 0 = 0 := Nat.div_zero _

/-- The input a step to `next` takes before the fee. -/
def stepIn (price liquidity : Nat) (zeroForOne : Bool) (next : Nat) : Nat :=
  if zeroForOne then deltaAmount0 next price liquidity true else deltaAmount1 price next liquidity true

/-- The output of a step to `next`. -/
def stepOut (price liquidity : Nat) (zeroForOne : Bool) (next : Nat) : Nat :=
  if zeroForOne then deltaAmount1 next price liquidity false else deltaAmount0 price next liquidity false

/-- The remaining input less the fee. -/
def lessFee (remaining feeRate : Nat) : Nat := remaining * (feeDenominator - feeRate) / feeDenominator

/-- What an input that does not buy the target buys: a price short of it, for no more than the input, and
    more output for more input. -/
structure StepCurve (zeroForOne : Bool) (target : Nat) (amountIn amountOut nextFor : Nat → Nat) :
    Prop where
  short {a : Nat} : a < amountIn target → Short zeroForOne target (nextFor a)
  covered {a : Nat} : a < amountIn target → amountIn (nextFor a) ≤ a
  below {a : Nat} : a < amountIn target → amountOut (nextFor a) ≤ amountOut target
  mono {a b : Nat} : a ≤ b → b < amountIn target → amountOut (nextFor a) ≤ amountOut (nextFor b)

/-- The output down to a lower price is no less. -/
theorem deltaAmount1_anti {price liquidity next next' : Nat} (h : next' ≤ next) :
    deltaAmount1 next price liquidity false ≤ deltaAmount1 next' price liquidity false := by
  simp only [deltaAmount1, Bool.false_eq_true, if_false]
  exact Nat.div_le_div_right (Nat.mul_le_mul_left _ (by omega))

/-- An input below what the target costs leaves the price above it. -/
theorem nextPrice_short_down {price target liquidity a : Nat}
    (ha : a < stepIn price liquidity true target) :
    0 < target ∧ target < price ∧ 0 < liquidity ∧ target < nextPriceFromInput price liquidity a true := by
  simp only [stepIn, deltaAmount0, if_true] at ha
  have htarget : 0 < target := by
    rcases Nat.eq_zero_or_pos target with rfl | h
    · rw [divUp_zero_right] at ha
      omega
    · exact h
  have hcost : ¬ liquidity * 2 ^ 64 * (price - target) ≤ price * (target * a) := by
    intro hle
    have hprice : 0 < price := by
      rcases Nat.eq_zero_or_pos price with rfl | h
      · rw [divUp_zero_right] at ha
        unfold divUp at ha
        rw [Nat.zero_add, Nat.div_eq_of_lt (by omega)] at ha
        omega
      · exact h
    exact absurd ((divUp_le_iff htarget).mpr ((divUp_le_iff hprice).mpr hle)) (by omega)
  have hlt : target < price := by
    by_contra hle
    rw [Nat.sub_eq_zero_of_le (by omega), Nat.mul_zero] at hcost
    exact hcost (Nat.zero_le _)
  have hliquidity : 0 < liquidity := by
    rcases Nat.eq_zero_or_pos liquidity with rfl | h
    · simp at hcost
    · exact h
  refine ⟨htarget, hlt, hliquidity, ?_⟩
  by_contra hle
  simp only [nextPriceFromInput, if_true] at hle
  rw [Nat.not_lt, divUp_le_iff (by positivity)] at hle
  obtain ⟨d, rfl⟩ : ∃ d, price = target + d := ⟨price - target, by omega⟩
  rw [Nat.add_sub_cancel_left] at hcost
  refine hcost ?_
  nlinarith

theorem stepCurve_down (price target liquidity : Nat) :
    StepCurve true target (stepIn price liquidity true) (stepOut price liquidity true)
      (nextPriceFromInput price liquidity · true) := by
  refine ⟨fun ha => ?_, fun {a} ha => ?_, fun ha => ?_, fun {a b} hab hb => ?_⟩
  · simp only [Short, if_true]
    exact (nextPrice_short_down ha).2.2.2
  · obtain ⟨htarget, hlt, hliquidity, hnext⟩ := nextPrice_short_down ha
    have hcost := le_mul_divUp (a := liquidity * 2 ^ 64 * price) (b := liquidity * 2 ^ 64 + a * price)
      (by positivity)
    simp only [nextPriceFromInput, if_true] at hnext ⊢
    generalize divUp (liquidity * 2 ^ 64 * price) (liquidity * 2 ^ 64 + a * price) = next at hcost hnext ⊢
    simp only [stepIn, deltaAmount0, if_true]
    rw [divUp_le_iff (by omega), divUp_le_iff (by omega)]
    by_cases hle : next ≤ price
    · obtain ⟨d, rfl⟩ : ∃ d, price = next + d := ⟨price - next, by omega⟩
      rw [Nat.add_sub_cancel_left]
      nlinarith
    · rw [Nat.sub_eq_zero_of_le (by omega), Nat.mul_zero]
      exact Nat.zero_le _
  · simp only [stepOut, if_true]
    exact deltaAmount1_anti (Nat.le_of_lt (nextPrice_short_down ha).2.2.2)
  · obtain ⟨htarget, hlt, hliquidity, -⟩ := nextPrice_short_down hb
    simp only [stepOut, if_true]
    apply deltaAmount1_anti
    simp only [nextPriceFromInput, if_true]
    rw [divUp_le_iff (by positivity)]
    calc liquidity * 2 ^ 64 * price
        ≤ (liquidity * 2 ^ 64 + a * price) *
            divUp (liquidity * 2 ^ 64 * price) (liquidity * 2 ^ 64 + a * price) :=
          le_mul_divUp (by positivity)
      _ ≤ (liquidity * 2 ^ 64 + b * price) *
            divUp (liquidity * 2 ^ 64 * price) (liquidity * 2 ^ 64 + a * price) :=
          Nat.mul_le_mul_right _ (Nat.add_le_add_left (Nat.mul_le_mul_right _ hab) _)

/-- The output up to a higher price is no less. -/
theorem deltaAmount0_mono {price liquidity next next' : Nat} (hprice : price ≤ next) (h : next ≤ next') :
    deltaAmount0 price next liquidity false ≤ deltaAmount0 price next' liquidity false := by
  simp only [deltaAmount0, Bool.false_eq_true, if_false]
  refine Nat.div_le_div_right ?_
  generalize liquidity * 2 ^ 64 = k
  rcases Nat.eq_zero_or_pos next with rfl | hpos
  · rw [Nat.div_zero]
    exact Nat.zero_le _
  · rw [Nat.le_div_iff_mul_le (by omega)]
    have hq := Nat.div_mul_le_self (k * (next - price)) next
    have hqk : k * (next - price) / next ≤ k := by
      rw [Nat.div_le_iff_le_mul_add_pred hpos]
      calc k * (next - price) ≤ k * next := Nat.mul_le_mul_left _ (Nat.sub_le _ _)
        _ = next * k := Nat.mul_comm _ _
        _ ≤ next * k + (next - 1) := Nat.le_add_right _ _
    obtain ⟨d, rfl⟩ : ∃ d, next' = next + d := ⟨next' - next, by omega⟩
    calc k * (next - price) / next * (next + d)
        = k * (next - price) / next * next + k * (next - price) / next * d := Nat.mul_add _ _ _
      _ ≤ k * (next - price) + k * d := Nat.add_le_add hq (Nat.mul_le_mul_right _ hqk)
      _ = k * (next + d - price) := by
          rw [← Nat.mul_add]
          congr 1
          omega

/-- An input below what the target costs leaves the price below it. -/
theorem nextPrice_short_up {price target liquidity a : Nat}
    (ha : a < stepIn price liquidity false target) :
    0 < liquidity ∧ nextPriceFromInput price liquidity a false < target := by
  simp only [stepIn, deltaAmount1, Bool.false_eq_true, if_false, if_true] at ha
  have hcost : 2 ^ 64 * a < liquidity * (target - price) := by
    by_contra hle
    exact absurd ((divUp_le_iff (by positivity)).mpr (Nat.not_lt.mp hle)) (by omega)
  have hliquidity : 0 < liquidity := by
    rcases Nat.eq_zero_or_pos liquidity with rfl | h
    · simp at hcost
    · exact h
  have hlt : a * 2 ^ 64 / liquidity < target - price := by
    rw [Nat.div_lt_iff_lt_mul hliquidity]
    linarith [Nat.mul_comm liquidity (target - price), Nat.mul_comm a (2 ^ 64)]
  refine ⟨hliquidity, ?_⟩
  simp only [nextPriceFromInput, Bool.false_eq_true, if_false]
  generalize a * 2 ^ 64 / liquidity = rise at hlt ⊢
  omega

theorem stepCurve_up (price target liquidity : Nat) :
    StepCurve false target (stepIn price liquidity false) (stepOut price liquidity false)
      (nextPriceFromInput price liquidity · false) := by
  have hfrom : ∀ a, price ≤ nextPriceFromInput price liquidity a false := by
    intro a
    simp only [nextPriceFromInput, Bool.false_eq_true, if_false]
    exact Nat.le_add_right _ _
  refine ⟨fun ha => ?_, fun {a} ha => ?_, fun ha => ?_, fun {a b} hab hb => ?_⟩
  · simp only [Short, Bool.false_eq_true, if_false]
    exact (nextPrice_short_up ha).2
  · simp only [stepIn, deltaAmount1, nextPriceFromInput, Bool.false_eq_true, if_false, if_true]
    rw [divUp_le_iff (by positivity), Nat.add_sub_cancel_left, Nat.mul_comm (2 ^ 64) a]
    exact Nat.mul_div_le _ _
  · simp only [stepOut, Bool.false_eq_true, if_false]
    exact deltaAmount0_mono (hfrom _) (Nat.le_of_lt (nextPrice_short_up ha).2)
  · simp only [stepOut, Bool.false_eq_true, if_false]
    refine deltaAmount0_mono (hfrom a) ?_
    simp only [nextPriceFromInput, Bool.false_eq_true, if_false]
    exact Nat.add_le_add_left (Nat.div_le_div_right (Nat.mul_le_mul_right _ hab)) _

/-- The step to `next`, by the amounts a curve gives. -/
def stepTo (amountIn amountOut : Nat → Nat) (target remaining feeRate next : Nat) : SwapStep where
  sqrtPriceNextX64 := next
  amountIn := amountIn next
  amountOut := amountOut next
  feeAmount := if next = target then divUp (amountIn next * feeRate) (feeDenominator - feeRate)
    else remaining - amountIn next

/-- Where a step goes. -/
def stepNext (amountIn nextFor : Nat → Nat) (target remaining feeRate : Nat) : Nat :=
  if amountIn target ≤ lessFee remaining feeRate then target else nextFor (lessFee remaining feeRate)

theorem computeSwapStep_eq (price target liquidity remaining feeRate : Nat) (isBaseInput zeroForOne : Bool)
    (timestamp : Nat) :
    computeSwapStep price target liquidity remaining feeRate isBaseInput zeroForOne timestamp =
      .ok (stepTo (stepIn price liquidity zeroForOne) (stepOut price liquidity zeroForOne) target remaining
        feeRate (stepNext (stepIn price liquidity zeroForOne)
          (nextPriceFromInput price liquidity · zeroForOne) target remaining feeRate)) := rfl

theorem lessFee_le (remaining feeRate : Nat) : lessFee remaining feeRate ≤ remaining := by
  unfold lessFee feeDenominator
  rw [Nat.div_le_iff_le_mul_add_pred (by omega), Nat.mul_comm 1000000]
  exact Nat.le_trans (Nat.mul_le_mul_left _ (Nat.sub_le _ _)) (Nat.le_add_right _ _)

theorem lessFee_mono {r₁ r₂ : Nat} (h : r₁ ≤ r₂) (feeRate : Nat) :
    lessFee r₁ feeRate ≤ lessFee r₂ feeRate :=
  Nat.div_le_div_right (Nat.mul_le_mul_right _ h)

/-- An input and its fee fit the remaining input exactly where the input fits what is left of it after the
    fee. -/
theorem with_fee_le_iff {a remaining feeRate : Nat} (hfee : feeRate < feeDenominator) :
    a + divUp (a * feeRate) (feeDenominator - feeRate) ≤ remaining ↔ a ≤ lessFee remaining feeRate := by
  unfold lessFee
  rw [Nat.le_div_iff_mul_le (by decide)]
  obtain ⟨k, hk, hpos⟩ : ∃ k, feeDenominator = feeRate + k ∧ 0 < k :=
    ⟨feeDenominator - feeRate, by omega, by omega⟩
  rw [hk, Nat.add_sub_cancel_left]
  constructor
  · intro h
    have hfee := le_mul_divUp (a := a * feeRate) hpos
    nlinarith
  · intro h
    have hle : a ≤ remaining := by
      by_contra hlt
      have := Nat.mul_lt_mul_of_pos_right (Nat.not_le.mp hlt) hpos
      nlinarith
    have hup : divUp (a * feeRate) k ≤ remaining - a := by
      rw [divUp_le_iff hpos]
      obtain ⟨d, rfl⟩ : ∃ d, remaining = a + d := ⟨remaining - a, by omega⟩
      rw [Nat.add_sub_cancel_left]
      nlinarith
    omega

/-- Without a fee to take off, only a free target is reached. -/
theorem lessFee_whole {feeRate : Nat} (hfee : feeDenominator ≤ feeRate) (remaining : Nat) :
    lessFee remaining feeRate = 0 := by
  unfold lessFee
  rw [Nat.sub_eq_zero_of_le hfee, Nat.mul_zero, Nat.zero_div]

/-- A step that falls short of the target spends everything. -/
theorem StepCurve.spends {zeroForOne : Bool} {target : Nat} {amountIn amountOut nextFor : Nat → Nat}
    (h : StepCurve zeroForOne target amountIn amountOut nextFor) {r feeRate : Nat}
    (hlt : lessFee r feeRate < amountIn target) :
    (stepTo amountIn amountOut target r feeRate (nextFor (lessFee r feeRate))).spent = r ∧
      nextFor (lessFee r feeRate) ≠ target := by
  have hne : nextFor (lessFee r feeRate) ≠ target := by
    have hshort := h.short hlt
    unfold Short at hshort
    split at hshort <;> omega
  have hcovered := h.covered hlt
  have hnet := lessFee_le r feeRate
  refine ⟨?_, hne⟩
  show amountIn _ + (if nextFor (lessFee r feeRate) = target then _ else r - amountIn _) = r
  rw [if_neg hne]
  omega

/-- **A curve gives steps that are monotone in the remaining input.** -/
theorem StepCurve.along {zeroForOne : Bool} {target : Nat} {amountIn amountOut nextFor : Nat → Nat}
    (h : StepCurve zeroForOne target amountIn amountOut nextFor) {r₁ r₂ : Nat} (hle : r₁ ≤ r₂)
    (feeRate : Nat) :
    StepsAlong zeroForOne target r₁
      (stepTo amountIn amountOut target r₁ feeRate (stepNext amountIn nextFor target r₁ feeRate))
      (stepTo amountIn amountOut target r₂ feeRate (stepNext amountIn nextFor target r₂ feeRate)) := by
  have hmono := lessFee_mono hle feeRate
  unfold stepNext
  -- the smaller input reaches the target, and then so does the larger, or it is all spent
  by_cases h₁ : amountIn target ≤ lessFee r₁ feeRate
  · rw [if_pos h₁, if_pos (Nat.le_trans h₁ hmono)]
    have hsame : ∀ r, stepTo amountIn amountOut target r feeRate target =
        ⟨target, amountIn target, amountOut target,
          divUp (amountIn target * feeRate) (feeDenominator - feeRate)⟩ := by
      intro r
      simp only [stepTo, if_true]
    rw [hsame, hsame]
    refine ⟨?_, Nat.le_refl _, fun _ => rfl, fun hne => absurd rfl hne⟩
    by_cases hfee : feeRate < feeDenominator
    · exact (with_fee_le_iff hfee).mpr h₁
    · rw [lessFee_whole (Nat.not_lt.mp hfee) r₁, Nat.le_zero] at h₁
      simp [SwapStep.spent, h₁, divUp, Nat.sub_eq_zero_of_le (Nat.not_lt.mp hfee)]
  · rw [if_neg h₁]
    obtain ⟨hspent₁, hne₁⟩ := h.spends (Nat.not_le.mp h₁)
    refine ⟨Nat.le_of_eq hspent₁, ?_, fun heq => absurd heq hne₁,
      fun _ => ⟨hspent₁, ?_, h.short (by omega)⟩⟩
    · rw [hspent₁]
      by_cases h₂ : amountIn target ≤ lessFee r₂ feeRate
      · rw [if_pos h₂]
        by_cases hfee : feeRate < feeDenominator
        · have hpays := (@with_fee_le_iff (amountIn target) r₁ feeRate hfee).not.mpr h₁
          show r₁ ≤ amountIn target + (if target = target then _ else _)
          rw [if_pos rfl]
          omega
        · rw [lessFee_whole (Nat.not_lt.mp hfee) r₁] at h₁
          rw [lessFee_whole (Nat.not_lt.mp hfee) r₂] at h₂
          omega
      · rw [if_neg h₂, (h.spends (Nat.not_le.mp h₂)).1]
        exact hle
    · by_cases h₂ : amountIn target ≤ lessFee r₂ feeRate
      · rw [if_pos h₂]
        exact h.below (Nat.not_le.mp h₁)
      · rw [if_neg h₂]
        exact h.mono hmono (Nat.not_le.mp h₂)

theorem stepCurve (zeroForOne : Bool) (price target liquidity : Nat) :
    StepCurve zeroForOne target (stepIn price liquidity zeroForOne) (stepOut price liquidity zeroForOne)
      (nextPriceFromInput price liquidity · zeroForOne) := by
  cases zeroForOne with
  | true  => exact stepCurve_down price target liquidity
  | false => exact stepCurve_up price target liquidity

/-- **The concrete swap steps satisfy the law**, in any crates that take them over. -/
theorem swapStepLaw {X : Crates} (h : X.computeSwapStep = computeSwapStep) : SwapStepLaw X where
  less {price target liquidity r₁ r₂ feeRate timestamp zeroForOne step₂} hle _ hstep := by
    rw [h, computeSwapStep_eq] at hstep ⊢
    cases hstep
    exact ⟨_, rfl, (stepCurve zeroForOne price target liquidity).along hle feeRate⟩

/-- **The concrete steps get to a target alike** with any input that covers them. -/
theorem reachLaw {X : Crates} (h : X.computeSwapStep = computeSwapStep) : ReachLaw X where
  reach {price target liquidity r r' feeRate timestamp zeroForOne step} hstep hreach hcovers _ := by
    rw [h, computeSwapStep_eq] at hstep ⊢
    cases hstep
    have hcurve := stepCurve zeroForOne price target liquidity
    generalize stepIn price liquidity zeroForOne = amountIn at *
    generalize stepOut price liquidity zeroForOne = amountOut at *
    have hneeded : amountIn target ≤ lessFee r feeRate := by
      by_contra hshort
      have hnext := (hcurve.spends (Nat.not_le.mp hshort)).2
      unfold stepNext at hreach
      rw [if_neg hshort] at hreach
      exact hnext hreach
    have hsame : stepNext amountIn (nextPriceFromInput price liquidity · zeroForOne)
        target r feeRate = target :=
      if_pos hneeded
    rw [hsame] at hcovers ⊢
    have hspent : amountIn target + divUp (amountIn target * feeRate) (feeDenominator - feeRate) ≤ r' := by
      simp only [stepTo, SwapStep.spent, if_true] at hcovers
      exact hcovers
    have hneeded' : amountIn target ≤ lessFee r' feeRate := by
      by_cases hfee : feeRate < feeDenominator
      · exact (with_fee_le_iff hfee).mp hspent
      · rw [lessFee_whole (Nat.not_lt.mp hfee)] at hneeded ⊢
        exact hneeded
    unfold stepNext
    rw [if_pos hneeded']
    simp only [stepTo, if_true]

/-- Without a fee everything is traded. -/
theorem lessFee_zero (r : Nat) : lessFee r 0 = r := Nat.mul_div_cancel r (by decide)

/-- **The concrete steps trade the input less the fee.** -/
theorem feeStepLaw {X : Crates} (h : X.computeSwapStep = computeSwapStep)
    (hdenominator : X.FEE_RATE_DENOMINATOR_VALUE = feeDenominator) : FeeStepLaw X where
  free {price target liquidity r feeRate timestamp zeroForOne step} _ hstep := by
    rw [h, computeSwapStep_eq] at hstep ⊢
    cases hstep
    have hnet : X.lessFee feeRate r = lessFee r feeRate := by
      unfold Crates.lessFee lessFee
      rw [hdenominator]
    rw [hnet]
    unfold stepNext
    rw [lessFee_zero]
    exact ⟨_, rfl, rfl, rfl, rfl⟩
  fee {price target liquidity r feeRate timestamp zeroForOne step} _ hstep hreach := by
    rw [h, computeSwapStep_eq] at hstep
    cases hstep
    unfold Crates.feeOn
    rw [hdenominator]
    simp only [stepTo] at hreach ⊢
    rw [if_pos hreach]
    rfl

/-! ## Total crates -/

/-- The crates with a tick for every price and a base fee below the denominator. Where the concrete
    functions succeed, with such a fee, these are the same. -/
def total (X : Crates) : Crates :=
  { X with
    getTickAtSqrtPrice := fun price => .ok ((X.getTickAtSqrtPrice price).toOption.getD 0)
    calculateBaseTradeFeeRate := fun pool config zeroForOne timestamp =>
      (X.calculateBaseTradeFeeRate pool config zeroForOne timestamp).map
        (min · (X.FEE_RATE_DENOMINATOR_VALUE - 1)) }

theorem total_met (X : Crates) : PricesMet (total X) fun _ => True where
  tick _ := trivial
  lookup _ _ _ _ := ⟨_, rfl⟩

/-- The base fee is cut below the denominator, whatever venue takes it. -/
theorem baseFee_total (X : Crates) {pool : PoolState} {config : AmmConfig} {zeroForOne : Bool}
    {timestamp feeRate : Nat}
    (h : (total X).calculateBaseTradeFeeRate pool config zeroForOne timestamp = .ok feeRate) :
    feeRate ≤ X.FEE_RATE_DENOMINATOR_VALUE := by
  obtain ⟨base, -, rfl⟩ := (Except.map_eq_ok (g := (min · (X.FEE_RATE_DENOMINATOR_VALUE - 1)))).mp h
  exact Nat.le_trans (Nat.min_le_right _ _) (Nat.sub_le _ _)

theorem total_baseFee {X : Crates} (v : ByrealClmmVenue (total X)) :
    BaseFeeLaw v := ⟨fun _ h => baseFee_total X h⟩

theorem total_tickConversions (pools : List (List UInt8 × PoolState)) :
    TickConversionLaw (total (crates pools)) :=
  ⟨fun _ => ⟨_, rfl⟩⟩

/-! ## A narrow range -/

/-- The price of a tick from -64 to 64, by its distance from -64. -/
def narrowPrice (n : Nat) : Nat := (getSqrtPriceAtTick ((n : Int) - 64)).toOption.getD 0

/-- The crates with the ticks from -64 to 64 and their prices only: there the conversions are the same. -/
def narrow (X : Crates) : Crates :=
  { total X with
    MIN_TICK := -64
    MAX_TICK := 64
    MIN_SQRT_PRICE_X64 := narrowPrice 0
    MAX_SQRT_PRICE_X64 := narrowPrice 128
    getSqrtPriceAtTick := fun t =>
      if -64 ≤ t ∧ t ≤ 64 then .ok (narrowPrice (t + 64).toNat) else .error "tick out of range"
    getTickAtSqrtPrice := fun price =>
      if narrowPrice 0 ≤ price ∧ price < narrowPrice 128 then .ok (searchTick price 8 (-64) 64)
      else .error "price out of range" }

theorem narrowPrice_mono {m n : Nat} (h : m ≤ n) (hn : n ≤ 128) : narrowPrice m ≤ narrowPrice n := by
  have hstep : ∀ n : Fin 128, narrowPrice n.val ≤ narrowPrice (n.val + 1) := by decide +kernel
  induction n, h using Nat.le_induction with
  | base => exact Nat.le_refl _
  | succ n _ ih => exact Nat.le_trans (ih (by omega)) (hstep ⟨n, by omega⟩)

theorem narrow_price {X : Crates} {t : Int} {p : Nat} (h : (narrow X).getSqrtPriceAtTick t = .ok p) :
    -64 ≤ t ∧ t ≤ 64 ∧ narrowPrice (t + 64).toNat = p := by
  have hcases : (if -64 ≤ t ∧ t ≤ 64 then .ok (narrowPrice (t + 64).toNat)
      else .error "tick out of range") = (Except.ok p : Except String Nat) := h
  split at hcases
  next hin => exact ⟨hin.1, hin.2, Except.ok.inj hcases⟩
  next => cases hcases

theorem narrow_ticks (X : Crates) : TickPriceLaw (narrow X) where
  mono ht hu hle := by
    obtain ⟨hlow, -, rfl⟩ := narrow_price ht
    obtain ⟨-, hhigh, rfl⟩ := narrow_price hu
    exact narrowPrice_mono (by omega) (by omega)

theorem narrow_conversions (pools : List (List UInt8 × PoolState)) :
    ConversionLaw (narrow (crates pools)) where
  tick {price} h := by
    have hin : narrowPrice 0 ≤ price ∧ price < narrowPrice 128 := by
      have hlow : narrowPrice 0 + 1 ≤ price := h.low
      have hhigh : price ≤ narrowPrice 128 - 1 := h.high
      omega
    refine ⟨searchTick price 8 (-64) 64, ?_⟩
    show (if narrowPrice 0 ≤ price ∧ price < narrowPrice 128 then _ else _) = _
    rw [if_pos hin]
  price _ := ⟨_, rfl⟩

theorem narrow_baseFee {X : Crates} (v : ByrealClmmVenue (narrow X)) :
    BaseFeeLaw v := ⟨fun _ h => baseFee_total X h⟩

/-! ## Navigation -/

/-- Crates whose arrays and bitmaps are the concrete ones. -/
structure Standard (X : Crates) : Prop where
  size : X.TICK_ARRAY_SIZE = tickArraySize
  start : X.getArrayStartIndex = getArrayStartIndex
  check : X.checkCurrentTickArrayIsInitialized = checkCurrentTickArrayIsInitialized
  next : X.nextInitializedTickArrayStartIndex = nextInitializedTickArrayStartIndex
  extensionCheck : X.extensionCheckTickArrayIsInitialized = fun _ start _ => .ok (false, start)
  extensionNext : X.extensionNextInitializedTickArrayFromOneBitmap =
    fun _ last spacing zeroForOne => .ok (emptyExtensionNext last spacing zeroForOne)

variable {X : Crates}

theorem Standard.arrayStartLaw (hX : Standard X) {spacing : Nat} (hspacing : 0 < spacing) :
    ArrayStartLaw X spacing := by
  have hat := arrayTicks_pos hspacing
  have hspan : X.span spacing = arrayTicks spacing := by
    unfold Crates.span arrayTicks
    rw [hX.size]
  refine ArrayStartLaw.of_floor (by rw [hspan]; exact hat) fun t => ?_
  rw [hX.start, hspan]
  rfl

/-- The concrete utilities, for spacings a `u16` holds. -/
theorem Standard.tickUtilsLaw (hX : Standard X)
    (hoffset : X.getTickOffsetInTickArray = getTickOffsetInTickArray)
    {spacing : Nat} (hspacing : 0 < spacing) (hword : spacing < 2 ^ 16) : TickUtilsLaw X spacing where
  size := by
    rw [hX.size]
    decide
  fits := by
    unfold Crates.span
    rw [hX.size]
    unfold tickArraySize
    omega
  floor t := by
    unfold Crates.span
    rw [hX.start, hX.size]
    rfl
  offset {start i} _ := by
    have hdiv : (start + i * spacing - start) / (spacing : Int) = i := by
      rw [add_sub_cancel_left, Int.mul_ediv_cancel _ (by omega)]
    rw [hoffset]
    unfold getTickOffsetInTickArray
    rw [hdiv, Int.toNat_natCast]

/-- The start of an array by its index. -/
theorem getArrayStartIndex_mul {spacing : Nat} (hspacing : 0 < spacing) (i : Int) :
    getArrayStartIndex (i * arrayTicks spacing) spacing = i * arrayTicks spacing := by
  unfold getArrayStartIndex
  rw [Int.mul_ediv_cancel i (ne_of_gt (arrayTicks_pos hspacing))]

/-- **The concrete scans go further**, as long as the bitmap marks arrays among the ticks only. -/
theorem Standard.scansFurther (hX : Standard X) (v : ByrealClmmVenue X) (zeroForOne : Bool)
    (hspacing : 0 < v.spacing)
    (hrange : ∀ i, -512 ≤ i → i < 512 → marked v.poolState.tickArrayBitmap (i + 512) = true →
      X.getArrayStartIndex X.MIN_TICK v.spacing ≤ i * arrayTicks v.spacing ∧
        i * arrayTicks v.spacing ≤ X.MAX_TICK) : ScansFurther v zeroForOne where
  pool {last start} h := by
    rw [hX.next] at h
    obtain ⟨i, rfl, hmin, hmax, hmarked, hfurther, -⟩ := nextInitializedTickArrayStartIndex_eq_true h
    obtain ⟨hlow, hhigh⟩ := hrange i hmin hmax hmarked
    refine ⟨further_of_index hspacing hfurther, ?_, hlow, hhigh⟩
    rw [hX.start]
    exact getArrayStartIndex_mul hspacing i
  poolEdge h hback := by
    rw [hX.next] at h
    rcases nextInitializedTickArrayStartIndex_eq_false hspacing h with rfl | hfurther
    · exact Further.irrefl hback
    · exact Further.irrefl (hback.trans hfurther)
  extension _ h := by
    rw [hX.extensionNext] at h
    unfold emptyExtensionNext at h
    cases zeroForOne <;> cases h
  extensionEdge {ext last edge} _ h := by
    rw [hX.extensionNext] at h
    have hedge : emptyExtensionNext last v.spacing zeroForOne = (false, edge) := Except.ok.inj h
    have hfurther := @emptyExtensionNext_further last v.spacing zeroForOne hspacing
    rw [hedge] at hfurther
    exact hfurther

theorem Standard.checkLaw (hX : Standard X) (spacing : Nat) : CheckLaw X spacing where
  pool h := by
    rw [hX.check] at h
    rw [hX.start]
    exact (Prod.mk.inj (Except.ok.inj h)).2.symm
  extension h := by
    rw [hX.extensionCheck] at h
    cases h

theorem standard_total (pools : List (List UInt8 × PoolState)) : Standard (total (crates pools)) :=
  ⟨rfl, rfl, rfl, rfl, rfl, rfl⟩

theorem standard_narrow (pools : List (List UInt8 × PoolState)) : Standard (narrow (crates pools)) :=
  ⟨rfl, rfl, rfl, rfl, rfl, rfl⟩

/-! ## Bounds of a step -/

/-- A price moves towards its target, if at all. -/
theorem nextPriceFromInput_toward (price liquidity amount : Nat) (zeroForOne : Bool) :
    Toward zeroForOne price (nextPriceFromInput price liquidity amount zeroForOne) := by
  unfold Toward nextPriceFromInput
  cases zeroForOne with
  | true =>
      simp only [if_true]
      rcases Nat.eq_zero_or_pos (liquidity * 2 ^ 64 + amount * price) with hzero | hpos
      · rw [hzero, divUp_zero_right]
        exact Nat.zero_le _
      · rw [divUp_le_iff hpos, Nat.add_mul]
        exact Nat.le_add_right _ _
  | false =>
      simp only [Bool.false_eq_true, if_false]
      exact Nat.le_add_right _ _

theorem stepSpends (h : X.computeSwapStep = computeSwapStep) : StepSpends X where
  spends {price target liquidity r feeRate timestamp zeroForOne step} hstep hshort := by
    rw [h, computeSwapStep_eq] at hstep
    cases hstep
    exact (((stepCurve zeroForOne price target liquidity).along (Nat.le_refl r) feeRate).short hshort).1

theorem stepBounds (h : X.computeSwapStep = computeSwapStep) : StepBounds X where
  toStepSpends := stepSpends h
  between {price target liquidity r feeRate timestamp zeroForOne step} hstep htarget := by
    rw [h, computeSwapStep_eq] at hstep
    cases hstep
    unfold stepTo stepNext
    simp only
    split
    next => exact ⟨htarget, Toward.refl target⟩
    next hless =>
      exact ⟨nextPriceFromInput_toward price liquidity _ zeroForOne,
        ((stepCurve zeroForOne price target liquidity).short (Nat.not_le.mp hless)).toward⟩
  covered {price target liquidity r feeRate timestamp zeroForOne step} hstep := by
    rw [h, computeSwapStep_eq] at hstep
    cases hstep
    exact ((stepCurve zeroForOne price target liquidity).along (Nat.le_refl r) feeRate).covered

theorem liquidityLaw (h : X.addDelta = addDelta) : LiquidityLaw X where
  adds {liquidity liquidity' delta} hadd := by
    rw [h] at hadd
    unfold addDelta at hadd
    split at hadd
    next hpos =>
      cases hadd
      exact Int.toNat_of_nonneg hpos
    next => cases hadd

end ByrealTitan.Clmm.Reference
