import ByrealTitan.Adapter.Sample
import ByrealTitan.Clmm.ReferenceLaws
import ByrealTitan.Correctness.Fill
import ByrealTitan.Correctness.QuoteCases

/-!
# `Correctness.Monotone` — more input, no less output

At one fee rate a larger amount puts out no less (`computeSwap_alongside`), so without a dynamic fee the
output of a swap is monotone, and success goes down. What fees of different rates do is told in
`Correctness.DynamicFee`.
-/

namespace ByrealTitan

namespace Clmm.ByrealClmmVenue

variable {X : Crates} {v : ByrealClmmVenue X} {P : Nat → Prop} {fuel : Nat} {zeroForOne : Bool}
  {currentTimestamp : Int}

/-- How a swap of `a` compares with one of `b`. -/
structure SwapsAlong (a b : Nat) (small large : SwapResult) : Prop where
  amountIn : small.amountIn ≤ large.amountIn
  amountOut : small.amountOut ≤ large.amountOut
  full : large.amountIn = b → small.amountIn = a

/-- **At one fee rate, a swap that succeeds for more succeeds for
    less**, and spends and puts out no more. -/
theorem computeSwap_alongside (hlaw : SwapStepLaw X) {limit : Option Nat} {a b : Nat}
    (hmeets : ∀ feeRate nav, v.initTickNavState fuel zeroForOne = .ok nav →
      RunMeets v P fuel feeRate (limit.getD (defaultPriceLimit X zeroForOne)) zeroForOne currentTimestamp
        (v.initialSwapState b, nav))
    (hprice : P v.poolState.sqrtPriceX64) (hab : a ≤ b) (hb : b < 2 ^ 64)
    (hrate : v.computeTradeFeeRate zeroForOne a currentTimestamp =
      v.computeTradeFeeRate zeroForOne b currentTimestamp) {large : SwapResult}
    (h : v.computeSwap fuel zeroForOne b limit currentTimestamp = .ok large) :
    ∃ small, v.computeSwap fuel zeroForOne a limit currentTimestamp = .ok small ∧
      SwapsAlong a b small large := by
  obtain ⟨feeRate, nav, state, hfee, hnav, hloop, hle, rfl⟩ := computeSwap_eq_ok.mp h
  have hsound : Sound P (v.initialSwapState b) a := by
    refine ⟨hab, hb, ?_, fun _ => hprice⟩
    show 0 + a < 2 ^ 64
    omega
  obtain ⟨small, hsmall, hfilled⟩ := simulateLoop_alongside hlaw (hmeets feeRate nav hnav) hsound hloop
  obtain ⟨hremaining, hspent, hcalculated, hfull⟩ := hfilled
  have hinit : (v.initialSwapState b).amountSpecifiedRemaining = b := rfl
  rw [hinit] at hspent
  refine ⟨_, computeSwap_eq_ok.mpr ⟨feeRate, nav, small, hrate.trans hfee, hnav, hsmall, hremaining, rfl⟩,
    ?_, hcalculated, fun hall => ?_⟩
  · show a - small.amountSpecifiedRemaining ≤ b - state.amountSpecifiedRemaining
    omega
  · have hzero : state.amountSpecifiedRemaining = 0 ∨ b = 0 := by
      simp only at hall
      omega
    have hsmallZero : small.amountSpecifiedRemaining = 0 ∨ a = 0 := by
      rcases hzero with hzero | rfl
      · exact Or.inl (hfull hzero)
      · exact Or.inr (by omega)
    show a - small.amountSpecifiedRemaining = a
    omega

/-- **Without a dynamic fee, output is monotone and success goes down.** -/
theorem compute_swap_monotone (hlaw : SwapStepLaw X) {limit : Option Nat} (hmet : PricesMet X P)
    (hprice : P v.poolState.sqrtPriceX64) (hlimit : P (limit.getD (defaultPriceLimit X zeroForOne)))
    (hstatic : v.isSwapDynamicFeeEnabled = false) {a b : UInt64} (hab : a ≤ b)
    {large : SwapResult} (h : v.computeSwap fuel zeroForOne b.toNat limit currentTimestamp = .ok large) :
    ∃ small, v.computeSwap fuel zeroForOne a.toNat limit currentTimestamp = .ok small ∧
      small.amountIn ≤ large.amountIn ∧ small.amountOut ≤ large.amountOut ∧
      (large.amountIn = b.toNat → small.amountIn = a.toNat) := by
  obtain ⟨small, hsmall, hin, hout, hfull⟩ :=
    computeSwap_alongside hlaw (fun _ _ _ => runMeets_of_met hmet hlimit _)
      hprice (UInt64.le_iff_toNat_le.mp hab) b.toNat_lt (computeTradeFeeRate_static hstatic _ _ _ _) h
  exact ⟨small, hsmall, hin, hout, hfull⟩

/-! ## A sample swap -/

section Sample

open Adapter

/-- The concrete crates, with a tick for every price. -/
abbrev TotalX : Crates := Reference.total Sample.X

theorem totalX_steps : SwapStepLaw TotalX := Reference.swapStepLaw rfl

/-- Two swaps down from the sample pool's price. -/
theorem compute_swap_monotone_sample :
    ∃ large small, (Sample.loadedOf TotalX Sample.pool).computeSwap 100 true 1500 none 100 = .ok large ∧
      (Sample.loadedOf TotalX Sample.pool).computeSwap 100 true 1000 none 100 = .ok small ∧
      small.amountOut ≤ large.amountOut ∧ small.amountIn = 1000 := by
  have hok : ((Sample.loadedOf TotalX Sample.pool).computeSwap 100 true 1500 none 100).okAnd
      (fun swap => decide (swap.amountIn = 1500)) = true := by decide +kernel
  obtain ⟨large, hlarge, hin⟩ := Except.okAnd_eq_true.mp hok
  obtain ⟨small, hsmall, -, hout, hfull⟩ :=
    compute_swap_monotone totalX_steps (Reference.total_met Sample.X) trivial trivial
      (show (Sample.loadedOf TotalX Sample.pool).isSwapDynamicFeeEnabled = false by decide)
      (show (1000 : UInt64) ≤ 1500 by decide) hlarge
  exact ⟨large, small, hlarge, hsmall, hout, hfull (of_decide_eq_true hin)⟩

end Sample

end Clmm.ByrealClmmVenue

end ByrealTitan
