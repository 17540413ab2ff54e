import ByrealTitan.Adapter.Venue
import ByrealTitan.Clmm.Laws
import ByrealTitan.Correctness.SwapLoop

/-!
# `Correctness.QuoteCases` — how a quote comes about

A quote checks its mints and the state (`Accepts`), and then answers from one simulation: a swap that
completed, or an error that reports insufficient liquidity (`answer_eq_ok`). The Titan venue passes that on
under its own field names (`quote_eq_ok`).
-/

namespace ByrealTitan

namespace Clmm

namespace ByrealClmmVenue

variable {X : Crates} {v : ByrealClmmVenue X} {fuel amount : Nat} {zeroForOne : Bool}
  {upperBound : Option Nat}

/-! ## The core venue -/

/-- The checks of a quote pass, in this direction. -/
def Accepts (v : ByrealClmmVenue X) (input output : Pubkey) (zeroForOne : Bool) : Prop :=
  (∃ outputIs0, v.validateMints input output = .ok (zeroForOne, outputIs0)) ∧ v.ensureQuotable = .ok ()

/-- The answer once the checks have passed. -/
def answer (v : ByrealClmmVenue X) (fuel : Nat) (zeroForOne : Bool) (amount : Nat)
    (upperBound : Option Nat) : VenueRes CoreQuoteResult :=
  if amount = 0 then v.quoteZero zeroForOne
  else
    match v.computeSwap fuel zeroForOne amount none v.currentUnixTimestamp with
    | .ok swap        => v.quoteSwap fuel zeroForOne amount upperBound swap
    | .error (.err e) => quoteFailure e
    | .error .panic   => Res.panic
    | .error .diverge => .error .diverge

theorem quoteWithPriceUpperBound_eq_ok {request : QuoteRequest} {quote : CoreQuoteResult} :
    v.quoteWithPriceUpperBound fuel request upperBound = .ok quote ↔
      ∃ zeroForOne, v.Accepts request.inputMint request.outputMint zeroForOne ∧
        v.answer fuel zeroForOne request.amount.toNat upperBound = .ok quote := by
  unfold quoteWithPriceUpperBound
  simp only [Except.bind_eq_ok]
  constructor
  · rintro ⟨⟨inputIs0, outputIs0⟩, hmints, ⟨⟩, hquotable, h⟩
    exact ⟨inputIs0, ⟨⟨outputIs0, hmints⟩, hquotable⟩, h⟩
  · rintro ⟨inputIs0, ⟨⟨outputIs0, hmints⟩, hquotable⟩, h⟩
    exact ⟨(inputIs0, outputIs0), hmints, (), hquotable, h⟩

/-- Once the checks have passed, a quote is the answer. -/
theorem Accepts.quote_eq {request : QuoteRequest}
    (h : v.Accepts request.inputMint request.outputMint zeroForOne) :
    v.quoteWithPriceUpperBound fuel request upperBound = v.answer fuel zeroForOne request.amount.toNat
      upperBound := by
  obtain ⟨⟨outputIs0, hmints⟩, hquotable⟩ := h
  unfold quoteWithPriceUpperBound
  rw [hmints, Except.ok_bind]
  simp only
  rw [hquotable, Except.ok_bind]
  rfl

/-- The direction is told by the input mint. -/
theorem Accepts.eq_decide {input output : Pubkey} (h : v.Accepts input output zeroForOne) :
    zeroForOne = decide (input = v.reserveMints.1) := by
  obtain ⟨⟨_, h⟩, -⟩ := h
  simp only [validateMints, Except.bind_eq_ok, Except.pure_eq_ok] at h
  obtain ⟨_, -, _, -, _, -, h⟩ := h
  exact (congrArg Prod.fst h).symm

theorem Accepts.direction {input output : Pubkey} {zeroForOne' : Bool}
    (h : v.Accepts input output zeroForOne) (h' : v.Accepts input output zeroForOne') :
    zeroForOne' = zeroForOne := by
  rw [h.eq_decide, h'.eq_decide]

/-- An error that becomes an answer reports insufficient liquidity, and nothing filled. -/
theorem quoteFailure_eq_ok {e : SwapError} {quote : CoreQuoteResult} :
    quoteFailure e = .ok quote ↔ e.reportsInsufficient = true ∧
      { inAmount := 0, outAmount := 0, notEnoughLiquidity := true, price := 0 } = quote := by
  unfold quoteFailure SwapError.reportsInsufficient
  by_cases h : containsText e.text "Liquidity insufficient" = true
  · rw [if_pos h]
    simp [h]
  · rw [if_neg h]
    constructor
    · intro hquote
      split at hquote <;> cases hquote
    · rintro ⟨h', -⟩
      exact absurd h' h

theorem answer_eq_ok (hamount : amount ≠ 0) {quote : CoreQuoteResult} :
    v.answer fuel zeroForOne amount upperBound = .ok quote ↔
      (∃ swap, v.computeSwap fuel zeroForOne amount none v.currentUnixTimestamp = .ok swap ∧
        v.quoteSwap fuel zeroForOne amount upperBound swap = .ok quote) ∨
      ∃ e, v.computeSwap fuel zeroForOne amount none v.currentUnixTimestamp = .error (.err e) ∧
        quoteFailure e = .ok quote := by
  unfold answer
  rw [if_neg hamount]
  cases v.computeSwap fuel zeroForOne amount none v.currentUnixTimestamp with
  | ok swap => simp
  | error fault =>
      cases fault with
      | err e   => simp
      | panic   => simp [Res.panic]
      | diverge => simp

/-- The amounts of a completed swap are quoted as they are. -/
theorem quoteSwap_amounts {swap : SwapResult} {quote : CoreQuoteResult}
    (h : v.quoteSwap fuel zeroForOne amount upperBound swap = .ok quote) :
    quote.inAmount = swap.amountIn ∧ quote.outAmount = swap.amountOut ∧
      quote.notEnoughLiquidity = decide (swap.amountIn < amount) := by
  obtain ⟨_, -, h⟩ := Except.bind_eq_ok.mp h
  obtain ⟨_, -, h⟩ := Except.bind_eq_ok.mp h
  cases h
  exact ⟨rfl, rfl, rfl⟩

theorem orMathError_eq_ok {α : Type} {label : String} {r : SwapRes α} {a : α} :
    orMathError label r = .ok a ↔ r = .ok a := by
  cases r with
  | ok b => simp [orMathError]
  | error fault =>
      cases fault with
      | err e   => simp [orMathError, Res.fail]
      | panic   => simp [orMathError, Res.panic]
      | diverge => simp [orMathError]

/-- An empty request is filled with nothing. -/
theorem quoteZero_amounts {quote : CoreQuoteResult} (h : v.quoteZero zeroForOne = .ok quote) :
    quote.inAmount = 0 ∧ quote.outAmount = 0 ∧ quote.notEnoughLiquidity = false := by
  obtain ⟨_, -, h⟩ := Except.bind_eq_ok.mp h
  obtain ⟨_, -, h⟩ := Except.bind_eq_ok.mp h
  cases h
  exact ⟨rfl, rfl, rfl⟩

/-- **A full quote comes from a swap that spent everything.** -/
theorem answer_full {quote : CoreQuoteResult} (hamount : amount ≠ 0)
    (h : v.answer fuel zeroForOne amount upperBound = .ok quote)
    (hfull : quote.notEnoughLiquidity = false) :
    ∃ swap, v.computeSwap fuel zeroForOne amount none v.currentUnixTimestamp = .ok swap ∧
      swap.amountIn = amount ∧ quote.inAmount = amount ∧ quote.outAmount = swap.amountOut := by
  rcases (answer_eq_ok hamount).mp h with ⟨swap, hswap, hquote⟩ | ⟨e, -, hquote⟩
  · obtain ⟨hin, hout, hnot⟩ := quoteSwap_amounts hquote
    obtain ⟨feeRate, nav, state, -, -, -, -, rfl⟩ := computeSwap_eq_ok.mp hswap
    rw [hfull] at hnot
    have hall := of_decide_eq_false hnot.symm
    simp only at hall hin hout
    exact ⟨_, hswap, by simp only; omega, by omega, hout⟩
  · obtain ⟨-, rfl⟩ := quoteFailure_eq_ok.mp hquote
    cases hfull

/-- The marginal price exists where the crate has one and the fee is at most everything. -/
theorem marginalPrice_ok {sqrtPriceX64 feeRate : Nat}
    (hprice : ∃ priceX64, X.priceFromSqrtPriceX64 sqrtPriceX64 = .ok priceX64)
    (hfee : feeRate ≤ X.FEE_RATE_DENOMINATOR_VALUE) :
    ∃ price, marginalPriceFromSwapState X zeroForOne sqrtPriceX64 feeRate = .ok price := by
  obtain ⟨priceX64, hp⟩ := hprice
  unfold marginalPriceFromSwapState Res.checkedSub
  rw [hp, if_pos hfee]
  cases zeroForOne with
  | true  => exact ⟨_, rfl⟩
  | false => exact ⟨_, rfl⟩

/-! ## A fixed fee -/

/-- Without a dynamic fee the rate does not depend on the amount. -/
theorem computeTradeFeeRate_static (hstatic : v.isSwapDynamicFeeEnabled = false) (zeroForOne : Bool)
    (a b : Nat) (currentTimestamp : Int) :
    v.computeTradeFeeRate zeroForOne a currentTimestamp =
      v.computeTradeFeeRate zeroForOne b currentTimestamp := by
  unfold computeTradeFeeRate dynamicFeeRate
  simp only [hstatic, Bool.not_false, if_true]

/-- And it is at most the whole amount where the base fee is. -/
theorem computeTradeFeeRate_static_le (hbase : BaseFeeLaw v)
    (hstatic : v.isSwapDynamicFeeEnabled = false) {feeRate : Nat}
    {currentTimestamp : Int} (h : v.computeTradeFeeRate zeroForOne amount currentTimestamp = .ok feeRate) :
    feeRate ≤ X.FEE_RATE_DENOMINATOR_VALUE := by
  unfold computeTradeFeeRate dynamicFeeRate at h
  simp only [hstatic, Bool.not_false, if_true, Except.bind_eq_ok, ofCrate_eq_ok] at h
  obtain ⟨config, hconfig, rate, hrate, h⟩ := h
  cases h
  exact hbase.base (Res.orErr_eq_ok.mp hconfig) hrate

/-- Without a dynamic fee the price is the marginal one, and needs no further simulation. -/
theorem actualCurvePrice_static (hstatic : v.isSwapDynamicFeeEnabled = false) (fuel : Nat)
    (zeroForOne : Bool) (amount : Nat) (swap : SwapResult) (constantFeePrice : Float)
    (currentTimestamp : Int) (upperBound : Option Nat) :
    v.actualCurvePrice fuel zeroForOne amount swap constantFeePrice currentTimestamp upperBound =
      .ok constantFeePrice := by
  unfold actualCurvePrice
  simp only [hstatic, Bool.not_false, if_true]

/-- Without a dynamic fee every swap that completes is quoted, where the price it ends at converts. -/
theorem answer_of_swap {swap : SwapResult}
    (hprice : ∃ priceX64, X.priceFromSqrtPriceX64 swap.sqrtPriceX64 = .ok priceX64)
    (hbase : BaseFeeLaw v) (hstatic : v.isSwapDynamicFeeEnabled = false) (hamount : amount ≠ 0)
    (h : v.computeSwap fuel zeroForOne amount none v.currentUnixTimestamp = .ok swap)
    (upperBound : Option Nat) :
    ∃ quote, v.answer fuel zeroForOne amount upperBound = .ok quote ∧ quote.inAmount = swap.amountIn ∧
      quote.outAmount = swap.amountOut ∧ quote.notEnoughLiquidity = decide (swap.amountIn < amount) := by
  obtain ⟨feeRate, nav, state, hfee, -, -, -, hswap⟩ := computeSwap_eq_ok.mp h
  have hle : swap.feeRate ≤ X.FEE_RATE_DENOMINATOR_VALUE := by
    rw [hswap]
    exact computeTradeFeeRate_static_le hbase hstatic hfee
  obtain ⟨price, hmarginal⟩ : ∃ price, marginalPriceFromSwapState X zeroForOne swap.sqrtPriceX64
      swap.feeRate = .ok price := marginalPrice_ok hprice hle
  have hquote : ∃ quote, v.quoteSwap fuel zeroForOne amount upperBound swap = .ok quote := by
    unfold quoteSwap
    simp only [hmarginal, orMathError, Except.ok_bind, actualCurvePrice_static hstatic]
    exact ⟨_, rfl⟩
  obtain ⟨quote, hquote⟩ := hquote
  exact ⟨quote, (answer_eq_ok hamount).mpr (Or.inl ⟨swap, h, hquote⟩), quoteSwap_amounts hquote⟩

/-! ## More fuel -/

variable {fuel' : Nat}

theorem orMathError_below {α : Type} {label : String} {x y : SwapRes α} (h : x.Below y) :
    (orMathError label x).Below (orMathError label y) := by
  intro hends
  have hx : x ≠ .error .diverge := by
    rintro rfl
    exact hends rfl
  rw [h hx]

theorem actualCurvePrice_below (hle : fuel ≤ fuel') (swap : SwapResult) (constantFeePrice : Float)
    (upperBound : Option Nat) :
    (v.actualCurvePrice fuel zeroForOne amount swap constantFeePrice v.currentUnixTimestamp
      upperBound).Below (v.actualCurvePrice fuel' zeroForOne amount swap constantFeePrice
        v.currentUnixTimestamp upperBound) := by
  unfold actualCurvePrice priceTowardsUpperBound
  split
  · exact .refl _
  · split
    · exact .refl _
    · refine (v.computeSwap_below hle _ _ _ _).bind fun previous => ?_
      split
      · exact .refl _
      · split
        · exact .refl _
        · split
          · exact .refl _
          · exact (v.computeSwap_below hle _ _ _ _).bind fun _ => .refl _

theorem quoteSwap_below (hle : fuel ≤ fuel') (upperBound : Option Nat) (swap : SwapResult) :
    (v.quoteSwap fuel zeroForOne amount upperBound swap).Below
      (v.quoteSwap fuel' zeroForOne amount upperBound swap) := by
  unfold quoteSwap
  refine (Res.Below.refl _).bind fun price => ?_
  exact (orMathError_below (actualCurvePrice_below hle swap price upperBound)).bind fun _ => .refl _

/-- **More fuel changes no quote.** -/
theorem answer_below (hle : fuel ≤ fuel') (upperBound : Option Nat) :
    (v.answer fuel zeroForOne amount upperBound).Below (v.answer fuel' zeroForOne amount upperBound) := by
  unfold answer
  by_cases hamount : amount = 0
  · rw [if_pos hamount, if_pos hamount]
    exact .refl _
  · rw [if_neg hamount, if_neg hamount]
    have hbelow := v.computeSwap_below hle zeroForOne amount none v.currentUnixTimestamp
    cases hswap : v.computeSwap fuel zeroForOne amount none v.currentUnixTimestamp with
    | ok swap =>
        rw [hbelow.of_ok hswap]
        exact quoteSwap_below hle upperBound swap
    | error e =>
        cases e with
        | diverge => exact fun h => absurd rfl h
        | err e =>
            rw [hswap] at hbelow
            rw [hbelow nofun]
            exact .refl _
        | panic =>
            rw [hswap] at hbelow
            rw [hbelow nofun]
            exact .refl _

end ByrealClmmVenue

end Clmm

/-! ## The Titan venue -/

namespace Adapter.ByrealClmmVenue

open Clmm Clmm.ByrealClmmVenue

variable {X : Crates} {v : Adapter.ByrealClmmVenue X} {fuel : Nat}

/-- The upper bound a quote of these mints goes with. -/
def upperBoundFor (v : Adapter.ByrealClmmVenue X) (inputMint outputMint : Pubkey) : Option Nat :=
  (v.boundsForMints inputMint outputMint).map Prod.snd

/-- The venue answers exact-in requests. -/
def Ready (v : Adapter.ByrealClmmVenue X) (request : QuoteRequest) : Prop :=
  v.initialized = true ∧ request.swapType = .exactIn

/-- **A quote of the venue is one of its core**, for requests it is ready for. -/
theorem quote_eq_ok {request : QuoteRequest} {quote : QuoteResult} :
    v.quote fuel request = .ok quote ↔ v.Ready request ∧ ∃ zeroForOne core,
      v.core.Accepts request.inputMint request.outputMint zeroForOne ∧
      v.core.answer fuel zeroForOne request.amount.toNat
        (v.upperBoundFor request.inputMint request.outputMint) = .ok core ∧
      quote = {
        inputMint := request.inputMint
        outputMint := request.outputMint
        amount := core.inAmount
        expectedOutput := core.outAmount
        notEnoughLiquidity := core.notEnoughLiquidity
        price := if core.notEnoughLiquidity then 0 else core.price } := by
  unfold Adapter.ByrealClmmVenue.quote ensureExactIn
  simp only [Except.bind_eq_ok, Res.require_eq_ok, Except.pure_eq_ok, quoteWithPriceUpperBound_eq_ok]
  constructor
  · rintro ⟨⟨⟩, hinit, ⟨⟩, hexact, core, ⟨zeroForOne, haccepts, hanswer⟩, hquote⟩
    exact ⟨⟨hinit, hexact⟩, zeroForOne, core, haccepts, hanswer, hquote.symm⟩
  · rintro ⟨⟨hinit, hexact⟩, zeroForOne, core, haccepts, hanswer, hquote⟩
    exact ⟨(), hinit, (), hexact, core, ⟨zeroForOne, haccepts, hanswer⟩, hquote.symm⟩

end Adapter.ByrealClmmVenue

end ByrealTitan
