import ByrealTitan.Base.Errors
import ByrealTitan.Clmm.Venue

/-!
# `Clmm.Quote` — prices and quotes of the core venue (`src/byreal_clmm/core.rs`)
-/

namespace ByrealTitan.Clmm

structure CoreQuoteResult where
  inAmount : Nat
  outAmount : Nat
  notEnoughLiquidity : Bool
  price : Float

/-- `f64::min`, which drops a NaN. -/
def f64Min (a b : Float) : Float := if a.isNaN then b else if b.isNaN then a else if a < b then a else b

/-- `f64::max`, which drops a NaN. -/
def f64Max (a b : Float) : Float := if a.isNaN then b else if b.isNaN then a else if a < b then b else a

/-- `f64::clamp`, on bounds in order. -/
def f64Clamp (x low high : Float) : Float := if x < low then low else if high < x then high else x

/-- `str::contains`. -/
def containsText (message part : String) : Bool := decide (part.toList <:+: message.toList)

namespace ByrealClmmVenue

variable {X : Crates} (v : ByrealClmmVenue X)

/-! ## Prices -/

def marginalPriceFromSwapState (X : Crates) (zeroForOne : Bool) (sqrtPriceX64 feeRate : Nat) :
    SwapRes Float := do
  let priceX64 ← ofCrate .crate (X.priceFromSqrtPriceX64 sqrtPriceX64)
  let poolPrice := Float.ofNat priceX64 / Float.ofNat X.Q64
  let kept ← Res.checkedSub X.FEE_RATE_DENOMINATOR_VALUE feeRate
  let feeMultiplier := Float.ofNat kept / Float.ofNat X.FEE_RATE_DENOMINATOR_VALUE
  if zeroForOne then return poolPrice * feeMultiplier else return feeMultiplier / poolPrice

/-- One whole input token in atoms, where that fits a `u64`. -/
def inputTokenUnit (zeroForOne : Bool) : Option Nat :=
  let decimals := if zeroForOne then v.poolState.mintDecimals0 else v.poolState.mintDecimals1
  if 10 ^ decimals.toNat < 2 ^ 64 then some (10 ^ decimals.toNat) else none

def dynamicFeePriceStep (zeroForOne : Bool) (amount : Nat) : Option Nat := do
  let inputUnit ← v.inputTokenUnit zeroForOne
  if amount < inputUnit / 10 then none
  else
    let step := min (max (amount / 1000) (inputUnit / 10)) amount
    if 0 < step then some step else none

/-- The last part of `actual_curve_price`: the slope towards a larger amount bounds the price below. -/
def priceTowardsUpperBound (fuel : Nat) (zeroForOne : Bool) (amount step : Nat) (swap : SwapResult)
    (constantFeePrice upperPrice : Float) (currentTimestamp : Int) (upperBound : Nat) :
    SwapRes Float := do
  let nextStep := min step (upperBound - amount)
  let nextSwap ← v.computeSwap fuel zeroForOne (amount + nextStep) none currentTimestamp
  if nextSwap.amountOut ≤ swap.amountOut then return upperPrice
  else
    let lowerPrice := Float.ofNat (nextSwap.amountOut - swap.amountOut) / Float.ofNat nextStep
    if !lowerPrice.isFinite || lowerPrice ≤ 0 then return upperPrice
    else if lowerPrice ≤ upperPrice then return f64Clamp constantFeePrice lowerPrice upperPrice
    else return f64Max constantFeePrice lowerPrice

def actualCurvePrice (fuel : Nat) (zeroForOne : Bool) (amount : Nat) (swap : SwapResult)
    (constantFeePrice : Float) (currentTimestamp : Int) (upperBound : Option Nat) : SwapRes Float :=
  if !v.isSwapDynamicFeeEnabled then .ok constantFeePrice
  else
    match v.dynamicFeePriceStep zeroForOne amount with
    | none => .ok constantFeePrice
    | some step => do
        let previousSwap ← v.computeSwap fuel zeroForOne (amount - step) none currentTimestamp
        if swap.amountOut ≤ previousSwap.amountOut then return constantFeePrice
        else
          let realizedPrice :=
            Float.ofNat (swap.amountOut - previousSwap.amountOut) / Float.ofNat step
          let upperPrice := if realizedPrice.isFinite && realizedPrice > 0
            then f64Min constantFeePrice realizedPrice else constantFeePrice
          match upperBound with
          | none => return upperPrice
          | some upperBound =>
              if upperBound ≤ amount then return upperPrice
              else
                v.priceTowardsUpperBound fuel zeroForOne amount step swap constantFeePrice upperPrice
                  currentTimestamp upperBound

/-! ## Checks before a quote -/

/-- Whether the input, and whether the output, is the first mint. -/
def validateMints (input output : Pubkey) : VenueRes (Bool × Bool) := do
  let inputIs0 := decide (input = v.reserveMints.1)
  let inputIs1 := decide (input = v.reserveMints.2)
  Res.require (inputIs0 ∨ inputIs1) (.invalidMint (.staticStr "input mint not part of pool"))
  let outputIs0 := decide (output = v.reserveMints.1)
  let outputIs1 := decide (output = v.reserveMints.2)
  Res.require (outputIs0 ∨ outputIs1) (.invalidMint (.staticStr "output mint not part of pool"))
  Res.require (input ≠ output) (.invalidMint (.staticStr "input/output mint must differ"))
  return (inputIs0, outputIs0)

def ensureSwapStatusEnabled : VenueRes Unit :=
  Res.require (X.getStatusByBitSwap v.poolState) (.inactivePoolError v.marketId .byrealClmm)

/-- The clock is loaded, the pool is open and swaps are enabled. -/
def ensureOpen : VenueRes Unit := do
  Res.require (0 < v.currentUnixTimestamp)
    (.missingState (.staticStr "missing clock; call update_state() with sysvar clock"))
  Res.require ((v.poolState.openTime : Int) < v.currentUnixTimestamp)
    (.missingState (.staticStr "pool is not open yet"))
  v.ensureSwapStatusEnabled

/-- The oracle prices a quote needs are loaded, positive and fresh. -/
def ensureDynamicFeeState : VenueRes Unit :=
  if v.isSwapDynamicFeeEnabled then do
    Res.require (v.token0ProgramId ≠ ZERO_PUBKEY ∧ v.token1ProgramId ≠ ZERO_PUBKEY)
      (.missingState (.staticStr
        "dynamic fee vault accounts missing; call update_state() with required accounts"))
    match v.loadDynamicPythPrices with
    | .ok _           => .ok ()
    | .error (.err e) => Res.fail (.missingState (.string ("dynamic pyth state invalid: " ++ e.text)))
    | .error .panic   => Res.panic
    | .error .diverge => .error .diverge
  else .ok ()

def ensureQuotable : VenueRes Unit := do
  v.ensureOpen
  Res.require (v.ammConfig ≠ none) (.missingState (.staticStr "amm config missing; call update_state()"))
  v.ensureDynamicFeeState
  Res.require (v.dynamicTickArrays.isEmpty = false) (.missingState (.staticStr
    "tick arrays missing; call update_state() with required tick accounts"))

/-! ## Quotes -/

/-- `map_err` of a simulation error into a math error with a prefix; panics pass through. -/
def orMathError {α : Type} (label : String) : SwapRes α → VenueRes α
  | .ok a           => .ok a
  | .error (.err e) => Res.fail (.mathError (.string (label ++ e.text)))
  | .error .panic   => Res.panic
  | .error .diverge => .error .diverge

/-- The quote of an empty request: the spot price. -/
def quoteZero (zeroForOne : Bool) : VenueRes CoreQuoteResult := do
  let feeRate ← orMathError "spot price fee calculation failed: "
    (v.computeTradeFeeRate zeroForOne 0 v.currentUnixTimestamp)
  let price ← orMathError "spot price calculation failed: "
    (marginalPriceFromSwapState X zeroForOne v.poolState.sqrtPriceX64 feeRate)
  return { inAmount := 0, outAmount := 0, notEnoughLiquidity := false, price }

/-- The quote of a swap that the simulation could not complete: an error that reports insufficient
    liquidity becomes an answer. -/
def quoteFailure (e : SwapError) : VenueRes CoreQuoteResult :=
  if containsText e.text "Liquidity insufficient" then
    .ok { inAmount := 0, outAmount := 0, notEnoughLiquidity := true, price := 0 }
  else if containsText e.text "dynamic fee" || containsText e.text "pyth"
      || containsText e.text "vault" then
    Res.fail (.missingState (.string ("compute_swap failed: " ++ e.text)))
  else Res.fail (.mathError (.string ("compute_swap failed: " ++ e.text)))

/-- The quote of a completed swap, with its price. -/
def quoteSwap (fuel : Nat) (zeroForOne : Bool) (amount : Nat) (upperBound : Option Nat)
    (swap : SwapResult) : VenueRes CoreQuoteResult := do
  let constantFeePrice ← orMathError "marginal price calculation failed: "
    (marginalPriceFromSwapState X zeroForOne swap.sqrtPriceX64 swap.feeRate)
  let price ← orMathError "actual curve price calculation failed: "
    (v.actualCurvePrice fuel zeroForOne amount swap constantFeePrice v.currentUnixTimestamp upperBound)
  return {
    inAmount := swap.amountIn
    outAmount := swap.amountOut
    notEnoughLiquidity := decide (swap.amountIn < amount)
    price }

def quoteWithPriceUpperBound (fuel : Nat) (request : QuoteRequest) (upperBound : Option Nat) :
    VenueRes CoreQuoteResult := do
  let (inputIs0, _) ← v.validateMints request.inputMint request.outputMint
  let zeroForOne := inputIs0
  v.ensureQuotable
  let amount := request.amount.toNat
  if amount = 0 then v.quoteZero zeroForOne
  else
    match v.computeSwap fuel zeroForOne amount none v.currentUnixTimestamp with
    | .ok swap        => v.quoteSwap fuel zeroForOne amount upperBound swap
    | .error (.err e) => quoteFailure e
    | .error .panic   => Res.panic
    | .error .diverge => .error .diverge

def quote (fuel : Nat) (request : QuoteRequest) : VenueRes CoreQuoteResult :=
  v.quoteWithPriceUpperBound fuel request none

end ByrealClmmVenue

end ByrealTitan.Clmm
