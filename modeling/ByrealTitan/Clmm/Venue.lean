import ByrealTitan.Clmm.TickArray

/-!
# `Clmm.Venue` — the core venue and its swap simulation (`src/byreal_clmm/core.rs`)

The state of one pool as the venue holds it, the navigation over the initialised tick arrays, the trade
fee, and the exact-in swap loop. The three loops of the source (`scanBitmaps`, `findNextTick`,
`simulateLoop`) take the number of iterations they may run as `fuel`; running out is a fault of its own,
never a result. Unchecked arithmetic follows a build with overflow checks, where it panics; the profile
this crate is released with sets none, and there the same operations wrap.
-/

namespace ByrealTitan.Clmm

/-! ## Errors -/

/-- The errors of the simulation. `crate` is an error passed on with `?`. -/
inductive SwapError where
  | missingBitmapExtension
  | noInitializedTickArray
  | noFurtherTickArrays
  | missingTickArray (startIndex : Int)
  | missingAdvancedTickArray (startIndex : Int)
  | missingTick (tick : Int)
  | sqrtPriceAtTick (tick : Int) (e : String)
  | swapStep (e : String)
  | feeAmountOverflow
  | stepAmountOverflow
  | stepExceedsRemaining
  | amountCalculatedOverflow
  | adjustLiquidity (tick : Int) (e : String)
  | tickAtSqrtPrice (e : String)
  | ammConfigNotLoaded
  | vaultAccountsMissing
  | oracleAccountsMissing
  | priceNonPositive
  | priceStale
  | rawInputUnderflow
  | crate (e : String)
deriving DecidableEq

/-- The message of each error. -/
def SwapError.text : SwapError → String
  | .missingBitmapExtension     => "Missing tick array bitmap extension account"
  | .noInitializedTickArray     => "Liquidity insufficient: no initialized tick array for direction"
  | .noFurtherTickArrays        => "Liquidity insufficient: no further initialized tick arrays"
  | .missingTickArray s         => "Missing tick array data for start_index " ++ toString s
  | .missingAdvancedTickArray s => "Missing tick array data for advanced start_index " ++ toString s
  | .missingTick t              => "Missing tick array data for tick " ++ toString t
  | .sqrtPriceAtTick t e        => "Failed to get sqrt price at tick " ++ toString t ++ ": " ++ e
  | .swapStep e                 => "Swap step computation failed: " ++ e
  | .feeAmountOverflow          => "compute_swap: fee_amount overflow"
  | .stepAmountOverflow         => "compute_swap: step.amount_in + fee_amount overflow"
  | .stepExceedsRemaining       => "compute_swap: step.amount_in + fee_amount exceeds remaining"
  | .amountCalculatedOverflow   =>
      "compute_swap: amount_calculated overflow when adding amount_out"
  | .adjustLiquidity t e        => "Failed to adjust liquidity at tick " ++ toString t ++ ": " ++ e
  | .tickAtSqrtPrice e          => "Failed to get tick at sqrt price: " ++ e
  | .ammConfigNotLoaded         => "AMM config not loaded"
  | .vaultAccountsMissing       => "dynamic fee vault accounts missing"
  | .oracleAccountsMissing      => "dynamic fee pyth oracle accounts missing"
  | .priceNonPositive           => "pyth price is non-positive"
  | .priceStale                 => "pyth price is stale"
  | .rawInputUnderflow          => "compute_swap: raw input underflow"
  | .crate e                    => e

abbrev SwapRes (α : Type) := Res SwapError α

/-- `?` on a crate result, or `map_err` into one of the errors. -/
def ofCrate {α : Type} (toError : String → SwapError) : Except String α → SwapRes α
  | .ok a    => .ok a
  | .error e => Res.fail (toError e)

@[simp] theorem ofCrate_eq_ok {α : Type} {toError : String → SwapError} {r : Except String α} {a : α} :
    ofCrate toError r = .ok a ↔ r = .ok a := by
  cases r with
  | ok b => simp [ofCrate]
  | error e => simp [ofCrate, Res.fail]

theorem ofCrate_eq_error {α : Type} {toError : String → SwapError} {r : Except String α}
    {fault : Fault SwapError}
    (h : ofCrate toError r = .error fault) : ∃ e, r = .error e ∧ fault = .err (toError e) := by
  cases r with
  | ok a => cases h
  | error e => exact ⟨e, rfl, (Except.error.inj h).symm⟩

/-- `checked_add` on unsigned words of `w` bits. -/
def checkedAddOr (w : Nat) (e : SwapError) (a b : Nat) : SwapRes Nat :=
  if a + b < 2 ^ w then .ok (a + b) else Res.fail e

/-- `checked_sub`. -/
def checkedSubOr (e : SwapError) (a b : Nat) : SwapRes Nat :=
  if b ≤ a then .ok (a - b) else Res.fail e

@[simp] theorem checkedAddOr_eq_ok {w a b c : Nat} {e : SwapError} :
    checkedAddOr w e a b = .ok c ↔ a + b < 2 ^ w ∧ a + b = c := by
  unfold checkedAddOr
  split
  next h => simp [h]
  next h => simp [Res.fail, h]

@[simp] theorem checkedSubOr_eq_ok {a b c : Nat} {e : SwapError} :
    checkedSubOr e a b = .ok c ↔ b ≤ a ∧ a - b = c := by
  unfold checkedSubOr
  split
  next h => simp [h]
  next h => simp [Res.fail, h]

theorem checkedAddOr_eq_error {w a b : Nat} {e : SwapError} {fault : Fault SwapError}
    (h : checkedAddOr w e a b = .error fault) : fault = .err e := by
  unfold checkedAddOr at h
  split at h
  next => cases h
  next => exact (Except.error.inj h).symm

theorem checkedSubOr_eq_error {a b : Nat} {e : SwapError} {fault : Fault SwapError}
    (h : checkedSubOr e a b = .error fault) : a < b ∧ fault = .err e := by
  unfold checkedSubOr at h
  split at h
  next => cases h
  next hlt => exact ⟨Nat.lt_of_not_le hlt, (Except.error.inj h).symm⟩

/-! ## State -/

structure TickNavState where
  isMatchPoolCurrentTickArray : Bool
  currentValidTickArrayStartIndex : Int
deriving DecidableEq

structure SwapState where
  amountSpecifiedRemaining : Nat
  amountCalculated : Nat
  sqrtPriceX64 : Nat
  tick : Int
  liquidity : Nat
  feeAmount : Nat
deriving DecidableEq

structure SwapResult where
  amountIn : Nat
  amountOut : Nat
  sqrtPriceX64 : Nat
  feeRate : Nat
deriving DecidableEq

/-- The core venue. The loaded tick arrays are kept in the order the map iterates over them. -/
structure ByrealClmmVenue (X : Crates) where
  marketId : Pubkey
  programId : Pubkey
  reserveMints : Pubkey × Pubkey
  poolState : PoolState
  ammConfig : Option AmmConfig
  bitmapExtension : Option TickArrayBitmapExtension
  dynamicTickArrays : List (Pubkey × DynamicTickArrayState X)
  token0VaultAmount : Nat
  token1VaultAmount : Nat
  token0ProgramId : Pubkey
  token1ProgramId : Pubkey
  token0PythOracleData : Option Price
  token1PythOracleData : Option Price
  maxOneSideTickArrays : Nat
  currentUnixTimestamp : Int

namespace ByrealClmmVenue

variable {X : Crates} (v : ByrealClmmVenue X)

/-- `pool_state.tick_spacing`, as the number the tick utilities take. -/
def spacing : Nat := v.poolState.tickSpacing.toNat

/-! ## Navigation over tick arrays -/

def isOverflowDefaultTickarrayBitmap (tickIndex : Int) : Bool :=
  let range := X.tickArrayStartIndexRange v.poolState
  let start := X.getArrayStartIndex tickIndex v.spacing
  decide (range.2 ≤ start) || decide (start < range.1)

/-- The loop of `next_initialized_tick_array_start_index`: the pool's bitmap, then the extension's. -/
def scanBitmaps (zeroForOne : Bool) : (fuel : Nat) → (last : Int) → SwapRes (Option Int)
  | 0,        _    => .error .diverge
  | fuel + 1, last =>
      let found := X.nextInitializedTickArrayStartIndex v.poolState.tickArrayBitmap last v.spacing
        zeroForOne
      if found.1 then .ok (some found.2)
      else
        match v.bitmapExtension with
        | none => Res.fail .missingBitmapExtension
        | some extension => do
            let found ← ofCrate .crate
              (X.extensionNextInitializedTickArrayFromOneBitmap extension found.2 v.spacing zeroForOne)
            if found.1 then return some found.2
            else if found.2 < X.MIN_TICK ∨ X.MAX_TICK < found.2 then return none
            else scanBitmaps zeroForOne fuel found.2

def nextInitializedTickArrayStartIndex (fuel : Nat) (lastTickArrayStartIndex : Int)
    (zeroForOne : Bool) : SwapRes (Option Int) :=
  v.scanBitmaps zeroForOne fuel (X.getArrayStartIndex lastTickArrayStartIndex v.spacing)

/-- Whether the bitmaps mark the array of the current tick, and its start. -/
def currentTickArrayIsInitialized : SwapRes (Bool × Int) :=
  if v.isOverflowDefaultTickarrayBitmap v.poolState.tickCurrent then do
    let extension ← Res.orErr .missingBitmapExtension v.bitmapExtension
    ofCrate .crate (X.extensionCheckTickArrayIsInitialized extension
      (X.getArrayStartIndex v.poolState.tickCurrent v.spacing) v.spacing)
  else
    ofCrate .crate (X.checkCurrentTickArrayIsInitialized v.poolState.tickArrayBitmap
      v.poolState.tickCurrent v.spacing)

def firstInitializedTickArray (fuel : Nat) (zeroForOne : Bool) : SwapRes (Bool × Int) := do
  let (isInitialized, startIndex) ← v.currentTickArrayIsInitialized
  if isInitialized then return (true, startIndex)
  else
    let currentStart := X.getArrayStartIndex v.poolState.tickCurrent v.spacing
    let nextStart ← v.nextInitializedTickArrayStartIndex fuel currentStart zeroForOne
    let start ← Res.orErr .noInitializedTickArray nextStart
    return (false, start)

def initTickNavState (fuel : Nat) (zeroForOne : Bool) : SwapRes TickNavState := do
  let (isMatch, firstStart) ← v.firstInitializedTickArray fuel zeroForOne
  return ⟨isMatch, firstStart⟩

def loadedTickArrayByStartIndex (startIndex : Int) : Option (DynamicTickArrayState X) :=
  (v.dynamicTickArrays.map Prod.snd).find? fun tickArray =>
    decide (tickArray.startTickIndex = startIndex)

/-- The first tick of the current array, tried once while the array is not the pool's current one. -/
def firstTickIfUnmatched (nav : TickNavState) (tickArray : DynamicTickArrayState X)
    (zeroForOne : Bool) : SwapRes (Option Int) :=
  if nav.isMatchPoolCurrentTickArray then .ok none else tickArray.firstInitializedTick zeroForOne

/-- The loop of `find_next_initialized_tick_with_nav`; the nav state is returned with the tick. -/
def findNextTick (scanFuel : Nat) (currentTick : Int) (zeroForOne : Bool) :
    (fuel : Nat) → TickNavState → SwapRes (Int × TickNavState)
  | 0,        _   => .error .diverge
  | fuel + 1, nav => do
      let start := nav.currentValidTickArrayStartIndex
      let tickArray ← Res.orErr (.missingTickArray start) (v.loadedTickArrayByStartIndex start)
      match ← tickArray.nextInitializedTick currentTick v.spacing zeroForOne with
      | some t => return (t, nav)
      | none =>
          match ← firstTickIfUnmatched nav tickArray zeroForOne with
          | some t => return (t, ⟨true, start⟩)
          | none =>
              let nextArr ← v.nextInitializedTickArrayStartIndex scanFuel start zeroForOne
              let nextStart ← Res.orErr .noFurtherTickArrays nextArr
              let nextTickArray ← Res.orErr (.missingAdvancedTickArray nextStart)
                (v.loadedTickArrayByStartIndex nextStart)
              match ← nextTickArray.firstInitializedTick zeroForOne with
              | some t => return (t, ⟨true, nextStart⟩)
              | none   => findNextTick scanFuel currentTick zeroForOne fuel ⟨true, nextStart⟩

def findNextInitializedTickWithNav (fuel : Nat) (currentTick : Int) (zeroForOne : Bool)
    (nav : TickNavState) : SwapRes (Int × TickNavState) :=
  v.findNextTick fuel currentTick zeroForOne fuel nav

def getTickLiquidityNet (tickIndex : Int) : SwapRes (Option Int) :=
  match v.loadedTickArrayByStartIndex (X.getArrayStartIndex tickIndex v.spacing) with
  | none           => .ok none
  | some tickArray => tickArray.getTickLiquidityNet tickIndex v.spacing

/-! ## Trade fee -/

/-- `DYNAMIC_MAX_PYTH_AGE_SECONDS`. -/
def DYNAMIC_MAX_PYTH_AGE_SECONDS : Int := 3600

def loadDynamicPythPrices : SwapRes (Price × Price) := do
  let token0Price ← Res.orErr .oracleAccountsMissing v.token0PythOracleData
  let token1Price ← Res.orErr .oracleAccountsMissing v.token1PythOracleData
  Res.require (0 < token0Price.price ∧ 0 < token1Price.price) .priceNonPositive
  let oldestAllowed ← checkedI64 (v.currentUnixTimestamp - DYNAMIC_MAX_PYTH_AGE_SECONDS)
  Res.require (oldestAllowed ≤ token0Price.publishTime ∧ oldestAllowed ≤ token1Price.publishTime)
    .priceStale
  return (token0Price, token1Price)

def isSwapDynamicFeeEnabled : Bool := X.isSwapDynamicFeeEnabled v.poolState

/-- The trade in units of the quote token. -/
def tradeQuoteAmount (inputIsQuote token1AsQuote : Bool) (amountSpecified p0 : Nat) : SwapRes Nat :=
  if inputIsQuote then .ok amountSpecified
  else ofCrate .crate (X.quoteAmountFromBase amountSpecified p0 token1AsQuote)

/-- The inputs of the dynamic fee, and the fee, once the base fee is known. -/
def dynamicFeeOnTop (zeroForOne : Bool) (amountSpecified feeRate : Nat) : SwapRes Nat := do
  Res.require (v.token0ProgramId ≠ ZERO_PUBKEY ∧ v.token1ProgramId ≠ ZERO_PUBKEY) .vaultAccountsMissing
  let (token0Price, token1Price) ← v.loadDynamicPythPrices
  let ps := v.poolState
  let pIndex ← ofCrate .crate
    (X.calculatePriceIndex token0Price token1Price ps.mintDecimals0 ps.mintDecimals1)
  let p0 ← ofCrate .crate (X.priceFromSqrtPriceX64 ps.sqrtPriceX64)
  let token1AsQuote := X.isToken1Quote ps
  let inputIsQuote := if token1AsQuote then !zeroForOne else zeroForOne
  let quoteAmount ← tradeQuoteAmount (X := X) inputIsQuote token1AsQuote amountSpecified p0
  let quoteDecimals := if token1AsQuote then ps.mintDecimals1 else ps.mintDecimals0
  let tradeSize ← ofCrate .crate (X.normalizeTradeSize quoteAmount quoteDecimals)
  let baseAmount := if token1AsQuote then v.token0VaultAmount else v.token1VaultAmount
  let quoteBalance := if token1AsQuote then v.token1VaultAmount else v.token0VaultAmount
  let quoteValueOfBase ← ofCrate .crate (X.quoteAmountFromBase baseAmount p0 token1AsQuote)
  ofCrate .crate (X.calculateDynamicFeeRate {
    p0, pIndex, tradeSize, quoteValueOfBase, quoteBalance
    isBuyingBase := inputIsQuote
    feeBase := feeRate
    arbitrageFeeBufferPpm := ps.arbitrageFeeBufferPpm
    tradeSlippageFeeBaseMilliBp := ps.tradeSlippageFeeBaseMilliBp
    tradeSlippageFeeTradeSizeThreshold := ps.tradeSlippageFeeTradeSizeThreshold
    imbalanceFeeBaseTenthsOfBp := ps.imbalanceFeeBaseTenthsOfBp
    imbalanceFeeX := ps.imbalanceFeeX })

/-- `dynamic_fee_rate`; the timestamp is cast to `u64`. -/
def dynamicFeeRate (zeroForOne : Bool) (amountSpecified : Nat) (currentTimestamp : Int) :
    SwapRes Nat := do
  let ammConfig ← Res.orErr .ammConfigNotLoaded v.ammConfig
  let feeRate ← ofCrate .crate (X.calculateBaseTradeFeeRate v.poolState ammConfig zeroForOne
    (currentTimestamp % 2 ^ 64).toNat)
  if !v.isSwapDynamicFeeEnabled then return feeRate
  else v.dynamicFeeOnTop zeroForOne amountSpecified feeRate

def computeTradeFeeRate (zeroForOne : Bool) (amountSpecified : Nat) (currentTimestamp : Int) :
    SwapRes Nat :=
  v.dynamicFeeRate zeroForOne amountSpecified currentTimestamp

/-! ## The swap loop -/

/-- The price limit, or the next tick's price where that comes first. -/
def targetPrice (zeroForOne : Bool) (sqrtPriceNext sqrtPriceLimit : Nat) : Nat :=
  if (zeroForOne ∧ sqrtPriceNext < sqrtPriceLimit) ∨ (¬ zeroForOne ∧ sqrtPriceLimit < sqrtPriceNext)
  then sqrtPriceLimit
  else sqrtPriceNext

/-- The change of liquidity on crossing a tick: on the way down the net liquidity is taken off. -/
def signedLiquidityNet (zeroForOne : Bool) (liqNet : Int) : SwapRes Int :=
  if zeroForOne then checkedI128 (-liqNet) else .ok liqNet

/-- The tick a crossing leaves the state at: on the way down the one below. -/
def tickAfterCrossing (zeroForOne : Bool) (nextTick : Int) : SwapRes Int :=
  if zeroForOne then checkedI32 (nextTick - 1) else .ok nextTick

/-- The price has reached the next tick. -/
def crossTick (zeroForOne : Bool) (nextTick : Int) (state : SwapState) : SwapRes SwapState := do
  let net ← v.getTickLiquidityNet nextTick
  let liqNet ← Res.orErr (.missingTick nextTick) net
  let liqNet ← signedLiquidityNet zeroForOne liqNet
  let liquidity ← ofCrate (.adjustLiquidity nextTick) (X.addDelta state.liquidity liqNet)
  let tick ← tickAfterCrossing zeroForOne nextTick
  return { state with liquidity, tick }

/-- One turn of the loop, once the next initialised tick is known. -/
def applyStep (feeRate sqrtPriceLimit : Nat) (zeroForOne : Bool) (currentTimestamp : Int)
    (state : SwapState) (nextTick : Int) : SwapRes SwapState := do
  let sqrtPriceNext ← ofCrate (.sqrtPriceAtTick nextTick) (X.getSqrtPriceAtTick nextTick)
  let step ← ofCrate .swapStep (X.computeSwapStep state.sqrtPriceX64
    (targetPrice zeroForOne sqrtPriceNext sqrtPriceLimit) state.liquidity
    state.amountSpecifiedRemaining feeRate true zeroForOne (currentTimestamp % 2 ^ 32).toNat)
  let feeAmount ← checkedAddOr 64 .feeAmountOverflow state.feeAmount step.feeAmount
  let stepAmountInWithFee ← checkedAddOr 64 .stepAmountOverflow step.amountIn step.feeAmount
  let remaining ← checkedSubOr .stepExceedsRemaining state.amountSpecifiedRemaining stepAmountInWithFee
  let calculated ← checkedAddOr 64 .amountCalculatedOverflow state.amountCalculated step.amountOut
  let state := { state with
    sqrtPriceX64 := step.sqrtPriceNextX64
    feeAmount := feeAmount
    amountSpecifiedRemaining := remaining
    amountCalculated := calculated }
  if step.sqrtPriceNextX64 = sqrtPriceNext then v.crossTick zeroForOne nextTick state
  else
    let tick ← ofCrate .tickAtSqrtPrice (X.getTickAtSqrtPrice step.sqrtPriceNextX64)
    return { state with tick }

/-- The loop of `simulate_swap_steps`. -/
def simulateLoop (searchFuel feeRate sqrtPriceLimit : Nat) (zeroForOne : Bool)
    (currentTimestamp : Int) : (fuel : Nat) → SwapState → TickNavState → SwapRes SwapState
  | 0,        _,     _   => .error .diverge
  | fuel + 1, state, nav =>
      if state.amountSpecifiedRemaining ≠ 0 ∧ state.sqrtPriceX64 ≠ sqrtPriceLimit then do
        let (nextTick, nav) ← v.findNextInitializedTickWithNav searchFuel state.tick zeroForOne nav
        let state ← v.applyStep feeRate sqrtPriceLimit zeroForOne currentTimestamp state nextTick
        simulateLoop searchFuel feeRate sqrtPriceLimit zeroForOne currentTimestamp fuel state nav
      else .ok state

/-- The state before the first step. -/
def initialSwapState (amountSpecified : Nat) : SwapState where
  amountSpecifiedRemaining := amountSpecified
  amountCalculated := 0
  sqrtPriceX64 := v.poolState.sqrtPriceX64
  tick := v.poolState.tickCurrent
  liquidity := v.poolState.liquidity
  feeAmount := 0

def simulateSwapSteps (fuel feeRate amountSpecified sqrtPriceLimit : Nat) (zeroForOne : Bool)
    (currentTimestamp : Int) : SwapRes SwapState := do
  let nav ← v.initTickNavState fuel zeroForOne
  v.simulateLoop fuel feeRate sqrtPriceLimit zeroForOne currentTimestamp fuel
    (v.initialSwapState amountSpecified) nav

def runSwap (fuel : Nat) (zeroForOne : Bool) (amountSpecified sqrtPriceLimit : Nat)
    (currentTimestamp : Int) : SwapRes (SwapState × Nat) := do
  let finalFee ← v.computeTradeFeeRate zeroForOne amountSpecified currentTimestamp
  let state ← v.simulateSwapSteps fuel finalFee amountSpecified sqrtPriceLimit zeroForOne
    currentTimestamp
  return (state, finalFee)

/-- The limit a swap without one runs to. -/
def defaultPriceLimit (X : Crates) (zeroForOne : Bool) : Nat :=
  if zeroForOne then X.MIN_SQRT_PRICE_X64 + 1 else X.MAX_SQRT_PRICE_X64 - 1

def computeSwap (fuel : Nat) (zeroForOne : Bool) (amountSpecified : Nat)
    (sqrtPriceLimitX64 : Option Nat) (currentTimestamp : Int) : SwapRes SwapResult := do
  let sqrtPriceLimit := sqrtPriceLimitX64.getD (defaultPriceLimit X zeroForOne)
  let (state, feeRate) ← v.runSwap fuel zeroForOne amountSpecified sqrtPriceLimit currentTimestamp
  let amountIn ← checkedSubOr .rawInputUnderflow amountSpecified state.amountSpecifiedRemaining
  return { amountIn, amountOut := state.amountCalculated, sqrtPriceX64 := state.sqrtPriceX64, feeRate }

end ByrealClmmVenue

end ByrealTitan.Clmm
