import ByrealTitan.Clmm.Quote
import ByrealTitan.Lib.Direction

/-!
# `Clmm.Laws` — what theorems assume of the crates

Each law states documented behaviour of one function or of a few that belong together. A theorem takes the
laws it needs as hypotheses; `Clmm.ReferenceLaws` shows them for the concrete crates.
-/

namespace ByrealTitan.Clmm

open Direction

variable {X : Crates}

/-! ## Swap steps -/

/-- What a step takes from the remaining input. -/
def SwapStep.spent (step : SwapStep) : Nat := step.amountIn + step.feeAmount

/-- The price has not got to the target of a swap in this direction. -/
def Short (zeroForOne : Bool) (target price : Nat) : Prop :=
  if zeroForOne then target < price else price < target

/-- Two steps with the same price, target, liquidity and fee: one with `r₁` left, one with no less. -/
structure StepsAlong (zeroForOne : Bool) (target r₁ : Nat) (step₁ step₂ : SwapStep) : Prop where
  covered : step₁.spent ≤ r₁
  spent : step₁.spent ≤ step₂.spent
  reached : step₁.sqrtPriceNextX64 = target → step₂ = step₁
  short : step₁.sqrtPriceNextX64 ≠ target →
    step₁.spent = r₁ ∧ step₁.amountOut ≤ step₂.amountOut ∧ Short zeroForOne target step₁.sqrtPriceNextX64

/-- `compute_swap_step` in the remaining input: success goes down, a target that is reached is reached
    alike, and a step that falls short spends all it has. -/
structure SwapStepLaw (X : Crates) : Prop where
  less {price target liquidity r₁ r₂ feeRate timestamp : Nat} {zeroForOne : Bool} {step₂ : SwapStep} :
    r₁ ≤ r₂ → r₂ < 2 ^ 64 →
    X.computeSwapStep price target liquidity r₂ feeRate true zeroForOne timestamp = .ok step₂ →
    ∃ step₁, X.computeSwapStep price target liquidity r₁ feeRate true zeroForOne timestamp = .ok step₁ ∧
      StepsAlong zeroForOne target r₁ step₁ step₂

/-- The prices `P` a swap meets: tick prices among them, and a step between two of them that falls short
    ends at a price that has a tick. -/
structure PricesMet (X : Crates) (P : Nat → Prop) : Prop where
  tick {t : Int} {price : Nat} : X.getSqrtPriceAtTick t = .ok price → P price
  lookup {price target liquidity r feeRate timestamp : Nat} {zeroForOne : Bool} {step : SwapStep} :
    P price → P target →
    X.computeSwapStep price target liquidity r feeRate true zeroForOne timestamp = .ok step →
    step.sqrtPriceNextX64 ≠ target → ∃ t, X.getTickAtSqrtPrice step.sqrtPriceNextX64 = .ok t

/-- A step that does not get to its target spends all the input it has. -/
structure StepSpends (X : Crates) : Prop where
  spends {price target liquidity r feeRate timestamp : Nat} {zeroForOne : Bool} {step : SwapStep} :
    X.computeSwapStep price target liquidity r feeRate true zeroForOne timestamp = .ok step →
    step.sqrtPriceNextX64 ≠ target → step.spent = r

/-- The target lies on the way from the price, or at it. -/
def Toward (zeroForOne : Bool) (price target : Nat) : Prop :=
  if zeroForOne then target ≤ price else price ≤ target

variable {zeroForOne : Bool}

theorem Toward.refl (price : Nat) : Toward zeroForOne price price := by
  unfold Toward
  cases zeroForOne with
  | true => exact Nat.le_refl _
  | false => exact Nat.le_refl _

theorem Toward.trans {a b c : Nat} (hab : Toward zeroForOne a b) (hbc : Toward zeroForOne b c) :
    Toward zeroForOne a c := by
  unfold Toward at hab hbc ⊢
  cases zeroForOne with
  | true => exact Nat.le_trans hbc hab
  | false => exact Nat.le_trans hab hbc

theorem Short.toward {target price : Nat} (h : Short zeroForOne target price) :
    Toward zeroForOne price target := by
  unfold Short at h
  unfold Toward
  cases zeroForOne with
  | true => exact Nat.le_of_lt h
  | false => exact Nat.le_of_lt h

/-- A step that gets to its target does so alike with any input that covers what it takes. -/
structure ReachLaw (X : Crates) : Prop where
  reach {price target liquidity r r' feeRate timestamp : Nat} {zeroForOne : Bool} {step : SwapStep} :
    X.computeSwapStep price target liquidity r feeRate true zeroForOne timestamp = .ok step →
    step.sqrtPriceNextX64 = target → step.spent ≤ r' → r' < 2 ^ 64 →
    X.computeSwapStep price target liquidity r' feeRate true zeroForOne timestamp = .ok step

/-- What a fee at this rate leaves of an input, rounded down. -/
def Crates.lessFee (X : Crates) (feeRate r : Nat) : Nat :=
  r * (X.FEE_RATE_DENOMINATOR_VALUE - feeRate) / X.FEE_RATE_DENOMINATOR_VALUE

/-- The fee on an input that is traded whole, rounded up. -/
def Crates.feeOn (X : Crates) (feeRate amountIn : Nat) : Nat :=
  (amountIn * feeRate + (X.FEE_RATE_DENOMINATOR_VALUE - feeRate) - 1) /
    (X.FEE_RATE_DENOMINATOR_VALUE - feeRate)

/-- `compute_swap_step` trades the remaining input less the fee: it moves the price and
    puts out as the step without a fee does with what is left; and where it gets to the
    target, it takes the fee of the input it needed. -/
structure FeeStepLaw (X : Crates) : Prop where
  free {price target liquidity r feeRate timestamp : Nat} {zeroForOne : Bool} {step : SwapStep} :
    feeRate < X.FEE_RATE_DENOMINATOR_VALUE →
    X.computeSwapStep price target liquidity r feeRate true zeroForOne timestamp = .ok step →
    ∃ traded,
      X.computeSwapStep price target liquidity (X.lessFee feeRate r) 0 true zeroForOne timestamp =
        .ok traded ∧
      traded.sqrtPriceNextX64 = step.sqrtPriceNextX64 ∧ traded.amountIn = step.amountIn ∧
      traded.amountOut = step.amountOut
  fee {price target liquidity r feeRate timestamp : Nat} {zeroForOne : Bool} {step : SwapStep} :
    feeRate < X.FEE_RATE_DENOMINATOR_VALUE →
    X.computeSwapStep price target liquidity r feeRate true zeroForOne timestamp = .ok step →
    step.sqrtPriceNextX64 = target → step.feeAmount = X.feeOn feeRate step.amountIn

/-- A step to a target on its way ends between price and target, and
    takes no more than the remaining input. -/
structure StepBounds (X : Crates) : Prop extends StepSpends X where
  between {price target liquidity r feeRate timestamp : Nat} {zeroForOne : Bool} {step : SwapStep} :
    X.computeSwapStep price target liquidity r feeRate true zeroForOne timestamp = .ok step →
    Toward zeroForOne price target →
    Toward zeroForOne price step.sqrtPriceNextX64 ∧ Toward zeroForOne step.sqrtPriceNextX64 target
  covered {price target liquidity r feeRate timestamp : Nat} {zeroForOne : Bool} {step : SwapStep} :
    X.computeSwapStep price target liquidity r feeRate true zeroForOne timestamp = .ok step →
    step.spent ≤ r

/-- Prices grow with the tick. -/
structure TickPriceLaw (X : Crates) : Prop where
  mono {t u : Int} {p q : Nat} : X.getSqrtPriceAtTick t = .ok p → X.getSqrtPriceAtTick u = .ok q →
    t ≤ u → p ≤ q

/-- `add_delta` adds. -/
structure LiquidityLaw (X : Crates) : Prop where
  adds {liquidity liquidity' : Nat} {delta : Int} :
    X.addDelta liquidity delta = .ok liquidity' → (liquidity' : Int) = liquidity + delta

/-! ## Tick arrays -/

/-- The ticks one array spans. -/
def Crates.span (X : Crates) (spacing : Nat) : Int := (X.TICK_ARRAY_SIZE : Int) * spacing

/-- `t` is one of the ticks of the array from `start`. -/
def InSpan (X : Crates) (spacing : Nat) (start t : Int) : Prop := start ≤ t ∧ t < start + X.span spacing

/-- `get_array_start_index`: the arrays tile the ticks from zero on, and this is the start of the one that
    holds the tick. -/
structure ArrayStartLaw (X : Crates) (spacing : Nat) : Prop where
  inSpan (t : Int) : InSpan X spacing (X.getArrayStartIndex t spacing) t
  tiled (t : Int) : X.span spacing ∣ X.getArrayStartIndex t spacing

/-- The floor to a multiple of an array's ticks is such a start. -/
theorem ArrayStartLaw.of_floor {spacing : Nat} (hpos : 0 < X.span spacing)
    (hfloor : ∀ t, X.getArrayStartIndex t spacing = t / X.span spacing * X.span spacing) :
    ArrayStartLaw X spacing where
  inSpan t := by
    rw [hfloor]
    have hlow := Int.ediv_mul_le t (ne_of_gt hpos)
    have hhigh := Int.lt_ediv_add_one_mul_self t hpos
    rw [Int.add_mul, Int.one_mul] at hhigh
    exact ⟨hlow, hhigh⟩
  tiled t := by
    rw [hfloor]
    exact Int.dvd_mul_left _ _

/-- `TickUtils`: an array spans a number of ticks that an `i32` holds, its start is the floor to a
    multiple of them, and the offset of a slot's tick is the slot. -/
structure TickUtilsLaw (X : Crates) (spacing : Nat) : Prop where
  size : 0 < X.TICK_ARRAY_SIZE
  fits : X.span spacing ≤ 2 ^ 31
  floor (t : Int) : X.getArrayStartIndex t spacing = t / X.span spacing * X.span spacing
  offset {start : Int} {i : Nat} : i < X.TICK_ARRAY_SIZE →
    X.getTickOffsetInTickArray start (start + i * spacing) spacing = .ok i

/-- The start index of an array further on than `last` that reaches into the range of ticks. -/
structure FurtherArray (X : Crates) (spacing : Nat) (zeroForOne : Bool) (last start : Int) : Prop where
  further : Further zeroForOne last start
  isStart : X.getArrayStartIndex start spacing = start
  fromMin : X.getArrayStartIndex X.MIN_TICK spacing ≤ start
  toMax : start ≤ X.MAX_TICK

/-- A scan over one of the venue's bitmaps ends at an array further on, or at an edge of what it looked at:
    that of the extension's is further on too, that of the pool's is at least not behind. -/
structure ScansFurther (v : ByrealClmmVenue X) (zeroForOne : Bool) : Prop where
  pool {last start : Int} :
    X.nextInitializedTickArrayStartIndex v.poolState.tickArrayBitmap last v.spacing zeroForOne =
      (true, start) →
    FurtherArray X v.spacing zeroForOne last start
  poolEdge {last edge : Int} :
    X.nextInitializedTickArrayStartIndex v.poolState.tickArrayBitmap last v.spacing zeroForOne =
      (false, edge) →
    ¬ Further zeroForOne edge last
  extension {ext : TickArrayBitmapExtension} {last start : Int} : v.bitmapExtension = some ext →
    X.extensionNextInitializedTickArrayFromOneBitmap ext last v.spacing zeroForOne = .ok (true, start) →
    FurtherArray X v.spacing zeroForOne last start
  extensionEdge {ext : TickArrayBitmapExtension} {last edge : Int} : v.bitmapExtension = some ext →
    X.extensionNextInitializedTickArrayFromOneBitmap ext last v.spacing zeroForOne = .ok (false, edge) →
    Further zeroForOne last edge

/-- The checks of the current array answer with its start where it is marked. -/
structure CheckLaw (X : Crates) (spacing : Nat) : Prop where
  pool {bitmap : List UInt64} {tick start : Int} :
    X.checkCurrentTickArrayIsInitialized bitmap tick spacing = .ok (true, start) →
    start = X.getArrayStartIndex tick spacing
  extension {ext : TickArrayBitmapExtension} {start start' : Int} :
    X.extensionCheckTickArrayIsInitialized ext start spacing = .ok (true, start') → start' = start

/-- The array keeps its initialised slots at their own ticks. Of a dynamic array, whose layout only the
    crate knows, this is said of the slots that the crate finds: the next one is looked for in the array
    of the current tick only, and lies ahead of it. -/
def SlotsInPlace (X : Crates) (spacing : Nat) : DynamicTickArrayState X → Prop
  | .fixed ta => ∀ i, (ta.ticks i).isInitialized = true →
      (ta.ticks i).tick = ta.startTickIndex + i.val * spacing
  | .dynamic header ticks =>
      (∀ current zeroForOne i tick,
        X.dynNextInitializedTickIndex header ticks current spacing zeroForOne = .ok (some i) →
        ticks[i]? = some tick → X.getArrayStartIndex current spacing = header.startTickIndex ∧
          InSpan X spacing header.startTickIndex tick.tick ∧ Ahead zeroForOne current tick.tick) ∧
      ∀ zeroForOne i tick, X.dynFirstInitializedTickIndex header ticks zeroForOne = .ok i →
        ticks[i]? = some tick → InSpan X spacing header.startTickIndex tick.tick

/-! ## Prices and messages -/

/-- The price of a tick converts. -/
structure TickConversionLaw (X : Crates) : Prop where
  price {t : Int} {sqrtPriceX64 : Nat} : X.getSqrtPriceAtTick t = .ok sqrtPriceX64 →
    ∃ price, X.priceFromSqrtPriceX64 sqrtPriceX64 = .ok price

/-- The base fee of the loaded config is at most the whole amount. -/
structure BaseFeeLaw (v : ByrealClmmVenue X) : Prop where
  base {config : AmmConfig} {zeroForOne : Bool} {timestamp feeRate : Nat} : v.ammConfig = some config →
    X.calculateBaseTradeFeeRate v.poolState config zeroForOne timestamp = .ok feeRate →
    feeRate ≤ X.FEE_RATE_DENOMINATOR_VALUE

/-- And so is the dynamic one, where the base fee is. -/
structure FeeLaw (v : ByrealClmmVenue X) : Prop extends BaseFeeLaw v where
  dynamic {inputs : DynamicFeeInputs} {feeRate : Nat} : inputs.feeBase ≤ X.FEE_RATE_DENOMINATOR_VALUE →
    X.calculateDynamicFeeRate inputs = .ok feeRate → feeRate ≤ X.FEE_RATE_DENOMINATOR_VALUE

/-- A price that a swap can run at: between the limits of the two directions. -/
structure WithinLimits (X : Crates) (price : Nat) : Prop where
  low : X.MIN_SQRT_PRICE_X64 + 1 ≤ price
  high : price ≤ X.MAX_SQRT_PRICE_X64 - 1

/-- Between the limits every price has a tick and converts. -/
structure ConversionLaw (X : Crates) : Prop where
  tick {price : Nat} : WithinLimits X price → ∃ t, X.getTickAtSqrtPrice price = .ok t
  price {sqrtPriceX64 : Nat} : WithinLimits X sqrtPriceX64 →
    ∃ price, X.priceFromSqrtPriceX64 sqrtPriceX64 = .ok price

/-- The message tells that liquidity ran out. -/
def SwapError.reportsInsufficient (e : SwapError) : Bool := containsText e.text "Liquidity insufficient"

/-- The errors of the swap mathematics do not speak of liquidity running out. -/
structure PlainErrors (X : Crates) : Prop where
  price {tick : Int} {e : String} : X.getSqrtPriceAtTick tick = .error e →
    (SwapError.sqrtPriceAtTick tick e).reportsInsufficient = false
  step {price target liquidity r feeRate timestamp : Nat} {zeroForOne : Bool} {e : String} :
    X.computeSwapStep price target liquidity r feeRate true zeroForOne timestamp = .error e →
    (SwapError.swapStep e).reportsInsufficient = false
  liquidity {tick delta : Int} {liquidity : Nat} {e : String} : X.addDelta liquidity delta = .error e →
    (SwapError.adjustLiquidity tick e).reportsInsufficient = false
  tick {price : Nat} {e : String} : X.getTickAtSqrtPrice price = .error e →
    (SwapError.tickAtSqrtPrice e).reportsInsufficient = false

end ByrealTitan.Clmm
