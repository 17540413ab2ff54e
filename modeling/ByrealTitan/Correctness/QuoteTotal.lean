import ByrealTitan.Correctness.Boundaries
import ByrealTitan.Correctness.QuoteCases
import ByrealTitan.Correctness.Termination

/-!
# `Correctness.QuoteTotal` — every request is answered

The simulation indexes slots, subtracts ticks and negates liquidity without a check in sight. `Sturdy`
lists what makes each of these succeed: slots that exist, ticks and net liquidities that can be negated,
a clock that fits its word. Over a navigable venue of this kind nothing panics and nothing runs on: one
number of turns, the same for every amount, is enough for every quote and for the search of the bounds
(`quoting_total`).
-/

namespace ByrealTitan

namespace Clmm

open Res

variable {X : Crates} {spacing : Nat}

/-! ## What a quote needs of the crates and the accounts -/

namespace DynamicTickArrayState

/-- The slots of an array. -/
def slots : DynamicTickArrayState X → List TickState
  | .dynamic _ ticks => ticks
  | .fixed ta        => List.ofFn ta.ticks

/-- Every slot that the crate answers with exists. -/
def Listed (X : Crates) (spacing : Nat) : DynamicTickArrayState X → Prop
  | .dynamic header ticks =>
      (∀ current zeroForOne i,
        X.dynNextInitializedTickIndex header ticks current spacing zeroForOne = .ok (some i) →
        i < ticks.length) ∧
      (∀ zeroForOne i, X.dynFirstInitializedTickIndex header ticks zeroForOne = .ok i → i < ticks.length) ∧
      ∀ t i, X.dynGetTickIndexInArray header t spacing = .ok i → i < ticks.length
  | .fixed ta => ∀ t i, X.getArrayStartIndex t spacing = ta.startTickIndex →
      X.getTickOffsetInTickArray ta.startTickIndex t spacing = .ok i → i < X.TICK_ARRAY_SIZE

end DynamicTickArrayState

namespace ByrealClmmVenue

/-- The state of a venue stays within the words of its arithmetic: an array spans what an `i32` holds, its
    slots exist, ticks with a price and net liquidities can be negated, and the clock is an `i64`. -/
structure Sturdy (v : ByrealClmmVenue X) : Prop where
  width : X.span v.spacing ≤ 2 ^ 31
  listed : ∀ entry ∈ v.dynamicTickArrays, entry.2.Listed X v.spacing
  nets : ∀ entry ∈ v.dynamicTickArrays, ∀ slot ∈ entry.2.slots,
    -2 ^ 127 < slot.liquidityNet ∧ slot.liquidityNet ≤ 2 ^ 127
  ticks {t : Int} {price : Nat} : X.getSqrtPriceAtTick t = .ok price → -2 ^ 31 < t ∧ t ≤ 2 ^ 31
  clock : v.currentUnixTimestamp < 2 ^ 63

end ByrealClmmVenue

/-! ## Tick arrays -/

theorem orderly_ofCrate {α : Type} {toError : String → SwapError} {r : Except String α} :
    Orderly (ofCrate toError r) := by
  cases r with
  | ok a    => exact Raises.ok
  | error e => exact Raises.fail trivial

theorem orderly_checkedSubOr {a b : Nat} {e : SwapError} : Orderly (checkedSubOr e a b) :=
  Raises.ite (fun _ => Raises.ok) fun _ => Raises.fail trivial

namespace DynamicTickArrayState

variable {ε : Type} {array : DynamicTickArrayState X}

theorem orderly_nextInitializedTick (hlaw : ArrayStartLaw X spacing) (hwidth : X.span spacing ≤ 2 ^ 31)
    (hplace : SlotsInPlace X spacing array) (hlisted : array.Listed X spacing) (current : Int)
    (zeroForOne : Bool) :
    Orderly (array.nextInitializedTick current spacing zeroForOne : Res ε _) := by
  cases array with
  | dynamic header ticks =>
      obtain ⟨hnext, -, -⟩ := hlisted
      rw [nextInitializedTick]
      split
      next i hi =>
        exact (Raises.orPanic ⟨_, List.getElem?_eq_getElem (hnext _ _ _ hi)⟩).bind fun _ _ => Raises.ok
      next => exact Raises.ok
  | fixed ta =>
      rw [nextInitializedTick]
      by_cases hstart : X.getArrayStartIndex current spacing = ta.startTickIndex
      · obtain ⟨r, hr, -⟩ := ta.nextInitializedTick_total (ε := ε) hlaw hwidth hplace zeroForOne hstart
        rw [hr]
        exact Raises.ok
      · unfold FixedTickArraySnapshot.nextInitializedTick
        rw [if_pos hstart]
        exact Raises.ok

theorem orderly_firstInitializedTick (hspacing : 0 < spacing) (hplace : SlotsInPlace X spacing array)
    (hlisted : array.Listed X spacing) (zeroForOne : Bool) :
    Orderly (array.firstInitializedTick zeroForOne : Res ε _) := by
  cases array with
  | dynamic header ticks =>
      obtain ⟨-, hfirst, -⟩ := hlisted
      rw [firstInitializedTick]
      split
      next i hi =>
        exact (Raises.orPanic ⟨_, List.getElem?_eq_getElem (hfirst _ _ hi)⟩).bind fun _ _ => Raises.ok
      next => exact Raises.ok
  | fixed ta =>
      rw [firstInitializedTick]
      obtain ⟨r, hr, -⟩ := ta.firstInitializedTick_found (ε := ε) hspacing hplace zeroForOne
      rw [hr]
      exact Raises.ok

/-- A slot that is read is one of the array's. -/
theorem getTickLiquidityNet_mem (hlisted : array.Listed X spacing) (t : Int) :
    Yields (array.getTickLiquidityNet t spacing : Res ε _)
      (fun net => ∀ n, net = some n → ∃ slot ∈ array.slots, slot.liquidityNet = n) fun _ => False := by
  cases array with
  | dynamic header ticks =>
      obtain ⟨-, -, hget⟩ := hlisted
      rw [getTickLiquidityNet]
      split
      next i hi =>
        rw [List.getElem?_eq_getElem (hget _ _ hi)]
        apply Yields.ok
        intro n hn
        cases hn
        exact ⟨_, List.getElem_mem _, rfl⟩
      next =>
        apply Yields.ok
        intro n hn
        cases hn
  | fixed ta =>
      rw [getTickLiquidityNet]
      unfold FixedTickArraySnapshot.getTickLiquidityNet FixedTickArraySnapshot.tickOffset
      by_cases hstart : X.getArrayStartIndex t spacing = ta.startTickIndex
      · rw [if_neg (fun hne => hne hstart)]
        cases hoffset : X.getTickOffsetInTickArray ta.startTickIndex t spacing with
        | error e =>
            apply Yields.ok
            intro n hn
            cases hn
        | ok i =>
            have hi := hlisted t i hstart hoffset
            show Yields (ta.slot i >>= fun tick => pure (some tick.liquidityNet)) _ _
            unfold FixedTickArraySnapshot.slot
            rw [dif_pos hi]
            apply Yields.ok
            intro n hn
            cases hn
            exact ⟨_, List.mem_ofFn.mpr ⟨_, rfl⟩, rfl⟩
      · rw [if_pos hstart]
        apply Yields.ok
        intro n hn
        cases hn

end DynamicTickArrayState

namespace ByrealClmmVenue

variable {v : ByrealClmmVenue X} {fuel feeRate sqrtPriceLimit amount : Nat} {zeroForOne : Bool}
  {currentTimestamp : Int}

/-! ## The navigation -/

theorem orderly_scanTurn (last : Int) : Orderly (v.scanTurn zeroForOne last) :=
  (common_scanTurn last).mono fun _ _ => trivial

theorem orderly_scanBitmaps (hv : Navigable v zeroForOne) {last : Int}
    (hfuel : v.room zeroForOne last < fuel) :
    Orderly (v.scanBitmaps zeroForOne fuel last) := by
  rw [scanBitmaps_eq]
  refine Loop.iterate_orderly (I := fun _ => True) (v.room zeroForOne)
    (fun last _ => orderly_scanTurn last) ?_ trivial
    hfuel
  intro last edge _ hturn
  obtain ⟨hfurther, hmin, hmax⟩ := scanTurn_next hv.scans hturn
  have hstart := (hv.starts.inSpan X.MIN_TICK).1
  exact ⟨trivial, room_lt hfurther (by omega) hmax⟩

theorem orderly_searchTurn (hv : Navigable v zeroForOne) (hsturdy : v.Sturdy) {current : Int}
    {nav : TickNavState} (hat : NavAt v zeroForOne current nav)
    (hfuel : v.room zeroForOne nav.currentValidTickArrayStartIndex < fuel) :
    Orderly (v.searchTurn fuel current zeroForOne nav) := by
  intro fault hfault
  cases searchTurn_fault hfault with
  | missing start => exact ⟨_, rfl, trivial⟩
  | advanced start => exact ⟨_, rfl, trivial⟩
  | noFurther => exact ⟨_, rfl, trivial⟩
  | next hloaded hnext =>
      obtain ⟨-, key, hmem⟩ := loadedTickArray_eq_some hloaded
      exact DynamicTickArrayState.orderly_nextInitializedTick hv.starts hsturdy.width (hv.slots _ hmem)
        (hsturdy.listed _ hmem) _ _ fault hnext
  | first hloaded hfirst =>
      obtain ⟨-, key, hmem⟩ := loadedTickArray_eq_some hloaded
      exact DynamicTickArrayState.orderly_firstInitializedTick hv.starts.spacing_pos (hv.slots _ hmem)
        (hsturdy.listed _ hmem) _ fault hfirst
  | scan hscan =>
      unfold nextInitializedTickArrayStartIndex at hscan
      rw [hat.isStart] at hscan
      exact orderly_scanBitmaps hv hfuel fault hscan

theorem orderly_findNext (hv : Navigable v zeroForOne) (hsturdy : v.Sturdy) {current : Int}
    {nav : TickNavState} (hat : NavAt v zeroForOne current nav)
    (hfuel : v.room zeroForOne nav.currentValidTickArrayStartIndex < fuel) :
    Orderly (v.findNextInitializedTickWithNav fuel current zeroForOne nav) := by
  unfold findNextInitializedTickWithNav
  rw [findNextTick_eq]
  refine Loop.iterate_orderly
    (I := fun nav => NavAt v zeroForOne current nav ∧
      v.room zeroForOne nav.currentValidTickArrayStartIndex < fuel)
    (fun nav => v.room zeroForOne nav.currentValidTickArrayStartIndex)
    (fun nav hnav => orderly_searchTurn hv hsturdy hnav.1 hnav.2) ?_ ⟨hat, hfuel⟩ hfuel
  rintro nav nav' ⟨hat, hroom⟩ hturn
  obtain ⟨hat', hfar⟩ := searchTurn_next hv hat hturn
  have hlt := room_lt hfar.further hfar.fromMin hfar.toMax
  exact ⟨⟨hat', by omega⟩, hlt⟩

theorem orderly_initTickNavState (hv : Navigable v zeroForOne)
    (hfuel : v.room zeroForOne (X.getArrayStartIndex v.poolState.tickCurrent v.spacing) < fuel) :
    Orderly (v.initTickNavState fuel zeroForOne) := by
  intro fault hfault
  rcases initTickNavState_fault hfault with ⟨e, rfl, -⟩ | hscan
  · exact ⟨e, rfl, trivial⟩
  · unfold nextInitializedTickArrayStartIndex at hscan
    rw [hv.starts.idem] at hscan
    exact orderly_scanBitmaps hv hfuel fault hscan

/-! ## A step -/

/-- The net liquidity of a tick is read, and can be negated. -/
theorem net_readable (hsturdy : v.Sturdy) (t : Int) :
    Yields (v.getTickLiquidityNet t) (fun net => ∀ n, net = some n → -2 ^ 127 < n ∧ n ≤ 2 ^ 127)
      fun _ => False := by
  unfold getTickLiquidityNet
  cases hloaded : v.loadedTickArrayByStartIndex (X.getArrayStartIndex t v.spacing) with
  | none =>
      apply Yields.ok
      intro n hn
      cases hn
  | some array =>
      obtain ⟨-, key, hmem⟩ := loadedTickArray_eq_some hloaded
      refine (DynamicTickArrayState.getTickLiquidityNet_mem (hsturdy.listed _ hmem) t).mono ?_ fun _ => id
      intro net hnet n hn
      obtain ⟨slot, hslot, rfl⟩ := hnet n hn
      exact hsturdy.nets _ hmem slot hslot

/-- A tick that has a price is crossed or refused. -/
theorem orderly_crossTick (hsturdy : v.Sturdy) {t : Int} {price : Nat}
    (hprice : X.getSqrtPriceAtTick t = .ok price)
    {fault : Fault SwapError} (hcross : CrossFault v zeroForOne t fault) : ∃ e, fault = .err e := by
  cases hcross with
  | slot hslot => exact ((net_readable hsturdy t).of_error hslot).elim
  | missing => exact ⟨_, rfl⟩
  | negated hnet hnegated =>
      obtain ⟨hlow, hhigh⟩ := (net_readable hsturdy t).of_ok hnet _ rfl
      unfold signedLiquidityNet checkedI128 at hnegated
      split at hnegated
      next =>
        rw [if_pos (by omega)] at hnegated
        cases hnegated
      next => cases hnegated
  | liquidity hdelta => exact ⟨_, rfl⟩
  | past hpast =>
      obtain ⟨hlow, hhigh⟩ := hsturdy.ticks hprice
      unfold tickAfterCrossing checkedI32 at hpast
      split at hpast
      next =>
        rw [if_pos (by omega)] at hpast
        cases hpast
      next => cases hpast

theorem orderly_applyStep (hsturdy : v.Sturdy) (state : SwapState) (t : Int) :
    Orderly (v.applyStep feeRate sqrtPriceLimit zeroForOne currentTimestamp state t) := by
  intro fault hfault
  cases applyStep_fault hfault with
  | price hprice => exact ⟨_, rfl, trivial⟩
  | step hstep => exact ⟨_, rfl, trivial⟩
  | overflow he => exact ⟨_, rfl, trivial⟩
  | exceeds hstep hspent => exact ⟨_, rfl, trivial⟩
  | cross hprice hcross =>
      obtain ⟨e, rfl⟩ := orderly_crossTick hsturdy hprice hcross
      exact ⟨e, rfl, trivial⟩
  | tick htick => exact ⟨_, rfl, trivial⟩

/-! ## A whole simulation -/

/-- Turns that are enough for a swap of any amount in this direction: one for each array of a search, or
    one for each tick of a swap. -/
def quoteTurns (v : ByrealClmmVenue X) (zeroForOne : Bool) : Nat :=
  let start := X.getArrayStartIndex v.poolState.tickCurrent v.spacing
  v.room zeroForOne start + v.ticksLeft zeroForOne start v.poolState.tickCurrent + 2

theorem orderly_simulateSwapSteps (hv : Navigable v zeroForOne) (hspends : StepSpends X)
    (hsturdy : v.Sturdy) (hfuel : v.quoteTurns zeroForOne ≤ fuel) :
    Orderly (v.simulateSwapSteps fuel feeRate amount sqrtPriceLimit zeroForOne currentTimestamp) := by
  unfold quoteTurns at hfuel
  obtain ⟨start, hstart⟩ : ∃ start, X.getArrayStartIndex v.poolState.tickCurrent v.spacing = start :=
    ⟨_, rfl⟩
  rw [hstart] at hfuel
  simp only at hfuel
  unfold simulateSwapSteps
  refine Raises.bind (orderly_initTickNavState hv (by rw [hstart]; omega)) fun nav hnav => ?_
  obtain ⟨hat, honward⟩ := initTickNavState_at hv hnav
  rw [hstart] at honward
  rw [simulateLoop_eq]
  refine Loop.iterate_orderly (I := OnCourse v zeroForOne sqrtPriceLimit start)
    (v.stepsLeft zeroForOne sqrtPriceLimit start) ?_ (fun c c' hon hturn => hon.step hv hspends hturn)
    (fun _ => ⟨hat, honward⟩) ?_
  · intro c hon
    unfold swapTurn
    refine Raises.ite (fun hrun => ?_) fun _ => Raises.ok
    obtain ⟨hat, honward⟩ := hon hrun
    refine (orderly_findNext hv hsturdy hat ?_).bind fun found _ => ?_
    · rcases honward with heq | hfar
      · rw [heq]
        omega
      · have := room_lt (v := v) hfar.further hfar.fromMin hfar.toMax
        omega
    · exact (orderly_applyStep hsturdy _ _).bind fun _ _ => Raises.ok
  · have hle : v.stepsLeft zeroForOne sqrtPriceLimit start (v.initialSwapState amount, nav) ≤
        v.ticksLeft zeroForOne start v.poolState.tickCurrent + 1 := by
      unfold stepsLeft
      split
      next => exact Nat.le_refl _
      next => exact Nat.zero_le _
    omega

/-! ## The fee and the price -/

theorem orderly_loadDynamicPythPrices (hsturdy : v.Sturdy) (hopen : 0 < v.currentUnixTimestamp) :
    Orderly v.loadDynamicPythPrices := by
  have hclock := hsturdy.clock
  -- an hour before a positive time is still a time
  have holdest : Orderly (checkedI64 (v.currentUnixTimestamp - DYNAMIC_MAX_PYTH_AGE_SECONDS) :
      SwapRes Int) := by
    unfold checkedI64 DYNAMIC_MAX_PYTH_AGE_SECONDS
    rw [if_pos (by omega)]
    exact Raises.ok
  unfold loadDynamicPythPrices
  refine (Raises.orErr trivial).bind fun token0Price _ => ?_
  refine (Raises.orErr trivial).bind fun token1Price _ => ?_
  refine (Raises.require trivial).bind fun _ _ => ?_
  refine holdest.bind fun oldestAllowed _ => ?_
  exact (Raises.require trivial).bind fun _ _ => Raises.ok

/-- A dynamic fee is computed from the base fee. -/
theorem dynamicFeeOnTop_eq_ok {base : Nat} (h : v.dynamicFeeOnTop zeroForOne amount base = .ok feeRate) :
    ∃ inputs : DynamicFeeInputs, inputs.feeBase = base ∧
    X.calculateDynamicFeeRate inputs = .ok feeRate := by
  unfold dynamicFeeOnTop at h
  simp only [Except.bind_eq_ok, ofCrate_eq_ok] at h
  obtain ⟨_, -, _, -, _, -, _, -, _, -, _, -, _, -, hrate⟩ := h
  exact ⟨_, rfl, hrate⟩

/-- The fee rate is at most the whole amount. -/
theorem computeTradeFeeRate_le (hfees : FeeLaw v)
    (h : v.computeTradeFeeRate zeroForOne amount currentTimestamp = .ok feeRate) :
    feeRate ≤ X.FEE_RATE_DENOMINATOR_VALUE := by
  obtain ⟨config, hconfig, h⟩ := Except.bind_eq_ok.mp h
  obtain ⟨base, hbase, h⟩ := Except.bind_eq_ok.mp h
  have hle := hfees.base (Res.orErr_eq_ok.mp hconfig) (ofCrate_eq_ok.mp hbase)
  split at h
  next =>
    cases h
    exact hle
  next =>
    obtain ⟨inputs, rfl, hrate⟩ := dynamicFeeOnTop_eq_ok h
    exact hfees.dynamic hle hrate

/-- The oracle's prices, the size of the trade and the imbalance of the vaults are found or refused. -/
theorem orderly_dynamicFeeOnTop (hsturdy : v.Sturdy) (hopen : 0 < v.currentUnixTimestamp) (base : Nat) :
    Orderly (v.dynamicFeeOnTop zeroForOne amount base) := by
  have hquote : ∀ inputIsQuote token1AsQuote p0,
      Orderly (tradeQuoteAmount (X := X) inputIsQuote token1AsQuote amount p0) := by
    intro inputIsQuote token1AsQuote p0
    unfold tradeQuoteAmount
    exact Raises.ite (fun _ => Raises.ok) fun _ => orderly_ofCrate
  unfold dynamicFeeOnTop
  refine (Raises.require trivial).bind fun _ _ => ?_
  refine (orderly_loadDynamicPythPrices hsturdy hopen).bind fun prices _ => ?_
  refine orderly_ofCrate.bind fun pIndex _ => ?_
  refine orderly_ofCrate.bind fun p0 _ => ?_
  refine (hquote _ _ p0).bind fun quoteAmount _ => ?_
  refine orderly_ofCrate.bind fun tradeSize _ => ?_
  refine orderly_ofCrate.bind fun quoteValueOfBase _ => ?_
  exact orderly_ofCrate

/-- The fee rate is found or refused. -/
theorem orderly_computeTradeFeeRate (hsturdy : v.Sturdy) (hopen : 0 < v.currentUnixTimestamp) :
    Orderly (v.computeTradeFeeRate zeroForOne amount currentTimestamp) := by
  unfold computeTradeFeeRate dynamicFeeRate
  refine (Raises.orErr trivial).bind fun ammConfig _ => ?_
  refine orderly_ofCrate.bind fun base _ => ?_
  exact Raises.ite (fun _ => Raises.ok) fun _ => orderly_dynamicFeeOnTop hsturdy hopen base

theorem orderly_orMathError {α : Type} {label : String} {r : SwapRes α} (h : Orderly r) :
    Orderly (orMathError label r) := by
  cases r with
  | ok a => exact Raises.ok
  | error fault =>
      obtain ⟨e, rfl, -⟩ := h fault rfl
      exact Raises.fail trivial

theorem orderly_marginalPrice {sqrtPriceX64 : Nat} (hfee : feeRate ≤ X.FEE_RATE_DENOMINATOR_VALUE) :
    Orderly (marginalPriceFromSwapState X zeroForOne sqrtPriceX64 feeRate) := by
  unfold marginalPriceFromSwapState
  refine orderly_ofCrate.bind fun priceX64 _ => ?_
  refine (Raises.checkedSub hfee).bind fun kept _ => ?_
  exact Raises.ite (fun _ => Raises.ok) fun _ => Raises.ok

/-! ## A quote of the core -/

theorem orderly_computeSwap (hv : Navigable v zeroForOne) (hspends : StepSpends X)
    (hsturdy : v.Sturdy) (hopen : 0 < v.currentUnixTimestamp) (hfuel : v.quoteTurns zeroForOne ≤ fuel)
    {limit : Option Nat} : Orderly (v.computeSwap fuel zeroForOne amount limit currentTimestamp) := by
  have hrun : ∀ sqrtPriceLimit, Orderly (v.runSwap fuel zeroForOne amount sqrtPriceLimit
      currentTimestamp) := by
    intro sqrtPriceLimit
    unfold runSwap
    refine (orderly_computeTradeFeeRate hsturdy hopen).bind fun feeRate _ => ?_
    exact (orderly_simulateSwapSteps hv hspends hsturdy hfuel).bind fun _ _ => Raises.ok
  unfold computeSwap
  refine (hrun _).bind fun run _ => ?_
  exact orderly_checkedSubOr.bind fun _ _ => Raises.ok

theorem orderly_quoteFailure (e : SwapError) : Orderly (quoteFailure e) := by
  unfold quoteFailure
  refine Raises.ite (fun _ => Raises.ok) fun _ => ?_
  exact Raises.ite (fun _ => Raises.fail trivial) fun _ => Raises.fail trivial

theorem orderly_actualCurvePrice (hv : Navigable v zeroForOne) (hspends : StepSpends X)
    (hsturdy : v.Sturdy) (hopen : 0 < v.currentUnixTimestamp) (hfuel : v.quoteTurns zeroForOne ≤ fuel)
    (swap : SwapResult) (price : Float) (upperBound : Option Nat) :
    Orderly (v.actualCurvePrice fuel zeroForOne amount swap price currentTimestamp upperBound) := by
  unfold actualCurvePrice
  refine Raises.ite (fun _ => Raises.ok) fun _ => ?_
  cases v.dynamicFeePriceStep zeroForOne amount with
  | none => exact Raises.ok
  | some step =>
      refine (orderly_computeSwap hv hspends hsturdy hopen hfuel).bind fun previousSwap _ => ?_
      refine Raises.ite (fun _ => Raises.ok) fun _ => ?_
      cases upperBound with
      | none => exact Raises.ok
      | some upperBound =>
          refine Raises.ite (fun _ => Raises.ok) fun _ => ?_
          unfold priceTowardsUpperBound
          refine (orderly_computeSwap hv hspends hsturdy hopen hfuel).bind fun nextSwap _ => ?_
          refine Raises.ite (fun _ => Raises.ok) fun _ => ?_
          refine Raises.ite (fun _ => Raises.ok) fun _ => ?_
          exact Raises.ite (fun _ => Raises.ok) fun _ => Raises.ok

/-- The spot price is found or refused. -/
theorem orderly_quoteZero (hfees : FeeLaw v) (hsturdy : v.Sturdy) (hopen : 0 < v.currentUnixTimestamp) :
    Orderly (v.quoteZero zeroForOne) := by
  unfold quoteZero
  refine (orderly_orMathError (orderly_computeTradeFeeRate hsturdy hopen)).bind fun feeRate hrate => ?_
  have hle := computeTradeFeeRate_le hfees (orMathError_eq_ok.mp hrate)
  exact (orderly_orMathError (orderly_marginalPrice hle)).bind fun _ _ => Raises.ok

theorem orderly_answer (hv : Navigable v zeroForOne) (hspends : StepSpends X) (hfees : FeeLaw v)
    (hsturdy : v.Sturdy) (hopen : 0 < v.currentUnixTimestamp) (hfuel : v.quoteTurns zeroForOne ≤ fuel)
    (upperBound : Option Nat) :
    Orderly (v.answer fuel zeroForOne amount upperBound) := by
  unfold answer
  refine Raises.ite (fun hzero => ?_) fun _ => ?_
  · subst hzero
    exact orderly_quoteZero hfees hsturdy hopen
  · cases hswap : v.computeSwap fuel zeroForOne amount none v.currentUnixTimestamp with
    | ok swap =>
        obtain ⟨feeRate, nav, state, hrate, -, -, -, rfl⟩ := computeSwap_eq_ok.mp hswap
        have hle := computeTradeFeeRate_le hfees hrate
        unfold quoteSwap
        refine (orderly_orMathError (orderly_marginalPrice hle)).bind fun constantFeePrice _ => ?_
        refine Raises.bind ?_ fun price _ => Raises.ok
        exact orderly_orMathError (orderly_actualCurvePrice hv hspends hsturdy hopen hfuel _ _ _)
    | error fault =>
        obtain ⟨e, rfl, -⟩ := orderly_computeSwap hv hspends hsturdy hopen hfuel fault hswap
        exact orderly_quoteFailure e

theorem orderly_validateMints {input output : Pubkey} : Orderly (v.validateMints input output) := by
  unfold validateMints
  refine (Raises.require trivial).bind fun _ _ => ?_
  refine (Raises.require trivial).bind fun _ _ => ?_
  exact (Raises.require trivial).bind fun _ _ => Raises.ok

theorem orderly_ensureOpen : Orderly v.ensureOpen := by
  unfold ensureOpen
  refine (Raises.require trivial).bind fun _ _ => ?_
  refine (Raises.require trivial).bind fun _ _ => ?_
  exact Raises.require trivial

theorem ensureOpen_eq_ok {u : Unit} (h : v.ensureOpen = .ok u) : 0 < v.currentUnixTimestamp := by
  obtain ⟨_, hclock, -⟩ := Except.bind_eq_ok.mp h
  exact Res.require_eq_ok.mp hclock

theorem orderly_ensureDynamicFeeState (hsturdy : v.Sturdy) (hopen : 0 < v.currentUnixTimestamp) :
    Orderly v.ensureDynamicFeeState := by
  unfold ensureDynamicFeeState
  refine Raises.ite (fun _ => (Raises.require trivial).bind fun _ _ => ?_) fun _ => Raises.ok
  cases hprices : v.loadDynamicPythPrices with
  | ok prices => exact Raises.ok
  | error fault =>
      obtain ⟨e, rfl, -⟩ := orderly_loadDynamicPythPrices hsturdy hopen fault hprices
      exact Raises.fail trivial

theorem orderly_ensureQuotable (hsturdy : v.Sturdy) : Orderly v.ensureQuotable := by
  unfold ensureQuotable
  refine orderly_ensureOpen.bind fun _ hopen => ?_
  refine (Raises.require trivial).bind fun _ _ => ?_
  refine (orderly_ensureDynamicFeeState hsturdy (ensureOpen_eq_ok hopen)).bind fun _ _ => ?_
  exact Raises.require trivial

/-- A quote of the core, in whichever direction its mints tell. -/
theorem orderly_quoteWithPriceUpperBound (hv : ∀ zeroForOne, Navigable v zeroForOne)
    (hspends : StepSpends X) (hfees : FeeLaw v) (hsturdy : v.Sturdy)
    (hfuel : ∀ zeroForOne, v.quoteTurns zeroForOne ≤ fuel)
    (request : QuoteRequest) (upperBound : Option Nat) :
    Orderly (v.quoteWithPriceUpperBound fuel request upperBound) := by
  unfold quoteWithPriceUpperBound
  refine orderly_validateMints.bind fun mints _ => ?_
  refine (orderly_ensureQuotable hsturdy).bind fun _ hquotable => ?_
  obtain ⟨_, hopen, -⟩ := Except.bind_eq_ok.mp hquotable
  exact orderly_answer (hv mints.1) hspends hfees hsturdy (ensureOpen_eq_ok hopen)
    (hfuel mints.1) upperBound

theorem quoteWithPriceUpperBound_below {fuel' : Nat} (hle : fuel ≤ fuel') (request : QuoteRequest)
    (upperBound : Option Nat) :
    (v.quoteWithPriceUpperBound fuel request upperBound).Below
      (v.quoteWithPriceUpperBound fuel' request upperBound) := by
  unfold quoteWithPriceUpperBound
  refine (Below.refl _).bind fun mints => (Below.refl _).bind fun _ => ?_
  exact answer_below hle upperBound

end ByrealClmmVenue

end Clmm

/-! ## The Titan venue -/

namespace Adapter.ByrealClmmVenue

open Clmm Clmm.ByrealClmmVenue Res

variable {X : Crates} {v : Adapter.ByrealClmmVenue X} {fuel : Nat}

theorem orderly_quoteForBounds (hv : ∀ zeroForOne, Navigable v.core zeroForOne) (hspends : StepSpends X)
    (hfees : FeeLaw v.core) (hsturdy : v.core.Sturdy)
    (hfuel : ∀ zeroForOne, v.core.quoteTurns zeroForOne ≤ fuel)
    (input output : Pubkey) : Answers (v.quoteForBounds fuel input output) := by
  intro amount
  have horderly : Orderly (v.quoteForBounds fuel input output amount) := by
    unfold quoteForBounds Clmm.ByrealClmmVenue.quote
    exact (orderly_quoteWithPriceUpperBound hv hspends hfees hsturdy hfuel _ _).bind fun _ _ => Raises.ok
  unfold probe
  cases hquote : v.quoteForBounds fuel input output amount with
  | ok quote => exact ⟨_, rfl⟩
  | error fault =>
      obtain ⟨e, rfl, -⟩ := horderly fault hquote
      exact ⟨false, rfl⟩

/-- **Every request is answered.** Over a navigable venue that stays within its words, one
    number of turns is enough for every request of every amount: the quote is an answer or an
    error of the venue, never a panic, and more turns change nothing. The search of the bounds
    then ends as well, with bounds or with `NoQuotableValue`. -/
theorem quoting_total (v : Adapter.ByrealClmmVenue X) (hv : ∀ zeroForOne, Navigable v.core zeroForOne)
    (hspends : StepSpends X) (hfees : FeeLaw v.core) (hsturdy : v.core.Sturdy) :
    ∃ N, ∀ fuel, N ≤ fuel →
      (∀ request, ((∃ quote, v.quote fuel request = .ok quote) ∨
        ∃ e, v.quote fuel request = .error (.err e)) ∧
        v.quote fuel request = v.quote N request) ∧
      ∀ input output, (∃ lo hi, findBoundaries (v.quoteForBounds fuel input output) = .ok (lo, hi)) ∨
        ∃ info, findBoundaries (v.quoteForBounds fuel input output) =
          .error (.err (.noQuotableValue info)) := by
  obtain ⟨N, hN⟩ : ∃ N, max (v.core.quoteTurns true) (v.core.quoteTurns false) = N := ⟨_, rfl⟩
  have hturns : ∀ fuel, N ≤ fuel → ∀ zeroForOne, v.core.quoteTurns zeroForOne ≤ fuel := by
    intro fuel hle zeroForOne
    cases zeroForOne with
    | true => omega
    | false => omega
  have horderly : ∀ fuel, N ≤ fuel → ∀ request, Orderly (v.quote fuel request) := by
    intro fuel hle request
    have hcore := orderly_quoteWithPriceUpperBound hv hspends hfees hsturdy (hturns fuel hle) request
    unfold Adapter.ByrealClmmVenue.quote ensureExactIn
    refine (Raises.require trivial).bind fun _ _ => ?_
    refine (Raises.require trivial).bind fun _ _ => ?_
    exact (hcore _).bind fun _ _ => Raises.ok
  refine ⟨N, fun fuel hle => ⟨fun request => ⟨?_, ?_⟩, fun input output => ?_⟩⟩
  · cases hquote : v.quote fuel request with
    | ok quote => exact Or.inl ⟨quote, rfl⟩
    | error fault =>
        obtain ⟨e, rfl, -⟩ := horderly fuel hle request fault hquote
        exact Or.inr ⟨e, rfl⟩
  · have hbelow : (v.quote N request).Below (v.quote fuel request) := by
      unfold Adapter.ByrealClmmVenue.quote
      exact (Below.refl _).bind fun _ => (Below.refl _).bind fun _ =>
        (quoteWithPriceUpperBound_below hle request _).bind fun _ => Below.refl _
    apply hbelow
    intro hdiverge
    obtain ⟨e, he, -⟩ := horderly N (Nat.le_refl N) request _ hdiverge
    cases he
  · have hanswers := orderly_quoteForBounds hv hspends hfees hsturdy (hturns fuel hle) input output
    rcases findBoundaries_total hanswers with ⟨-, lo, hi, hfound⟩ | ⟨-, info, hnone⟩
    · exact Or.inl ⟨lo, hi, hfound⟩
    · exact Or.inr ⟨info, hnone⟩

/-! ## The sample venue -/

section Sample

/-- A base fee cut at the denominator, and no dynamic fee on top. -/
theorem total_fees {pools : List (List UInt8 × PoolState)}
    (v : Clmm.ByrealClmmVenue (Reference.total (Reference.crates pools))) : FeeLaw v where
  toBaseFeeLaw := Reference.total_baseFee v
  dynamic hle h := by
    cases h
    exact hle

theorem tickSlots_listed {X : Crates} (hsize : X.TICK_ARRAY_SIZE = Reference.tickArraySize)
    (hstart : X.getArrayStartIndex = Reference.getArrayStartIndex)
    (hoffset : X.getTickOffsetInTickArray = Reference.getTickOffsetInTickArray) (start : Int)
    (net : Int → Option Int) :
    DynamicTickArrayState.Listed X 1 (.fixed (Sample.tickSlots X start net)) := by
  intro t i ht hi
  rw [hoffset] at hi
  rw [hsize]
  cases hi
  have hin : Reference.getArrayStartIndex t 1 = start := by
    rw [← hstart]
    exact ht
  unfold Reference.getArrayStartIndex Reference.arrayTicks Reference.tickArraySize at *
  show ((t - start) / ((1 : Nat) : Int)).toNat < 60
  omega

theorem sample_sturdy : (Sample.loadedOf (Reference.total Sample.X) Sample.pool).Sturdy where
  width := by decide
  listed entry hentry := by
    have hcases := List.mem_cons.mp hentry
    rw [List.mem_singleton] at hcases
    rcases hcases with rfl | rfl
    · exact tickSlots_listed rfl rfl rfl 0 _
    · exact tickSlots_listed rfl rfl rfl (-60) _
  nets entry hentry slot hslot := by
    have hcases := List.mem_cons.mp hentry
    rw [List.mem_singleton] at hcases
    rcases hcases with rfl | rfl
    · obtain ⟨i, rfl⟩ := List.mem_ofFn.mp hslot
      show _ < ((if (0 : Int) + i.val = 4 then some (-10000000) else none : Option Int).getD 0) ∧
        ((if (0 : Int) + i.val = 4 then some (-10000000) else none : Option Int).getD 0) ≤ _
      split <;> simp
    · obtain ⟨i, rfl⟩ := List.mem_ofFn.mp hslot
      show _ < ((if (-60 : Int) + i.val = -4 then some 10000000 else none : Option Int).getD 0) ∧
        ((if (-60 : Int) + i.val = -4 then some 10000000 else none : Option Int).getD 0) ≤ _
      split <;> simp
  ticks {t price} h := by
    have hrange : Reference.getSqrtPriceAtTick t = .ok price := h
    unfold Reference.getSqrtPriceAtTick Reference.maxTick at hrange
    split at hrange
    next => cases hrange
    next hin => omega
  clock := by decide

/-- The loaded sample venue, where most amounts are more than the two arrays hold. -/
theorem quoting_total_sample :
    ∃ N, ∀ fuel, N ≤ fuel →
      let v := Sample.venueOver (Sample.loadedOf (Reference.total Sample.X) Sample.pool)
      (∀ request, ((∃ quote, v.quote fuel request = .ok quote) ∨
        ∃ e, v.quote fuel request = .error (.err e)) ∧
        v.quote fuel request = v.quote N request) ∧
      ∀ input output, (∃ lo hi, findBoundaries (v.quoteForBounds fuel input output) = .ok (lo, hi)) ∨
        ∃ info, findBoundaries (v.quoteForBounds fuel input output) =
          .error (.err (.noQuotableValue info)) :=
  quoting_total (Sample.venueOver (Sample.loadedOf (Reference.total Sample.X) Sample.pool))
    (fun zeroForOne => sample_navigable (Reference.standard_total _) zeroForOne (by decide) (by decide))
    (Reference.stepSpends rfl) (total_fees _) sample_sturdy

end Sample

end Adapter.ByrealClmmVenue

end ByrealTitan
