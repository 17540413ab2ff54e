import ByrealTitan.Clmm.Laws
import ByrealTitan.Lib.Loop

/-!
# `Correctness.SwapLoop` — the loops of the simulation, turn by turn

The three loops of the core venue are instances of `Loop.iterate`, so that the library's rules apply:
`scanTurn` is one round over the two bitmaps, `searchTurn` one tick array of the search for the next
initialised tick, and `swapTurn` one step of the swap. A step that succeeds is described once
(`applyStep_eq_ok`): the crate's step, what the books allow, and how the turn is settled. More fuel never
changes a result (`computeSwap_below`).
-/

namespace ByrealTitan.Clmm

namespace ByrealClmmVenue

variable {X : Crates} (v : ByrealClmmVenue X)

/-! ## The loops -/

/-- One round over the pool's bitmap and the extension's. -/
def scanTurn (zeroForOne : Bool) (last : Int) : SwapRes (Loop.Turn Int (Option Int)) :=
  let found := X.nextInitializedTickArrayStartIndex v.poolState.tickArrayBitmap last v.spacing zeroForOne
  if found.1 then .ok (.leave (some found.2))
  else
    match v.bitmapExtension with
    | none => Res.fail .missingBitmapExtension
    | some extension => do
        let found ← ofCrate .crate
          (X.extensionNextInitializedTickArrayFromOneBitmap extension found.2 v.spacing zeroForOne)
        if found.1 then return .leave (some found.2)
        else if found.2 < X.MIN_TICK ∨ X.MAX_TICK < found.2 then return .leave none
        else return .next found.2

theorem scanBitmaps_eq (zeroForOne : Bool) (fuel : Nat) (last : Int) :
    v.scanBitmaps zeroForOne fuel last = Loop.iterate (v.scanTurn zeroForOne) fuel last := by
  induction fuel generalizing last with
  | zero => rfl
  | succ fuel ih =>
      rw [scanBitmaps, Loop.iterate, scanTurn]
      split
      next => rfl
      next =>
        cases v.bitmapExtension with
        | none => rfl
        | some extension =>
            simp only
            cases ofCrate .crate (X.extensionNextInitializedTickArrayFromOneBitmap extension
              (X.nextInitializedTickArrayStartIndex v.poolState.tickArrayBitmap last v.spacing
                zeroForOne).2 v.spacing zeroForOne) with
            | error e => rfl
            | ok found =>
                simp only [Except.ok_bind]
                split
                next => rfl
                next =>
                  split
                  next => rfl
                  next => exact ih found.2

/-- One tick array of the search for the next initialised tick. -/
def searchTurn (scanFuel : Nat) (currentTick : Int) (zeroForOne : Bool) (nav : TickNavState) :
    SwapRes (Loop.Turn TickNavState (Int × TickNavState)) := do
  let start := nav.currentValidTickArrayStartIndex
  let tickArray ← Res.orErr (.missingTickArray start) (v.loadedTickArrayByStartIndex start)
  match ← tickArray.nextInitializedTick currentTick v.spacing zeroForOne with
  | some t => return .leave (t, nav)
  | none =>
      match ← firstTickIfUnmatched nav tickArray zeroForOne with
      | some t => return .leave (t, ⟨true, start⟩)
      | none =>
          let nextArr ← v.nextInitializedTickArrayStartIndex scanFuel start zeroForOne
          let nextStart ← Res.orErr .noFurtherTickArrays nextArr
          let nextTickArray ← Res.orErr (.missingAdvancedTickArray nextStart)
            (v.loadedTickArrayByStartIndex nextStart)
          match ← nextTickArray.firstInitializedTick zeroForOne with
          | some t => return .leave (t, ⟨true, nextStart⟩)
          | none   => return .next ⟨true, nextStart⟩

theorem findNextTick_eq (scanFuel : Nat) (currentTick : Int) (zeroForOne : Bool) (fuel : Nat)
    (nav : TickNavState) :
    v.findNextTick scanFuel currentTick zeroForOne fuel nav =
      Loop.iterate (v.searchTurn scanFuel currentTick zeroForOne) fuel nav := by
  induction fuel generalizing nav with
  | zero => rfl
  | succ fuel ih =>
      rw [findNextTick, Loop.iterate, searchTurn]
      simp only [bind_assoc]
      refine bind_congr fun tickArray => bind_congr fun found => ?_
      cases found with
      | some t => rfl
      | none =>
          simp only [bind_assoc]
          refine bind_congr fun first => ?_
          cases first with
          | some t => rfl
          | none =>
              simp only [bind_assoc]
              refine bind_congr fun nextArr => bind_congr fun nextStart => bind_congr fun nextArray =>
                bind_congr fun found => ?_
              cases found with
              | some t => rfl
              | none => exact ih _

/-- Input is left and the limit is not reached. -/
def Running (sqrtPriceLimit : Nat) (state : SwapState) : Prop :=
  state.amountSpecifiedRemaining ≠ 0 ∧ state.sqrtPriceX64 ≠ sqrtPriceLimit

instance (sqrtPriceLimit : Nat) (state : SwapState) : Decidable (Running sqrtPriceLimit state) :=
  inferInstanceAs (Decidable (_ ∧ _))

/-- One step of the swap, with the navigation it leaves. -/
def swapTurn (searchFuel feeRate sqrtPriceLimit : Nat) (zeroForOne : Bool) (currentTimestamp : Int)
    (c : SwapState × TickNavState) : SwapRes (Loop.Turn (SwapState × TickNavState) SwapState) :=
  if Running sqrtPriceLimit c.1 then do
    let (nextTick, nav) ← v.findNextInitializedTickWithNav searchFuel c.1.tick zeroForOne c.2
    let state ← v.applyStep feeRate sqrtPriceLimit zeroForOne currentTimestamp c.1 nextTick
    return .next (state, nav)
  else .ok (.leave c.1)

variable {searchFuel feeRate sqrtPriceLimit fuel : Nat} {zeroForOne : Bool} {currentTimestamp : Int}

theorem simulateLoop_eq (state : SwapState) (nav : TickNavState) :
    v.simulateLoop searchFuel feeRate sqrtPriceLimit zeroForOne currentTimestamp fuel state nav =
      Loop.iterate (v.swapTurn searchFuel feeRate sqrtPriceLimit zeroForOne currentTimestamp) fuel
        (state, nav) := by
  induction fuel generalizing state nav with
  | zero => rfl
  | succ fuel ih =>
      rw [simulateLoop, Loop.iterate, swapTurn]
      by_cases hrun : state.amountSpecifiedRemaining ≠ 0 ∧ state.sqrtPriceX64 ≠ sqrtPriceLimit
      · rw [if_pos hrun, if_pos (show Running sqrtPriceLimit state from hrun)]
        simp only [bind_assoc]
        exact bind_congr fun found => bind_congr fun state' => ih state' found.2
      · rw [if_neg hrun, if_neg (show ¬ Running sqrtPriceLimit state from hrun)]
        rfl

/-! ## One step of the swap -/

/-- The next configuration: the step from the next initialised tick, and the navigation that found it. -/
theorem swapTurn_next {v : ByrealClmmVenue X} {c c' : SwapState × TickNavState} :
    v.swapTurn searchFuel feeRate sqrtPriceLimit zeroForOne currentTimestamp c = .ok (.next c') ↔
      Running sqrtPriceLimit c.1 ∧ ∃ nextTick : Int,
        v.findNextInitializedTickWithNav searchFuel c.1.tick zeroForOne c.2 = .ok (nextTick, c'.2) ∧
        v.applyStep feeRate sqrtPriceLimit zeroForOne currentTimestamp c.1 nextTick = .ok c'.1 := by
  unfold swapTurn
  constructor
  · intro h
    split at h
    next hrun =>
      obtain ⟨⟨nextTick, nav⟩, hfind, h⟩ := Except.bind_eq_ok.mp h
      obtain ⟨state, happly, h⟩ := Except.bind_eq_ok.mp h
      cases h
      exact ⟨hrun, nextTick, hfind, happly⟩
    next => cases h
  · rintro ⟨hrun, nextTick, hfind, happly⟩
    rw [if_pos hrun, hfind, Except.ok_bind]
    simp only [happly]
    rfl

theorem swapTurn_leave {v : ByrealClmmVenue X} {c : SwapState × TickNavState} {state : SwapState} :
    v.swapTurn searchFuel feeRate sqrtPriceLimit zeroForOne currentTimestamp c = .ok (.leave state) ↔
      ¬ Running sqrtPriceLimit c.1 ∧ state = c.1 := by
  unfold swapTurn
  constructor
  · intro h
    split at h
    next =>
      obtain ⟨_, -, h⟩ := Except.bind_eq_ok.mp h
      obtain ⟨_, -, h⟩ := Except.bind_eq_ok.mp h
      cases h
    next hrun =>
      cases h
      exact ⟨hrun, rfl⟩
  · rintro ⟨hrun, rfl⟩
    rw [if_neg hrun]

theorem swapTurn_error {v : ByrealClmmVenue X} {c : SwapState × TickNavState} {e : Fault SwapError} :
    v.swapTurn searchFuel feeRate sqrtPriceLimit zeroForOne currentTimestamp c = .error e ↔
      Running sqrtPriceLimit c.1 ∧
        (v.findNextInitializedTickWithNav searchFuel c.1.tick zeroForOne c.2 = .error e ∨
          ∃ found, v.findNextInitializedTickWithNav searchFuel c.1.tick zeroForOne c.2 = .ok found ∧
            v.applyStep feeRate sqrtPriceLimit zeroForOne currentTimestamp c.1 found.1 = .error e) := by
  unfold swapTurn
  constructor
  · intro h
    split at h
    next hrun =>
      rcases Except.bind_eq_error.mp h with hfind | ⟨found, hfind, h⟩
      · exact ⟨hrun, Or.inl hfind⟩
      · rcases Except.bind_eq_error.mp h with happly | ⟨_, -, h⟩
        · exact ⟨hrun, Or.inr ⟨found, hfind, happly⟩⟩
        · cases h
    next => cases h
  · rintro ⟨hrun, hfind | ⟨found, hfind, happly⟩⟩
    · rw [if_pos hrun, hfind]
      rfl
    · rw [if_pos hrun, hfind, Except.ok_bind]
      simp only [happly]
      rfl

/-- The state with a step's amounts booked. -/
def book (state : SwapState) (step : SwapStep) : SwapState :=
  { state with
    sqrtPriceX64 := step.sqrtPriceNextX64
    feeAmount := state.feeAmount + step.feeAmount
    amountSpecifiedRemaining := state.amountSpecifiedRemaining - step.spent
    amountCalculated := state.amountCalculated + step.amountOut }

/-- The sums a step adds to fit their words, and the remaining input covers it. -/
structure Bookable (state : SwapState) (step : SwapStep) : Prop where
  fee : state.feeAmount + step.feeAmount < 2 ^ 64
  spent : step.spent < 2 ^ 64
  covered : step.spent ≤ state.amountSpecifiedRemaining
  output : state.amountCalculated + step.amountOut < 2 ^ 64

/-- The end of a turn: the tick is crossed where its price is reached, and looked up otherwise. -/
def settle (zeroForOne : Bool) (nextTick : Int) (sqrtPriceNext : Nat) (state : SwapState) :
    SwapRes SwapState :=
  if state.sqrtPriceX64 = sqrtPriceNext then v.crossTick zeroForOne nextTick state
  else do
    let tick ← ofCrate .tickAtSqrtPrice (X.getTickAtSqrtPrice state.sqrtPriceX64)
    return { state with tick }

theorem targetPrice_cases (zeroForOne : Bool) (sqrtPriceNext sqrtPriceLimit : Nat) :
    targetPrice zeroForOne sqrtPriceNext sqrtPriceLimit = sqrtPriceLimit ∨
      targetPrice zeroForOne sqrtPriceNext sqrtPriceLimit = sqrtPriceNext := by
  unfold targetPrice
  split
  · exact Or.inl rfl
  · exact Or.inr rfl

/-- The crate's step towards the next tick or the limit. -/
def stepTowards (X : Crates) (feeRate sqrtPriceLimit : Nat) (zeroForOne : Bool) (currentTimestamp : Int)
    (state : SwapState) (sqrtPriceNext : Nat) : Except String SwapStep :=
  X.computeSwapStep state.sqrtPriceX64 (targetPrice zeroForOne sqrtPriceNext sqrtPriceLimit)
    state.liquidity state.amountSpecifiedRemaining feeRate true zeroForOne
    (currentTimestamp % 2 ^ 32).toNat

/-- **A step that succeeds**: the crate's step is booked, and the turn settled. -/
theorem applyStep_eq_ok {v : ByrealClmmVenue X} {state state' : SwapState} {nextTick : Int} :
    v.applyStep feeRate sqrtPriceLimit zeroForOne currentTimestamp state nextTick = .ok state' ↔
      ∃ sqrtPriceNext step, X.getSqrtPriceAtTick nextTick = .ok sqrtPriceNext ∧
        stepTowards X feeRate sqrtPriceLimit zeroForOne currentTimestamp state sqrtPriceNext = .ok step ∧
        Bookable state step ∧ v.settle zeroForOne nextTick sqrtPriceNext (book state step) =
          .ok state' := by
  unfold applyStep
  simp only [Except.bind_eq_ok, ofCrate_eq_ok, checkedAddOr_eq_ok, checkedSubOr_eq_ok]
  constructor
  · rintro ⟨sqrtPriceNext, hnext, step, hstep, _, ⟨hfee, rfl⟩, _, ⟨hspent, rfl⟩, _, ⟨hcovered, rfl⟩, _,
      ⟨hout, rfl⟩, hsettle⟩
    exact ⟨sqrtPriceNext, step, hnext, hstep, ⟨hfee, hspent, hcovered, hout⟩, hsettle⟩
  · rintro ⟨sqrtPriceNext, step, hnext, hstep, ⟨hfee, hspent, hcovered, hout⟩, hsettle⟩
    exact ⟨sqrtPriceNext, hnext, step, hstep, _, ⟨hfee, rfl⟩, _, ⟨hspent, rfl⟩, _, ⟨hcovered, rfl⟩, _,
      ⟨hout, rfl⟩, hsettle⟩

/-! ## Settling a turn -/

/-- A crossing books the net liquidity and moves past the tick. -/
theorem crossTick_eq_ok {v : ByrealClmmVenue X} {state state' : SwapState} {nextTick : Int} :
    v.crossTick zeroForOne nextTick state = .ok state' ↔
      ∃ net delta liquidity tick, v.getTickLiquidityNet nextTick = .ok (some net) ∧
        signedLiquidityNet zeroForOne net = .ok delta ∧ X.addDelta state.liquidity delta = .ok liquidity ∧
        tickAfterCrossing zeroForOne nextTick = .ok tick ∧ { state with liquidity, tick } = state' := by
  unfold crossTick
  simp only [Except.bind_eq_ok, ofCrate_eq_ok, Res.orErr_eq_ok, Except.pure_eq_ok]
  constructor
  · rintro ⟨_, hnet, net, rfl, delta, hdelta, liquidity, hliq, tick, htick, h⟩
    exact ⟨net, delta, liquidity, tick, hnet, hdelta, hliq, htick, h⟩
  · rintro ⟨net, delta, liquidity, tick, hnet, hdelta, hliq, htick, h⟩
    exact ⟨_, hnet, net, rfl, delta, hdelta, liquidity, hliq, tick, htick, h⟩

/-- Settling changes the tick and the liquidity only. -/
theorem settle_frame {v : ByrealClmmVenue X} {state state' : SwapState} {nextTick : Int}
    {sqrtPriceNext : Nat} (h : v.settle zeroForOne nextTick sqrtPriceNext state = .ok state') :
    ∃ tick liquidity, state' = { state with tick, liquidity } := by
  unfold settle at h
  split at h
  next =>
    obtain ⟨-, -, liquidity, tick, -, -, -, -, rfl⟩ := crossTick_eq_ok.mp h
    exact ⟨tick, liquidity, rfl⟩
  next =>
    obtain ⟨tick, -, h⟩ := Except.bind_eq_ok.mp h
    cases h
    exact ⟨tick, state.liquidity, rfl⟩

/-- How a turn is settled depends on the price and the liquidity only. -/
theorem settle_at {v : ByrealClmmVenue X} {state state' other : SwapState} {nextTick : Int}
    {sqrtPriceNext : Nat} (hprice : other.sqrtPriceX64 = state.sqrtPriceX64)
    (hliquidity : other.liquidity = state.liquidity)
    (h : v.settle zeroForOne nextTick sqrtPriceNext state = .ok state') :
    v.settle zeroForOne nextTick sqrtPriceNext other =
      .ok { other with tick := state'.tick, liquidity := state'.liquidity } := by
  unfold settle at h ⊢
  rw [hprice]
  split at h
  next hreach =>
    rw [if_pos hreach]
    obtain ⟨net, delta, liquidity, tick, hnet, hdelta, hliq, htick, rfl⟩ := crossTick_eq_ok.mp h
    rw [← hliquidity] at hliq
    refine crossTick_eq_ok.mpr ⟨net, delta, liquidity, tick, hnet, hdelta, hliq, htick, ?_⟩
    rw [hprice]
  next hreach =>
    rw [if_neg hreach]
    obtain ⟨tick, htick, h⟩ := Except.bind_eq_ok.mp h
    cases h
    refine Except.bind_eq_ok.mpr ⟨tick, htick, ?_⟩
    rw [← hprice, ← hliquidity]
    rfl

/-- So it does not depend on the remaining input. -/
theorem settle_remaining {v : ByrealClmmVenue X} {state state' : SwapState} {nextTick : Int}
    {sqrtPriceNext : Nat} (h : v.settle zeroForOne nextTick sqrtPriceNext state = .ok state') (r : Nat) :
    v.settle zeroForOne nextTick sqrtPriceNext { state with amountSpecifiedRemaining := r } =
      .ok { state' with amountSpecifiedRemaining := r } := by
  obtain ⟨tick, liquidity, rfl⟩ := settle_frame h
  apply settle_at ?_ ?_ h
  · rfl
  · rfl

/-! ## A whole swap -/

/-- **A swap that succeeds** ran its loop from the pool's state to one that no longer runs. -/
theorem computeSwap_eq_ok {v : ByrealClmmVenue X} {amountSpecified : Nat} {limit : Option Nat}
    {swap : SwapResult} :
    v.computeSwap fuel zeroForOne amountSpecified limit currentTimestamp = .ok swap ↔
      ∃ feeRate nav state, v.computeTradeFeeRate zeroForOne amountSpecified currentTimestamp =
        .ok feeRate ∧
        v.initTickNavState fuel zeroForOne = .ok nav ∧
        v.simulateLoop fuel feeRate (limit.getD (defaultPriceLimit X zeroForOne)) zeroForOne
          currentTimestamp fuel (v.initialSwapState amountSpecified) nav = .ok state ∧
        state.amountSpecifiedRemaining ≤ amountSpecified ∧
        swap = { amountIn := amountSpecified - state.amountSpecifiedRemaining
                 amountOut := state.amountCalculated
                 sqrtPriceX64 := state.sqrtPriceX64
                 feeRate } := by
  unfold computeSwap runSwap simulateSwapSteps
  simp only [Except.bind_eq_ok, checkedSubOr_eq_ok, Except.pure_eq_ok]
  constructor
  · rintro ⟨_, ⟨feeRate, hfee, state, ⟨nav, hnav, hloop⟩, rfl⟩, _, ⟨hle, rfl⟩, h⟩
    exact ⟨feeRate, nav, state, hfee, hnav, hloop, hle, h.symm⟩
  · rintro ⟨feeRate, nav, state, hfee, hnav, hloop, hle, rfl⟩
    exact ⟨_, ⟨feeRate, hfee, state, ⟨nav, hnav, hloop⟩, rfl⟩, _, ⟨hle, rfl⟩, rfl⟩

/-- **A swap that fails** failed on its fee, before the loop, in it, or on what it left. -/
theorem computeSwap_eq_error {v : ByrealClmmVenue X} {amountSpecified : Nat} {limit : Option Nat}
    {e : Fault SwapError}
    (h : v.computeSwap fuel zeroForOne amountSpecified limit currentTimestamp = .error e) :
    v.computeTradeFeeRate zeroForOne amountSpecified currentTimestamp = .error e ∨
      ∃ feeRate, v.computeTradeFeeRate zeroForOne amountSpecified currentTimestamp = .ok feeRate ∧
        (v.initTickNavState fuel zeroForOne = .error e ∨
          ∃ nav, v.initTickNavState fuel zeroForOne = .ok nav ∧
            (v.simulateLoop fuel feeRate (limit.getD (defaultPriceLimit X zeroForOne)) zeroForOne
                currentTimestamp fuel (v.initialSwapState amountSpecified) nav = .error e ∨
              e = .err .rawInputUnderflow)) := by
  unfold computeSwap runSwap simulateSwapSteps at h
  simp only [Except.bind_eq_error, Except.bind_eq_ok] at h
  rcases h with (hfee | ⟨feeRate, hfee, ((hnav | ⟨nav, hnav, hloop⟩) | ⟨_, -, hend⟩)⟩) |
    ⟨_, ⟨feeRate, hfee, _, ⟨nav, hnav, -⟩, -⟩, hsub | ⟨_, -, hend⟩⟩
  · exact Or.inl hfee
  · exact Or.inr ⟨feeRate, hfee, Or.inl hnav⟩
  · exact Or.inr ⟨feeRate, hfee, Or.inr ⟨nav, hnav, Or.inl hloop⟩⟩
  · cases hend
  · unfold checkedSubOr at hsub
    split at hsub
    · cases hsub
    · exact Or.inr ⟨feeRate, hfee, Or.inr ⟨nav, hnav, Or.inr (Except.error.inj hsub).symm⟩⟩
  · cases hend

/-! ## More fuel -/

variable {fuel' : Nat}

theorem scanBitmaps_below (hle : fuel ≤ fuel') (last : Int) :
    (v.scanBitmaps zeroForOne fuel last).Below (v.scanBitmaps zeroForOne fuel' last) := by
  rw [scanBitmaps_eq, scanBitmaps_eq]
  exact Loop.iterate_below (fun _ => Res.Below.refl _) hle

theorem findNextTick_below (hle : fuel ≤ fuel') (currentTick : Int) (nav : TickNavState) :
    (v.findNextInitializedTickWithNav fuel currentTick zeroForOne nav).Below
      (v.findNextInitializedTickWithNav fuel' currentTick zeroForOne nav) := by
  unfold findNextInitializedTickWithNav
  rw [findNextTick_eq, findNextTick_eq]
  refine Loop.iterate_below (fun nav => ?_) hle
  unfold searchTurn
  refine (Res.Below.refl _).bind fun tickArray => (Res.Below.refl _).bind fun found => ?_
  cases found with
  | some t => exact Res.Below.refl _
  | none =>
      refine (Res.Below.refl _).bind fun first => ?_
      cases first with
      | some t => exact Res.Below.refl _
      | none => exact (v.scanBitmaps_below hle _).bind fun _ => Res.Below.refl _

theorem firstInitializedTickArray_below (hle : fuel ≤ fuel') :
    (v.firstInitializedTickArray fuel zeroForOne).Below
    (v.firstInitializedTickArray fuel' zeroForOne) := by
  unfold firstInitializedTickArray
  refine (Res.Below.refl _).bind fun current => ?_
  simp only
  split
  · exact Res.Below.refl _
  · exact (v.scanBitmaps_below hle _).bind fun _ => Res.Below.refl _

theorem initTickNavState_below (hle : fuel ≤ fuel') :
    (v.initTickNavState fuel zeroForOne).Below (v.initTickNavState fuel' zeroForOne) :=
  (v.firstInitializedTickArray_below hle).bind fun _ => Res.Below.refl _

theorem swapTurn_below (hle : fuel ≤ fuel') (c : SwapState × TickNavState) :
    (v.swapTurn fuel feeRate sqrtPriceLimit zeroForOne currentTimestamp c).Below
      (v.swapTurn fuel' feeRate sqrtPriceLimit zeroForOne currentTimestamp c) := by
  unfold swapTurn
  split
  · exact (v.findNextTick_below hle _ _).bind fun _ => Res.Below.refl _
  · exact Res.Below.refl _

theorem simulateLoop_below (hle : fuel ≤ fuel') (state : SwapState) (nav : TickNavState) :
    (v.simulateLoop fuel feeRate sqrtPriceLimit zeroForOne currentTimestamp fuel state nav).Below
      (v.simulateLoop fuel' feeRate sqrtPriceLimit zeroForOne currentTimestamp fuel' state nav) := by
  rw [simulateLoop_eq, simulateLoop_eq]
  exact Loop.iterate_below (v.swapTurn_below hle) hle

theorem simulateSwapSteps_below (hle : fuel ≤ fuel') (feeRate amountSpecified sqrtPriceLimit : Nat)
    (zeroForOne : Bool) (currentTimestamp : Int) :
    (v.simulateSwapSteps fuel feeRate amountSpecified sqrtPriceLimit zeroForOne currentTimestamp).Below
      (v.simulateSwapSteps fuel' feeRate amountSpecified sqrtPriceLimit zeroForOne currentTimestamp) := by
  unfold simulateSwapSteps
  exact (v.initTickNavState_below hle).bind fun nav => v.simulateLoop_below hle _ nav

theorem computeSwap_below (hle : fuel ≤ fuel') (zeroForOne : Bool) (amountSpecified : Nat)
    (limit : Option Nat) (currentTimestamp : Int) :
    (v.computeSwap fuel zeroForOne amountSpecified limit currentTimestamp).Below
      (v.computeSwap fuel' zeroForOne amountSpecified limit currentTimestamp) := by
  unfold computeSwap runSwap
  refine Res.Below.bind ((Res.Below.refl _).bind fun finalFee => ?_) fun _ => Res.Below.refl _
  exact (v.simulateSwapSteps_below hle _ _ _ _ _).bind fun _ => Res.Below.refl _

end ByrealClmmVenue

end ByrealTitan.Clmm
