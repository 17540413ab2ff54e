import ByrealTitan.Correctness.SwapLoop

/-!
# `Correctness.Faults` — which faults the parts of a simulation raise

How each part of a simulation fails is said once: a turn of the search (`searchTurn_fault`), a crossing
(`crossTick_fault`) and a step (`applyStep_fault`). Of the faults there are, two are `Rare`: running out
of turns, which only the loops raise, and a step that exceeds the remaining input, which only the books
of a step do.
-/

namespace ByrealTitan.Clmm

variable {X : Crates} {ε : Type} {fault : Fault ε}

/-! ## Tick arrays -/

theorem avoids_checkedI32 (h : fault ≠ .panic) {x : Int} : (checkedI32 x : Res ε Int).Avoids fault := by
  unfold checkedI32
  split
  · exact Res.avoids_ok
  · exact Res.avoids_panic h

theorem avoids_checkedI128 (h : fault ≠ .panic) {x : Int} : (checkedI128 x : Res ε Int).Avoids fault := by
  unfold checkedI128
  split
  · exact Res.avoids_ok
  · exact Res.avoids_panic h

namespace FixedTickArraySnapshot

variable (ta : FixedTickArraySnapshot X)

theorem avoids_slot (h : fault ≠ .panic) (i : Nat) : (ta.slot i : Res ε TickState).Avoids fault := by
  unfold slot
  split
  · exact Res.avoids_ok
  · exact Res.avoids_panic h

theorem avoids_scan (h : fault ≠ .panic) (step : Int) (count : Nat) (offset : Int) :
    (ta.scan step count offset : Res ε _).Avoids fault := by
  induction count generalizing offset with
  | zero => exact Res.avoids_ok
  | succ count ih =>
      rw [scan]
      refine Res.Avoids.bind ?_ fun tick _ => ?_
      · unfold tickAt
        split
        · exact ta.avoids_slot h _
        · exact Res.avoids_panic h
      · split
        · exact Res.avoids_ok
        · exact ih _

theorem avoids_nextInitializedTick (h : fault ≠ .panic) (current : Int) (spacing : Nat)
    (zeroForOne : Bool) :
    (ta.nextInitializedTick current spacing zeroForOne : Res ε _).Avoids fault := by
  unfold nextInitializedTick
  split
  · exact Res.avoids_ok
  · refine Res.Avoids.bind ?_ fun offset _ => ?_
    · unfold slotOffset
      refine (avoids_checkedI32 h).bind fun distance _ => ?_
      split
      · exact Res.avoids_panic h
      · exact Res.avoids_ok
    · split
      · exact ta.avoids_scan h _ _ _
      · exact ta.avoids_scan h _ _ _

theorem avoids_getTickLiquidityNet (h : fault ≠ .panic) (t : Int) (spacing : Nat) :
    (ta.getTickLiquidityNet t spacing : Res ε _).Avoids fault := by
  unfold getTickLiquidityNet
  split
  · exact Res.avoids_ok
  · exact (ta.avoids_slot h _).bind fun _ _ => Res.avoids_ok

end FixedTickArraySnapshot

namespace DynamicTickArrayState

variable (array : DynamicTickArrayState X)

theorem avoids_nextInitializedTick (h : fault ≠ .panic) (current : Int) (spacing : Nat)
    (zeroForOne : Bool) :
    (array.nextInitializedTick current spacing zeroForOne : Res ε _).Avoids fault := by
  cases array with
  | dynamic header ticks =>
      rw [nextInitializedTick]
      split
      · exact (Res.avoids_orPanic h).bind fun _ _ => Res.avoids_ok
      · exact Res.avoids_ok
  | fixed ta => exact ta.avoids_nextInitializedTick h current spacing zeroForOne

theorem avoids_firstInitializedTick (h : fault ≠ .panic) (zeroForOne : Bool) :
    (array.firstInitializedTick zeroForOne : Res ε _).Avoids fault := by
  cases array with
  | dynamic header ticks =>
      rw [firstInitializedTick]
      split
      · exact (Res.avoids_orPanic h).bind fun _ _ => Res.avoids_ok
      · exact Res.avoids_ok
  | fixed ta =>
      rw [firstInitializedTick]
      unfold FixedTickArraySnapshot.firstInitializedTick
      split
      · exact ta.avoids_scan h _ _ _
      · exact ta.avoids_scan h _ _ _

theorem avoids_getTickLiquidityNet (h : fault ≠ .panic) (t : Int) (spacing : Nat) :
    (array.getTickLiquidityNet t spacing : Res ε _).Avoids fault := by
  cases array with
  | dynamic header ticks =>
      rw [getTickLiquidityNet]
      split
      · exact (Res.avoids_orPanic h).bind fun _ _ => Res.avoids_ok
      · exact Res.avoids_ok
  | fixed ta => exact ta.avoids_getTickLiquidityNet h t spacing

end DynamicTickArrayState

/-! ## The simulation -/

/-- The faults of the loops and of the books. -/
inductive Rare : Fault SwapError → Prop where
  | diverge : Rare .diverge
  | exceeds : Rare (.err .stepExceedsRemaining)

variable {fault : Fault SwapError}

theorem Rare.ne_panic (h : Rare fault) : fault ≠ .panic := by
  rintro rfl
  cases h

/-- The computation raises errors only, and not the one of the books. -/
abbrev Common {α : Type} (x : SwapRes α) : Prop := x.Raises (· ≠ .stepExceedsRemaining)

theorem Common.avoids {α : Type} {x : SwapRes α} (hx : Common x) (h : Rare fault) : x.Avoids fault := by
  intro heq
  obtain ⟨e, rfl, he⟩ := hx fault heq
  cases h
  exact he rfl

theorem common_ofCrate {α : Type} {r : Except String α} : Common (ofCrate .crate r) := by
  intro fault h
  obtain ⟨e, -, rfl⟩ := ofCrate_eq_error h
  exact ⟨_, rfl, by simp⟩

namespace ByrealClmmVenue

variable {v : ByrealClmmVenue X} {fuel scanFuel feeRate sqrtPriceLimit : Nat} {zeroForOne : Bool}
  {currentTimestamp : Int}

theorem common_scanTurn (last : Int) : Common (v.scanTurn zeroForOne last) := by
  unfold scanTurn
  refine Res.Raises.ite (fun _ => Res.Raises.ok) fun _ => ?_
  cases v.bitmapExtension with
  | none => exact Res.Raises.fail (by simp)
  | some extension =>
      refine common_ofCrate.bind fun found _ => ?_
      refine Res.Raises.ite (fun _ => Res.Raises.ok) fun _ => ?_
      exact Res.Raises.ite (fun _ => Res.Raises.ok) fun _ => Res.Raises.ok

theorem common_currentTickArrayIsInitialized : Common v.currentTickArrayIsInitialized := by
  unfold currentTickArrayIsInitialized
  refine Res.Raises.ite (fun _ => ?_) fun _ => common_ofCrate
  exact (Res.Raises.orErr (by simp)).bind fun _ _ => common_ofCrate

/-- **The start of a swap** fails like its scan, or commonly. -/
theorem initTickNavState_fault (h : v.initTickNavState fuel zeroForOne = .error fault) :
    (∃ e, fault = .err e ∧ e ≠ .stepExceedsRemaining) ∨
      v.nextInitializedTickArrayStartIndex fuel (X.getArrayStartIndex v.poolState.tickCurrent v.spacing)
        zeroForOne = .error fault := by
  unfold initTickNavState firstInitializedTickArray at h
  rcases Except.bind_eq_error.mp h with h | ⟨_, -, h⟩
  · rcases Except.bind_eq_error.mp h with h | ⟨⟨isInitialized, start⟩, -, h⟩
    · exact Or.inl (common_currentTickArrayIsInitialized fault h)
    · cases isInitialized with
      | true => cases h
      | false =>
        rcases Except.bind_eq_error.mp h with h | ⟨found, -, h⟩
        · exact Or.inr h
        · rcases Except.bind_eq_error.mp h with h | ⟨start, -, h⟩
          · obtain ⟨-, rfl⟩ := Res.orErr_eq_error h
            exact Or.inl ⟨_, rfl, by simp⟩
          · cases h
  · cases h

theorem avoids_initTickNavState (h : Rare fault)
    (hscan : (v.nextInitializedTickArrayStartIndex fuel
      (X.getArrayStartIndex v.poolState.tickCurrent v.spacing) zeroForOne).Avoids fault) :
    (v.initTickNavState fuel zeroForOne).Avoids fault := by
  intro heq
  rcases initTickNavState_fault heq with ⟨e, rfl, he⟩ | hfault
  · cases h
    exact he rfl
  · exact hscan hfault

/-- How a turn of the search fails: on an array that is missing, on the slots of one that is loaded, or
    with its scan of the bitmaps. -/
inductive SearchFault (v : ByrealClmmVenue X) (scanFuel : Nat) (current : Int) (zeroForOne : Bool)
    (nav : TickNavState) : Fault SwapError → Prop where
  | missing (start : Int) : SearchFault v scanFuel current zeroForOne nav (.err (.missingTickArray start))
  | advanced (start : Int) :
      SearchFault v scanFuel current zeroForOne nav (.err (.missingAdvancedTickArray start))
  | noFurther : SearchFault v scanFuel current zeroForOne nav (.err .noFurtherTickArrays)
  | next {start : Int} {array : DynamicTickArrayState X} {fault : Fault SwapError}
      (hloaded : v.loadedTickArrayByStartIndex start = some array)
      (hnext : array.nextInitializedTick current v.spacing zeroForOne = .error fault) :
      SearchFault v scanFuel current zeroForOne nav fault
  | first {start : Int} {array : DynamicTickArrayState X} {fault : Fault SwapError}
      (hloaded : v.loadedTickArrayByStartIndex start = some array)
      (hfirst : array.firstInitializedTick zeroForOne = .error fault) :
      SearchFault v scanFuel current zeroForOne nav fault
  | scan {fault : Fault SwapError}
      (hscan : v.nextInitializedTickArrayStartIndex scanFuel nav.currentValidTickArrayStartIndex
        zeroForOne = .error fault) :
      SearchFault v scanFuel current zeroForOne nav fault

theorem searchTurn_fault {current : Int} {nav : TickNavState}
    (h : v.searchTurn scanFuel current zeroForOne nav = .error fault) :
    SearchFault v scanFuel current zeroForOne nav fault := by
  unfold searchTurn at h
  rcases Except.bind_eq_error.mp h with h | ⟨array, harray, h⟩
  · obtain ⟨-, rfl⟩ := Res.orErr_eq_error h
    exact .missing _
  have hloaded := Res.orErr_eq_ok.mp harray
  rcases Except.bind_eq_error.mp h with h | ⟨found, -, h⟩
  · exact .next hloaded h
  cases found with
  | some t => cases h
  | none =>
      rcases Except.bind_eq_error.mp h with h | ⟨found, -, h⟩
      · unfold firstTickIfUnmatched at h
        split at h
        next => cases h
        next => exact .first hloaded h
      cases found with
      | some t => cases h
      | none =>
          rcases Except.bind_eq_error.mp h with h | ⟨nextArr, -, h⟩
          · exact .scan h
          rcases Except.bind_eq_error.mp h with h | ⟨nextStart, -, h⟩
          · obtain ⟨-, rfl⟩ := Res.orErr_eq_error h
            exact .noFurther
          rcases Except.bind_eq_error.mp h with h | ⟨array', harray', h⟩
          · obtain ⟨-, rfl⟩ := Res.orErr_eq_error h
            exact .advanced _
          rcases Except.bind_eq_error.mp h with h | ⟨found, -, h⟩
          · exact .first (Res.orErr_eq_ok.mp harray') h
          cases found with
          | some t => cases h
          | none => cases h

/-- A turn of the search raises a rare fault only from its scan. -/
theorem avoids_searchTurn (h : Rare fault) {current : Int} {nav : TickNavState}
    (hscan : (v.nextInitializedTickArrayStartIndex scanFuel nav.currentValidTickArrayStartIndex
      zeroForOne).Avoids fault) : (v.searchTurn scanFuel current zeroForOne nav).Avoids fault := by
  intro heq
  cases searchTurn_fault heq with
  | missing start => cases h
  | advanced start => cases h
  | noFurther => cases h
  | next _ hnext => exact DynamicTickArrayState.avoids_nextInitializedTick _ h.ne_panic _ _ _ hnext
  | first _ hfirst => exact DynamicTickArrayState.avoids_firstInitializedTick _ h.ne_panic _ hfirst
  | scan hfault => exact hscan hfault

/-! ## A step -/

/-- The net liquidity of a tick fails to be read by a panic only. -/
theorem getTickLiquidityNet_fault {t : Int} (h : v.getTickLiquidityNet t = .error fault) :
    fault = .panic := by
  by_contra hne
  unfold getTickLiquidityNet at h
  split at h
  next => cases h
  next array _ => exact array.avoids_getTickLiquidityNet hne _ _ h

/-- How a crossing fails. -/
inductive CrossFault (v : ByrealClmmVenue X) (zeroForOne : Bool) (t : Int) : Fault SwapError → Prop where
  | slot (hslot : v.getTickLiquidityNet t = .error .panic) : CrossFault v zeroForOne t .panic
  | missing : CrossFault v zeroForOne t (.err (.missingTick t))
  | negated {net : Int} (hnet : v.getTickLiquidityNet t = .ok (some net))
      (hnegated : signedLiquidityNet zeroForOne net = .error .panic) : CrossFault v zeroForOne t .panic
  | liquidity {liquidity : Nat} {delta : Int} {e : String} (hdelta : X.addDelta liquidity delta =
      .error e) :
      CrossFault v zeroForOne t (.err (.adjustLiquidity t e))
  | past (hpast : tickAfterCrossing zeroForOne t = .error .panic) : CrossFault v zeroForOne t .panic

/-- A subtraction of ticks and a negation fail by a panic only. -/
theorem signedLiquidityNet_fault {net : Int} (h : signedLiquidityNet zeroForOne net = .error fault) :
    fault = .panic := by
  by_contra hne
  unfold signedLiquidityNet at h
  split at h
  next => exact avoids_checkedI128 hne h
  next => cases h

theorem tickAfterCrossing_fault {t : Int} (h : tickAfterCrossing zeroForOne t = .error fault) :
    fault = .panic := by
  by_contra hne
  unfold tickAfterCrossing at h
  split at h
  next => exact avoids_checkedI32 hne h
  next => cases h

theorem crossTick_fault {t : Int} {state : SwapState} (h : v.crossTick zeroForOne t state = .error fault) :
    CrossFault v zeroForOne t fault := by
  unfold crossTick at h
  rcases Except.bind_eq_error.mp h with h | ⟨net, hnet, h⟩
  · obtain rfl := getTickLiquidityNet_fault h
    exact .slot h
  rcases Except.bind_eq_error.mp h with h | ⟨liqNet, hliq, h⟩
  · obtain ⟨-, rfl⟩ := Res.orErr_eq_error h
    exact .missing
  rw [Res.orErr_eq_ok.mp hliq] at hnet
  rcases Except.bind_eq_error.mp h with h | ⟨delta, -, h⟩
  · obtain rfl := signedLiquidityNet_fault h
    exact .negated hnet h
  rcases Except.bind_eq_error.mp h with h | ⟨liquidity, -, h⟩
  · obtain ⟨e, hdelta, rfl⟩ := ofCrate_eq_error h
    exact .liquidity hdelta
  rcases Except.bind_eq_error.mp h with h | ⟨tick, -, h⟩
  · obtain rfl := tickAfterCrossing_fault h
    exact .past h
  cases h

/-- How a step fails: with the crate's mathematics, with the books, or as it is settled. -/
inductive StepFault (v : ByrealClmmVenue X) (feeRate sqrtPriceLimit : Nat) (zeroForOne : Bool)
    (currentTimestamp : Int) (state : SwapState) (t : Int) : Fault SwapError → Prop where
  | price {e : String} (hprice : X.getSqrtPriceAtTick t = .error e) :
      StepFault v feeRate sqrtPriceLimit zeroForOne currentTimestamp state t (.err (.sqrtPriceAtTick t e))
  | step {sqrtPriceNext : Nat} {e : String}
      (hstep : stepTowards X feeRate sqrtPriceLimit zeroForOne currentTimestamp state sqrtPriceNext =
        .error e) :
      StepFault v feeRate sqrtPriceLimit zeroForOne currentTimestamp state t (.err (.swapStep e))
  | overflow {e : SwapError} (he : e ∈ [.feeAmountOverflow, .stepAmountOverflow,
      .amountCalculatedOverflow]) :
      StepFault v feeRate sqrtPriceLimit zeroForOne currentTimestamp state t (.err e)
  | exceeds {sqrtPriceNext : Nat} {step : SwapStep}
      (hstep : stepTowards X feeRate sqrtPriceLimit zeroForOne currentTimestamp state sqrtPriceNext =
        .ok step)
      (hspent : state.amountSpecifiedRemaining < step.spent) :
      StepFault v feeRate sqrtPriceLimit zeroForOne currentTimestamp state t (.err .stepExceedsRemaining)
  | cross {sqrtPriceNext : Nat} {fault : Fault SwapError}
      (hprice : X.getSqrtPriceAtTick t = .ok sqrtPriceNext)
      (hcross : CrossFault v zeroForOne t fault) :
      StepFault v feeRate sqrtPriceLimit zeroForOne currentTimestamp state t fault
  | tick {price : Nat} {e : String} (htick : X.getTickAtSqrtPrice price = .error e) :
      StepFault v feeRate sqrtPriceLimit zeroForOne currentTimestamp state t (.err (.tickAtSqrtPrice e))

/-- **A step that fails** fails in one of these ways. -/
theorem applyStep_fault {state : SwapState} {t : Int}
    (h : v.applyStep feeRate sqrtPriceLimit zeroForOne currentTimestamp state t = .error fault) :
    StepFault v feeRate sqrtPriceLimit zeroForOne currentTimestamp state t fault := by
  unfold applyStep at h
  rcases Except.bind_eq_error.mp h with h | ⟨sqrtPriceNext, hprice, h⟩
  · obtain ⟨e, hprice, rfl⟩ := ofCrate_eq_error h
    exact .price hprice
  have hprice := ofCrate_eq_ok.mp hprice
  rcases Except.bind_eq_error.mp h with h | ⟨step, hstep, h⟩
  · obtain ⟨e, hstep, rfl⟩ := ofCrate_eq_error h
    exact .step hstep
  have hstep := ofCrate_eq_ok.mp hstep
  rcases Except.bind_eq_error.mp h with h | ⟨feeAmount, -, h⟩
  · obtain rfl := checkedAddOr_eq_error h
    exact .overflow (by simp)
  rcases Except.bind_eq_error.mp h with h | ⟨spent, hspent, h⟩
  · obtain rfl := checkedAddOr_eq_error h
    exact .overflow (by simp)
  obtain ⟨-, rfl⟩ := checkedAddOr_eq_ok.mp hspent
  rcases Except.bind_eq_error.mp h with h | ⟨remaining, -, h⟩
  · obtain ⟨hlt, rfl⟩ := checkedSubOr_eq_error h
    exact .exceeds hstep hlt
  rcases Except.bind_eq_error.mp h with h | ⟨calculated, -, h⟩
  · obtain rfl := checkedAddOr_eq_error h
    exact .overflow (by simp)
  simp only at h
  split at h
  next => exact .cross hprice (crossTick_fault h)
  next =>
    rcases Except.bind_eq_error.mp h with h | ⟨tick, -, h⟩
    · obtain ⟨e, htick, rfl⟩ := ofCrate_eq_error h
      exact .tick htick
    · cases h

/-- A step raises a rare fault only where it exceeds the remaining input. -/
theorem avoids_applyStep (h : Rare fault) {state : SwapState} {t : Int}
    (hbooks : fault = .err .stepExceedsRemaining → ∀ sqrtPriceNext step,
      stepTowards X feeRate sqrtPriceLimit zeroForOne currentTimestamp state sqrtPriceNext = .ok step →
      step.spent ≤ state.amountSpecifiedRemaining) :
    (v.applyStep feeRate sqrtPriceLimit zeroForOne currentTimestamp state t).Avoids fault := by
  intro heq
  cases applyStep_fault heq with
  | price hprice => cases h
  | step hstep => cases h
  | overflow he =>
      cases h
      simp at he
  | exceeds hstep hspent => exact absurd (hbooks rfl _ _ hstep) (Nat.not_le_of_lt hspent)
  | cross hprice hcross =>
      cases hcross with
      | slot hslot => cases h
      | missing => cases h
      | negated hnet hnegated => cases h
      | liquidity hdelta => cases h
      | past hpast => cases h
  | tick htick => cases h

end ByrealClmmVenue

end ByrealTitan.Clmm
