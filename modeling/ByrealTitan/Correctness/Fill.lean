import ByrealTitan.Clmm.Laws
import ByrealTitan.Correctness.SwapLoop

/-!
# `Correctness.Fill` — less input, run beside more

Two runs of the swap loop at one fee rate, from the same state but for the remaining input. As long as
the smaller run reaches its targets it makes the very steps of the larger one; at the first step where
it does not, it spends everything it has and stops. `Alongside` says this of two configurations,
`applyStep_alongside` of one step, and `Reaches.alongside` of whole runs. So output and input are
monotone in the amount, and what fills the larger amount fills the smaller one.
-/

namespace ByrealTitan.Clmm

namespace ByrealClmmVenue

variable {X : Crates} {v : ByrealClmmVenue X} {P : Nat → Prop}
  {searchFuel feeRate sqrtPriceLimit fuel : Nat} {zeroForOne : Bool} {currentTimestamp : Int}

/-- The state, but with this much input left. -/
def withRemaining (state : SwapState) (r : Nat) : SwapState := { state with amountSpecifiedRemaining := r }

/-- A price short of the target is not the next tick's either. -/
theorem ne_next_of_short {sqrtPriceNext price : Nat}
    (h : Short zeroForOne (targetPrice zeroForOne sqrtPriceNext sqrtPriceLimit) price) :
    price ≠ sqrtPriceNext := by
  unfold Short targetPrice at h
  cases zeroForOne with
  | true =>
      simp only [if_true, true_and, not_true, false_and, or_false] at h
      split at h <;> omega
  | false =>
      simp only [Bool.false_eq_true, if_false, false_and, not_false_eq_true, true_and, false_or] at h
      split at h <;> omega

theorem target_met (hmet : PricesMet X P) (hlimit : P sqrtPriceLimit) {nextTick : Int}
    {sqrtPriceNext : Nat} (hnext : X.getSqrtPriceAtTick nextTick = .ok sqrtPriceNext) :
    P (targetPrice zeroForOne sqrtPriceNext sqrtPriceLimit) := by
  rcases targetPrice_cases zeroForOne sqrtPriceNext sqrtPriceLimit with heq | heq
  · rw [heq]
    exact hlimit
  · rw [heq]
    exact hmet.tick hnext

/-! ## The prices of a run -/

/-- The prices `P` that a step towards a tick meets: its target is one, and where it falls short of it,
    from a price that is one and with any input left, it ends at a price that has a tick. -/
structure StepMeets (X : Crates) (P : Nat → Prop) (feeRate sqrtPriceLimit : Nat) (zeroForOne : Bool)
    (currentTimestamp : Int) (state : SwapState) (nextTick : Int) : Prop where
  target {sqrtPriceNext : Nat} : X.getSqrtPriceAtTick nextTick = .ok sqrtPriceNext →
    P (targetPrice zeroForOne sqrtPriceNext sqrtPriceLimit)
  lookup {sqrtPriceNext r : Nat} {step : SwapStep} : X.getSqrtPriceAtTick nextTick = .ok sqrtPriceNext →
    P state.sqrtPriceX64 →
    stepTowards X feeRate sqrtPriceLimit zeroForOne currentTimestamp (withRemaining state r)
      sqrtPriceNext = .ok step →
    step.sqrtPriceNextX64 ≠ targetPrice zeroForOne sqrtPriceNext sqrtPriceLimit →
    ∃ t, X.getTickAtSqrtPrice step.sqrtPriceNextX64 = .ok t

/-- All steps of a run from `c₀` meet these prices. -/
def RunMeets (v : ByrealClmmVenue X) (P : Nat → Prop) (searchFuel feeRate sqrtPriceLimit : Nat)
    (zeroForOne : Bool) (currentTimestamp : Int) (c₀ : SwapState × TickNavState) : Prop :=
  ∀ n c nextTick nav,
    Loop.Reaches (v.swapTurn searchFuel feeRate sqrtPriceLimit zeroForOne currentTimestamp) n c₀ c →
    Running sqrtPriceLimit c.1 →
    v.findNextInitializedTickWithNav searchFuel c.1.tick zeroForOne c.2 = .ok (nextTick, nav) →
    StepMeets X P feeRate sqrtPriceLimit zeroForOne currentTimestamp c.1 nextTick

/-- Prices that every step meets, every run meets. -/
theorem runMeets_of_met (hmet : PricesMet X P) (hlimit : P sqrtPriceLimit)
    (c₀ : SwapState × TickNavState) :
    RunMeets v P searchFuel feeRate sqrtPriceLimit zeroForOne currentTimestamp c₀ := by
  intro _ _ _ _ _ _ _
  exact ⟨target_met hmet hlimit, fun hnext hprice hstep => hmet.lookup hprice
    (target_met hmet hlimit hnext) hstep⟩

/-! ## One step -/

/-- Where a run with more input stands, and where the one with `r` instead does: they have made the same
    steps, or the smaller one has stopped with everything spent. -/
def Alongside (before after : SwapState) (r : Nat) (Same : SwapState → Prop) (Stopped : SwapState → Prop) :
    Prop :=
  (∃ used, after.amountSpecifiedRemaining + used = before.amountSpecifiedRemaining ∧ used ≤ r ∧
      after.feeAmount + (r - used) < 2 ^ 64 ∧ Same (withRemaining after (r - used))) ∨
    ∃ stop, stop.amountSpecifiedRemaining = 0 ∧ stop.amountCalculated ≤ after.amountCalculated ∧
      r + after.amountSpecifiedRemaining ≤ before.amountSpecifiedRemaining ∧ Stopped stop

/-- The prices and amounts of a state from which both runs go on. -/
structure Sound (P : Nat → Prop) (state : SwapState) (r : Nat) : Prop where
  le : r ≤ state.amountSpecifiedRemaining
  word : state.amountSpecifiedRemaining < 2 ^ 64
  fee : state.feeAmount + r < 2 ^ 64
  price : state.amountSpecifiedRemaining ≠ 0 → P state.sqrtPriceX64

/-- What a step leaves alone or only adds to. -/
structure Later (P : Nat → Prop) (before after : SwapState) : Prop where
  remaining : after.amountSpecifiedRemaining ≤ before.amountSpecifiedRemaining
  calculated : before.amountCalculated ≤ after.amountCalculated
  price : after.amountSpecifiedRemaining ≠ 0 → P after.sqrtPriceX64

/-- A step that falls short leaves nothing, so what goes on stands at a price that was met. -/
theorem applyStep_later (hlaw : SwapStepLaw X) {state state' : SwapState} {nextTick : Int}
    (hmeets : StepMeets X P feeRate sqrtPriceLimit zeroForOne currentTimestamp state nextTick)
    (hword : state.amountSpecifiedRemaining < 2 ^ 64)
    (h : v.applyStep feeRate sqrtPriceLimit zeroForOne currentTimestamp state nextTick = .ok state') :
    Later P state state' := by
  obtain ⟨sqrtPriceNext, step, hnext, hstep, -, hsettle⟩ := applyStep_eq_ok.mp h
  obtain ⟨step₁, hstep₁, halong⟩ := hlaw.less (Nat.le_refl _) hword hstep
  obtain rfl : step₁ = step := Except.ok.inj (hstep₁.symm.trans hstep)
  obtain ⟨tick, liquidity, rfl⟩ := settle_frame hsettle
  refine ⟨Nat.sub_le _ _, Nat.le_add_right _ _, fun hleft => ?_⟩
  by_cases hreach : step₁.sqrtPriceNextX64 = targetPrice zeroForOne sqrtPriceNext sqrtPriceLimit
  · show P step₁.sqrtPriceNextX64
    rw [hreach]
    exact hmeets.target hnext
  · obtain ⟨hall, -, -⟩ := halong.short hreach
    refine absurd ?_ hleft
    show state.amountSpecifiedRemaining - step₁.spent = 0
    omega

/-- **One step beside another**: with `r` left instead, the same step is made, or all of `r` is spent. -/
theorem applyStep_alongside (hlaw : SwapStepLaw X) {state state' : SwapState} {nextTick : Int} {r : Nat}
    (hmeets : StepMeets X P feeRate sqrtPriceLimit zeroForOne currentTimestamp state nextTick)
    (hsound : Sound P state r) (hr : r ≠ 0)
    (h : v.applyStep feeRate sqrtPriceLimit zeroForOne currentTimestamp state nextTick = .ok state') :
    let Made := fun s =>
      v.applyStep feeRate sqrtPriceLimit zeroForOne currentTimestamp (withRemaining state r)
        nextTick = .ok s
    Alongside state state' r Made Made := by
  obtain ⟨sqrtPriceNext, step, hnext, hstep, hbook, hsettle⟩ := applyStep_eq_ok.mp h
  obtain ⟨step₁, hstep₁, halong⟩ := hlaw.less hsound.le hsound.word hstep
  have hcovered := halong.covered
  have hfee := hsound.fee
  have hword := hsound.word
  have hle := hsound.le
  obtain ⟨tick, liquidity, hframe⟩ := settle_frame hsettle
  -- either `r` reaches the target as well, with the same step, or it is used up on the way
  by_cases hreach : step₁.sqrtPriceNextX64 = targetPrice zeroForOne sqrtPriceNext sqrtPriceLimit
  · obtain rfl := halong.reached hreach
    have hstepFee : step.feeAmount ≤ step.spent := Nat.le_add_left _ _
    have hbookFee := hbook.fee
    have hbookCovered := hbook.covered
    subst hframe
    refine Or.inl ⟨step.spent, ?_, hcovered, ?_, ?_⟩
    · show state.amountSpecifiedRemaining - step.spent + step.spent = state.amountSpecifiedRemaining
      omega
    · show state.feeAmount + step.feeAmount + (r - step.spent) < 2 ^ 64
      omega
    · exact applyStep_eq_ok.mpr ⟨sqrtPriceNext, step, hnext, hstep₁,
        ⟨hbook.fee, hbook.spent, hcovered, hbook.output⟩, settle_remaining hsettle _⟩
  · obtain ⟨hall, hout, hshort⟩ := halong.short hreach
    obtain ⟨t, ht⟩ := hmeets.lookup (r := r) hnext (hsound.price (by omega)) hstep₁ hreach
    have hstepFee : step₁.feeAmount ≤ step₁.spent := Nat.le_add_left _ _
    have hspent := halong.spent
    have hbookOut := hbook.output
    subst hframe
    refine Or.inr ⟨{ book (withRemaining state r) step₁ with tick := t }, ?_, ?_, ?_,
      applyStep_eq_ok.mpr ⟨sqrtPriceNext, step₁, hnext, hstep₁, ⟨?_, ?_, hcovered, ?_⟩, ?_⟩⟩
    · show r - step₁.spent = 0
      omega
    · show state.amountCalculated + step₁.amountOut ≤ state.amountCalculated + step.amountOut
      omega
    · show r + (state.amountSpecifiedRemaining - step.spent) ≤ state.amountSpecifiedRemaining
      have := hbook.covered
      omega
    · show state.feeAmount + step₁.feeAmount < 2 ^ 64
      omega
    · omega
    · show state.amountCalculated + step₁.amountOut < 2 ^ 64
      omega
    · unfold settle
      rw [if_neg (show (book (withRemaining state r) step₁).sqrtPriceX64 ≠
        sqrtPriceNext from ne_next_of_short hshort)]
      exact Except.bind_eq_ok.mpr ⟨t, ofCrate_eq_ok.mpr ht, rfl⟩

/-! ## Whole runs -/

/-- **A run beside another**: the smaller one makes the same turns, or has stopped within them. -/
theorem reaches_alongside (hlaw : SwapStepLaw X) {n r : Nat} {c₀ c : SwapState × TickNavState}
    (hmeets : RunMeets v P searchFuel feeRate sqrtPriceLimit zeroForOne currentTimestamp c₀)
    (hsound : Sound P c₀.1 r)
    (h : Loop.Reaches (v.swapTurn searchFuel feeRate sqrtPriceLimit zeroForOne currentTimestamp) n c₀ c) :
    let Reached := fun m c =>
      Loop.Reaches (v.swapTurn searchFuel feeRate sqrtPriceLimit zeroForOne currentTimestamp) m
        (withRemaining c₀.1 r, c₀.2) c
    Later P c₀.1 c.1 ∧ Alongside c₀.1 c.1 r (fun s => Reached n (s, c.2))
      (fun s => ∃ m nav, m ≤ n ∧ Reached m (s, nav)) := by
  induction h with
  | start =>
      exact ⟨⟨Nat.le_refl _, Nat.le_refl _, hsound.price⟩,
        Or.inl ⟨0, rfl, Nat.zero_le _, hsound.fee, .start _⟩⟩
  | @turn n c₀ c₁ c₂ hreach₁ hturn ih =>
      obtain ⟨hlater, halong⟩ := ih hmeets hsound
      obtain ⟨hrun, nextTick, hfind, happly⟩ := swapTurn_next.mp hturn
      have hmeets₁ := hmeets n c₁ nextTick c₂.2 hreach₁ hrun hfind
      have hrem₁ := hlater.remaining
      have hcalc₁ := hlater.calculated
      have hword := hsound.word
      have hle := hsound.le
      have hlater₂ := applyStep_later hlaw hmeets₁ (by omega) happly
      have hrem₂ := hlater₂.remaining
      have hcalc₂ := hlater₂.calculated
      refine ⟨⟨by omega, by omega, hlater₂.price⟩, ?_⟩
      -- the smaller run is still going, with `r - used` left, or has stopped before this turn
      rcases halong with ⟨used, hused, husedr, hfee, hsame⟩ | ⟨stop, hzero, hout, hr, m, nav, hm, hreach⟩
      · by_cases hleft : r - used = 0
        · rw [hleft] at hsame
          exact Or.inr ⟨withRemaining c₁.1 0, rfl, hcalc₂, by omega, n, c₁.2, Nat.le_succ n, hsame⟩
        · have hsound₁ : Sound P c₁.1 (r - used) :=
            ⟨by omega, by omega, hfee, hlater.price⟩
          have hrun₁ : Running sqrtPriceLimit (withRemaining c₁.1 (r - used)) := ⟨hleft, hrun.2⟩
          rcases applyStep_alongside hlaw hmeets₁ hsound₁ hleft happly with
            ⟨used₂, hused₂, husedr₂, hfee₂, hmade⟩ | ⟨stop, hzero, hout, hr, hmade⟩
          · refine Or.inl ⟨used + used₂, by omega, by omega, by rwa [Nat.sub_add_eq], ?_⟩
            rw [Nat.sub_add_eq]
            exact hsame.turn (swapTurn_next.mpr ⟨hrun₁, nextTick, hfind, hmade⟩)
          · exact Or.inr ⟨stop, hzero, hout, by omega, n + 1, c₂.2, Nat.le_refl _,
              hsame.turn (swapTurn_next.mpr ⟨hrun₁, nextTick, hfind, hmade⟩)⟩
      · exact Or.inr ⟨stop, hzero, by omega, by omega, m, nav, by omega, hreach⟩

/-- How the results of two runs compare: what is spent and what is put out grow with the amount, and a fill
    of the larger amount comes with one of the smaller. -/
structure FilledAlong (before : SwapState) (r : Nat) (small large : SwapState) : Prop where
  remaining : small.amountSpecifiedRemaining ≤ r
  spent : r + large.amountSpecifiedRemaining ≤
    before.amountSpecifiedRemaining + small.amountSpecifiedRemaining
  calculated : small.amountCalculated ≤ large.amountCalculated
  full : large.amountSpecifiedRemaining = 0 → small.amountSpecifiedRemaining = 0

/-- **A swap loop that succeeds with more input succeeds with less.** -/
theorem simulateLoop_alongside (hlaw : SwapStepLaw X) {state large : SwapState} {nav : TickNavState}
    {r : Nat} (hmeets : RunMeets v P searchFuel feeRate sqrtPriceLimit zeroForOne currentTimestamp
      (state, nav)) (hsound : Sound P state r)
    (h : v.simulateLoop searchFuel feeRate sqrtPriceLimit zeroForOne currentTimestamp fuel state nav =
      .ok large) :
    ∃ small, v.simulateLoop searchFuel feeRate sqrtPriceLimit zeroForOne currentTimestamp fuel
        (withRemaining state r) nav = .ok small ∧ FilledAlong state r small large := by
  rw [simulateLoop_eq, Loop.iterate_eq_ok] at h
  obtain ⟨n, c, hn, hreach, hleave⟩ := h
  obtain ⟨hstop, rfl⟩ := swapTurn_leave.mp hleave
  obtain ⟨hlater, halong⟩ := reaches_alongside hlaw hmeets hsound hreach
  have hrem := hlater.remaining
  have hle := hsound.le
  simp only at hrem
  have hend : ∃ small m nav', m < fuel ∧
      Loop.Reaches (v.swapTurn searchFuel feeRate sqrtPriceLimit zeroForOne currentTimestamp) m
        (withRemaining state r, nav) (small, nav') ∧
      ¬ Running sqrtPriceLimit small ∧ FilledAlong state r small c.1 := by
    rcases halong with ⟨used, hused, husedr, -, hsame⟩ | ⟨stop, hzero, hout, hr, m, nav', hm, hstopped⟩
    · simp only at hused
      refine ⟨_, n, c.2, hn, hsame, fun hrun => ?_, ⟨Nat.sub_le _ _, ?_, Nat.le_refl _, fun hfull => ?_⟩⟩
      · -- the larger run stopped at the limit, or had spent everything
        refine hstop ⟨fun hzero => hrun.1 ?_, hrun.2⟩
        show r - used = 0
        omega
      · show r + c.1.amountSpecifiedRemaining ≤ state.amountSpecifiedRemaining + (r - used)
        omega
      · show r - used = 0
        omega
    · simp only at hr
      exact ⟨stop, m, nav', by omega, hstopped, fun hrun => hrun.1 hzero,
        ⟨by omega, by omega, hout, fun _ => hzero⟩⟩
  obtain ⟨small, m, nav', hm, hsmall, hstopped, hfilled⟩ := hend
  refine ⟨small, ?_, hfilled⟩
  rw [simulateLoop_eq, Loop.iterate_eq_ok]
  exact ⟨m, _, hm, hsmall, swapTurn_leave.mpr ⟨hstopped, rfl⟩⟩

end ByrealClmmVenue

end ByrealTitan.Clmm
