import ByrealTitan.Correctness.Faults
import ByrealTitan.Correctness.Navigation

/-!
# `Correctness.Termination` — quoting ends

No loop of the simulation counts down. A scan of the bitmaps and the search for the next tick are
measured by the arrays left before the end of the range (`room`); a swap goes on only from a tick it has
crossed, and is measured by the ticks left ahead of it (`ticksLeft`), whatever input a crossing takes.
-/

namespace ByrealTitan.Clmm

open Direction

variable {X : Crates} {zeroForOne : Bool}

namespace ByrealClmmVenue

variable {v : ByrealClmmVenue X} {fuel feeRate sqrtPriceLimit : Nat} {currentTimestamp : Int}

/-! ## The arrays ahead -/

/-- The ticks between an array and the end of the range, bounding the arrays ahead of it. -/
def room (v : ByrealClmmVenue X) (zeroForOne : Bool) (start : Int) : Nat :=
  if zeroForOne then (start - X.getArrayStartIndex X.MIN_TICK v.spacing + 1).toNat
  else (X.MAX_TICK + 1 - start).toNat

theorem room_lt {a b : Int} (h : Further zeroForOne a b)
    (hmin : X.getArrayStartIndex X.MIN_TICK v.spacing ≤ b)
    (hmax : b ≤ X.MAX_TICK) : v.room zeroForOne b < v.room zeroForOne a := by
  unfold room
  cases zeroForOne with
  | true =>
      rw [further_down] at h
      simp only [if_true]
      omega
  | false =>
      rw [further_up] at h
      simp only [Bool.false_eq_true, if_false]
      omega

/-- **A scan of the bitmaps ends.** -/
theorem scanBitmaps_ends (hv : Navigable v zeroForOne) {last : Int}
    (hfuel : v.room zeroForOne last < fuel) :
    (v.scanBitmaps zeroForOne fuel last).Ends := by
  rw [scanBitmaps_eq]
  refine Loop.iterate_total (I := fun _ => True) (v.room zeroForOne)
    (fun last _ => (common_scanTurn last).avoids .diverge) ?_ trivial
    hfuel
  intro last edge _ hturn
  obtain ⟨hfurther, hmin, hmax⟩ := scanTurn_next hv.scans hturn
  have hstart := (hv.starts.inSpan X.MIN_TICK).1
  exact ⟨trivial, room_lt hfurther (by omega) hmax⟩

/-- **The search for the next tick ends.** -/
theorem findNext_ends (hv : Navigable v zeroForOne) {current : Int} {nav : TickNavState}
    (hat : NavAt v zeroForOne current nav)
    (hfuel : v.room zeroForOne nav.currentValidTickArrayStartIndex < fuel) :
    (v.findNextInitializedTickWithNav fuel current zeroForOne nav).Ends := by
  unfold findNextInitializedTickWithNav
  rw [findNextTick_eq]
  refine Loop.iterate_total
    (I := fun nav => NavAt v zeroForOne current nav ∧
      v.room zeroForOne nav.currentValidTickArrayStartIndex < fuel)
    (fun nav => v.room zeroForOne nav.currentValidTickArrayStartIndex) ?_ ?_ ⟨hat, hfuel⟩ hfuel
  · rintro nav ⟨hat, hroom⟩
    apply avoids_searchTurn .diverge
    unfold nextInitializedTickArrayStartIndex
    rw [hat.isStart]
    exact scanBitmaps_ends hv hroom
  · rintro nav nav' ⟨hat, hroom⟩ hturn
    obtain ⟨hat', hfar⟩ := searchTurn_next hv hat hturn
    have hlt := room_lt hfar.further hfar.fromMin hfar.toMax
    exact ⟨⟨hat', by omega⟩, hlt⟩

/-! ## The ticks ahead -/

theorem tickAfterCrossing_eq_ok {t tick : Int} (h : tickAfterCrossing zeroForOne t = .ok tick) :
    tick = past zeroForOne t := by
  unfold tickAfterCrossing at h
  cases zeroForOne with
  | true =>
      unfold checkedI32 at h
      simp only [if_true] at h
      split at h
      next =>
        cases h
        rfl
      next => cases h
  | false =>
      cases h
      rfl

/-- A target that is reached, and is not the limit, is the next tick's price: the tick is crossed. -/
theorem settle_past {state state' : SwapState} {t : Int} {sqrtPriceNext : Nat}
    (h : v.settle zeroForOne t sqrtPriceNext state = .ok state')
    (hreach : state.sqrtPriceX64 = targetPrice zeroForOne sqrtPriceNext sqrtPriceLimit)
    (hlimit : state'.sqrtPriceX64 ≠ sqrtPriceLimit) :
    state'.tick = past zeroForOne t ∧ state'.sqrtPriceX64 = sqrtPriceNext := by
  obtain ⟨_, _, hframe⟩ := settle_frame h
  have hprice : state'.sqrtPriceX64 = state.sqrtPriceX64 := by rw [hframe]
  have hnext : state.sqrtPriceX64 = sqrtPriceNext := by
    rcases targetPrice_cases zeroForOne sqrtPriceNext sqrtPriceLimit with heq | heq
    · exact absurd (hprice.trans (hreach.trans heq)) hlimit
    · exact hreach.trans heq
  unfold settle at h
  rw [if_pos hnext] at h
  obtain ⟨net, delta, liquidity, tick, -, -, -, htick, rfl⟩ := crossTick_eq_ok.mp h
  exact ⟨tickAfterCrossing_eq_ok htick, hnext⟩

/-- **A swap goes on only from a tick it has crossed**: a step that stops short of the tick has come to the
    limit or spent everything. -/
theorem crossed_of_running (hspends : StepSpends X) {state state' : SwapState} {t : Int}
    (h : v.applyStep feeRate sqrtPriceLimit zeroForOne currentTimestamp state t = .ok state')
    (hrun : Running sqrtPriceLimit state') :
    state'.tick = past zeroForOne t ∧ X.getSqrtPriceAtTick t = .ok state'.sqrtPriceX64 := by
  obtain ⟨sqrtPriceNext, step, hnext, hstep, -, hsettle⟩ := applyStep_eq_ok.mp h
  by_cases hreach : step.sqrtPriceNextX64 = targetPrice zeroForOne sqrtPriceNext sqrtPriceLimit
  · obtain ⟨htick, hprice⟩ := settle_past hsettle hreach hrun.2
    rw [hprice]
    exact ⟨htick, hnext⟩
  · have hall := hspends.spends hstep hreach
    obtain ⟨_, _, rfl⟩ := settle_frame hsettle
    refine absurd ?_ hrun.1
    show state.amountSpecifiedRemaining - step.spent = 0
    omega

/-- The end of the ticks a swap can come to, from an array on. -/
def lastTick (v : ByrealClmmVenue X) (zeroForOne : Bool) (start : Int) : Int :=
  if zeroForOne then min (X.getArrayStartIndex X.MIN_TICK v.spacing) start
  else max X.MAX_TICK start + X.span v.spacing

/-- The ticks left ahead of the current one. -/
def ticksLeft (v : ByrealClmmVenue X) (zeroForOne : Bool) (start tick : Int) : Nat :=
  if zeroForOne then (tick + 1 - v.lastTick zeroForOne start).toNat
  else (v.lastTick zeroForOne start - tick).toNat

/-- Each tick found leaves fewer ahead. -/
theorem FoundAt.ticksLeft_lt {start current t : Int} {nav nav' : TickNavState}
    (h : FoundAt v zeroForOne current nav t nav')
    (honward : nav'.currentValidTickArrayStartIndex = start ∨
      FurtherArray X v.spacing zeroForOne start nav'.currentValidTickArrayStartIndex) :
    v.ticksLeft zeroForOne start (past zeroForOne t) < v.ticksLeft zeroForOne start current := by
  have hahead := h.ahead
  obtain ⟨hlow, hhigh⟩ := h.inArray
  unfold ticksLeft lastTick
  cases zeroForOne with
  | true =>
      rw [ahead_down] at hahead
      rw [past_down]
      simp only [if_true]
      rcases honward with heq | hfar
      · omega
      · have := hfar.fromMin
        omega
  | false =>
      rw [ahead_up] at hahead
      rw [past_up]
      simp only [Bool.false_eq_true, if_false]
      rcases honward with heq | hfar
      · omega
      · have := hfar.toMax
        omega

/-! ## A whole simulation -/

/-- The navigation of a swap that goes on stands at the current tick, at the array
    the swap started from or one further on. -/
def OnCourse (v : ByrealClmmVenue X) (zeroForOne : Bool) (sqrtPriceLimit : Nat) (start : Int)
    (c : SwapState × TickNavState) : Prop :=
  Running sqrtPriceLimit c.1 → NavAt v zeroForOne c.1.tick c.2 ∧
    (c.2.currentValidTickArrayStartIndex = start ∨
      FurtherArray X v.spacing zeroForOne start c.2.currentValidTickArrayStartIndex)

/-- Steps left, with one for a state that goes on at all. -/
def stepsLeft (v : ByrealClmmVenue X) (zeroForOne : Bool) (sqrtPriceLimit : Nat) (start : Int)
    (c : SwapState × TickNavState) : Nat :=
  if Running sqrtPriceLimit c.1 then v.ticksLeft zeroForOne start c.1.tick + 1 else 0

theorem OnCourse.found {start t : Int} {c : SwapState × TickNavState} {nav : TickNavState}
    (hv : Navigable v zeroForOne) (hon : OnCourse v zeroForOne sqrtPriceLimit start c)
    (hrun : Running sqrtPriceLimit c.1)
    (h : v.findNextInitializedTickWithNav fuel c.1.tick zeroForOne c.2 = .ok (t, nav)) :
    FoundAt v zeroForOne c.1.tick c.2 t nav ∧
      (nav.currentValidTickArrayStartIndex = start ∨
        FurtherArray X v.spacing zeroForOne start nav.currentValidTickArrayStartIndex) := by
  obtain ⟨hat, honward⟩ := hon hrun
  have hfound := findNext_found hv hat h
  refine ⟨hfound, ?_⟩
  rcases hfound.onward with heq | hfar
  · rw [heq]
    exact honward
  · rcases honward with heq | hfar'
    · rw [← heq]
      exact Or.inr hfar
    · exact Or.inr (hfar'.trans hfar)

/-- One step keeps the course and leaves fewer steps. -/
theorem OnCourse.step (hv : Navigable v zeroForOne) (hspends : StepSpends X) {start : Int}
    {c c' : SwapState × TickNavState} (hon : OnCourse v zeroForOne sqrtPriceLimit start c)
    (h : v.swapTurn fuel feeRate sqrtPriceLimit zeroForOne currentTimestamp c = .ok (.next c')) :
    OnCourse v zeroForOne sqrtPriceLimit start c' ∧
      v.stepsLeft zeroForOne sqrtPriceLimit start c' < v.stepsLeft zeroForOne sqrtPriceLimit start c := by
  obtain ⟨hrun, t, hfind, happly⟩ := swapTurn_next.mp h
  obtain ⟨hfound, honward⟩ := hon.found hv hrun hfind
  refine ⟨fun hrun' => ?_, ?_⟩
  · rw [(crossed_of_running hspends happly hrun').1]
    exact ⟨hfound.behind, honward⟩
  · unfold stepsLeft
    rw [if_pos hrun]
    by_cases hrun' : Running sqrtPriceLimit c'.1
    · rw [if_pos hrun', (crossed_of_running hspends happly hrun').1]
      have := hfound.ticksLeft_lt honward
      omega
    · rw [if_neg hrun']
      omega

/-- **Every simulation ends**: with enough fuel for its loops, none of them runs out of it, and the result
    does not depend on how much more there is. -/
theorem simulation_ends (hv : Navigable v zeroForOne) (hspends : StepSpends X)
    (feeRate sqrtPriceLimit : Nat) (amount : UInt64) (currentTimestamp : Int) :
    ∃ (N : Nat) (result : SwapRes SwapState), result ≠ .error .diverge ∧ ∀ fuel, N ≤ fuel →
      v.simulateSwapSteps fuel feeRate amount.toNat sqrtPriceLimit zeroForOne currentTimestamp =
        result := by
  obtain ⟨start, hstart⟩ : ∃ start, X.getArrayStartIndex v.poolState.tickCurrent v.spacing = start :=
    ⟨_, rfl⟩
  obtain ⟨N, hN⟩ : ∃ N, v.room zeroForOne start +
      v.stepsLeft zeroForOne sqrtPriceLimit start (v.initialSwapState amount.toNat, ⟨true, 0⟩) +
        1 = N := ⟨_, rfl⟩
  have hends : (v.simulateSwapSteps N feeRate amount.toNat sqrtPriceLimit zeroForOne
      currentTimestamp).Ends := by
    unfold simulateSwapSteps
    refine Res.Avoids.bind ?_ fun nav hnav => ?_
    · apply avoids_initTickNavState .diverge
      unfold nextInitializedTickArrayStartIndex
      rw [hv.starts.idem, hstart]
      exact scanBitmaps_ends hv (by omega)
    · obtain ⟨hat, honward⟩ := initTickNavState_at hv hnav
      rw [hstart] at honward
      rw [simulateLoop_eq]
      refine Loop.iterate_total (I := OnCourse v zeroForOne sqrtPriceLimit start)
        (v.stepsLeft zeroForOne sqrtPriceLimit start) ?_ (fun c c' hon hturn => hon.step hv hspends hturn)
        (fun _ => ⟨hat, honward⟩) ?_
      · intro c hon
        unfold swapTurn
        split
        next hrun =>
          obtain ⟨hat, honward⟩ := hon hrun
          refine (findNext_ends hv hat ?_).bind fun _ _ => (avoids_applyStep .diverge nofun).bind
            fun _ _ => Res.avoids_ok
          rcases honward with heq | hfar
          · rw [heq]
            omega
          · have := room_lt (v := v) hfar.further hfar.fromMin hfar.toMax
            omega
        next => exact Res.avoids_ok
      · -- the measure does not look at the navigation
        have hsame : v.stepsLeft zeroForOne sqrtPriceLimit start (v.initialSwapState amount.toNat, nav) =
            v.stepsLeft zeroForOne sqrtPriceLimit start (v.initialSwapState amount.toNat, ⟨true, 0⟩) := rfl
        omega
  exact ⟨N, _, hends, fun fuel hle => v.simulateSwapSteps_below hle _ _ _ _ _ hends⟩

/-- The sample venue, whose arrays end before the tick range does: an amount that is too large runs out of
    arrays. -/
theorem simulation_ends_sample :
    ∃ (N : Nat) (result : SwapRes SwapState), result ≠ .error .diverge ∧ ∀ fuel, N ≤ fuel →
      (Adapter.Sample.loadedOf (Reference.total Adapter.Sample.X) Adapter.Sample.pool).simulateSwapSteps
        fuel 2500 (5000 : UInt64).toNat (defaultPriceLimit (Reference.total Adapter.Sample.X) true)
          true 100 = result :=
  simulation_ends (sample_navigable (Reference.standard_total _) true (by decide) (by decide))
    (Reference.stepSpends rfl) 2500 _ 5000 100

end ByrealClmmVenue

end ByrealTitan.Clmm
