import ByrealTitan.Correctness.TickWalk

/-!
# `Correctness.DynamicFee` — amounts that pay fees of different rates

With a dynamic fee the rate depends on the whole amount, so two swaps differ from their first step on.
Still they stand at the same prices as long as both get to the next tick: a step trades what the fee
leaves of the remaining input, and takes as much for a tick from either. So what the fees leave of the
two amounts decides which of them puts out more, up to the atom by which the fee of each crossed tick is
rounded (`swaps_ordered`). Titan's requirement on larger amounts holds where the fees leave more of
them, and where they leave less it is turned around (`full_quotes_monotone`).
-/

namespace ByrealTitan

namespace Clmm

variable {X : Crates}

/-! ## What fees leave -/

/-- The fee at the rate `s` leaves no less of `b` than the one at `r` leaves of `a`, and more by an atom
    for each of `T` ticks; at one rate, `b` is no less than `a`. -/
def Outweighs (X : Crates) (T a r b s : Nat) : Prop :=
  (r = s ∧ a ≤ b) ∨
    a * (X.FEE_RATE_DENOMINATOR_VALUE - r) + T * (X.FEE_RATE_DENOMINATOR_VALUE - s) ≤
      b * (X.FEE_RATE_DENOMINATOR_VALUE - s)

variable {T a r b s n : Nat}

theorem Outweighs.lessFee (h : Outweighs X T a r b s) : X.lessFee r a ≤ X.lessFee s b := by
  unfold Crates.lessFee
  apply Nat.div_le_div_right
  rcases h with ⟨rfl, hle⟩ | hmore
  · exact Nat.mul_le_mul_right _ hle
  · exact Nat.le_trans (Nat.le_add_right _ _) hmore

theorem Outweighs.ne_zero (hr : r < X.FEE_RATE_DENOMINATOR_VALUE) (h : Outweighs X T a r b s)
    (ha : a ≠ 0) : b ≠ 0 := by
  rintro rfl
  rcases h with ⟨-, hle⟩ | hmore
  · omega
  · have hpos : 0 < a * (X.FEE_RATE_DENOMINATOR_VALUE - r) :=
      Nat.mul_pos (Nat.pos_of_ne_zero ha) (by omega)
    omega

/-- An input with its fee takes at least the input off what the fee leaves. -/
theorem le_with_fee (hr : r < X.FEE_RATE_DENOMINATOR_VALUE) :
    n * X.FEE_RATE_DENOMINATOR_VALUE ≤ (n + X.feeOn r n) * (X.FEE_RATE_DENOMINATOR_VALUE - r) := by
  unfold Crates.feeOn
  obtain ⟨k, hk, hpos⟩ : ∃ k, X.FEE_RATE_DENOMINATOR_VALUE = r + k ∧ 0 < k :=
    ⟨X.FEE_RATE_DENOMINATOR_VALUE - r, by omega, by omega⟩
  rw [hk, Nat.add_sub_cancel_left, Nat.mul_add, Nat.add_mul]
  have hup : n * r + k - 1 < (n * r + k - 1) / k * k + k := Nat.lt_div_mul_add hpos
  omega

/-- And less than an atom more. -/
theorem with_fee_lt (hr : r < X.FEE_RATE_DENOMINATOR_VALUE) :
    (n + X.feeOn r n) * (X.FEE_RATE_DENOMINATOR_VALUE - r) <
      n * X.FEE_RATE_DENOMINATOR_VALUE + (X.FEE_RATE_DENOMINATOR_VALUE - r) := by
  unfold Crates.feeOn
  obtain ⟨k, hk, hpos⟩ : ∃ k, X.FEE_RATE_DENOMINATOR_VALUE = r + k ∧ 0 < k :=
    ⟨X.FEE_RATE_DENOMINATOR_VALUE - r, by omega, by omega⟩
  rw [hk, Nat.add_sub_cancel_left, Nat.mul_add, Nat.add_mul]
  have hdown : (n * r + k - 1) / k * k ≤ n * r + k - 1 := Nat.div_mul_le_self _ _
  omega

/-- **A tick that both amounts pay for** costs the weight of one. -/
theorem Outweighs.crossed (hr : r < X.FEE_RATE_DENOMINATOR_VALUE) (hs : s < X.FEE_RATE_DENOMINATOR_VALUE)
    (h : Outweighs X (T + 1) a r b s) (ha : n + X.feeOn r n ≤ a) :
    Outweighs X T (a - (n + X.feeOn r n)) r (b - (n + X.feeOn s n)) s := by
  rcases h with ⟨rfl, hle⟩ | hmore
  · exact Or.inl ⟨rfl, Nat.sub_le_sub_right hle _⟩
  · right
    have hpaid := @le_with_fee X r n hr
    have hpaid' := @with_fee_lt X s n hs
    have hpart := Nat.mul_le_mul_right (X.FEE_RATE_DENOMINATOR_VALUE - r) ha
    rw [Nat.sub_mul, Nat.sub_mul]
    rw [Nat.add_mul T 1, Nat.one_mul] at hmore
    omega

namespace ByrealClmmVenue

/-! ## How many ticks there are -/

/-- The search finds `n` ticks one after the other, each from past the last one. -/
inductive TicksAlong (v : ByrealClmmVenue X) (zeroForOne : Bool) : Int → TickNavState → Nat → Prop where
  | none {current : Int} {nav : TickNavState} : TicksAlong v zeroForOne current nav 0
  | tick {fuel n : Nat} {current t : Int} {nav nav' : TickNavState} :
      v.findNextInitializedTickWithNav fuel current zeroForOne nav = .ok (t, nav') →
      TicksAlong v zeroForOne (Direction.past zeroForOne t) nav' n →
      TicksAlong v zeroForOne current nav (n + 1)

/-- No more than `T` initialised ticks are ahead. -/
def TicksAhead (v : ByrealClmmVenue X) (zeroForOne : Bool) (T : Nat) : Prop :=
  ∀ fuel nav n, v.initTickNavState fuel zeroForOne = .ok nav →
    TicksAlong v zeroForOne v.poolState.tickCurrent nav n → n ≤ T

variable {v : ByrealClmmVenue X} {fuel fuel' : Nat} {zeroForOne : Bool} {currentTimestamp : Int}

open Direction in
/-- Where the search walks the initialised ticks, it finds those of the enumeration. -/
theorem ticksAlong_le (hw : v.Walkable zeroForOne) {missing : Option Int} {current : Int}
    {nav : TickNavState} {ticks : List Int} (hat : NavStands v zeroForOne current nav)
    (hmissing : MissingFrom v zeroForOne nav.currentValidTickArrayStartIndex missing)
    (hleft : Enumerates zeroForOne (Due v zeroForOne missing) current ticks) {n : Nat}
    (h : TicksAlong v zeroForOne current nav n) : n ≤ ticks.length := by
  induction h generalizing ticks with
  | none => exact Nat.zero_le _
  | @tick fuel n current t nav nav' hfind _ ih =>
      -- with more fuel than the room behind the array, the search finds the nearest tick
      obtain ⟨f, hf⟩ : ∃ f, f = max fuel (v.room zeroForOne nav.currentValidTickArrayStartIndex + 1) :=
        ⟨_, rfl⟩
      have hroom : v.room zeroForOne nav.currentValidTickArrayStartIndex < f := by omega
      have hfound := findNextTick_finds hw hat hmissing hroom hroom
      have hfind' : v.findNextTick f current zeroForOne f nav = .ok (t, nav') :=
        (v.findNextTick_below (show fuel ≤ f by omega) current nav).of_ok hfind
      rw [hfind'] at hfound
      cases hfound with
      | tick ht hat' hmissing' _ =>
          cases ticks with
          | nil => exact absurd ht.ahead (hleft.found t ht.mem)
          | cons t' ticks =>
              have hnearest : Nearest zeroForOne (Due v zeroForOne missing) current t' := hleft.found
              obtain rfl := Nearest.unique ht hnearest
              exact Nat.succ_le_succ (ih hat' hmissing' hleft.tail)

/-- **The ticks ahead are the initialised ones**, where the search walks them. -/
theorem ticksAhead_onTheWay (hw : v.Walkable zeroForOne) :
    v.TicksAhead zeroForOne (v.ticksOnTheWay zeroForOne none).length := by
  intro fuel nav n hnav halong
  have hfrom := missingArray_from hw
  have honTheWay := ticksOnTheWay_enumerates v zeroForOne (v.missingArray zeroForOne)
  have hfewer : (v.ticksOnTheWay zeroForOne (v.missingArray zeroForOne)).length ≤
      (v.ticksOnTheWay zeroForOne none).length :=
    honTheWay.length_le (ticksOnTheWay_enumerates v zeroForOne none) fun t ht => ⟨ht.1, rfl⟩
  obtain ⟨f, hf⟩ : ∃ f, f = max fuel (v.room zeroForOne (X.getArrayStartIndex v.poolState.tickCurrent
      v.spacing) + 1) :=
    ⟨_, rfl⟩
  have hnav' := (v.initTickNavState_below (show fuel ≤ f by omega)).of_ok hnav
  rcases initTickNavState_stands hw (show _ < f by omega) hfrom with ⟨nav', hsame, hat, hmissing,
    -⟩ | ⟨hfail, -, -⟩
  · obtain rfl : nav' = nav := Except.ok.inj (hsame.symm.trans hnav')
    exact Nat.le_trans (ticksAlong_le hw hat hmissing honTheWay halong) hfewer
  · rw [hfail] at hnav'
    cases hnav'

/-! ## Two swaps side by side -/

/-- **One step of each**, where the fees leave no more of `a` than of `b`: both get to the target and
    trade the same, or the first one falls short and puts out no more. -/
theorem steps_ordered (hsteps : SwapStepLaw X) (hfee : FeeStepLaw X)
    (hr : r < X.FEE_RATE_DENOMINATOR_VALUE)
    (hs : s < X.FEE_RATE_DENOMINATOR_VALUE) (hb : b < 2 ^ 64) {price target liquidity timestamp : Nat}
    {step step' : SwapStep} (hless : X.lessFee r a ≤ X.lessFee s b)
    (h : X.computeSwapStep price target liquidity a r true zeroForOne timestamp = .ok step)
    (h' : X.computeSwapStep price target liquidity b s true zeroForOne timestamp = .ok step') :
    (step.sqrtPriceNextX64 = target ∧ step'.sqrtPriceNextX64 = target ∧ step'.amountIn = step.amountIn ∧
        step'.amountOut = step.amountOut) ∨
      (step.sqrtPriceNextX64 ≠ target ∧ step.amountOut ≤ step'.amountOut) := by
  obtain ⟨traded, htraded, hnext, hin, hout⟩ := hfee.free hr h
  obtain ⟨traded', htraded', hnext', hin', hout'⟩ := hfee.free hs h'
  have hword : X.lessFee s b < 2 ^ 64 := by
    refine Nat.lt_of_le_of_lt ?_ hb
    unfold Crates.lessFee
    apply Nat.div_le_of_le_mul
    rw [Nat.mul_comm]
    exact Nat.mul_le_mul_right _ (Nat.sub_le _ _)
  obtain ⟨less, hless, halong⟩ := hsteps.less hless hword htraded'
  obtain rfl : less = traded := Except.ok.inj (hless.symm.trans htraded)
  by_cases hreach : step.sqrtPriceNextX64 = target
  · obtain rfl := halong.reached (hnext.trans hreach)
    exact Or.inl ⟨hreach, hnext'.symm.trans (hnext.trans hreach), hin'.symm.trans hin,
      hout'.symm.trans hout⟩
  · obtain ⟨-, hle, -⟩ := halong.short (fun heq => hreach (hnext.symm.trans heq))
    rw [hout, hout'] at hle
    exact Or.inr ⟨hreach, hle⟩

/-- Two swaps at the same place, with no more put out by the first one, and with remaining inputs of which
    the fees leave no more of the first one's, whatever ticks there are to cross. -/
structure SideBySide (v : ByrealClmmVenue X) (sqrtPriceLimit : Nat) (zeroForOne : Bool) (r s : Nat)
    (c c' : SwapState × TickNavState) : Prop where
  price : c'.1.sqrtPriceX64 = c.1.sqrtPriceX64
  liquidity : c'.1.liquidity = c.1.liquidity
  tick : c'.1.tick = c.1.tick
  nav : c'.2 = c.2
  calculated : c.1.amountCalculated ≤ c'.1.amountCalculated
  word : c.1.amountSpecifiedRemaining < 2 ^ 64
  word' : c'.1.amountSpecifiedRemaining < 2 ^ 64
  ahead : Running sqrtPriceLimit c.1 → ∃ T, (∀ n, TicksAlong v zeroForOne c.1.tick c.2 n → n ≤ T) ∧
    Outweighs X T c.1.amountSpecifiedRemaining r c'.1.amountSpecifiedRemaining s

variable {sqrtPriceLimit : Nat} {c c' : SwapState × TickNavState}

/-- **They stay so**, or the first one has spent everything and put out no more. -/
theorem SideBySide.applyStep (hsteps : SwapStepLaw X) (hfee : FeeStepLaw X)
    (hr : r < X.FEE_RATE_DENOMINATOR_VALUE)
    (hs : s < X.FEE_RATE_DENOMINATOR_VALUE) (hside : SideBySide v sqrtPriceLimit zeroForOne r s c c')
    (hrun : Running sqrtPriceLimit c.1) {t : Int} {nav : TickNavState} {next next' : SwapState}
    (hfind : v.findNextInitializedTickWithNav fuel c.1.tick zeroForOne c.2 = .ok (t, nav))
    (h : v.applyStep r sqrtPriceLimit zeroForOne currentTimestamp c.1 t = .ok next)
    (h' : v.applyStep s sqrtPriceLimit zeroForOne currentTimestamp c'.1 t = .ok next') :
    SideBySide v sqrtPriceLimit zeroForOne r s (next, nav) (next', nav) ∨
      (next.amountSpecifiedRemaining = 0 ∧ next.amountCalculated ≤ next'.amountCalculated) := by
  obtain ⟨sqrtPriceNext, step, hnext, hstep, hbook, hsettle⟩ := applyStep_eq_ok.mp h
  obtain ⟨sqrtPriceNext', step', hnext', hstep', hbook', hsettle'⟩ := applyStep_eq_ok.mp h'
  obtain rfl : sqrtPriceNext = sqrtPriceNext' := Except.ok.inj (hnext.symm.trans hnext')
  obtain ⟨T, hticks, hweigh⟩ := hside.ahead hrun
  have hout := hside.calculated
  have hpart := hsteps.less (Nat.le_refl _) hside.word hstep
  unfold stepTowards at hstep hstep'
  rw [hside.price, hside.liquidity] at hstep'
  rcases steps_ordered hsteps hfee hr hs hside.word' hweigh.lessFee hstep hstep' with
    ⟨hreach, hreach', hsameIn, hsameOut⟩ | ⟨hshort, hle⟩
  · left
    have hspent : step.spent = step.amountIn + X.feeOn r step.amountIn := by
      rw [SwapStep.spent, hfee.fee hr hstep hreach]
    have hspent' : step'.spent = step.amountIn + X.feeOn s step.amountIn := by
      rw [SwapStep.spent, hfee.fee hs hstep' hreach', hsameIn]
    have hprice : (book c'.1 step').sqrtPriceX64 = (book c.1 step).sqrtPriceX64 :=
      hreach'.trans hreach.symm
    have hliquidity : (book c'.1 step').liquidity = (book c.1 step).liquidity := hside.liquidity
    have hboth := settle_at hprice hliquidity hsettle
    rw [hsettle'] at hboth
    obtain ⟨tick, liquidity, rfl⟩ := settle_frame hsettle
    cases hboth
    have hword := hside.word
    have hword' := hside.word'
    refine ⟨hreach'.trans hreach.symm, rfl, rfl, rfl, ?_, ?_, ?_, fun hrunning => ?_⟩
    · show c.1.amountCalculated + step.amountOut ≤ c'.1.amountCalculated + step'.amountOut
      omega
    · exact Nat.lt_of_le_of_lt (Nat.sub_le _ _) hword
    · exact Nat.lt_of_le_of_lt (Nat.sub_le _ _) hword'
    · -- a swap that goes on has crossed the tick, and paid for one of those ahead
      have hcrossed := (settle_past hsettle hreach hrunning.2).1
      have hone : ∀ n, TicksAlong v zeroForOne (Direction.past zeroForOne t) nav n → n + 1 ≤ T := by
        intro n halong
        exact hticks (n + 1) (.tick hfind halong)
      obtain ⟨T', rfl⟩ : ∃ T', T = T' + 1 := ⟨T - 1, by have := hone 0 .none; omega⟩
      refine ⟨T', fun n halong => ?_, ?_⟩
      · simp only at hcrossed halong
        rw [hcrossed] at halong
        exact Nat.le_of_succ_le_succ (hone n halong)
      · have hcovered := hbook.covered
        show Outweighs X T' (c.1.amountSpecifiedRemaining - step.spent) r
          (c'.1.amountSpecifiedRemaining - step'.spent) s
        rw [hspent] at hcovered ⊢
        rw [hspent']
        exact hweigh.crossed hr hs hcovered
  · right
    obtain ⟨step₁, hstep₁, halong⟩ := hpart
    obtain rfl : step₁ = step := Except.ok.inj (hstep₁.symm.trans hstep)
    have hall := (halong.short hshort).1
    obtain ⟨tick, liquidity, rfl⟩ := settle_frame hsettle
    obtain ⟨tick', liquidity', rfl⟩ := settle_frame hsettle'
    constructor
    · show c.1.amountSpecifiedRemaining - step₁.spent = 0
      omega
    · show c.1.amountCalculated + step₁.amountOut ≤ c'.1.amountCalculated + step'.amountOut
      omega

/-- What is put out only grows. -/
theorem iterate_calculated {searchFuel feeRate : Nat} {end' : SwapState}
    (h : Loop.iterate (v.swapTurn searchFuel feeRate sqrtPriceLimit zeroForOne currentTimestamp) fuel
      c = .ok end') :
    c.1.amountCalculated ≤ end'.amountCalculated := by
  obtain ⟨n, c₁, -, hreach, hleave⟩ := Loop.iterate_eq_ok.mp h
  obtain ⟨-, rfl⟩ := swapTurn_leave.mp hleave
  refine hreach.inv (I := fun c₁ => c.1.amountCalculated ≤ c₁.1.amountCalculated)
    (fun c₁ c₂ hle hturn => ?_) (Nat.le_refl _)
  obtain ⟨-, t, -, happly⟩ := swapTurn_next.mp hturn
  obtain ⟨sqrtPriceNext, step, -, -, -, hsettle⟩ := applyStep_eq_ok.mp happly
  obtain ⟨_, _, hframe⟩ := settle_frame hsettle
  rw [hframe]
  exact Nat.le_trans hle (Nat.le_add_right _ _)

/-- **Of two swaps that complete, the one of which the fees leave more puts out no less.** -/
theorem swaps_ordered (hsteps : SwapStepLaw X) (hfee : FeeStepLaw X)
    (hr : r < X.FEE_RATE_DENOMINATOR_VALUE)
    (hs : s < X.FEE_RATE_DENOMINATOR_VALUE) (ha : a < 2 ^ 64) (hb : b < 2 ^ 64)
    (hticks : v.TicksAhead zeroForOne T)
    (hrate : v.computeTradeFeeRate zeroForOne a currentTimestamp = .ok r)
    (hrate' : v.computeTradeFeeRate zeroForOne b currentTimestamp = .ok s) (hweigh : Outweighs X T a r b s)
    {limit : Option Nat} {swap swap' : SwapResult}
    (h : v.computeSwap fuel zeroForOne a limit currentTimestamp = .ok swap)
    (h' : v.computeSwap fuel' zeroForOne b limit currentTimestamp = .ok swap') :
    swap.amountOut ≤ swap'.amountOut := by
  -- both on the larger fuel
  have h := (v.computeSwap_below (Nat.le_max_left fuel fuel') _ _ _ _).of_ok h
  have h' := (v.computeSwap_below (Nat.le_max_right fuel fuel') _ _ _ _).of_ok h'
  generalize max fuel fuel' = fuel at h h'
  obtain ⟨r', nav, state, hfeeRate, hnav, hloop, -, rfl⟩ := computeSwap_eq_ok.mp h
  obtain ⟨s', nav', state', hfeeRate', hnav', hloop', -, rfl⟩ := computeSwap_eq_ok.mp h'
  obtain rfl : r' = r := Except.ok.inj (hfeeRate.symm.trans hrate)
  obtain rfl : s' = s := Except.ok.inj (hfeeRate'.symm.trans hrate')
  obtain rfl : nav' = nav := Except.ok.inj (hnav'.symm.trans hnav)
  rw [simulateLoop_eq] at hloop hloop'
  refine Loop.iterate_beside (R := SideBySide v (limit.getD (defaultPriceLimit X zeroForOne)) zeroForOne
    r' s') (Q := fun first second => first.amountCalculated ≤ second.amountCalculated) ?_ ?_
    ?_ hloop hloop'
  · intro c c' end' end'' f hside hleave hends
    obtain ⟨-, rfl⟩ := swapTurn_leave.mp hleave
    exact Nat.le_trans hside.calculated (iterate_calculated hends)
  · intro c c' c₁ turn hside hturn hturn'
    obtain ⟨hrun, t, hfind, happly⟩ := swapTurn_next.mp hturn
    obtain ⟨T', -, hweigh⟩ := hside.ahead hrun
    have hrun' : Running (limit.getD (defaultPriceLimit X zeroForOne)) c'.1 :=
      ⟨hweigh.ne_zero hr hrun.1, by rw [hside.price]; exact hrun.2⟩
    cases turn with
    | leave end' => exact absurd hrun' (swapTurn_leave.mp hturn').1
    | next c₂ =>
        obtain ⟨-, t', hfind', happly'⟩ := swapTurn_next.mp hturn'
        rw [hside.tick, hside.nav, hfind] at hfind'
        obtain ⟨rfl, hnavs⟩ := Prod.mk.inj (Except.ok.inj hfind')
        rcases hside.applyStep hsteps hfee hr hs hrun hfind happly happly' with hside' | ⟨hzero, hle⟩
        · left
          have hpair : (c₂.1, c₁.2) = c₂ := Prod.ext rfl hnavs
          rw [hpair] at hside'
          exact ⟨c₂, rfl, hside'⟩
        · right
          intro end' end'' f f' hends hends'
          cases f with
          | zero => cases hends
          | succ f =>
              have hstop : ¬ Running (limit.getD (defaultPriceLimit X zeroForOne)) c₁.1 :=
                fun hrunning => hrunning.1 hzero
              rw [Loop.iterate_leave (swapTurn_leave.mpr ⟨hstop, rfl⟩)] at hends
              cases hends
              cases f' with
              | zero => cases hends'
              | succ f' =>
                  rw [Loop.iterate_next hturn'] at hends'
                  exact Nat.le_trans hle (iterate_calculated hends')
  · exact ⟨rfl, rfl, rfl, rfl, Nat.le_refl _, ha, hb,
      fun _ => ⟨T, fun n halong => hticks fuel nav' n hnav halong, hweigh⟩⟩

end ByrealClmmVenue

end Clmm

namespace Adapter.ByrealClmmVenue

open Clmm Clmm.ByrealClmmVenue

variable {X : Crates} {v : Adapter.ByrealClmmVenue X} {request : QuoteRequest} {a b : UInt64} {T r s : Nat}
  {fuel fuel' : Nat} {quote quote' : QuoteResult}

/-! ## Full quotes -/

/-- Of two full quotes, the one of whose amount the fees leave more puts out no less. -/
theorem full_quotes_ordered (hsteps : SwapStepLaw X) (hfee : FeeStepLaw X)
    (hr : r < X.FEE_RATE_DENOMINATOR_VALUE)
    (hs : s < X.FEE_RATE_DENOMINATOR_VALUE) (hticks : v.core.TicksAhead (v.directionOf request) T)
    (hrate : v.core.computeTradeFeeRate (v.directionOf request) a.toNat v.core.currentUnixTimestamp =
      .ok r)
    (hrate' : v.core.computeTradeFeeRate (v.directionOf request) b.toNat v.core.currentUnixTimestamp =
      .ok s)
    (hweigh : Outweighs X T a.toNat r b.toNat s)
    (h : v.quote fuel { request with amount := a } = .ok quote)
    (h' : v.quote fuel' { request with amount := b } = .ok quote')
    (hfull : quote.notEnoughLiquidity = false)
    (hfull' : quote'.notEnoughLiquidity = false) : quote.expectedOutput ≤ quote'.expectedOutput := by
  obtain ⟨-, zeroForOne, core, haccepts, hanswer, rfl⟩ := quote_eq_ok.mp h
  obtain ⟨-, zeroForOne', core', haccepts', hanswer', rfl⟩ := quote_eq_ok.mp h'
  obtain rfl := haccepts.direction haccepts'
  obtain rfl : zeroForOne' = v.directionOf request := haccepts.eq_decide
  simp only at hanswer hanswer' hfull hfull' ⊢
  by_cases hzero : a.toNat = 0
  · rw [hzero] at hanswer
    rw [(quoteZero_amounts hanswer).2.1]
    exact Nat.zero_le _
  · obtain ⟨swap, hswap, -, -, hout⟩ := answer_full hzero hanswer hfull
    obtain ⟨swap', hswap', -, -, hout'⟩ := answer_full (hweigh.ne_zero hr hzero) hanswer' hfull'
    rw [hout, hout']
    exact swaps_ordered hsteps hfee hr hs a.toNat_lt b.toNat_lt hticks hrate hrate' hweigh hswap hswap'

/-- **Larger amounts are quoted larger outputs where the fees leave more of them**, by an atom for each
    initialised tick ahead, or at one rate; and where they leave less, by as much, the larger amount is
    quoted no more than the smaller one. -/
theorem full_quotes_monotone (hsteps : SwapStepLaw X) (hfee : FeeStepLaw X)
    (hr : r < X.FEE_RATE_DENOMINATOR_VALUE)
    (hs : s < X.FEE_RATE_DENOMINATOR_VALUE) (hticks : v.core.TicksAhead (v.directionOf request) T)
    (hrate : v.core.computeTradeFeeRate (v.directionOf request) a.toNat v.core.currentUnixTimestamp =
      .ok r)
    (hrate' : v.core.computeTradeFeeRate (v.directionOf request) b.toNat v.core.currentUnixTimestamp =
      .ok s)
    (h : v.quote fuel { request with amount := a } = .ok quote)
    (h' : v.quote fuel' { request with amount := b } = .ok quote')
    (hfull : quote.notEnoughLiquidity = false) (hfull' : quote'.notEnoughLiquidity = false) :
    (Outweighs X T a.toNat r b.toNat s → quote.expectedOutput ≤ quote'.expectedOutput) ∧
      (Outweighs X T b.toNat s a.toNat r → quote'.expectedOutput ≤ quote.expectedOutput) :=
  ⟨fun hweigh => full_quotes_ordered hsteps hfee hr hs hticks hrate hrate' hweigh h h' hfull hfull',
    fun hweigh => full_quotes_ordered hsteps hfee hs hr hticks hrate' hrate hweigh h' h hfull' hfull⟩

/-! ## A fee that steps up -/

section Sample

/-- A deep pool with a dynamic fee, of tokens with nine decimals. -/
def deepPool : PoolState :=
  { Sample.pool with liquidity := 10000000000000, mintDecimals0 := 9, mintDecimals1 := 9, other := [1] }

/-- Crates whose dynamic fee is the base fee, and one part in a million more beyond two million atoms. -/
abbrev SteppedX : Crates :=
  { Reference.total (Reference.crates [([1], deepPool)]) with
    calculateDynamicFeeRate := fun inputs =>
      .ok (inputs.feeBase + if inputs.tradeSize ≤ 2000000 then 0 else 1) }

def steppedVenue : Adapter.ByrealClmmVenue SteppedX := Sample.venueOver (Sample.loadedOf SteppedX deepPool)

theorem stepped_rate (amount : Nat) :
    steppedVenue.core.computeTradeFeeRate false amount steppedVenue.core.currentUnixTimestamp =
      .ok (2500 + if amount ≤ 2000000 then 0 else 1) := rfl

/-- **One part of a million more fee outweighs one atom more input**: the rate is an integer far below the
    denominator and grows with the amount, both amounts are filled, and the larger one puts out less. -/
theorem fee_step_lowers_output :
    steppedVenue.core.isSwapDynamicFeeEnabled = true ∧
      (∀ amount, ∃ rate, steppedVenue.core.computeTradeFeeRate false amount
          steppedVenue.core.currentUnixTimestamp = .ok rate ∧ rate < SteppedX.FEE_RATE_DENOMINATOR_VALUE) ∧
      ∃ small large, steppedVenue.quote 100 (Sample.requestOf deepPool false 2000000) = .ok small ∧
        steppedVenue.quote 100 (Sample.requestOf deepPool false 2000001) = .ok large ∧
        small.notEnoughLiquidity = false ∧ large.notEnoughLiquidity = false ∧
        large.expectedOutput < small.expectedOutput := by
  have hsmall : (steppedVenue.quote 100 (Sample.requestOf deepPool false 2000000)).okAnd
      (fun q => !q.notEnoughLiquidity && decide (q.expectedOutput = 1994999)) = true := by decide +kernel
  have hlarge : (steppedVenue.quote 100 (Sample.requestOf deepPool false 2000001)).okAnd
      (fun q => !q.notEnoughLiquidity && decide (q.expectedOutput = 1994997)) = true := by decide +kernel
  obtain ⟨small, hsmall, hs⟩ := Except.okAnd_eq_true.mp hsmall
  obtain ⟨large, hlarge, hl⟩ := Except.okAnd_eq_true.mp hlarge
  simp only [Bool.and_eq_true, Bool.not_eq_true', decide_eq_true_eq] at hs hl
  refine ⟨rfl, fun amount => ⟨_, stepped_rate amount, ?_⟩, small, large, hsmall, hlarge, hs.1,
    hl.1, by omega⟩
  show 2500 + (if amount ≤ 2000000 then 0 else 1) < 1000000
  split <;> omega

/-- Crates as the concrete ones, but for the dynamic fee. -/
theorem standard_stepped : Reference.Standard SteppedX := ⟨rfl, rfl, rfl, rfl, rfl, rfl⟩

/-- Fixed arrays of such a venue, at spacing 1 around the tick 0, can be walked. -/
theorem stepped_walkable {core : CoreByrealClmmVenue SteppedX} {zeroForOne : Bool}
    (hspacing : core.poolState.tickSpacing = 1)
    (hextension : core.bitmapExtension.isSome = true) (hcurrent : core.poolState.tickCurrent = 0)
    (hdistinct : (core.dynamicTickArrays.map fun entry => entry.2.startTickIndex).Nodup)
    (harrays : ∀ entry ∈ core.dynamicTickArrays, ∃ start net, entry.2 = .fixed
      (Sample.tickSlots SteppedX start net) ∧
      core.marksArray start = true) : core.Walkable zeroForOne := by
  have hunit : core.spacing = 1 := by
    unfold Clmm.ByrealClmmVenue.spacing
    rw [hspacing]
    decide
  exact walkable_of_slots standard_stepped (by decide) (by decide)
    (poolMarked_of_spacing standard_stepped rfl rfl rfl hspacing hextension) hunit hcurrent
    hdistinct harrays

/-- Upwards the deep pool has one tick. -/
theorem stepped_ticks : steppedVenue.core.TicksAhead false 1 := by
  have hw : steppedVenue.core.Walkable false := by
    refine stepped_walkable rfl rfl rfl (by decide) fun entry hmem => ?_
    rcases List.mem_cons.mp hmem with rfl | hmem
    · exact ⟨0, _, rfl, by decide +kernel⟩
    · rw [List.mem_singleton.mp hmem]
      exact ⟨-60, _, rfl, by decide +kernel⟩
  have hone : (steppedVenue.core.ticksOnTheWay false none).length = 1 := by
    decide +kernel
  rw [← hone]
  exact ticksAhead_onTheWay hw

/-- A shallower pool, of whose liquidity a part ends at the tick 4, and the rest at 40. -/
def crossedVenue : Adapter.ByrealClmmVenue SteppedX :=
  Sample.venueOver { Sample.loadedOf SteppedX { deepPool with liquidity := 5000000000 } with
    dynamicTickArrays := [
      (Sample.tickArrayAddress 0, .fixed (Sample.tickSlots SteppedX 0 fun t =>
        if t = 4 then some (-1000000000) else if t = 40 then some (-4000000000) else none))] }

theorem crossed_rate (amount : Nat) :
    crossedVenue.core.computeTradeFeeRate false amount crossedVenue.core.currentUnixTimestamp =
      .ok (2500 + if amount ≤ 2000000 then 0 else 1) := rfl

theorem crossed_ticks : crossedVenue.core.TicksAhead false 2 := by
  have hw : crossedVenue.core.Walkable false := by
    refine stepped_walkable rfl rfl rfl (by decide) fun entry hmem => ?_
    rw [List.mem_singleton.mp hmem]
    exact ⟨0, _, rfl, by decide +kernel⟩
  have htwo : (crossedVenue.core.ticksOnTheWay false none).length = 2 := by
    decide +kernel
  rw [← htwo]
  exact ticksAhead_onTheWay hw

/-- Across the step of the rate: ten atoms more make up for the higher fee and a crossed tick, and one
    atom more does not make up for the fee. -/
theorem full_quotes_monotone_sample :
    (∃ quote quote', crossedVenue.quote 100 (Sample.requestOf deepPool false 2000000) = .ok quote ∧
      crossedVenue.quote 100 (Sample.requestOf deepPool false 2000010) = .ok quote' ∧
      quote.expectedOutput ≤ quote'.expectedOutput) ∧
    ∃ quote quote', steppedVenue.quote 100 (Sample.requestOf deepPool false 2000000) = .ok quote ∧
      steppedVenue.quote 100 (Sample.requestOf deepPool false 2000001) = .ok quote' ∧
      quote'.expectedOutput ≤ quote.expectedOutput := by
  let full (v : ByrealClmmVenue SteppedX) (amount : UInt64) : Bool :=
    (v.quote 100 (Sample.requestOf deepPool false amount)).okAnd fun q => !q.notEnoughLiquidity
  have hfilled : full crossedVenue 2000000 = true ∧ full crossedVenue 2000010 = true := by
    decide +kernel
  have hfilled' : full steppedVenue 2000000 = true ∧ full steppedVenue 2000001 = true := by
    decide +kernel
  have hsteps : SwapStepLaw SteppedX := Reference.swapStepLaw rfl
  have hfee : FeeStepLaw SteppedX := Reference.feeStepLaw rfl rfl
  constructor
  · obtain ⟨quote, hquote, hfull⟩ := Except.okAnd_eq_true.mp hfilled.1
    obtain ⟨quote', hquote', hfull'⟩ := Except.okAnd_eq_true.mp hfilled.2
    rw [Bool.not_eq_true'] at hfull hfull'
    have hup : crossedVenue.directionOf (Sample.requestOf deepPool false 0) = false := by decide
    have hticks := crossed_ticks
    have hrate := crossed_rate (2000000 : UInt64).toNat
    have hrate' := crossed_rate (2000010 : UInt64).toNat
    rw [← hup] at hticks hrate hrate'
    have hmonotone := full_quotes_monotone hsteps hfee (by decide +kernel) (by decide +kernel)
      hticks hrate hrate' hquote hquote' hfull hfull'
    exact ⟨quote, quote', hquote, hquote', hmonotone.1 (Or.inr (by decide +kernel))⟩
  · obtain ⟨quote, hquote, hfull⟩ := Except.okAnd_eq_true.mp hfilled'.1
    obtain ⟨quote', hquote', hfull'⟩ := Except.okAnd_eq_true.mp hfilled'.2
    rw [Bool.not_eq_true'] at hfull hfull'
    have hup : steppedVenue.directionOf (Sample.requestOf deepPool false 0) = false := by decide
    have hticks := stepped_ticks
    have hrate := stepped_rate (2000000 : UInt64).toNat
    have hrate' := stepped_rate (2000001 : UInt64).toNat
    rw [← hup] at hticks hrate hrate'
    have hmonotone := full_quotes_monotone hsteps hfee (by decide +kernel) (by decide +kernel)
      hticks hrate hrate' hquote hquote' hfull hfull'
    exact ⟨quote, quote', hquote, hquote', hmonotone.2 (Or.inr (by decide +kernel))⟩

end Sample

end Adapter.ByrealClmmVenue

end ByrealTitan
