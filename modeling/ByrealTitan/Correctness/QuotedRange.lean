import ByrealTitan.Correctness.Accounting
import ByrealTitan.Correctness.Boundaries
import ByrealTitan.Correctness.Monotone
import ByrealTitan.Correctness.Updated

/-!
# `Correctness.QuotedRange` — every amount between the bounds quotes

A refresh finds its bounds with a few probes. What lies between them is a fact about two runs of the
swap: where an amount is filled every smaller one is, and puts out no more (`Fills.less`). So the
amounts that quote validly are an interval, and the published bounds are its ends up to a hundred
(`published_bounds_quote`).

The prices a run meets stay between the limits (`runMeets_within`), so the conversions need to be total
only there.
-/

namespace ByrealTitan

namespace Clmm

open Direction

variable {X : Crates} {zeroForOne : Bool}

/-! ## Prices between the limits -/

/-- On the way from a price between the limits to the default limit lie such prices only. -/
theorem WithinLimits.between {price target : Nat} (hprice : WithinLimits X price)
    (hmove : Toward zeroForOne price target)
    (hlimit : Toward zeroForOne target (ByrealClmmVenue.defaultPriceLimit X zeroForOne)) :
    WithinLimits X target := by
  obtain ⟨hlow, hhigh⟩ := hprice
  unfold Toward ByrealClmmVenue.defaultPriceLimit at *
  cases zeroForOne with
  | true =>
      simp only [if_true] at hmove hlimit
      exact ⟨hlimit, Nat.le_trans hmove hhigh⟩
  | false =>
      simp only [Bool.false_eq_true, if_false] at hmove hlimit
      exact ⟨Nat.le_trans hlow hmove, hlimit⟩

namespace ByrealClmmVenue

variable {v : ByrealClmmVenue X} {fuel fuel' amount : Nat} {currentTimestamp : Int}

/-- The pool can be navigated, and its price lies at its tick and between the limits. -/
structure Swappable (v : ByrealClmmVenue X) (zeroForOne : Bool) : Prop where
  navigable : Navigable v zeroForOne
  inTick : PriceInTick v
  within : WithinLimits X v.poolState.sqrtPriceX64

theorem Swappable.toward_limit (h : Swappable v zeroForOne) :
    Toward zeroForOne v.poolState.sqrtPriceX64 (defaultPriceLimit X zeroForOne) := by
  unfold Toward defaultPriceLimit
  cases zeroForOne with
  | true => exact h.within.low
  | false => exact h.within.high

/-- A run reaches prices between the limits only. -/
theorem Walked.within (hpool : Swappable v zeroForOne) (hbounds : StepBounds X) (hticks : TickPriceLaw X)
    {searchFuel feeRate : Nat} {nav : TickNavState} (hnav : v.initTickNavState fuel zeroForOne = .ok nav)
    {log : List Move} {c : SwapState × TickNavState}
    (h : Walked v searchFuel feeRate (defaultPriceLimit X zeroForOne) zeroForOne currentTimestamp
      (v.initialSwapState amount, nav) log c) : WithinLimits X c.1.sqrtPriceX64 := by
  obtain ⟨hsteady, hmoved⟩ := h.steady hpool.navigable hbounds hticks hpool.inTick hpool.toward_limit hnav
  exact hpool.within.between hmoved hsteady.limit

/-- **The prices between the limits are all that a run meets.** -/
theorem runMeets_within (hpool : Swappable v zeroForOne) (hbounds : StepBounds X) (hticks : TickPriceLaw X)
    (hconv : ConversionLaw X) (feeRate : Nat) {nav : TickNavState}
    (hnav : v.initTickNavState fuel zeroForOne = .ok nav) :
    RunMeets v (WithinLimits X) fuel feeRate (defaultPriceLimit X zeroForOne) zeroForOne currentTimestamp
      (v.initialSwapState amount, nav) := by
  intro n c nextTick nav' hreach hrun hfind
  obtain ⟨log, -, hwalked⟩ := exists_walked hreach
  obtain ⟨hsteady, -⟩ := hwalked.steady hpool.navigable hbounds hticks hpool.inTick hpool.toward_limit hnav
  obtain ⟨hfound, -⟩ := hsteady.course.found hpool.navigable hrun hfind
  have hway : ∀ {p}, X.getSqrtPriceAtTick nextTick = .ok p → _ := fun hp =>
    targetPrice_toward (hsteady.prices hrun _ _ hfound.ahead hp) hsteady.limit
  refine ⟨fun hp => ?_, fun hp hprice hstep _ => ?_⟩
  · obtain ⟨htarget, -, hlimit⟩ := hway hp
    exact (hwalked.within hpool hbounds hticks hnav).between htarget hlimit
  · obtain ⟨htarget, -, hlimit⟩ := hway hp
    obtain ⟨hmoves, hshort⟩ := hbounds.between hstep htarget
    exact hconv.tick (hprice.between hmoves (hshort.trans hlimit))

/-- A swap ends between the limits. -/
theorem computeSwap_within (hpool : Swappable v zeroForOne) (hbounds : StepBounds X)
    (hticks : TickPriceLaw X)
    {swap : SwapResult} (h : v.computeSwap fuel zeroForOne amount none currentTimestamp = .ok swap) :
    WithinLimits X swap.sqrtPriceX64 := by
  obtain ⟨feeRate, nav, state, -, hnav, hloop, -, rfl⟩ := computeSwap_eq_ok.mp h
  have hsteps : v.simulateSwapSteps fuel feeRate amount (defaultPriceLimit X zeroForOne) zeroForOne
      currentTimestamp = .ok state := Except.bind_eq_ok.mpr ⟨nav, hnav, hloop⟩
  obtain ⟨⟨nav, log, nav', hnav, hwalked⟩, -⟩ := simulateSwapSteps_walked hsteps
  exact hwalked.within hpool hbounds hticks hnav

/-! ## Filled amounts -/

/-- A swap of the amount spends all of it, and puts out this much. -/
def Fills (v : ByrealClmmVenue X) (fuel : Nat) (zeroForOne : Bool) (amount out : Nat) : Prop :=
  ∃ swap, v.computeSwap fuel zeroForOne amount none v.currentUnixTimestamp = .ok swap ∧
    swap.amountIn = amount ∧ swap.amountOut = out

theorem Fills.mono {out : Nat} (hle : fuel ≤ fuel') (h : v.Fills fuel zeroForOne amount out) :
    v.Fills fuel' zeroForOne amount out := by
  obtain ⟨swap, hswap, hall, hout⟩ := h
  exact ⟨swap, (v.computeSwap_below hle _ _ _ _).of_ok hswap, hall, hout⟩

theorem Fills.unique {out out' : Nat} (h : v.Fills fuel zeroForOne amount out)
    (h' : v.Fills fuel zeroForOne amount out') : out' = out := by
  obtain ⟨swap, hswap, -, rfl⟩ := h
  obtain ⟨swap', hswap', -, rfl⟩ := h'
  rw [Except.ok.inj (hswap'.symm.trans hswap)]

/-- **Where an amount is filled every smaller one is**, and puts out no more. -/
theorem Fills.less (hpool : Swappable v zeroForOne) (hsteps : SwapStepLaw X) (hbounds : StepBounds X)
    (hticks : TickPriceLaw X) (hconv : ConversionLaw X) (hstatic : v.isSwapDynamicFeeEnabled = false)
    {a b out : Nat} (hab : a ≤ b) (hb : b ≤ U64_MAX) (h : v.Fills fuel zeroForOne b out) :
    ∃ out', v.Fills fuel zeroForOne a out' ∧ out' ≤ out := by
  obtain ⟨large, hlarge, hall, rfl⟩ := h
  have hword : b < 2 ^ 64 := by
    unfold U64_MAX at hb
    omega
  obtain ⟨small, hsmall, halong⟩ := computeSwap_alongside hsteps
    (fun feeRate nav hnav => runMeets_within hpool hbounds hticks hconv feeRate hnav) hpool.within hab
    hword (computeTradeFeeRate_static hstatic _ _ _ _) hlarge
  exact ⟨small.amountOut, ⟨small, hsmall, halong.full hall, rfl⟩, halong.amountOut⟩

/-- Of two filled amounts the smaller one puts out no more, whatever fuel each of them was given. -/
theorem Fills.output_le (hpool : Swappable v zeroForOne) (hsteps : SwapStepLaw X) (hbounds : StepBounds X)
    (hticks : TickPriceLaw X) (hconv : ConversionLaw X) (hstatic : v.isSwapDynamicFeeEnabled = false)
    {a b out out' : Nat} (hab : a ≤ b) (hb : b ≤ U64_MAX) (h : v.Fills fuel zeroForOne a out)
    (h' : v.Fills fuel' zeroForOne b out') : out ≤ out' := by
  obtain ⟨least, hleast, hle⟩ :=
    (h'.mono (Nat.le_max_right fuel fuel')).less hpool hsteps hbounds hticks hconv hstatic hab hb
  rw [(h.mono (Nat.le_max_left fuel fuel')).unique hleast] at hle
  exact hle

/-- What is filled is quoted so. -/
theorem Fills.answer (hpool : Swappable v zeroForOne) (hbounds : StepBounds X) (hticks : TickPriceLaw X)
    (hconv : ConversionLaw X) (hbase : BaseFeeLaw v) (hstatic : v.isSwapDynamicFeeEnabled = false)
    (hamount : amount ≠ 0) {out : Nat}
    (h : v.Fills fuel zeroForOne amount out) (upperBound : Option Nat) :
    ∃ quote, v.answer fuel zeroForOne amount upperBound = .ok quote ∧ quote.inAmount = amount ∧
      quote.outAmount = out ∧ quote.notEnoughLiquidity = false := by
  obtain ⟨swap, hswap, hall, rfl⟩ := h
  obtain ⟨quote, hquote, hin, hout, hnot⟩ := answer_of_swap
    (hconv.price (computeSwap_within hpool hbounds hticks hswap)) hbase hstatic hamount hswap upperBound
  refine ⟨quote, hquote, hin.trans hall, hout, ?_⟩
  rw [hnot, hall]
  exact decide_eq_false (Nat.lt_irrefl _)

/-- A valid answer comes from an amount that is filled. -/
theorem fills_of_answer {quote : CoreQuoteResult} {upperBound : Option Nat}
    (h : v.answer fuel zeroForOne amount upperBound = .ok quote) (hfull : quote.notEnoughLiquidity = false)
    (hout : 0 < quote.outAmount) : amount ≠ 0 ∧ v.Fills fuel zeroForOne amount quote.outAmount := by
  have hamount : amount ≠ 0 := by
    rintro rfl
    have hzero := (quoteZero_amounts h).2.1
    omega
  obtain ⟨swap, hswap, hall, -, hquoted⟩ := answer_full hamount h hfull
  exact ⟨hamount, swap, hswap, hall, hquoted.symm⟩

end ByrealClmmVenue

end Clmm

namespace Adapter.ByrealClmmVenue

open Clmm Clmm.ByrealClmmVenue

variable {X : Crates} {v : Adapter.ByrealClmmVenue X} {fuel fuel' : Nat} {inputMint outputMint : Pubkey}
  {zeroForOne : Bool} {x : Nat}

/-! ## Probes of the bounds -/

theorem validQuote_eq_true {quote : QuoteResult} :
    validQuote quote = true ↔ quote.notEnoughLiquidity = false ∧ 0 < quote.expectedOutput := by
  unfold validQuote
  simp [Nat.pos_iff_ne_zero]

/-- An amount of the search is a request's. -/
theorem toNat_ofNat_of_le_max (hx : x ≤ U64_MAX) : (UInt64.ofNat x).toNat = x := by
  apply UInt64.toNat_ofNat_of_lt'
  unfold U64_MAX at hx
  show x < 2 ^ 64
  omega

/-- The quoting function of the search answers as the core does. -/
theorem quoteForBounds_eq (hx : x ≤ U64_MAX) (haccepts : v.core.Accepts inputMint outputMint zeroForOne) :
    v.quoteForBounds fuel inputMint outputMint x = do
      let core ← v.core.answer fuel zeroForOne x none
      return {
        inputMint, outputMint
        amount := core.inAmount
        expectedOutput := core.outAmount
        notEnoughLiquidity := core.notEnoughLiquidity
        price := 0 } := by
  unfold quoteForBounds Clmm.ByrealClmmVenue.quote
  rw [Accepts.quote_eq (v := v.core) haccepts]
  simp only [toNat_ofNat_of_le_max hx]

/-- An amount that a probe finds valid is filled. -/
theorem fills_of_valid (hx : x ≤ U64_MAX) (h : Valid (v.quoteForBounds fuel inputMint outputMint) x) :
    ∃ zeroForOne out, v.core.Accepts inputMint outputMint zeroForOne ∧ x ≠ 0 ∧
      v.core.Fills fuel zeroForOne x out ∧ 0 < out := by
  unfold Valid probe at h
  split at h
  next quote hquote =>
    obtain ⟨core, hcore, hquote⟩ := Except.bind_eq_ok.mp hquote
    obtain ⟨zeroForOne, haccepts, hanswer⟩ := quoteWithPriceUpperBound_eq_ok.mp hcore
    simp only [toNat_ofNat_of_le_max hx] at hanswer haccepts
    rw [← Except.ok.inj hquote] at h
    obtain ⟨hfull, hout⟩ := validQuote_eq_true.mp (Except.ok.inj h)
    obtain ⟨hne, hfills⟩ := fills_of_answer hanswer hfull hout
    exact ⟨zeroForOne, core.outAmount, haccepts, hne, hfills, hout⟩
  next => cases h
  next => cases h
  next => cases h

/-- What a probe refuses puts nothing out, on any fuel. -/
theorem not_fills_of_invalid (hpool : Swappable v.core zeroForOne) (hbounds : StepBounds X)
    (hticks : TickPriceLaw X) (hconv : ConversionLaw X) (hbase : BaseFeeLaw v.core)
    (hstatic : v.core.isSwapDynamicFeeEnabled = false)
    (haccepts : v.core.Accepts inputMint outputMint zeroForOne) (hx : x ≤ U64_MAX) (hne : x ≠ 0)
    (h : Invalid (v.quoteForBounds fuel inputMint outputMint) x) {out : Nat}
    (hfills : v.core.Fills fuel' zeroForOne x out) : out = 0 := by
  by_contra hout
  obtain ⟨core, hanswer, -, rfl, hfull⟩ :=
    (hfills.mono (Nat.le_max_right fuel fuel')).answer hpool hbounds hticks hconv hbase hstatic hne none
  have hbelow : (v.core.answer fuel zeroForOne x none).Below _ :=
    answer_below (Nat.le_max_left fuel fuel') none
  have hquote := @quoteForBounds_eq X v fuel inputMint outputMint zeroForOne x hx haccepts
  cases hfirst : v.core.answer fuel zeroForOne x none with
  | ok core' =>
      -- it is valid on the smaller fuel already
      obtain rfl : core' = core := Except.ok.inj ((hbelow.of_ok hfirst).symm.trans hanswer)
      rw [hfirst] at hquote
      apply h.not_valid
      unfold Valid probe
      rw [hquote]
      exact congrArg Except.ok (validQuote_eq_true.mpr ⟨hfull, Nat.pos_of_ne_zero hout⟩)
  | error e =>
      by_cases hdiverge : e = .diverge
      · subst hdiverge
        rw [hfirst] at hquote
        unfold Invalid probe at h
        rw [hquote] at h
        cases h
      · rw [hfirst] at hbelow
        rw [hbelow fun he => hdiverge (Except.error.inj he)] at hanswer
        cases hanswer

/-! ## The published bounds -/

/-- A request for an exact input. -/
def exactIn (inputMint outputMint : Pubkey) (amount : UInt64) : QuoteRequest :=
  { inputMint, outputMint, amount, swapType := .exactIn }

/-- The bounds a refresh stored for a direction are what the search found there. -/
theorem Updated.stored {lo hi : Nat} (h : Updated v)
    (hstored : v.boundsForMints inputMint outputMint = some (lo, hi)) :
    ∃ fuel, findBoundaries (v.quoteForBounds fuel inputMint outputMint) = .ok (lo, hi) := by
  obtain ⟨fuel, bounds0, bounds1, hcache, h0, h1⟩ := h.bounds
  unfold boundsForMints at hstored
  rw [hcache] at hstored
  simp only at hstored
  split at hstored
  next hmints =>
    rw [hmints.1, hmints.2, ← Option.some.inj hstored]
    exact ⟨fuel, h0⟩
  next =>
    split at hstored
    next hmints =>
      rw [hmints.1, hmints.2, ← Option.some.inj hstored]
      exact ⟨fuel, h1⟩
    next => cases hstored

/-- A filled amount is quoted in full by an initialised venue. -/
theorem quote_of_fills (hpool : Swappable v.core zeroForOne) (hbounds : StepBounds X)
    (hticks : TickPriceLaw X) (hconv : ConversionLaw X) (hbase : BaseFeeLaw v.core)
    (hstatic : v.core.isSwapDynamicFeeEnabled = false) (hinit : v.initialized = true)
    (haccepts : v.core.Accepts inputMint outputMint zeroForOne) {x : UInt64} {out : Nat}
    (hne : x.toNat ≠ 0) (h : v.core.Fills fuel zeroForOne x.toNat out) :
    ∃ quote, v.quote fuel (exactIn inputMint outputMint x) = .ok quote ∧ quote.notEnoughLiquidity = false ∧
      quote.amount = x.toNat ∧ quote.expectedOutput = out := by
  obtain ⟨core, hanswer, hin, hout, hfull⟩ := h.answer hpool hbounds hticks hconv hbase hstatic hne
    (v.upperBoundFor inputMint outputMint)
  exact ⟨_, quote_eq_ok.mpr ⟨⟨hinit, rfl⟩, zeroForOne, core, haccepts, hanswer, rfl⟩, hfull, hin, hout⟩

/-- And what an initialised venue quotes validly is filled. -/
theorem fills_of_quote {x : UInt64} {quote : QuoteResult}
    (haccepts : v.core.Accepts inputMint outputMint zeroForOne)
    (h : v.quote fuel (exactIn inputMint outputMint x) = .ok quote) (hvalid : validQuote quote = true) :
    x.toNat ≠ 0 ∧ v.core.Fills fuel zeroForOne x.toNat quote.expectedOutput ∧
    0 < quote.expectedOutput := by
  obtain ⟨-, zeroForOne', core, haccepts', hanswer, rfl⟩ := quote_eq_ok.mp h
  obtain rfl := haccepts.direction haccepts'
  obtain ⟨hfull, hout⟩ := validQuote_eq_true.mp hvalid
  obtain ⟨hne, hfills⟩ := fills_of_answer hanswer hfull hout
  exact ⟨hne, hfills, hout⟩

/-- **Every amount between the published bounds quotes**, in full and to a positive output that does not
    fall with the amount, and none beyond them by more than a hundred does. -/
theorem published_bounds_quote (hsteps : SwapStepLaw X) (hbounds : StepBounds X) (hticks : TickPriceLaw X)
    (hconv : ConversionLaw X) {u : Adapter.ByrealClmmVenue X} {cache : AccountsCache} (hbuilt : Built X u)
    (hupdate : u.updateState fuel cache = (.ok (), v)) (hbase : BaseFeeLaw v.core)
    (hstatic : v.core.isSwapDynamicFeeEnabled = false)
    (hpool : ∀ zeroForOne, Swappable v.core zeroForOne) {lo hi : Nat}
    (hstored : v.boundsForMints inputMint outputMint = some (lo, hi)) :
    (∃ N, ∀ fuel', N ≤ fuel' →
      (∀ x : UInt64, lo ≤ x.toNat → x.toNat ≤ hi →
        ∃ quote, v.quote fuel' (exactIn inputMint outputMint x) = .ok quote ∧
        quote.notEnoughLiquidity = false ∧
          quote.amount = x.toNat ∧ 0 < quote.expectedOutput) ∧
      ∀ (x y : UInt64) (quoteX quoteY : QuoteResult), lo ≤ x.toNat → x ≤ y → y.toNat ≤ hi →
        v.quote fuel' (exactIn inputMint outputMint x) = .ok quoteX →
        v.quote fuel' (exactIn inputMint outputMint y) = .ok quoteY →
        quoteX.expectedOutput ≤ quoteY.expectedOutput) ∧
    ∀ (fuel' : Nat) (x : UInt64) (quote : QuoteResult), x.toNat < lo - 99 ∨ hi + 100 < x.toNat →
      v.quote fuel' (exactIn inputMint outputMint x) = .ok quote → validQuote quote = false := by
  have hupdated := updateState_ok hbuilt hupdate
  obtain ⟨fuel₀, hsearch⟩ := hupdated.stored hstored
  obtain ⟨hpos, hle, hmax, hlo, hhi, ⟨l, hl, hnear, hlow⟩, h, hh, hhmax, hfar, hhigh⟩ :=
    findBoundaries_ok hsearch
  obtain ⟨zeroForOne, outHi, haccepts, -, hfillsHi, -⟩ := fills_of_valid hmax hhi
  obtain ⟨zeroForOne', outLo, haccepts', -, hfillsLo, houtLo⟩ := fills_of_valid (by omega) hlo
  obtain rfl := haccepts.direction haccepts'
  have hless : ∀ {fuel' a b out}, a ≤ b → b ≤ U64_MAX → v.core.Fills fuel' zeroForOne' b out →
      ∃ out', v.core.Fills fuel' zeroForOne' a out' ∧ out' ≤ out :=
    fun hab hb hfills => hfills.less (hpool _) hsteps hbounds hticks hconv hstatic hab hb
  have hmono : ∀ {f f' a b out out'}, a ≤ b → b ≤ U64_MAX → v.core.Fills f zeroForOne' a out →
      v.core.Fills f' zeroForOne' b out' → out ≤ out' :=
    fun hab hb hfills hfills' => hfills.output_le (hpool _) hsteps hbounds hticks hconv hstatic
      hab hb hfills'
  have hquoted : ∀ {fuel'}, fuel₀ ≤ fuel' → ∀ x : UInt64, lo ≤ x.toNat → x.toNat ≤ hi →
      ∃ out quote, v.core.Fills fuel' zeroForOne' x.toNat out ∧
        v.quote fuel' (exactIn inputMint outputMint x) = .ok quote ∧ quote.notEnoughLiquidity = false ∧
        quote.amount = x.toNat ∧ quote.expectedOutput = out := by
    intro fuel' hfuel x hlox hxhi
    obtain ⟨out, hfills, -⟩ := hless hxhi hmax (hfillsHi.mono hfuel)
    obtain ⟨quote, hquote⟩ := quote_of_fills (hpool _) hbounds hticks hconv hbase hstatic
      hupdated.initialized haccepts (by omega) hfills
    exact ⟨out, quote, hfills, hquote⟩
  refine ⟨⟨fuel₀, fun fuel' hfuel => ⟨?_, ?_⟩⟩, ?_⟩
  · intro x hlox hxhi
    obtain ⟨out, quote, hfills, hquote, hfull, hamount, rfl⟩ := hquoted hfuel x hlox hxhi
    have houtX := hmono hlox (by omega) hfillsLo hfills
    exact ⟨quote, hquote, hfull, hamount, by omega⟩
  · intro x y quoteX quoteY hlox hxy hyhi hquoteX hquoteY
    have hxy := UInt64.le_iff_toNat_le.mp hxy
    obtain ⟨outX, quoteX', hfillsX, hquoteX', -, -, rfl⟩ := hquoted hfuel x hlox (by omega)
    obtain ⟨outY, quoteY', hfillsY, hquoteY', -, -, rfl⟩ := hquoted hfuel y (by omega) hyhi
    obtain rfl : quoteX' = quoteX := Except.ok.inj (hquoteX'.symm.trans hquoteX)
    obtain rfl : quoteY' = quoteY := Except.ok.inj (hquoteY'.symm.trans hquoteY)
    exact hmono hxy (by omega) hfillsX hfillsY
  · intro fuel' x quote hbeyond hquote
    by_contra hvalid
    rw [Bool.not_eq_false] at hvalid
    obtain ⟨hne, hfills, hout⟩ := fills_of_quote haccepts hquote hvalid
    have hword := x.toNat_lt
    rcases hbeyond with hbelow | habove
    · -- a refused amount lies between `x` and the lower bound
      have hinvalid := hlow.resolve_left (by omega)
      obtain ⟨outL, hfillsL, -⟩ := hless (Nat.le_of_lt (Nat.lt_of_lt_of_le hl hle)) hmax hfillsHi
      have hrefused := not_fills_of_invalid (hpool _) hbounds hticks hconv hbase hstatic haccepts
        (by omega) (by omega) hinvalid hfillsL
      have hxl := hmono (show x.toNat ≤ l by omega) (by omega) hfills hfillsL
      omega
    · -- a refused amount lies between the upper bound and `x`
      have hinvalid := hhigh.resolve_left (by rw [U64_MAX_eq]; omega)
      obtain ⟨outH, hfillsH, -⟩ := hless (show h ≤ x.toNat by omega) (by rw [U64_MAX_eq]; omega) hfills
      have hrefused := not_fills_of_invalid (hpool _) hbounds hticks hconv hbase hstatic haccepts hhmax
        (by omega) hinvalid hfillsH
      have hloh := hmono (show lo ≤ h by omega) hhmax hfillsLo hfillsH
      omega

/-! ## A refreshed sample venue -/

section Sample

/-- The sample market, where the ticks end at 64. -/
abbrev NarrowX : Crates := Reference.narrow Sample.X

def narrowVenue : Adapter.ByrealClmmVenue NarrowX where
  core := Sample.freshOf NarrowX Sample.pool
  tokenInfo := baseTokenInfo (Sample.freshOf NarrowX Sample.pool)
  initialized := false
  currentEpoch := 0
  boundsCache := (none, none)

/-- The array is a fixed one that keeps its slots in place, with a spacing of one. -/
def keepsSlots : DynamicTickArrayState NarrowX → Bool
  | .fixed ta    =>
    decide (∀ i, (ta.ticks i).isInitialized = true → (ta.ticks i).tick = ta.startTickIndex +
      i.val * (1 : Nat))
  | .dynamic _ _ => false

theorem slotsInPlace_of_keepsSlots {ta : DynamicTickArrayState NarrowX} (h : keepsSlots ta = true) :
    SlotsInPlace NarrowX 1 ta := by
  cases ta with
  | fixed ta =>
      unfold keepsSlots at h
      rw [decide_eq_true_eq] at h
      exact h
  | dynamic header ticks => cases h

/-- What a refresh of the sample market comes to. -/
theorem narrowVenue_refreshed :
    let r := narrowVenue.updateState 100 Sample.goodCache
    r.1.failure? = none ∧ r.2.core.poolState = Sample.pool ∧
    r.2.boundsCache = (some (4, 1984), some (4, 1984)) ∧
      r.2.core.dynamicTickArrays.all (keepsSlots ·.2) = true := by
  decide +kernel

/-- It publishes the bounds 4 and 1984, and between them every amount quotes. -/
theorem published_bounds_quote_sample :
    ∃ v : Adapter.ByrealClmmVenue NarrowX, v.boundsForMints (Pubkey.fill 1)
      (Pubkey.fill 2) = some (4, 1984) ∧
      ∃ N, ∀ fuel, N ≤ fuel → ∃ quote, v.quote fuel (exactIn (Pubkey.fill 1) (Pubkey.fill 2) 1500) =
        .ok quote ∧
        quote.notEnoughLiquidity = false ∧ quote.amount = 1500 ∧ 0 < quote.expectedOutput := by
  obtain ⟨hfail, hpoolState, hcache, hkeeps⟩ := narrowVenue_refreshed
  obtain ⟨⟨⟩, hok⟩ := Except.exists_of_failure? hfail
  generalize hrefreshed : narrowVenue.updateState 100 Sample.goodCache = r at *
  obtain ⟨result, v⟩ := r
  simp only at hpoolState hcache hkeeps hok
  subst hok
  have hpool : ∀ zeroForOne, Swappable v.core zeroForOne := by
    intro zeroForOne
    refine ⟨navigable_of_sample_pool (Reference.standard_narrow _) zeroForOne hpoolState ?_ (by decide)
      (by decide), sample_priceInTick hpoolState, ?_⟩
    · intro entry hentry
      exact slotsInPlace_of_keepsSlots (List.all_eq_true.mp hkeeps entry hentry)
    · rw [hpoolState]
      exact ⟨by decide +kernel, by decide +kernel⟩
  have hstored : v.boundsForMints (Pubkey.fill 1) (Pubkey.fill 2) = some (4, 1984) := by
    unfold boundsForMints
    rw [hpoolState, hcache]
    decide
  have hstatic : v.core.isSwapDynamicFeeEnabled = false := by
    unfold isSwapDynamicFeeEnabled
    rw [hpoolState]
    decide
  have hbuilt : Built NarrowX narrowVenue :=
    @Built.fromAccount NarrowX Sample.market ⟨0, [1], BYREAL_CLMM_PROGRAM_ID⟩ _ rfl
  obtain ⟨⟨N, hquotes⟩, -⟩ := published_bounds_quote (Reference.swapStepLaw rfl) (Reference.stepBounds rfl)
    (Reference.narrow_ticks _) (Reference.narrow_conversions _) hbuilt hrefreshed
    (Reference.narrow_baseFee _) hstatic hpool hstored
  exact ⟨v, hstored, N, fun fuel hle => (hquotes fuel hle).1 1500 (by decide) (by decide)⟩

end Sample

end Adapter.ByrealClmmVenue

end ByrealTitan
