import ByrealTitan.Correctness.Faults
import ByrealTitan.Correctness.Ladder
import ByrealTitan.Correctness.Monotone

/-!
# `Correctness.Exhausted` — quotes that report insufficient liquidity

A swap that runs to the price limit with input left returns what it filled. One that finds no further
tick array fails instead, and its quote reports nothing filled, whatever the steps before had filled.
Which of the two a large amount meets is told by the ladder of the venue's ticks: quotes report what can
be filled exactly where the ticks lead to the price limit, or run out before any input is taken
(`insufficient_quote_reports_fill_iff`).
-/

namespace ByrealTitan

namespace Clmm

/-! ## Messages -/

/-- A message without a capital L does not report insufficient liquidity. -/
theorem SwapError.not_reportsInsufficient {e : SwapError} (h : 'L' ∉ e.text.toList) :
    e.reportsInsufficient = false := by
  unfold reportsInsufficient containsText
  rw [decide_eq_false_iff_not]
  intro hpart
  exact h (hpart.subset (by decide))

theorem L_not_mem_toString (t : Int) : 'L' ∉ (toString t).toList := by
  intro h
  have hdigits : ∀ n : Nat, 'L' ∉ (toString n).toList := by
    intro n hn
    have hn' : 'L' ∈ Nat.toDigits 10 n := by simpa [toString, Nat.repr] using hn
    have := Nat.isDigit_of_mem_toDigits (by omega) (by omega) hn'
    exact absurd this (by decide)
  cases t with
  | ofNat n => exact hdigits n h
  | negSucc n =>
      have hmem : 'L' ∈ '-' :: (toString (n + 1)).toList := by simpa [toString, Int.repr] using h
      rcases List.mem_cons.mp hmem with heq | hmem
      · exact absurd heq (by decide)
      · exact hdigits _ hmem

/-- A message that ends in a number does not report it either, where its words do not. -/
theorem numbered_plain {e : SwapError} {words : String} {n : Int} (htext : e.text = words ++ toString n)
    (hwords : 'L' ∉ words.toList) : e.reportsInsufficient = false := by
  refine SwapError.not_reportsInsufficient fun h => ?_
  rw [htext, String.toList_append, List.mem_append] at h
  rcases h with hmem | hmem
  · exact hwords hmem
  · exact L_not_mem_toString n hmem

theorem missingTick_plain (tick : Int) : (SwapError.missingTick tick).reportsInsufficient = false :=
  numbered_plain rfl (by decide)

/-- A failure whose message, if it has one, does not report insufficient liquidity. -/
def PlainFault (fault : Fault SwapError) : Prop := ∀ e, fault = .err e → e.reportsInsufficient = false

theorem PlainFault.err {e : SwapError} (h : e.reportsInsufficient = false) : PlainFault (.err e) := by
  intro e' he
  cases he
  exact h

theorem PlainFault.panic : PlainFault .panic := nofun

/-- The computation fails plainly, if at all. -/
abbrev Plain {α : Type} (x : SwapRes α) : Prop := Yields x (fun _ => True) PlainFault

namespace ByrealClmmVenue

variable {X : Crates} {v : ByrealClmmVenue X} {fuel : Nat} {zeroForOne : Bool} {currentTimestamp : Int}

/-- A step of the swap never fails with such a message. -/
theorem plain_applyStep (hplain : PlainErrors X) {feeRate sqrtPriceLimit : Nat} {state : SwapState}
    {nextTick : Int} :
    Plain (v.applyStep feeRate sqrtPriceLimit zeroForOne currentTimestamp state nextTick) := by
  refine Yields.intro (fun _ _ => trivial) fun fault hfault => ?_
  cases applyStep_fault hfault with
  | price hprice => exact .err (hplain.price hprice)
  | step hstep => exact .err (hplain.step hstep)
  | overflow he =>
      apply PlainFault.err
      simp only [List.mem_cons, List.not_mem_nil, or_false] at he
      rcases he with rfl | rfl | rfl
      · exact SwapError.not_reportsInsufficient (by decide)
      · exact SwapError.not_reportsInsufficient (by decide)
      · exact SwapError.not_reportsInsufficient (by decide)
  | exceeds hstep hspent => exact .err (SwapError.not_reportsInsufficient (by decide))
  | cross hprice hcross =>
      cases hcross with
      | slot hslot => exact .panic
      | missing => exact .err (missingTick_plain nextTick)
      | negated hnet hnegated => exact .panic
      | liquidity hdelta => exact .err (hplain.liquidity hdelta)
      | past hpast => exact .panic
  | tick htick => exact .err (hplain.tick htick)

/-! ## Where a simulation stops -/

/-- The state in which the simulation of a swap stops, with a result or without. -/
def stoppedAt (v : ByrealClmmVenue X) (fuel : Nat) (zeroForOne : Bool) (amount : Nat)
    (currentTimestamp : Int) : SwapState :=
  match v.computeTradeFeeRate zeroForOne amount currentTimestamp, v.initTickNavState fuel zeroForOne with
  | .ok feeRate, .ok nav =>
      (Loop.last (v.swapTurn fuel feeRate (defaultPriceLimit X zeroForOne) zeroForOne currentTimestamp)
        fuel (v.initialSwapState amount, nav)).1
  | _, _ => v.initialSwapState amount

variable {amount : Nat}

/-- A swap that completes stopped in the state it returned. -/
theorem stoppedAt_of_ok {swap : SwapResult}
    (h : v.computeSwap fuel zeroForOne amount none currentTimestamp = .ok swap) :
    (v.stoppedAt fuel zeroForOne amount currentTimestamp).amountCalculated = swap.amountOut := by
  obtain ⟨feeRate, nav, state, hfee, hnav, hloop, -, rfl⟩ := computeSwap_eq_ok.mp h
  unfold stoppedAt
  rw [hfee, hnav]
  rw [simulateLoop_eq] at hloop
  obtain ⟨n, -, -, ⟨s, hleave, hs⟩ | ⟨e, -, he⟩⟩ := Loop.exists_last (by rw [hloop]; exact Res.avoids_ok)
  · obtain rfl : s = state := Except.ok.inj (hs.symm.trans hloop)
    exact congrArg SwapState.amountCalculated (swapTurn_leave.mp hleave).2.symm
  · exact absurd (he.symm.trans hloop) nofun

/-- A swap whose loop fails reached the state it stopped in, and found no way on from there. -/
theorem stoppedAt_of_error (hplain : PlainErrors X) {e : SwapError} (he : e.reportsInsufficient = true)
    {feeRate : Nat} {nav : TickNavState}
    (hfee : v.computeTradeFeeRate zeroForOne amount currentTimestamp = .ok feeRate)
    (hnav : v.initTickNavState fuel zeroForOne = .ok nav)
    (hloop : v.simulateLoop fuel feeRate (defaultPriceLimit X zeroForOne) zeroForOne currentTimestamp fuel
      (v.initialSwapState amount) nav = .error (.err e)) :
    ∃ n nav', n < fuel ∧
      Loop.Reaches (v.swapTurn fuel feeRate (defaultPriceLimit X zeroForOne) zeroForOne currentTimestamp) n
        (v.initialSwapState amount, nav) (v.stoppedAt fuel zeroForOne amount currentTimestamp, nav') ∧
      Running (defaultPriceLimit X zeroForOne) (v.stoppedAt fuel zeroForOne amount currentTimestamp) ∧
      v.findNextInitializedTickWithNav fuel (v.stoppedAt fuel zeroForOne amount currentTimestamp).tick
        zeroForOne nav' = .error (.err e) := by
  have hstop : v.stoppedAt fuel zeroForOne amount currentTimestamp =
      (Loop.last (v.swapTurn fuel feeRate (defaultPriceLimit X zeroForOne) zeroForOne currentTimestamp)
        fuel (v.initialSwapState amount, nav)).1 := by
    unfold stoppedAt
    rw [hfee, hnav]
  rw [simulateLoop_eq] at hloop
  obtain ⟨n, hn, hreach, ⟨s, -, hs⟩ | ⟨fault, hturn, hfault⟩⟩ :=
    Loop.exists_last (by rw [hloop]; exact fun h => by cases h)
  · exact absurd (hs.symm.trans hloop) nofun
  · obtain rfl : fault = .err e := Except.error.inj (hfault.symm.trans hloop)
    obtain ⟨hrun, hfind | ⟨found, -, happly⟩⟩ := swapTurn_error.mp hturn
    · rw [hstop]
      exact ⟨n, _, hn, hreach, hrun, hfind⟩
    · -- a step does not fail with this message
      have hnot := (plain_applyStep hplain).of_error happly e rfl
      rw [he] at hnot
      cases hnot

/-! ## Ticks that run out -/

/-- At this rate the initialised ticks take `taken` for `given`, and
    then run out short of the price limit. -/
def RunsOut (v : ByrealClmmVenue X) (feeRate : Nat) (zeroForOne : Bool) (taken given : Nat) : Prop :=
  ∃ fuel nav q e, v.initTickNavState fuel zeroForOne = .ok nav ∧
    v.Ladder feeRate zeroForOne (fun _ _ => True) (v.foot nav) (taken, given) q ∧
    q.sqrtPriceX64 ≠ defaultPriceLimit X zeroForOne ∧ e.reportsInsufficient = true ∧
    v.findNextInitializedTickWithNav fuel q.tick zeroForOne q.nav = .error (.err e)

/-- Where the ticks run out, at the venue's fixed rate, they have taken and put out nothing. -/
def RunsOutUnfilled (v : ByrealClmmVenue X) (zeroForOne : Bool) : Prop :=
  ∀ feeRate taken given, v.computeTradeFeeRate zeroForOne 0 v.currentUnixTimestamp = .ok feeRate →
    v.RunsOut feeRate zeroForOne taken given → taken = 0 ∧ given = 0

variable {feeRate taken given : Nat} {nav : TickNavState}

/-- Behind a swap whose loop fails for want of ticks, the ticks run out. -/
theorem runsOut_of_error (hsteps : SwapStepLaw X) (hplain : PlainErrors X) (hword : amount < 2 ^ 64)
    {e : SwapError} (he : e.reportsInsufficient = true)
    (hfee : v.computeTradeFeeRate zeroForOne amount v.currentUnixTimestamp = .ok feeRate)
    (hnav : v.initTickNavState fuel zeroForOne = .ok nav)
    (hloop : v.simulateLoop fuel feeRate (defaultPriceLimit X zeroForOne) zeroForOne
      v.currentUnixTimestamp fuel (v.initialSwapState amount) nav = .error (.err e)) :
    ∃ taken, v.RunsOut feeRate zeroForOne taken
        (v.stoppedAt fuel zeroForOne amount v.currentUnixTimestamp).amountCalculated ∧
      taken < amount := by
  obtain ⟨n, nav', -, hreach, hrun, hfind⟩ := stoppedAt_of_error hplain he hfee hnav hloop
  obtain ⟨taken, given, hladder, hrem, hcalc⟩ := reaches_ladder hsteps hword hreach hrun.1
  have hinit : (v.initialSwapState amount).amountSpecifiedRemaining = amount := rfl
  have hnone : (v.initialSwapState amount).amountCalculated = 0 := rfl
  have hleft := hrun.1
  simp only [hinit, hnone, Nat.zero_add] at hrem hcalc
  rw [hcalc]
  exact ⟨taken, ⟨fuel, nav, _, e, hnav, hladder, hrun.2, he, hfind⟩, by omega⟩

/-- A swap that fails for want of ticks has not started, or the ticks run out behind it. -/
theorem unstarted_or_runsOut (hsteps : SwapStepLaw X) (hplain : PlainErrors X)
    (hstatic : v.isSwapDynamicFeeEnabled = false) (hword : amount < 2 ^ 64) {e : SwapError}
    (he : e.reportsInsufficient = true)
    (h : v.computeSwap fuel zeroForOne amount none v.currentUnixTimestamp = .error (.err e)) :
    ((v.stoppedAt fuel zeroForOne amount v.currentUnixTimestamp).amountCalculated = 0 ∧
        ∀ feeRate fuel' nav, v.computeTradeFeeRate zeroForOne 0 v.currentUnixTimestamp = .ok feeRate →
          v.initTickNavState fuel' zeroForOne ≠ .ok nav) ∨
      ∃ feeRate taken, v.computeTradeFeeRate zeroForOne 0 v.currentUnixTimestamp = .ok feeRate ∧
        v.RunsOut feeRate zeroForOne taken
          (v.stoppedAt fuel zeroForOne amount v.currentUnixTimestamp).amountCalculated ∧
          taken < amount := by
  rw [computeTradeFeeRate_static hstatic zeroForOne 0 amount]
  rcases computeSwap_eq_error h with hfee | ⟨feeRate, hfee, hnav | ⟨nav, hnav, hloop | hunder⟩⟩
  · left
    unfold stoppedAt
    rw [hfee]
    refine ⟨rfl, fun feeRate _ _ hfee' => ?_⟩
    cases hfee'
  · left
    unfold stoppedAt
    rw [hfee, hnav]
    refine ⟨rfl, fun _ fuel' nav _ hnav' => ?_⟩
    -- a failure that is no want of fuel stays a failure on more of it
    have hnav' := (v.initTickNavState_below (Nat.le_max_right fuel fuel')).of_ok hnav'
    have hbelow : (v.initTickNavState fuel zeroForOne).Below _ :=
      v.initTickNavState_below (Nat.le_max_left fuel fuel')
    rw [hnav] at hbelow
    rw [hbelow fun h => by cases h] at hnav'
    cases hnav'
  · right
    obtain ⟨taken, hruns, hless⟩ := runsOut_of_error hsteps hplain hword he hfee hnav hloop
    exact ⟨feeRate, taken, hfee, hruns, hless⟩
  · cases hunder
    exact absurd he (by decide)

/-- Behind a swap that leaves input, the ticks lead to the limit. -/
theorem ladder_of_part (hsteps : SwapStepLaw X) (hword : amount < 2 ^ 64)
    (hfee : v.computeTradeFeeRate zeroForOne amount v.currentUnixTimestamp = .ok feeRate)
    {swap : SwapResult}
    (h : v.computeSwap fuel zeroForOne amount none v.currentUnixTimestamp = .ok swap)
    (hpart : swap.amountIn < amount) :
    ∃ nav q, v.initTickNavState fuel zeroForOne = .ok nav ∧
      v.Ladder feeRate zeroForOne (fun _ _ => True) (v.foot nav) (swap.amountIn, swap.amountOut) q ∧
      q.sqrtPriceX64 = defaultPriceLimit X zeroForOne := by
  obtain ⟨feeRate', nav, state, hfee', hnav, hloop, -, rfl⟩ := computeSwap_eq_ok.mp h
  obtain rfl : feeRate' = feeRate := Except.ok.inj (hfee'.symm.trans hfee)
  rw [simulateLoop_eq, Loop.iterate_eq_ok] at hloop
  obtain ⟨n, c, -, hreach, hleave⟩ := hloop
  obtain ⟨hstop, rfl⟩ := swapTurn_leave.mp hleave
  simp only at hpart
  have hleft : c.1.amountSpecifiedRemaining ≠ 0 := by omega
  obtain ⟨taken, given, hladder, hrem, hcalc⟩ := reaches_ladder hsteps hword hreach hleft
  have hinit : (v.initialSwapState amount).amountSpecifiedRemaining = amount := rfl
  have hnone : (v.initialSwapState amount).amountCalculated = 0 := rfl
  simp only [hinit, hnone, Nat.zero_add] at hrem hcalc
  have hlimit : c.1.sqrtPriceX64 = defaultPriceLimit X zeroForOne := by
    by_contra hne
    exact hstop ⟨hleft, hne⟩
  refine ⟨nav, .of c, hnav, ?_, hlimit⟩
  have htaken : amount - c.1.amountSpecifiedRemaining = taken := by omega
  simp only [htaken, hcalc]
  exact hladder

/-- **No swap goes on where the ticks run out.** -/
theorem RunsOut.no_swap (hsteps : SwapStepLaw X) (h : v.RunsOut feeRate zeroForOne taken given) {x : Nat}
    (hword : x < 2 ^ 64) (hmore : taken < x)
    (hfee : v.computeTradeFeeRate zeroForOne x v.currentUnixTimestamp = .ok feeRate) (swap : SwapResult) :
    v.computeSwap fuel zeroForOne x none v.currentUnixTimestamp ≠ .ok swap := by
  intro hswap
  obtain ⟨fuel', nav, q, e, hnav, hladder, hshort, -, hfail⟩ := h
  exact hshort (swap_beyond hsteps hnav hladder (Or.inr ⟨fuel', e, hfail⟩) hword hmore hfee hswap).1

/-- The ticks run out in one place. -/
theorem RunsOut.unique (hsteps : SwapStepLaw X) {taken' given' : Nat}
    (h : v.RunsOut feeRate zeroForOne taken given)
    (h' : v.RunsOut feeRate zeroForOne taken' given') : taken' = taken ∧ given' = given := by
  obtain ⟨fuel, nav, q, e, hnav, hladder, -, -, hfail⟩ := h
  obtain ⟨fuel', nav', q', e', hnav', hladder', -, -, hfail'⟩ := h'
  obtain rfl : nav' = nav := Res.Below.agree (fun _ _ hle => v.initTickNavState_below hle) hnav' hnav
  obtain ⟨hsame, -⟩ := Ladder.unique hsteps hladder (Or.inr ⟨fuel, e, hfail⟩) hladder'
    (Or.inr ⟨fuel', e', hfail'⟩)
  exact Prod.mk.inj hsame

/-- Where a swap leaves input, the ticks do not run out at all. -/
theorem runsOutUnfilled_of_part (hsteps : SwapStepLaw X) (hstatic : v.isSwapDynamicFeeEnabled = false)
    (hword : amount < 2 ^ 64) {swap : SwapResult}
    (h : v.computeSwap fuel zeroForOne amount none v.currentUnixTimestamp = .ok swap)
    (hpart : swap.amountIn < amount) :
    v.RunsOutUnfilled zeroForOne := by
  rintro feeRate taken given hfee ⟨fuel', nav', q', e, hnav', hladder', hshort, -, hfail⟩
  rw [computeTradeFeeRate_static hstatic zeroForOne 0 amount] at hfee
  obtain ⟨nav, q, hnav, hladder, hlimit⟩ := ladder_of_part hsteps hword hfee h hpart
  obtain rfl : nav' = nav := Res.Below.agree (fun _ _ hle => v.initTickNavState_below hle) hnav' hnav
  obtain ⟨-, rfl⟩ := Ladder.unique hsteps hladder (Or.inl hlimit) hladder' (Or.inr ⟨fuel', e, hfail⟩)
  exact absurd hlimit hshort

/-- **What the ticks take before they run out can be filled**, by a
    swap that ends at the price of a tick. -/
theorem RunsOut.fills (hreach : ReachLaw X) (h : v.RunsOut feeRate zeroForOne taken given)
    (hsome : taken ≠ 0) (hword : taken < 2 ^ 64) (hfits : given < 2 ^ 64)
    (hfee : v.computeTradeFeeRate zeroForOne taken v.currentUnixTimestamp = .ok feeRate) :
    ∃ fuel swap t, v.computeSwap fuel zeroForOne taken none v.currentUnixTimestamp = .ok swap ∧
    swap.amountIn = taken ∧
      X.getSqrtPriceAtTick t = .ok swap.sqrtPriceX64 := by
  obtain ⟨fuel, nav, q, e, hnav, hladder, hshort, -, -⟩ := h
  have hcompletes : v.Completes feeRate zeroForOne (v.initialSwapState taken, nav) fun state =>
      state.amountSpecifiedRemaining = 0 ∧ AtTickPrice X state := by
    refine hladder.fills hreach hshort rfl rfl ?_ ?_ fun hnone => absurd hnone hsome
    · show 0 + taken < 2 ^ 64
      omega
    · show 0 + given < 2 ^ 64
      omega
  obtain ⟨fuel', state, ⟨hall, t, hprice⟩, hswap⟩ := hcompletes.computeSwap hword hnav hfee
  refine ⟨fuel', _, t, hswap, ?_, hprice⟩
  show taken - state.amountSpecifiedRemaining = taken
  omega

end ByrealClmmVenue

end Clmm

namespace Adapter.ByrealClmmVenue

open Clmm Clmm.ByrealClmmVenue

variable {X : Crates} {v : Adapter.ByrealClmmVenue X} {fuel : Nat} {request : QuoteRequest}
  {quote : QuoteResult}

/-- The direction a request swaps in. -/
def directionOf (v : Adapter.ByrealClmmVenue X) (request : QuoteRequest) : Bool :=
  decide (request.inputMint = v.core.reserveMints.1)

/-- The quote reports what can be filled: no amount beyond what it consumed, up to the requested one, is
    quoted as a full fill, and its output is what had been accumulated where the simulation stopped. -/
def ReportsFill (v : Adapter.ByrealClmmVenue X) (fuel : Nat) (request : QuoteRequest)
    (quote : QuoteResult) : Prop :=
  (∀ (x : UInt64) (fuel' : Nat) (quote' : QuoteResult), quote.amount < x.toNat → x ≤ request.amount →
    v.quote fuel' { request with amount := x } = .ok quote' → quote'.notEnoughLiquidity = true) ∧
  quote.expectedOutput = (v.core.stoppedAt fuel (v.directionOf request) request.amount.toNat
    v.core.currentUnixTimestamp).amountCalculated

/-- A full quote of an amount comes from a swap that spends it. -/
theorem full_quote_swap {x : UInt64} {fuel' : Nat} {quote' : QuoteResult} (hx : x.toNat ≠ 0)
    (h : v.quote fuel' { request with amount := x } = .ok quote')
    (hfull : quote'.notEnoughLiquidity = false) :
    ∃ swap, v.core.computeSwap fuel' (v.directionOf request) x.toNat none v.core.currentUnixTimestamp =
      .ok swap ∧ swap.amountIn = x.toNat := by
  obtain ⟨-, zeroForOne, core, haccepts, hanswer, rfl⟩ := quote_eq_ok.mp h
  obtain ⟨swap, hswap, hin, -, -⟩ := answer_full hx hanswer hfull
  obtain rfl := haccepts.eq_decide
  exact ⟨swap, hswap, hin⟩

/-- The requested amount that is not filled, with how it was quoted. -/
theorem insufficient_cases (hquote : v.quote fuel request = .ok quote)
    (hnot : quote.notEnoughLiquidity = true) :
    (∃ swap, v.core.computeSwap fuel (v.directionOf request) request.amount.toNat none
      v.core.currentUnixTimestamp = .ok swap ∧ swap.amountIn < request.amount.toNat ∧
      quote.amount = swap.amountIn ∧
        quote.expectedOutput = swap.amountOut) ∨
      ∃ e, v.core.computeSwap fuel (v.directionOf request) request.amount.toNat none
        v.core.currentUnixTimestamp = .error (.err e) ∧ e.reportsInsufficient = true ∧
        quote.amount = 0 ∧ quote.expectedOutput = 0 := by
  obtain ⟨-, zeroForOne, core, haccepts, hanswer, rfl⟩ := quote_eq_ok.mp hquote
  obtain rfl : zeroForOne = v.directionOf request := haccepts.eq_decide
  simp only at hnot
  have hamount : request.amount.toNat ≠ 0 := by
    intro hzero
    rw [hzero] at hanswer
    rw [(quoteZero_amounts hanswer).2.2] at hnot
    cases hnot
  rcases (answer_eq_ok hamount).mp hanswer with ⟨swap, hswap, hquoted⟩ | ⟨e, hfail, hquoted⟩
  · obtain ⟨hin, hout, hpart⟩ := quoteSwap_amounts hquoted
    rw [hnot] at hpart
    exact Or.inl ⟨swap, hswap, of_decide_eq_true hpart.symm, hin, hout⟩
  · obtain ⟨hreports, rfl⟩ := quoteFailure_eq_ok.mp hquoted
    exact Or.inr ⟨e, hfail, hreports, rfl, rfl⟩

/-- What the ticks take before they run out is quoted in full. -/
theorem full_quote_of_runsOut (hreach : ReachLaw X) (hconv : TickConversionLaw X)
    (hbase : BaseFeeLaw v.core)
    (hstatic : v.core.isSwapDynamicFeeEnabled = false) (hready : v.Ready request)
    (haccepts : v.core.Accepts request.inputMint request.outputMint (v.directionOf request))
    {feeRate taken given : Nat}
    (hfee : v.core.computeTradeFeeRate (v.directionOf request) 0 v.core.currentUnixTimestamp = .ok feeRate)
    (h : v.core.RunsOut feeRate (v.directionOf request) taken given) (hsome : taken ≠ 0)
    (hword : taken < 2 ^ 64) (hfits : given < 2 ^ 64) :
    ∃ fuel' quote', v.quote fuel' { request with amount := UInt64.ofNat taken } = .ok quote' ∧
      quote'.notEnoughLiquidity = false := by
  rw [computeTradeFeeRate_static hstatic _ 0 taken] at hfee
  obtain ⟨fuel', swap, t, hswap, hall, hprice⟩ := h.fills hreach hsome hword hfits hfee
  have htoNat : (UInt64.ofNat taken).toNat = taken := UInt64.toNat_ofNat_of_lt' hword
  obtain ⟨core, hcore, -, -, hfull⟩ := answer_of_swap (hconv.price hprice) hbase hstatic hsome hswap
    (v.upperBoundFor request.inputMint request.outputMint)
  refine ⟨fuel', _,
    quote_eq_ok.mpr ⟨hready, v.directionOf request, core,
      haccepts, by simp only [htoNat]; exact hcore, rfl⟩, ?_⟩
  show core.notEnoughLiquidity = false
  rw [hfull, hall]
  exact decide_eq_false (Nat.lt_irrefl taken)

/-- Where its ticks do not run out behind a fill, a quote reports what can be filled. -/
theorem reportsFill_of_unfilled (hsteps : SwapStepLaw X) (hplain : PlainErrors X)
    (hstatic : v.core.isSwapDynamicFeeEnabled = false) (hquote : v.quote fuel request = .ok quote)
    (hnot : quote.notEnoughLiquidity = true) (hunfilled : v.core.RunsOutUnfilled (v.directionOf request)) :
    v.ReportsFill fuel request quote := by
  have hword := request.amount.toNat_lt
  rcases insufficient_cases hquote hnot with ⟨large, hlarge, hpart, hin, hout⟩ | ⟨e, hfail, he, hin, hout⟩
  · -- the ticks lead to the limit, where every larger amount stops as well
    refine ⟨?_, hout.trans (stoppedAt_of_ok hlarge).symm⟩
    intro x fuel' quote' hx hle hquote'
    by_contra hfull
    rw [Bool.not_eq_true] at hfull
    obtain ⟨swap, hswap, hall⟩ := full_quote_swap (by omega) hquote' hfull
    obtain ⟨feeRate, -, -, hfee, -⟩ := computeSwap_eq_ok.mp hlarge
    obtain ⟨nav, q, hnav, hladder, hlimit⟩ := ladder_of_part hsteps hword hfee hlarge hpart
    rw [computeTradeFeeRate_static hstatic _ request.amount.toNat x.toNat] at hfee
    obtain ⟨-, hsame, -⟩ := swap_beyond hsteps hnav hladder (Or.inl hlimit) x.toNat_lt
      (by omega) hfee hswap
    simp only at hsame
    omega
  · rcases unstarted_or_runsOut hsteps hplain hstatic hword he hfail with ⟨hnone, hnever⟩ |
      ⟨feeRate, taken, hfee, hruns, -⟩
    · refine ⟨?_, hout.trans hnone.symm⟩
      intro x fuel' quote' hx hle hquote'
      by_contra hfull
      rw [Bool.not_eq_true] at hfull
      obtain ⟨swap, hswap, -⟩ := full_quote_swap (by omega) hquote' hfull
      obtain ⟨feeRate, nav, -, hfee, hnav, -⟩ := computeSwap_eq_ok.mp hswap
      rw [computeTradeFeeRate_static hstatic _ x.toNat 0] at hfee
      exact hnever feeRate fuel' nav hfee hnav
    · obtain ⟨rfl, hnone⟩ := hunfilled feeRate taken _ hfee hruns
      refine ⟨?_, hout.trans hnone.symm⟩
      intro x fuel' quote' hx hle hquote'
      by_contra hfull
      rw [Bool.not_eq_true] at hfull
      obtain ⟨swap, hswap, -⟩ := full_quote_swap (by omega) hquote' hfull
      rw [computeTradeFeeRate_static hstatic _ 0 x.toNat] at hfee
      exact hruns.no_swap hsteps x.toNat_lt (by omega) hfee swap hswap

/-- **A quote of insufficient liquidity reports what can be filled exactly where the initialised ticks do
    not run out behind a fill**: where they do, it reports zero. -/
theorem insufficient_quote_reports_fill_iff (hsteps : SwapStepLaw X) (hplain : PlainErrors X)
    (hstatic : v.core.isSwapDynamicFeeEnabled = false) (hquote : v.quote fuel request = .ok quote)
    (hnot : quote.notEnoughLiquidity = true) :
    (v.core.RunsOutUnfilled (v.directionOf request) → v.ReportsFill fuel request quote) ∧
      (ReachLaw X → TickConversionLaw X → BaseFeeLaw v.core → v.ReportsFill fuel request quote →
        v.core.RunsOutUnfilled (v.directionOf request)) := by
  refine ⟨reportsFill_of_unfilled hsteps hplain hstatic hquote hnot, fun hreach hconv hbase hreport => ?_⟩
  have hword := request.amount.toNat_lt
  obtain ⟨hready, zeroForOne, -, haccepts, -⟩ := quote_eq_ok.mp hquote
  obtain rfl : zeroForOne = v.directionOf request := haccepts.eq_decide
  rcases insufficient_cases hquote hnot with ⟨large, hlarge, hpart, -⟩ | ⟨e, hfail, he, hin, hout⟩
  · exact runsOutUnfilled_of_part hsteps hstatic hword hlarge hpart
  · obtain ⟨hfills, hreported⟩ := hreport
    rintro feeRate taken given hfee hruns
    rcases unstarted_or_runsOut hsteps hplain hstatic hword he hfail with ⟨-, hnever⟩ |
      ⟨feeRate', taken', hfee', hruns', hless⟩
    · obtain ⟨fuel', nav, -, -, hnav, -⟩ := hruns
      exact absurd hnav (hnever feeRate fuel' nav hfee)
    · obtain rfl : feeRate' = feeRate := Except.ok.inj (hfee'.symm.trans hfee)
      obtain ⟨rfl, hgiven⟩ := hruns.unique hsteps hruns'
      have hnone : given = 0 := by omega
      subst hnone
      refine ⟨?_, rfl⟩
      by_contra hsome
      -- what the ticks take would be quoted in full
      have htoNat : (UInt64.ofNat taken').toNat = taken' :=
        UInt64.toNat_ofNat_of_lt' (Nat.lt_trans hless hword)
      obtain ⟨fuel', quote', hquote', hfull⟩ := full_quote_of_runsOut hreach hconv hbase hstatic hready
        haccepts hfee hruns hsome (Nat.lt_trans hless hword) (by decide)
      rw [hfills _ fuel' quote' (by omega) (UInt64.le_iff_toNat_le.mpr (by omega)) hquote'] at hfull
      cases hfull

/-! ## A sample pool whose ticks run out -/

section Sample

/-- The sample pool, whose liquidity ends at the tick 4. -/
def endingVenue : Adapter.ByrealClmmVenue TotalX := Sample.venueOver (Sample.loadedOf TotalX Sample.pool)

theorem totalX_plain : PlainErrors TotalX where
  price {tick e} h := by
    have htext : 'L' ∉ ("Failed to get sqrt price at tick " ++ toString tick ++ ": " ++ e).toList := by
      simp only [Reference.total, Reference.crates, Reference.getSqrtPriceAtTick] at h
      split at h
      next =>
        cases h
        simp only [String.toList_append, List.mem_append, not_or]
        exact ⟨⟨⟨by decide, L_not_mem_toString tick⟩, by decide⟩, by decide⟩
      next => cases h
    exact SwapError.not_reportsInsufficient htext
  step h := by cases h
  liquidity {tick delta liquidity e} h := by
    have htext : 'L' ∉ ("Failed to adjust liquidity at tick " ++ toString tick ++ ": " ++ e).toList := by
      simp only [Reference.total, Reference.crates, Reference.addDelta] at h
      split at h
      next => cases h
      next =>
        cases h
        simp only [String.toList_append, List.mem_append, not_or]
        exact ⟨⟨⟨by decide, L_not_mem_toString tick⟩, by decide⟩, by decide⟩
    exact SwapError.not_reportsInsufficient htext
  tick h := by cases h

/-- **A pool that can fill a part of the request reports that it can fill nothing**: a thousand atoms are
    quoted in full, five thousand as zero for zero. -/
theorem exhausted_ticks_reported_as_empty :
    endingVenue.core.isSwapDynamicFeeEnabled = false ∧
      ∃ quote part, endingVenue.quote 100 (Sample.requestOf Sample.pool false 5000) = .ok quote ∧
        endingVenue.quote 100 (Sample.requestOf Sample.pool false 1000) = .ok part ∧
        quote.notEnoughLiquidity = true ∧ quote.amount = 0 ∧ quote.expectedOutput = 0 ∧
        part.notEnoughLiquidity = false ∧ part.amount = 1000 ∧ 0 < part.expectedOutput ∧
        0 < (endingVenue.core.stoppedAt 100 false 5000
          endingVenue.core.currentUnixTimestamp).amountCalculated := by
  have hquote : (endingVenue.quote 100 (Sample.requestOf Sample.pool false 5000)).okAnd
      (fun q => q.notEnoughLiquidity && decide (q.amount = 0 ∧ q.expectedOutput = 0)) = true := by
    decide +kernel
  have hpart : (endingVenue.quote 100 (Sample.requestOf Sample.pool false 1000)).okAnd
      (fun q => !q.notEnoughLiquidity && decide (q.amount = 1000 ∧ 0 < q.expectedOutput)) = true := by
    decide +kernel
  obtain ⟨quote, hquote, hq⟩ := Except.okAnd_eq_true.mp hquote
  obtain ⟨part, hpart, hp⟩ := Except.okAnd_eq_true.mp hpart
  simp only [Bool.and_eq_true, Bool.not_eq_true', decide_eq_true_eq] at hq hp
  exact ⟨rfl, quote, part, hquote, hpart, hq.1, hq.2.1, hq.2.2, hp.1, hp.2.1, hp.2.2, by decide +kernel⟩

/-- The concrete crates, but that prices end at that of the tick 2. -/
abbrev CappedX : Crates :=
  { TotalX with MAX_SQRT_PRICE_X64 := (Reference.getSqrtPriceAtTick 2).toOption.getD 0 + 1 }

/-- The sample pool, where swaps up end before the tick 4. -/
def cappedVenue : Adapter.ByrealClmmVenue CappedX := Sample.venueOver (Sample.loadedOf CappedX Sample.pool)

theorem cappedX_plain : PlainErrors CappedX where
  price h     := totalX_plain.price h
  step h      := by cases h
  liquidity h := totalX_plain.liquidity h
  tick h      := totalX_plain.tick h

/-- At the price limit a quote reports what was filled; where the ticks
    run out behind a fill it does not. -/
theorem insufficient_quote_sample :
    (∃ quote, cappedVenue.quote 100 (Sample.requestOf Sample.pool false 5000) = .ok quote ∧
      quote.notEnoughLiquidity = true ∧ 0 < quote.amount ∧
      cappedVenue.ReportsFill 100 (Sample.requestOf Sample.pool false 5000) quote) ∧
    ∃ quote, endingVenue.quote 100 (Sample.requestOf Sample.pool false 5000) = .ok quote ∧
      ¬ endingVenue.ReportsFill 100 (Sample.requestOf Sample.pool false 5000) quote := by
  have hcapped : (cappedVenue.quote 100 (Sample.requestOf Sample.pool false 5000)).okAnd
      (fun q => q.notEnoughLiquidity && decide (0 < q.amount)) = true := by decide +kernel
  have hending : (endingVenue.quote 100 (Sample.requestOf Sample.pool false 5000)).okAnd
      (fun q => q.notEnoughLiquidity) = true := by decide +kernel
  have hpart : (cappedVenue.core.computeSwap 100 false 5000 none
      cappedVenue.core.currentUnixTimestamp).okAnd (fun swap =>
        decide (swap.amountIn < 5000)) = true := by decide +kernel
  have hfails : (endingVenue.core.computeSwap 100 false 5000 none
      endingVenue.core.currentUnixTimestamp).failure? =
      some (.err .noFurtherTickArrays) := by decide +kernel
  have hsome : (endingVenue.core.stoppedAt 100 false 5000
      endingVenue.core.currentUnixTimestamp).amountCalculated ≠ 0 := by
    decide +kernel
  have hcappedSteps : SwapStepLaw CappedX := Reference.swapStepLaw rfl
  constructor
  · obtain ⟨quote, hquote, hflags⟩ := Except.okAnd_eq_true.mp hcapped
    obtain ⟨swap, hswap, hless⟩ := Except.okAnd_eq_true.mp hpart
    simp only [Bool.and_eq_true, decide_eq_true_eq] at hflags hless
    have hunfilled : cappedVenue.core.RunsOutUnfilled false :=
      runsOutUnfilled_of_part hcappedSteps rfl (by decide) hswap hless
    exact ⟨quote, hquote, hflags.1, hflags.2,
      (insufficient_quote_reports_fill_iff hcappedSteps cappedX_plain rfl hquote hflags.1).1 hunfilled⟩
  · obtain ⟨quote, hquote, hnot⟩ := Except.okAnd_eq_true.mp hending
    have hfail := Except.failure?_eq_some.mp hfails
    refine ⟨quote, hquote, fun hreport => ?_⟩
    have hunfilled := (insufficient_quote_reports_fill_iff totalX_steps totalX_plain rfl hquote hnot).2
      (Reference.reachLaw rfl) (Reference.total_tickConversions _) (Reference.total_baseFee _) hreport
    rcases unstarted_or_runsOut totalX_steps totalX_plain rfl (by decide) (by decide) hfail with
      ⟨hnone, -⟩ | ⟨feeRate, taken, hfee, hruns, -⟩
    · exact hsome hnone
    · exact hsome (hunfilled feeRate taken _ hfee hruns).2

end Sample

end Adapter.ByrealClmmVenue

end ByrealTitan
