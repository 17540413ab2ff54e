import ByrealTitan.Correctness.Fill
import ByrealTitan.Correctness.QuoteCases
import ByrealTitan.Lib.Climb
import Mathlib.Algebra.Group.Nat.Defs
import Mathlib.Algebra.Group.Prod

/-!
# `Correctness.Ladder` — the initialised ticks ahead as rungs

What a swap can take before the initialised ticks run out is told by the venue and the fee rate. From
each place a step gets to the next tick, and takes and puts out the same from every swap that has the
input for it; these steps are the rungs of a ladder, whose climbs add up what they take and put out. A
swap climbs it as far as its input goes (`reaches_ladder`, `Ladder.followed`), so where a ladder ends
decides what becomes of the larger amounts (`swap_beyond`), and a swap completes exactly where the
ladder takes its amount (`takes_of_swap`).
-/

namespace ByrealTitan.Clmm.ByrealClmmVenue

variable {X : Crates} {v : ByrealClmmVenue X}

/-! ## Places -/

/-- Where a swap stands, whatever input it has left. -/
structure Place where
  sqrtPriceX64 : Nat
  liquidity : Nat
  tick : Int
  nav : TickNavState

def Place.of (c : SwapState × TickNavState) : Place := ⟨c.1.sqrtPriceX64, c.1.liquidity, c.1.tick, c.2⟩

/-- A swap at this place, with `r` left. -/
def Place.swap (p : Place) (r : Nat) : SwapState where
  amountSpecifiedRemaining := r
  amountCalculated := 0
  sqrtPriceX64 := p.sqrtPriceX64
  tick := p.tick
  liquidity := p.liquidity
  feeAmount := 0

/-- Where the pool's swaps start. -/
def foot (v : ByrealClmmVenue X) (nav : TickNavState) : Place := .of (v.initialSwapState 0, nav)

/-- A swap from `p` with `r` left makes this step towards the next initialised tick `t` and its price. -/
structure StepsTo (v : ByrealClmmVenue X) (feeRate : Nat) (zeroForOne : Bool) (p : Place) (r : Nat)
    (t : Int) (sqrtPriceNext : Nat) (step : SwapStep) (p' : Place) : Prop where
  running : p.sqrtPriceX64 ≠ defaultPriceLimit X zeroForOne
  word : r < 2 ^ 64
  found : ∃ fuel, v.findNextInitializedTickWithNav fuel p.tick zeroForOne p.nav = .ok (t, p'.nav)
  price : X.getSqrtPriceAtTick t = .ok sqrtPriceNext
  made : stepTowards X feeRate (defaultPriceLimit X zeroForOne) zeroForOne v.currentUnixTimestamp
    (p.swap r) sqrtPriceNext = .ok step
  settled : ∃ state, v.settle zeroForOne t sqrtPriceNext (book (p.swap r) step) = .ok state ∧
    p' = .of (state, p'.nav)

variable {feeRate : Nat} {zeroForOne : Bool} {p p' p'' q : Place} {r r' : Nat} {t t' : Int}
  {sqrtPriceNext sqrtPriceNext' : Nat} {step step' : SwapStep}

/-- The price a step goes to. -/
abbrev goal (X : Crates) (zeroForOne : Bool) (sqrtPriceNext : Nat) : Nat :=
  targetPrice zeroForOne sqrtPriceNext (defaultPriceLimit X zeroForOne)

/-- No step takes more than is left, and one that falls short takes all of it. -/
theorem StepsTo.spends (hsteps : SwapStepLaw X)
    (h : v.StepsTo feeRate zeroForOne p r t sqrtPriceNext step p') :
    StepsAlong zeroForOne (goal X zeroForOne sqrtPriceNext) r step step := by
  obtain ⟨step₁, hstep₁, halong⟩ := hsteps.less (Nat.le_refl _) h.word h.made
  obtain rfl : step₁ = step := Except.ok.inj (hstep₁.symm.trans h.made)
  exact halong

/-- From one place there is one tick to go to. -/
theorem StepsTo.same_tick (h : v.StepsTo feeRate zeroForOne p r t sqrtPriceNext step p')
    (h' : v.StepsTo feeRate zeroForOne p r' t' sqrtPriceNext' step' p'') :
    t' = t ∧ sqrtPriceNext' = sqrtPriceNext ∧ p''.nav = p'.nav := by
  obtain ⟨fuel, hfind⟩ := h.found
  obtain ⟨fuel', hfind'⟩ := h'.found
  obtain ⟨rfl, hnav⟩ := Prod.mk.inj
    (Res.Below.agree (fun _ _ hle => v.findNextTick_below hle p.tick p.nav) hfind' hfind)
  exact ⟨rfl, Except.ok.inj (h'.price.symm.trans h.price), hnav⟩

/-- And one place that a step leads to. -/
theorem StepsTo.same_place (h : v.StepsTo feeRate zeroForOne p r t sqrtPriceNext step p')
    (h' : v.StepsTo feeRate zeroForOne p r' t' sqrtPriceNext' step p'') : p'' = p' := by
  obtain ⟨rfl, rfl, hnav⟩ := h.same_tick h'
  obtain ⟨state, hsettle, hplace⟩ := h.settled
  obtain ⟨state', hsettle', hplace'⟩ := h'.settled
  have hboth : v.settle zeroForOne t' sqrtPriceNext' (book (p.swap r') step) =
      .ok { book (p.swap r') step with tick := state.tick, liquidity := state.liquidity } := by
    apply settle_at ?_ ?_ hsettle
    · rfl
    · rfl
  rw [hsettle'] at hboth
  obtain ⟨tick, liquidity, rfl⟩ := settle_frame hsettle
  cases hboth
  rw [hplace', hplace, hnav]
  rfl

/-- **A step that gets to its goal is the step of every swap that
    does, or has more left than it takes.** -/
theorem StepsTo.same_step (hsteps : SwapStepLaw X)
    (h : v.StepsTo feeRate zeroForOne p r t sqrtPriceNext step p')
    (hreach : step.sqrtPriceNextX64 = goal X zeroForOne sqrtPriceNext)
    (h' : v.StepsTo feeRate zeroForOne p r' t' sqrtPriceNext' step' p'')
    (hmore : step'.sqrtPriceNextX64 = goal X zeroForOne sqrtPriceNext' ∨ step.spent < r') :
    step' = step := by
  obtain ⟨rfl, rfl, -⟩ := h.same_tick h'
  rcases Nat.le_total r r' with hle | hle
  · obtain ⟨step₁, hstep₁, halong⟩ := hsteps.less hle h'.word h'.made
    obtain rfl : step₁ = step := Except.ok.inj (hstep₁.symm.trans h.made)
    exact halong.reached hreach
  · obtain ⟨step₁, hstep₁, halong⟩ := hsteps.less hle h.word h.made
    obtain rfl : step₁ = step' := Except.ok.inj (hstep₁.symm.trans h'.made)
    by_cases hreach' : step₁.sqrtPriceNextX64 = goal X zeroForOne sqrtPriceNext'
    · exact (halong.reached hreach').symm
    · -- it would have taken all that is left, and no more than the other one
      have hall := (halong.short hreach').1
      have hle := halong.spent
      rcases hmore with hreach'' | hmore
      · exact absurd hreach'' hreach'
      · omega

/-! ## Rungs -/

/-- A step that gets to its goal, along a stretch of prices that satisfies
    `S`, with what it takes and puts out. -/
def Rung (v : ByrealClmmVenue X) (feeRate : Nat) (zeroForOne : Bool) (S : Nat → Nat → Prop) (p : Place)
    (m : Nat × Nat) (p' : Place) : Prop :=
  ∃ r t sqrtPriceNext step, v.StepsTo feeRate zeroForOne p r t sqrtPriceNext step p' ∧
    step.sqrtPriceNextX64 = goal X zeroForOne sqrtPriceNext ∧
    S p.sqrtPriceX64 (goal X zeroForOne sqrtPriceNext) ∧
    m = (step.spent, step.amountOut)

/-- Rung after rung, with what they take and put out in all. -/
abbrev Ladder (v : ByrealClmmVenue X) (feeRate : Nat) (zeroForOne : Bool) (S : Nat → Nat → Prop) :
    Place → Nat × Nat → Place → Prop :=
  Climb (v.Rung feeRate zeroForOne S)

variable {S : Nat → Nat → Prop} {m m' : Nat × Nat}

/-- From each place there is one rung. -/
theorem Rung.unique (hsteps : SwapStepLaw X) (h : v.Rung feeRate zeroForOne S p m p')
    (h' : v.Rung feeRate zeroForOne S p m' p'') : m' = m ∧ p'' = p' := by
  obtain ⟨r, t, sqrtPriceNext, step, hmade, hreach, -, rfl⟩ := h
  obtain ⟨r', t', sqrtPriceNext', step', hmade', hreach', -, rfl⟩ := h'
  obtain rfl := hmade.same_step hsteps hreach hmade' (Or.inl hreach')
  exact ⟨rfl, hmade.same_place hmade'⟩

/-- Nothing leads on from here: the price is the limit, or the search for the next tick fails. -/
def Stuck (v : ByrealClmmVenue X) (zeroForOne : Bool) (q : Place) : Prop :=
  q.sqrtPriceX64 = defaultPriceLimit X zeroForOne ∨
    ∃ fuel e, v.findNextInitializedTickWithNav fuel q.tick zeroForOne q.nav = .error (.err e)

theorem Stuck.no_step (h : v.Stuck zeroForOne q) :
    ¬ v.StepsTo feeRate zeroForOne q r t sqrtPriceNext step p' := by
  intro hmade
  rcases h with hlimit | ⟨fuel, e, hfail⟩
  · exact hmade.running hlimit
  · obtain ⟨fuel', hfind⟩ := hmade.found
    -- on the larger fuel the search would find a tick and fail
    have hfind := (v.findNextTick_below (Nat.le_max_right fuel fuel') q.tick q.nav).of_ok hfind
    have hbelow : (v.findNextInitializedTickWithNav fuel q.tick zeroForOne q.nav).Below _ :=
      v.findNextTick_below (Nat.le_max_left fuel fuel') q.tick q.nav
    rw [hfail] at hbelow
    rw [hbelow fun h => by cases h] at hfind
    cases hfind

theorem Stuck.no_rung (h : v.Stuck zeroForOne q) (m : Nat × Nat) (p' : Place) :
    ¬ v.Rung feeRate zeroForOne S q m p' := by
  rintro ⟨r, t, sqrtPriceNext, step, hmade, -⟩
  exact h.no_step hmade

/-- **A ladder ends in one place**, if it ends. -/
theorem Ladder.unique (hsteps : SwapStepLaw X) {q' : Place} (h : v.Ladder feeRate zeroForOne S p m q)
    (hstuck : v.Stuck zeroForOne q) (h' : v.Ladder feeRate zeroForOne S p m' q')
    (hstuck' : v.Stuck zeroForOne q') :
    m' = m ∧ q' = q :=
  Climb.unique (fun _ _ _ _ _ hrung hrung' => hrung.unique hsteps hrung') h hstuck.no_rung h'
    hstuck'.no_rung

/-! ## Swaps on a ladder -/

/-- A turn of the simulation of a quote. -/
abbrev quoteTurn (v : ByrealClmmVenue X) (searchFuel feeRate : Nat) (zeroForOne : Bool) :
    SwapState × TickNavState → SwapRes (Loop.Turn (SwapState × TickNavState) SwapState) :=
  v.swapTurn searchFuel feeRate (defaultPriceLimit X zeroForOne) zeroForOne v.currentUnixTimestamp

/-- What a step books. -/
structure Booked (c : SwapState) (step : SwapStep) (c' : SwapState) : Prop where
  remaining : c'.amountSpecifiedRemaining + step.spent = c.amountSpecifiedRemaining
  calculated : c'.amountCalculated = c.amountCalculated + step.amountOut
  fee : c'.feeAmount = c.feeAmount + step.feeAmount

variable {searchFuel n : Nat} {c c' : SwapState × TickNavState}

/-- A turn makes a step from where the swap stands. -/
theorem stepsTo_of_turn (hword : c.1.amountSpecifiedRemaining < 2 ^ 64)
    (h : v.quoteTurn searchFuel feeRate zeroForOne c = .ok (.next c')) :
    ∃ t sqrtPriceNext step,
      v.StepsTo feeRate zeroForOne (.of c) c.1.amountSpecifiedRemaining t sqrtPriceNext step (.of c') ∧
      Booked c.1 step c'.1 ∧ c'.1.amountCalculated < 2 ^ 64 := by
  obtain ⟨hrun, t, hfind, happly⟩ := swapTurn_next.mp h
  obtain ⟨sqrtPriceNext, step, hnext, hstep, hbook, hsettle⟩ := applyStep_eq_ok.mp happly
  have halike : v.settle zeroForOne t sqrtPriceNext
        (book ((Place.of c).swap c.1.amountSpecifiedRemaining) step) =
      .ok { book ((Place.of c).swap c.1.amountSpecifiedRemaining) step with
        tick := c'.1.tick, liquidity := c'.1.liquidity } := by
    apply settle_at ?_ ?_ hsettle
    · rfl
    · rfl
  obtain ⟨tick, liquidity, hframe⟩ := settle_frame hsettle
  refine ⟨t, sqrtPriceNext, step, ⟨hrun.2, hword, ⟨searchFuel, hfind⟩, hnext, hstep, _, halike, ?_⟩,
    ⟨?_, ?_, ?_⟩, ?_⟩
  · unfold Place.of
    rw [hframe]
    rfl
  · rw [hframe]
    exact Nat.sub_add_cancel hbook.covered
  · rw [hframe]
    rfl
  · rw [hframe]
    rfl
  · rw [hframe]
    exact hbook.output

/-- And a step from there is a turn, where its sums fit. -/
theorem turn_of_stepsTo (hmade : v.StepsTo feeRate zeroForOne (.of c) c.1.amountSpecifiedRemaining t
      sqrtPriceNext step p')
    (hsome : c.1.amountSpecifiedRemaining ≠ 0) (hbook : Bookable c.1 step) :
    ∃ searchFuel c', v.quoteTurn searchFuel feeRate zeroForOne c = .ok (.next c') ∧ Place.of c' = p' ∧
      Booked c.1 step c'.1 := by
  obtain ⟨searchFuel, hfind⟩ := hmade.found
  obtain ⟨state, hsettle, hplace⟩ := hmade.settled
  have halike : v.settle zeroForOne t sqrtPriceNext (book c.1 step) =
      .ok { book c.1 step with tick := state.tick, liquidity := state.liquidity } := by
    apply settle_at ?_ ?_ hsettle
    · rfl
    · rfl
  obtain ⟨tick, liquidity, rfl⟩ := settle_frame hsettle
  refine ⟨searchFuel, (_, p'.nav), swapTurn_next.mpr ⟨⟨hsome, hmade.running⟩, t, hfind,
    applyStep_eq_ok.mpr ⟨sqrtPriceNext, step, hmade.price, hmade.made, hbook, halike⟩⟩, ?_, ⟨?_, rfl, rfl⟩⟩
  · rw [hplace]
    rfl
  · exact Nat.sub_add_cancel hbook.covered

/-- **A swap with input left has climbed rungs only.** -/
theorem reaches_ladder (hsteps : SwapStepLaw X) (hword : c.1.amountSpecifiedRemaining < 2 ^ 64)
    (h : Loop.Reaches (v.quoteTurn searchFuel feeRate zeroForOne) n c c')
    (hleft : c'.1.amountSpecifiedRemaining ≠ 0) :
    ∃ taken given, v.Ladder feeRate zeroForOne (fun _ _ => True) (.of c) (taken, given) (.of c') ∧
      c'.1.amountSpecifiedRemaining + taken = c.1.amountSpecifiedRemaining ∧
      c'.1.amountCalculated = c.1.amountCalculated + given := by
  induction h with
  | start c => exact ⟨0, 0, .foot _, rfl, rfl⟩
  | @turn n c c₁ c₂ _ hturn ih =>
      have hrun := (swapTurn_next.mp hturn).1
      obtain ⟨taken, given, hladder, hrem, hcalc⟩ := ih hword hrun.1
      obtain ⟨t, sqrtPriceNext, step, hmade, hbooked, -⟩ := stepsTo_of_turn (by omega) hturn
      have hleft' := hbooked.remaining
      have hcalc' := hbooked.calculated
      have hreach : step.sqrtPriceNextX64 = goal X zeroForOne sqrtPriceNext := by
        by_contra hshort
        have hall := ((hmade.spends hsteps).short hshort).1
        omega
      refine ⟨taken + step.spent, given + step.amountOut,
        hladder.snoc ⟨_, t, sqrtPriceNext, step, hmade, hreach, trivial, rfl⟩, by omega, by omega⟩

/-- What is left only falls. -/
theorem reaches_remaining (hword : c.1.amountSpecifiedRemaining < 2 ^ 64)
    (h : Loop.Reaches (v.quoteTurn searchFuel feeRate zeroForOne) n c c') :
    c'.1.amountSpecifiedRemaining ≤ c.1.amountSpecifiedRemaining := by
  refine h.inv (I := fun c' => c'.1.amountSpecifiedRemaining ≤ c.1.amountSpecifiedRemaining)
    (fun c₁ c₂ hle hturn => ?_) (Nat.le_refl _)
  obtain ⟨t, sqrtPriceNext, step, -, hbooked, -⟩ := stepsTo_of_turn (Nat.lt_of_le_of_lt hle hword) hturn
  have hleft := hbooked.remaining
  omega

/-- **A swap with input for more than a whole ladder stays on it.** -/
theorem Ladder.followed (hsteps : SwapStepLaw X) (h : v.Ladder feeRate zeroForOne S (.of c) m q)
    (hstuck : v.Stuck zeroForOne q) (hword : c.1.amountSpecifiedRemaining < 2 ^ 64)
    (hmore : m.1 < c.1.amountSpecifiedRemaining)
    (hreach : Loop.Reaches (v.quoteTurn searchFuel feeRate zeroForOne) n c c') :
    ∃ rest : Nat × Nat, v.Ladder feeRate zeroForOne S (.of c') rest q ∧
      c'.1.amountSpecifiedRemaining + m.1 = c.1.amountSpecifiedRemaining + rest.1 ∧
      c'.1.amountCalculated + rest.2 = c.1.amountCalculated + m.2 := by
  induction hreach with
  | start c => exact ⟨m, h, rfl, rfl⟩
  | @turn n c c₁ c₂ hreach₁ hturn ih =>
      obtain ⟨rest, hrest, hrem, hcalc⟩ := ih h hword hmore
      have hle := reaches_remaining hword hreach₁
      obtain ⟨t, sqrtPriceNext, step, hmade, hbooked, -⟩ := stepsTo_of_turn (by omega) hturn
      have hleft := hbooked.remaining
      have hcalc' := hbooked.calculated
      cases hrest with
      | foot => exact absurd hmade hstuck.no_step
      | rung hrung hrest' =>
          obtain ⟨r, t', sqrtPriceNext', step', hmade', hreach', -, rfl⟩ := hrung
          simp only [Prod.fst_add, Prod.snd_add] at hrem hcalc
          obtain rfl := hmade'.same_step hsteps hreach' hmade (Or.inr (by omega))
          rw [hmade'.same_place hmade]
          exact ⟨_, hrest', by omega, by omega⟩

/-- **A swap of more than a whole ladder takes** stops where the ladder ends, if it completes. -/
theorem swap_beyond (hsteps : SwapStepLaw X) {fuel amount : Nat} {nav : TickNavState}
    (hnav : v.initTickNavState fuel zeroForOne = .ok nav)
    (h : v.Ladder feeRate zeroForOne S (v.foot nav) m q)
    (hstuck : v.Stuck zeroForOne q) (hword : amount < 2 ^ 64) (hmore : m.1 < amount)
    (hrate : v.computeTradeFeeRate zeroForOne amount v.currentUnixTimestamp = .ok feeRate) {fuel' : Nat}
    {swap : SwapResult}
    (hswap : v.computeSwap fuel' zeroForOne amount none v.currentUnixTimestamp = .ok swap) :
    q.sqrtPriceX64 = defaultPriceLimit X zeroForOne ∧ swap.amountIn = m.1 ∧ swap.amountOut = m.2 := by
  obtain ⟨feeRate', nav', state, hfee, hnav', hloop, -, rfl⟩ := computeSwap_eq_ok.mp hswap
  obtain rfl : feeRate' = feeRate := Except.ok.inj (hfee.symm.trans hrate)
  obtain rfl : nav' = nav := Res.Below.agree (fun _ _ hle => v.initTickNavState_below hle) hnav' hnav
  rw [simulateLoop_eq, Loop.iterate_eq_ok] at hloop
  obtain ⟨n, c, -, hreach, hleave⟩ := hloop
  obtain ⟨hstop, rfl⟩ := swapTurn_leave.mp hleave
  obtain ⟨rest, hrest, hrem, hcalc⟩ := h.followed (c := (v.initialSwapState amount, nav')) hsteps hstuck
    hword hmore hreach
  have hinit : (v.initialSwapState amount).amountSpecifiedRemaining = amount := rfl
  have hnone : (v.initialSwapState amount).amountCalculated = 0 := rfl
  simp only [hinit, hnone] at hrem hcalc
  -- it has input left, so it has stopped at the limit, where the ladder ends
  have hlimit : c.1.sqrtPriceX64 = defaultPriceLimit X zeroForOne := by
    by_contra hne
    exact hstop ⟨by omega, hne⟩
  obtain ⟨rfl, rfl⟩ := hrest.of_stuck (Stuck.no_rung (Or.inl hlimit))
  simp only [Prod.fst_zero, Prod.snd_zero] at hrem hcalc
  refine ⟨hlimit, ?_, ?_⟩
  · show amount - c.1.amountSpecifiedRemaining = m.1
    omega
  · show c.1.amountCalculated = m.2
    omega

/-! ## What a ladder takes -/

/-- Behind a ladder that takes `taken` and puts out `given`, an amount comes to its
    end: the ladder takes it, or leads to the price limit, or one more step takes what
    is left of it. What is put out fits its word. -/
def TakesAt (v : ByrealClmmVenue X) (feeRate : Nat) (zeroForOne : Bool) (S : Nat → Nat → Prop) (q : Place)
    (taken given amount : Nat) : Prop :=
  given < 2 ^ 64 ∧ (amount ≤ taken ∨ q.sqrtPriceX64 = defaultPriceLimit X zeroForOne ∨
    ∃ r t sqrtPriceNext step q', v.StepsTo feeRate zeroForOne q r t sqrtPriceNext step q' ∧
      S q.sqrtPriceX64 (goal X zeroForOne sqrtPriceNext) ∧ amount ≤ taken + step.spent ∧
      given + step.amountOut < 2 ^ 64)

/-- At this fee rate the initialised ticks ahead take the amount. -/
def Takes (v : ByrealClmmVenue X) (feeRate : Nat) (zeroForOne : Bool) (S : Nat → Nat → Prop)
    (amount : Nat) : Prop :=
  ∃ fuel nav taken given q, v.initTickNavState fuel zeroForOne = .ok nav ∧
    v.Ladder feeRate zeroForOne S (v.foot nav) (taken, given) q ∧
    v.TakesAt feeRate zeroForOne S q taken given amount

/-- How a step is settled does not depend on what was left. -/
theorem StepsTo.settled_at (h : v.StepsTo feeRate zeroForOne p r t sqrtPriceNext step p') (r' : Nat) :
    ∃ state, v.settle zeroForOne t sqrtPriceNext (book (p.swap r') step) = .ok state ∧
    p' = .of (state, p'.nav) := by
  obtain ⟨state, hsettle, hplace⟩ := h.settled
  refine ⟨{ book (p.swap r') step with tick := state.tick, liquidity := state.liquidity }, ?_, ?_⟩
  · apply settle_at ?_ ?_ hsettle
    · rfl
    · rfl
  · obtain ⟨tick, liquidity, rfl⟩ := settle_frame hsettle
    rw [hplace]
    rfl

/-- A step that gets to its goal is made by every swap that has the input for it. -/
theorem StepsTo.again (hreach : ReachLaw X) (h : v.StepsTo feeRate zeroForOne p r t sqrtPriceNext step p')
    (hgoal : step.sqrtPriceNextX64 = goal X zeroForOne sqrtPriceNext) (hcovers : step.spent ≤ r')
    (hword : r' < 2 ^ 64) :
    v.StepsTo feeRate zeroForOne p r' t sqrtPriceNext step p' :=
  ⟨h.running, hword, h.found, h.price, hreach.reach h.made hgoal hcovers hword, h.settled_at r'⟩

/-- A stretch of prices between the limits, in the direction of the swap. -/
structure InOrder (X : Crates) (zeroForOne : Bool) (price target : Nat) : Prop where
  start : WithinLimits X price
  goal : WithinLimits X target
  toward : Toward zeroForOne price target

theorem InOrder.between {price target amid : Nat} (h : InOrder X zeroForOne price target)
    (hmoved : Toward zeroForOne price amid) (hbefore : Toward zeroForOne amid target) :
    WithinLimits X amid := by
  have hstart := h.start
  have hgoal := h.goal
  unfold Toward at hmoved hbefore
  cases zeroForOne with
  | true =>
      simp only [if_true] at hmoved hbefore
      exact ⟨Nat.le_trans hgoal.low hbefore, Nat.le_trans hmoved hstart.high⟩
  | false =>
      simp only [Bool.false_eq_true, if_false] at hmoved hbefore
      exact ⟨Nat.le_trans hstart.low hmoved, Nat.le_trans hbefore hgoal.high⟩

/-- **A part of a step** takes all that is left, where prices between the limits have ticks. -/
theorem StepsTo.part (hsteps : SwapStepLaw X) (hbounds : StepBounds X) (hconv : ConversionLaw X)
    (h : v.StepsTo feeRate zeroForOne p r t sqrtPriceNext step p')
    (horder : InOrder X zeroForOne p.sqrtPriceX64 (goal X zeroForOne sqrtPriceNext))
    (hpart : r' ≤ step.spent) :
    ∃ step' p'', v.StepsTo feeRate zeroForOne p r' t sqrtPriceNext step' p'' ∧ step'.spent = r' ∧
      step'.amountOut ≤ step.amountOut := by
  have hword := h.word
  have hcovered := (h.spends hsteps).covered
  obtain ⟨step', hstep', halong⟩ := hsteps.less (Nat.le_trans hpart hcovered) hword h.made
  have hcovered' := halong.covered
  by_cases hreach : step'.sqrtPriceNextX64 = goal X zeroForOne sqrtPriceNext
  · obtain rfl := halong.reached hreach
    exact ⟨step, p', ⟨h.running, by omega, h.found, h.price, hstep', h.settled_at r'⟩,
      by omega, Nat.le_refl _⟩
  · obtain ⟨hall, hout, hshort⟩ := halong.short hreach
    obtain ⟨hmoved, hbefore⟩ := hbounds.between hstep' horder.toward
    obtain ⟨tick, htick⟩ := hconv.tick (horder.between hmoved hbefore)
    obtain ⟨fuel, hfind⟩ := h.found
    refine ⟨step', .of ({ book (p.swap r') step' with tick }, p'.nav),
      ⟨h.running, by omega, ⟨fuel, hfind⟩, h.price, hstep',
      _, ?_, rfl⟩, hall, hout⟩
    unfold settle
    rw [if_neg (show (book (p.swap r') step').sqrtPriceX64 ≠ sqrtPriceNext from ne_next_of_short hshort)]
    exact Except.bind_eq_ok.mpr ⟨tick, ofCrate_eq_ok.mpr htick, rfl⟩

/-! ## Swaps that complete -/

/-- The swap runs to an end that satisfies `Q`. -/
def Completes (v : ByrealClmmVenue X) (feeRate : Nat) (zeroForOne : Bool) (c : SwapState × TickNavState)
    (Q : SwapState → Prop) : Prop :=
  ∃ searchFuel fuel state, Loop.iterate (v.quoteTurn searchFuel feeRate zeroForOne) fuel c = .ok state ∧
  Q state

variable {Q : SwapState → Prop}

theorem Completes.stop (hstop : ¬ Running (defaultPriceLimit X zeroForOne) c.1) (hQ : Q c.1) :
    v.Completes feeRate zeroForOne c Q :=
  ⟨0, 1, c.1, Loop.iterate_leave (swapTurn_leave.mpr ⟨hstop, rfl⟩), hQ⟩

theorem Completes.turn (hturn : v.quoteTurn searchFuel feeRate zeroForOne c = .ok (.next c'))
    (h : v.Completes feeRate zeroForOne c' Q) : v.Completes feeRate zeroForOne c Q := by
  obtain ⟨searchFuel', fuel, state, hends, hQ⟩ := h
  refine ⟨max searchFuel searchFuel', fuel + 1, state, ?_, hQ⟩
  rw [Loop.iterate_next ((v.swapTurn_below (Nat.le_max_left searchFuel searchFuel') c).of_ok hturn)]
  exact (Loop.iterate_below (v.swapTurn_below (Nat.le_max_right searchFuel searchFuel'))
    (Nat.le_refl fuel)).of_ok hends

/-- A swap whose loop runs to an end completes. -/
theorem Completes.computeSwap {fuel amount : Nat} {nav : TickNavState} (hword : amount < 2 ^ 64)
    (hnav : v.initTickNavState fuel zeroForOne = .ok nav)
    (hrate : v.computeTradeFeeRate zeroForOne amount v.currentUnixTimestamp = .ok feeRate)
    (h : v.Completes feeRate zeroForOne (v.initialSwapState amount, nav) Q) :
    ∃ fuel' state, Q state ∧ v.computeSwap fuel' zeroForOne amount none v.currentUnixTimestamp = .ok {
      amountIn := amount - state.amountSpecifiedRemaining
      amountOut := state.amountCalculated
      sqrtPriceX64 := state.sqrtPriceX64
      feeRate } := by
  obtain ⟨searchFuel, turns, state, hends, hQ⟩ := h
  obtain ⟨f, hf, hsearch, hturns⟩ : ∃ f, fuel ≤ f ∧ searchFuel ≤ f ∧ turns ≤ f :=
    ⟨max fuel (max searchFuel turns), by omega, by omega, by omega⟩
  have hends := (Loop.iterate_below (v.swapTurn_below hsearch) hturns).of_ok hends
  obtain ⟨n, c, -, hreach, hleave⟩ := Loop.iterate_eq_ok.mp hends
  obtain ⟨-, rfl⟩ := swapTurn_leave.mp hleave
  have hle := reaches_remaining (c := (v.initialSwapState amount, nav)) hword hreach
  refine ⟨f, c.1, hQ, computeSwap_eq_ok.mpr ⟨feeRate, nav, c.1, hrate,
    (v.initTickNavState_below hf).of_ok hnav, ?_, hle,
    rfl⟩⟩
  rw [simulateLoop_eq]
  exact hends

/-- What a step takes is covered, and its sums fit. -/
theorem bookable (hcovered : step.spent ≤ c.1.amountSpecifiedRemaining)
    (hsums : c.1.feeAmount + c.1.amountSpecifiedRemaining < 2 ^ 64)
    (hout : c.1.amountCalculated + step.amountOut < 2 ^ 64) : Bookable c.1 step := by
  have hfee : step.feeAmount ≤ step.spent := Nat.le_add_left _ _
  exact ⟨by omega, by omega, hcovered, hout⟩

theorem Completes.spent (hnone : c.1.amountSpecifiedRemaining = 0) :
    v.Completes feeRate zeroForOne c fun _ => True :=
  .stop (fun hrun => hrun.1 hnone) trivial

/-- A swap that has no more left than a step takes ends with a part of it. -/
theorem Completes.within (hsteps : SwapStepLaw X) (hbounds : StepBounds X) (hconv : ConversionLaw X)
    (hmade : v.StepsTo feeRate zeroForOne (.of c) r t sqrtPriceNext step p')
    (horder : InOrder X zeroForOne c.1.sqrtPriceX64 (goal X zeroForOne sqrtPriceNext))
    (hpart : c.1.amountSpecifiedRemaining ≤ step.spent)
    (hsums : c.1.feeAmount + c.1.amountSpecifiedRemaining < 2 ^ 64)
    (hout : c.1.amountCalculated + step.amountOut < 2 ^ 64) :
    v.Completes feeRate zeroForOne c fun _ => True := by
  by_cases hnone : c.1.amountSpecifiedRemaining = 0
  · exact .spent hnone
  · obtain ⟨step', p'', hmade', hall, hless⟩ := hmade.part hsteps hbounds hconv horder hpart
    obtain ⟨searchFuel, c', hturn, -, hbooked⟩ :=
      turn_of_stepsTo hmade' hnone (bookable (Nat.le_of_eq hall) hsums (by omega))
    have hleft := hbooked.remaining
    exact .turn hturn (.spent (by omega))

/-- A ladder that ends short of the limit starts there. -/
theorem Ladder.short (h : v.Ladder feeRate zeroForOne S p m q)
    (hlimit : q.sqrtPriceX64 ≠ defaultPriceLimit X zeroForOne) :
    p.sqrtPriceX64 ≠ defaultPriceLimit X zeroForOne := by
  cases h with
  | foot => exact hlimit
  | rung hrung _ =>
      obtain ⟨_, _, _, _, hmade, -⟩ := hrung
      exact hmade.running

/-- A step leads to the price it ends at. -/
theorem StepsTo.price_eq (h : v.StepsTo feeRate zeroForOne p r t sqrtPriceNext step p') :
    p'.sqrtPriceX64 = step.sqrtPriceNextX64 := by
  obtain ⟨state, hsettle, hplace⟩ := h.settled
  obtain ⟨tick, liquidity, rfl⟩ := settle_frame hsettle
  rw [hplace]
  rfl

/-- The price is a tick's. -/
def AtTickPrice (X : Crates) (state : SwapState) :
    Prop := ∃ t, X.getSqrtPriceAtTick t = .ok state.sqrtPriceX64

/-- **The input a ladder takes, a swap of just that spends**, and ends at the price of a tick. -/
theorem Ladder.fills (hreach : ReachLaw X) (h : v.Ladder feeRate zeroForOne S p m q)
    (hlimit : q.sqrtPriceX64 ≠ defaultPriceLimit X zeroForOne) (hat : Place.of c = p)
    (hall : c.1.amountSpecifiedRemaining = m.1)
    (hsums : c.1.feeAmount + c.1.amountSpecifiedRemaining < 2 ^ 64)
    (hfits : c.1.amountCalculated + m.2 < 2 ^ 64)
    (hprice : c.1.amountSpecifiedRemaining = 0 → AtTickPrice X c.1) :
    v.Completes feeRate zeroForOne c fun state =>
      state.amountSpecifiedRemaining = 0 ∧ AtTickPrice X state := by
  induction h generalizing c with
  | foot p => exact .stop (fun hrun => hrun.1 hall) ⟨hall, hprice hall⟩
  | rung hrung hrest ih =>
      subst hat
      obtain ⟨r, t, sqrtPriceNext, step, hmade, hgoal, -, rfl⟩ := hrung
      simp only [Prod.fst_add, Prod.snd_add] at hall hfits
      by_cases hnone : c.1.amountSpecifiedRemaining = 0
      · exact .stop (fun hrun => hrun.1 hnone) ⟨hnone, hprice hnone⟩
      · have hcovers : step.spent ≤ c.1.amountSpecifiedRemaining := by omega
        have hmade' := hmade.again hreach hgoal hcovers (by omega)
        obtain ⟨searchFuel, c', hturn, hat, hbooked⟩ :=
          turn_of_stepsTo hmade' hnone (bookable hcovers hsums (by omega))
        have hleft := hbooked.remaining
        have hput := hbooked.calculated
        have hfee := hbooked.fee
        have hstepFee : step.feeAmount ≤ step.spent := Nat.le_add_left _ _
        -- the goal was not the limit, so it was the tick
        have hshort := Ladder.short hrest hlimit
        rw [hmade.price_eq, hgoal] at hshort
        have htick := (targetPrice_cases zeroForOne sqrtPriceNext
          (defaultPriceLimit X zeroForOne)).resolve_left hshort
        refine .turn hturn (ih hlimit hat (by omega) (by omega) (by omega) fun _ => ⟨t, ?_⟩)
        have hplace : c'.1.sqrtPriceX64 = sqrtPriceNext := calc
          c'.1.sqrtPriceX64 = (Place.of c').sqrtPriceX64 := rfl
          _ = step.sqrtPriceNextX64 := by rw [hat, hmade.price_eq]
          _ = sqrtPriceNext := hgoal.trans htick
        rw [hplace]
        exact hmade.price

end ByrealTitan.Clmm.ByrealClmmVenue
