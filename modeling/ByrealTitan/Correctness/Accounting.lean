import ByrealTitan.Correctness.Termination

/-!
# `Correctness.Accounting` — the books of a whole swap

A run of the swap loop is read as the list of its moves (`Walked`): the tick each one went for, the
crate's step, and the net liquidity where the tick was crossed. Over that list the books balance
(`Accounts`), each tick is crossed once, and every move stays between the price it started from and the
tick, and within the limit (`OnTheWay`). What carries the induction is `PriceCourse`: the prices of the
ticks ahead lie ahead of the price.
-/

namespace ByrealTitan.Clmm

open Direction

variable {X : Crates} {zeroForOne : Bool}

/-- Ticks further on have prices further on. -/
theorem TickPriceLaw.toward (hlaw : TickPriceLaw X) {t u : Int} {p q : Nat}
    (ht : X.getSqrtPriceAtTick t = .ok p)
    (hu : X.getSqrtPriceAtTick u = .ok q) (h : Further zeroForOne t u) : Toward zeroForOne p q := by
  cases zeroForOne with
  | true => exact hlaw.mono hu ht (Int.le_of_lt h)
  | false => exact hlaw.mono ht hu (Int.le_of_lt h)

namespace ByrealClmmVenue

variable {v : ByrealClmmVenue X} {fuel searchFuel feeRate sqrtPriceLimit : Nat} {currentTimestamp : Int}

/-- The target of a step is on the way to the tick and within the limit. -/
theorem targetPrice_toward {price sqrtPriceNext : Nat} (hnext : Toward zeroForOne price sqrtPriceNext)
    (hlimit : Toward zeroForOne price sqrtPriceLimit) :
    Toward zeroForOne price (targetPrice zeroForOne sqrtPriceNext sqrtPriceLimit) ∧
      Toward zeroForOne (targetPrice zeroForOne sqrtPriceNext sqrtPriceLimit) sqrtPriceNext ∧
      Toward zeroForOne (targetPrice zeroForOne sqrtPriceNext sqrtPriceLimit) sqrtPriceLimit := by
  unfold targetPrice Toward at *
  cases zeroForOne with
  | true =>
      simp only [if_true, true_and, not_true, false_and, or_false] at *
      split <;> omega
  | false =>
      simp only [Bool.false_eq_true, if_false, false_and, not_false_eq_true, true_and, false_or] at *
      split <;> omega

/-! ## Moves -/

/-- One turn of the loop: the tick it went for and its price, the crate's step, and the tick's net
    liquidity where it was crossed. -/
structure Move where
  nextTick : Int
  sqrtPriceNext : Nat
  step : SwapStep
  crossed : Option Int

/-- What a crossing adds to the liquidity. -/
def signedNet (zeroForOne : Bool) (net : Int) : Int := if zeroForOne then -net else net

/-- The loop made this move from one configuration to the next. -/
structure Made (v : ByrealClmmVenue X) (searchFuel feeRate sqrtPriceLimit : Nat) (zeroForOne : Bool)
    (currentTimestamp : Int) (c : SwapState × TickNavState) (m : Move) (c' : SwapState × TickNavState) :
    Prop where
  running : Running sqrtPriceLimit c.1
  found : v.findNextInitializedTickWithNav searchFuel c.1.tick zeroForOne c.2 = .ok (m.nextTick, c'.2)
  price : X.getSqrtPriceAtTick m.nextTick = .ok m.sqrtPriceNext
  stepped : stepTowards X feeRate sqrtPriceLimit zeroForOne currentTimestamp c.1
    m.sqrtPriceNext = .ok m.step
  bookable : Bookable c.1 m.step
  settled : v.settle zeroForOne m.nextTick m.sqrtPriceNext (book c.1 m.step) = .ok c'.1
  /-- The tick is crossed where its price is reached. -/
  crossing : match m.crossed with
    | some net => m.step.sqrtPriceNextX64 = m.sqrtPriceNext ∧
        v.getTickLiquidityNet m.nextTick = .ok (some net)
    | none     => m.step.sqrtPriceNextX64 ≠ m.sqrtPriceNext

/-- A run of the loop and its moves, in order. -/
inductive Walked (v : ByrealClmmVenue X) (searchFuel feeRate sqrtPriceLimit : Nat) (zeroForOne : Bool)
    (currentTimestamp : Int) (c₀ : SwapState × TickNavState) :
    List Move → SwapState × TickNavState → Prop where
  | start : Walked v searchFuel feeRate sqrtPriceLimit zeroForOne currentTimestamp c₀ [] c₀
  | move {log : List Move} {c c' : SwapState × TickNavState} {m : Move} :
      Walked v searchFuel feeRate sqrtPriceLimit zeroForOne currentTimestamp c₀ log c →
      Made v searchFuel feeRate sqrtPriceLimit zeroForOne currentTimestamp c m c' →
      Walked v searchFuel feeRate sqrtPriceLimit zeroForOne currentTimestamp c₀ (log ++ [m]) c'

/-- **Every turn of the loop is a move.** -/
theorem exists_made {c c' : SwapState × TickNavState}
    (h : v.swapTurn searchFuel feeRate sqrtPriceLimit zeroForOne currentTimestamp c = .ok (.next c')) :
    ∃ m, Made v searchFuel feeRate sqrtPriceLimit zeroForOne currentTimestamp c m c' := by
  obtain ⟨hrun, nextTick, hfind, happly⟩ := swapTurn_next.mp h
  obtain ⟨sqrtPriceNext, step, hprice, hstep, hbook, hsettle⟩ := applyStep_eq_ok.mp happly
  by_cases hreach : step.sqrtPriceNextX64 = sqrtPriceNext
  · have hcross := hsettle
    unfold settle at hcross
    rw [if_pos (show (book c.1 step).sqrtPriceX64 = sqrtPriceNext from hreach)] at hcross
    obtain ⟨net, -, -, -, hnet, -⟩ := crossTick_eq_ok.mp hcross
    exact ⟨⟨nextTick, sqrtPriceNext, step, some net⟩, hrun, hfind, hprice, hstep, hbook,
      hsettle, hreach, hnet⟩
  · exact ⟨⟨nextTick, sqrtPriceNext, step, none⟩, hrun, hfind, hprice, hstep, hbook, hsettle, hreach⟩

theorem Made.applied {c c' : SwapState × TickNavState} {m : Move}
    (h : Made v searchFuel feeRate sqrtPriceLimit zeroForOne currentTimestamp c m c') :
    v.applyStep feeRate sqrtPriceLimit zeroForOne currentTimestamp c.1 m.nextTick = .ok c'.1 :=
  applyStep_eq_ok.mpr ⟨m.sqrtPriceNext, m.step, h.price, h.stepped, h.bookable, h.settled⟩

theorem Made.turn {c c' : SwapState × TickNavState} {m : Move}
    (h : Made v searchFuel feeRate sqrtPriceLimit zeroForOne currentTimestamp c m c') :
    v.swapTurn searchFuel feeRate sqrtPriceLimit zeroForOne currentTimestamp c = .ok (.next c') :=
  swapTurn_next.mpr ⟨h.running, m.nextTick, h.found, h.applied⟩

/-- **Every run of the loop is walked**, move by move. -/
theorem exists_walked {n : Nat} {c₀ c : SwapState × TickNavState}
    (h : Loop.Reaches (v.swapTurn searchFuel feeRate sqrtPriceLimit zeroForOne currentTimestamp) n c₀ c) :
    ∃ log, log.length = n ∧ Walked v searchFuel feeRate sqrtPriceLimit zeroForOne currentTimestamp
      c₀ log c := by
  induction h with
  | start => exact ⟨[], rfl, .start⟩
  | turn _ hturn ih =>
      obtain ⟨log, hlength, hwalked⟩ := ih
      obtain ⟨m, hmade⟩ := exists_made hturn
      refine ⟨log ++ [m], ?_, hwalked.move hmade⟩
      rw [List.length_append, hlength]
      rfl

/-! ## One move -/

/-- How a crossing leaves the state. -/
theorem Made.crossed {c c' : SwapState × TickNavState} {m : Move} {net : Int}
    (h : Made v searchFuel feeRate sqrtPriceLimit zeroForOne currentTimestamp c m c')
    (hcrossed : m.crossed = some net) :
    c'.1.sqrtPriceX64 = m.sqrtPriceNext ∧ c'.1.tick = past zeroForOne m.nextTick ∧
      X.addDelta c.1.liquidity (signedNet zeroForOne net) = .ok c'.1.liquidity := by
  have hcrossing := h.crossing
  rw [hcrossed] at hcrossing
  obtain ⟨hreach, hnet⟩ := hcrossing
  have hsettle := h.settled
  unfold settle at hsettle
  rw [if_pos (show (book c.1 m.step).sqrtPriceX64 = m.sqrtPriceNext from hreach)] at hsettle
  obtain ⟨net', delta, liquidity, tick, hnet', hdelta, hliquidity, htick, hstate⟩ :=
    crossTick_eq_ok.mp hsettle
  obtain rfl : net' = net := Option.some.inj (Except.ok.inj (hnet'.symm.trans hnet))
  have hsigned : delta = signedNet zeroForOne net' := by
    unfold signedLiquidityNet at hdelta
    unfold signedNet
    cases zeroForOne with
    | true =>
        unfold checkedI128 at hdelta
        simp only [if_true] at hdelta ⊢
        split at hdelta
        next => exact (Except.ok.inj hdelta).symm
        next => cases hdelta
    | false => exact (Except.ok.inj hdelta).symm
  rw [← hstate]
  refine ⟨hreach, tickAfterCrossing_eq_ok htick, ?_⟩
  rw [← hsigned]
  exact hliquidity

/-- A move that stops short of its tick leaves the liquidity alone. -/
theorem Made.short {c c' : SwapState × TickNavState} {m : Move}
    (h : Made v searchFuel feeRate sqrtPriceLimit zeroForOne currentTimestamp c m c')
    (hcrossed : m.crossed = none) :
    c'.1.liquidity = c.1.liquidity := by
  have hshort := h.crossing
  rw [hcrossed] at hshort
  have hsettle := h.settled
  unfold settle at hsettle
  rw [if_neg (show (book c.1 m.step).sqrtPriceX64 ≠ m.sqrtPriceNext from hshort)] at hsettle
  obtain ⟨tick, -, hstate⟩ := Except.bind_eq_ok.mp hsettle
  rw [← Except.ok.inj hstate]
  rfl

/-- The sums a move books. -/
theorem Made.booked {c c' : SwapState × TickNavState} {m : Move}
    (h : Made v searchFuel feeRate sqrtPriceLimit zeroForOne currentTimestamp c m c') :
    c'.1.amountSpecifiedRemaining + m.step.spent = c.1.amountSpecifiedRemaining ∧
      c'.1.amountCalculated = c.1.amountCalculated + m.step.amountOut ∧
      c'.1.feeAmount = c.1.feeAmount + m.step.feeAmount ∧
      c'.1.sqrtPriceX64 = m.step.sqrtPriceNextX64 := by
  obtain ⟨tick, liquidity, hstate⟩ := settle_frame h.settled
  rw [hstate]
  exact ⟨Nat.sub_add_cancel h.bookable.covered, rfl, rfl, rfl⟩

/-- A move stays on the way: it goes for a tick ahead, and its price ends between the one it starts from
    and the tick's, and within the limit. -/
structure OnTheWay (zeroForOne : Bool) (sqrtPriceLimit : Nat) (before : SwapState) (m : Move)
    (after : SwapState) : Prop where
  ahead : Ahead zeroForOne before.tick m.nextTick
  moves : Toward zeroForOne before.sqrtPriceX64 after.sqrtPriceX64
  notPastTick : Toward zeroForOne after.sqrtPriceX64 m.sqrtPriceNext
  notPastLimit : Toward zeroForOne after.sqrtPriceX64 sqrtPriceLimit

/-- As long as the swap goes on, the prices of the ticks ahead are ahead of its price. -/
def PriceCourse (X : Crates) (zeroForOne : Bool) (sqrtPriceLimit : Nat) (state : SwapState) : Prop :=
  Running sqrtPriceLimit state → ∀ t p, Ahead zeroForOne state.tick t → X.getSqrtPriceAtTick t = .ok p →
    Toward zeroForOne state.sqrtPriceX64 p

/-- The swap is on course, and its price within the limit. -/
structure Steady (v : ByrealClmmVenue X) (zeroForOne : Bool) (sqrtPriceLimit : Nat) (start : Int)
    (c : SwapState × TickNavState) : Prop where
  course : OnCourse v zeroForOne sqrtPriceLimit start c
  prices : PriceCourse X zeroForOne sqrtPriceLimit c.1
  limit : Toward zeroForOne c.1.sqrtPriceX64 sqrtPriceLimit

/-- **A move from a steady state is on the way.** -/
theorem Steady.onTheWay (hv : Navigable v zeroForOne) (hbounds : StepBounds X) {start : Int}
    {c c' : SwapState × TickNavState} {m : Move} (hsteady : Steady v zeroForOne sqrtPriceLimit start c)
    (h : Made v searchFuel feeRate sqrtPriceLimit zeroForOne currentTimestamp c m c') :
    OnTheWay zeroForOne sqrtPriceLimit c.1 m c'.1 := by
  obtain ⟨hfound, -⟩ := hsteady.course.found hv h.running h.found
  have hnext := hsteady.prices h.running m.nextTick m.sqrtPriceNext hfound.ahead h.price
  obtain ⟨htarget, htick, hlimit⟩ := targetPrice_toward hnext hsteady.limit
  obtain ⟨hmoves, hshort⟩ := hbounds.between h.stepped htarget
  obtain ⟨-, -, -, hprice⟩ := h.booked
  rw [← hprice] at hmoves hshort
  exact ⟨hfound.ahead, hmoves, hshort.trans htick, hshort.trans hlimit⟩

/-- **And leads to a steady state again.** -/
theorem Steady.step (hv : Navigable v zeroForOne) (hbounds : StepBounds X) (hticks : TickPriceLaw X)
    {start : Int} {c c' : SwapState × TickNavState} {m : Move}
    (hsteady : Steady v zeroForOne sqrtPriceLimit start c)
    (h : Made v searchFuel feeRate sqrtPriceLimit zeroForOne currentTimestamp c m c') :
    Steady v zeroForOne sqrtPriceLimit start c' := by
  refine ⟨(hsteady.course.step hv hbounds.toStepSpends h.turn).1, ?_,
    (hsteady.onTheWay hv hbounds h).notPastLimit⟩
  intro hrun t p hahead hp
  -- a swap that goes on has crossed, and what is ahead now was further on than the tick
  obtain ⟨htick, hprice⟩ := crossed_of_running hbounds.toStepSpends h.applied hrun
  rw [htick, ahead_past] at hahead
  exact hticks.toward hprice hp hahead

/-! ## The books of a run -/

/-- The ticks crossed, with their net liquidity. -/
def crossings (log : List Move) : List (Int × Int) := log.filterMap fun m => m.crossed.map (m.nextTick, ·)

theorem crossings_some {log : List Move} {m : Move} {net : Int} (h : m.crossed = some net) :
    crossings (log ++ [m]) = crossings log ++ [(m.nextTick, net)] := by
  simp [crossings, List.filterMap_append, h]

theorem crossings_none {log : List Move} {m : Move} (h : m.crossed = none) :
    crossings (log ++ [m]) = crossings log := by
  simp [crossings, List.filterMap_append, h]

/-- **The books of a swap** of `amount`, after the moves of the log. -/
structure Accounts (v : ByrealClmmVenue X) (zeroForOne : Bool) (amount : Nat) (log : List Move)
    (state : SwapState) : Prop where
  input : state.amountSpecifiedRemaining + (log.map (·.step.spent)).sum = amount
  output : state.amountCalculated = (log.map (·.step.amountOut)).sum
  fee : state.feeAmount = (log.map (·.step.feeAmount)).sum
  liquidity : (state.liquidity : Int) =
    v.poolState.liquidity + ((crossings log).map fun crossing => signedNet zeroForOne crossing.2).sum
  nets : ∀ crossing ∈ crossings log, v.getTickLiquidityNet crossing.1 = .ok (some crossing.2)

theorem Accounts.step (hliquidity : LiquidityLaw X) {amount : Nat} {log : List Move}
    {c c' : SwapState × TickNavState} {m : Move} (haccounts : Accounts v zeroForOne amount log c.1)
    (h : Made v searchFuel feeRate sqrtPriceLimit zeroForOne currentTimestamp c m c') :
    Accounts v zeroForOne amount (log ++ [m]) c'.1 := by
  obtain ⟨hinput, houtput, hfee, hpool, hnets⟩ := haccounts
  obtain ⟨hremaining, hcalculated, hfees, -⟩ := h.booked
  refine ⟨?_, ?_, ?_, ?_, ?_⟩
  · rw [List.map_append, List.sum_append, List.map_singleton, List.sum_singleton]
    omega
  · rw [List.map_append, List.sum_append, List.map_singleton, List.sum_singleton, hcalculated, houtput]
  · rw [List.map_append, List.sum_append, List.map_singleton, List.sum_singleton, hfees, hfee]
  · cases hcrossed : m.crossed with
    | some net =>
        rw [hliquidity.adds (h.crossed hcrossed).2.2, hpool, crossings_some hcrossed, List.map_append,
          List.sum_append, List.map_singleton, List.sum_singleton, Int.add_assoc]
    | none => rw [h.short hcrossed, hpool, crossings_none hcrossed]
  · intro crossing hmem
    cases hcrossed : m.crossed with
    | some net =>
        rw [crossings_some hcrossed, List.mem_append, List.mem_singleton] at hmem
        rcases hmem with hmem | rfl
        · exact hnets crossing hmem
        · have hcrossing := h.crossing
          rw [hcrossed] at hcrossing
          exact hcrossing.2
    | none =>
        rw [crossings_none hcrossed] at hmem
        exact hnets crossing hmem

/-- The ticks crossed lie behind one another, and behind the current tick of a swap that goes on. -/
structure CrossedInOrder (zeroForOne : Bool) (sqrtPriceLimit : Nat) (log : List Move)
    (state : SwapState) : Prop where
  inOrder : (crossings log).Pairwise fun a b => Further zeroForOne a.1 b.1
  behind : Running sqrtPriceLimit state → ∀ crossing ∈ crossings log, ∀ t, Ahead zeroForOne state.tick t →
    Further zeroForOne crossing.1 t

theorem CrossedInOrder.step (hspends : StepSpends X) {log : List Move} {c c' : SwapState × TickNavState}
    {m : Move} (horder : CrossedInOrder zeroForOne sqrtPriceLimit log c.1)
    (h : Made v searchFuel feeRate sqrtPriceLimit zeroForOne currentTimestamp c m c')
    (hahead : Ahead zeroForOne c.1.tick m.nextTick) :
    CrossedInOrder zeroForOne sqrtPriceLimit (log ++ [m]) c'.1 := by
  have hbefore : ∀ crossing ∈ crossings log, Further zeroForOne crossing.1 m.nextTick :=
    fun crossing hmem =>
    horder.behind h.running crossing hmem m.nextTick hahead
  have hbehind : Running sqrtPriceLimit c'.1 → ∀ t, Ahead zeroForOne c'.1.tick t →
      Further zeroForOne m.nextTick t := by
    intro hrun t ht
    obtain ⟨htick, -⟩ := crossed_of_running hspends h.applied hrun
    rw [htick, ahead_past] at ht
    exact ht
  cases hcrossed : m.crossed with
  | some net =>
      refine ⟨?_, fun hrun crossing hmem t ht => ?_⟩
      · rw [crossings_some hcrossed, List.pairwise_append]
        refine ⟨horder.inOrder, List.pairwise_singleton _ _, ?_⟩
        intro a ha b hb
        rw [List.mem_singleton.mp hb]
        exact hbefore a ha
      · rw [crossings_some hcrossed, List.mem_append, List.mem_singleton] at hmem
        rcases hmem with hmem | rfl
        · exact (hbefore crossing hmem).trans (hbehind hrun t ht)
        · exact hbehind hrun t ht
  | none =>
      refine ⟨?_, fun hrun crossing hmem t ht => ?_⟩
      · rw [crossings_none hcrossed]
        exact horder.inOrder
      · rw [crossings_none hcrossed] at hmem
        exact (hbefore crossing hmem).trans (hbehind hrun t ht)

/-! ## A whole swap -/

/-- The pool's price lies between the price of its tick and that of the tick above. -/
structure PriceInTick (v : ByrealClmmVenue X) : Prop where
  low : ∃ p, X.getSqrtPriceAtTick v.poolState.tickCurrent = .ok p ∧ p ≤ v.poolState.sqrtPriceX64
  high : ∃ p, X.getSqrtPriceAtTick (v.poolState.tickCurrent + 1) = .ok p ∧ v.poolState.sqrtPriceX64 ≤ p

/-- A fresh swap is steady. -/
theorem initial_steady (hv : Navigable v zeroForOne) (hticks : TickPriceLaw X) (hcurrent : PriceInTick v)
    (hlimit : Toward zeroForOne v.poolState.sqrtPriceX64 sqrtPriceLimit) {nav : TickNavState}
    (hnav : v.initTickNavState fuel zeroForOne = .ok nav) (amount : Nat) :
    Steady v zeroForOne sqrtPriceLimit (X.getArrayStartIndex v.poolState.tickCurrent v.spacing)
      (v.initialSwapState amount, nav) := by
  refine ⟨fun _ => initTickNavState_at hv hnav, ?_, hlimit⟩
  intro _ t p hahead hp
  obtain ⟨low, hlow, hlowPrice⟩ := hcurrent.low
  obtain ⟨high, hhigh, hhighPrice⟩ := hcurrent.high
  show Toward zeroForOne v.poolState.sqrtPriceX64 p
  cases zeroForOne with
  | true => exact Nat.le_trans (hticks.mono hp hlow hahead) hlowPrice
  | false =>
    exact Nat.le_trans hhighPrice (hticks.mono hhigh hp (Int.add_one_le_of_lt (ahead_up.mp hahead)))

/-- **A run stays steady**, and its price has only moved one way. -/
theorem Walked.steady (hv : Navigable v zeroForOne) (hbounds : StepBounds X) (hticks : TickPriceLaw X)
    (hcurrent : PriceInTick v) (hlimit : Toward zeroForOne v.poolState.sqrtPriceX64 sqrtPriceLimit)
    {nav : TickNavState} (hnav : v.initTickNavState fuel zeroForOne = .ok nav) {amount : Nat}
    {log : List Move} {c : SwapState × TickNavState}
    (h : Walked v searchFuel feeRate sqrtPriceLimit zeroForOne currentTimestamp
      (v.initialSwapState amount, nav) log c) :
    Steady v zeroForOne sqrtPriceLimit (X.getArrayStartIndex v.poolState.tickCurrent v.spacing) c ∧
      Toward zeroForOne v.poolState.sqrtPriceX64 c.1.sqrtPriceX64 := by
  induction h with
  | start => exact ⟨initial_steady hv hticks hcurrent hlimit hnav amount, Toward.refl _⟩
  | move _ hmade ih =>
      obtain ⟨hsteady, htoward⟩ := ih
      exact ⟨hsteady.step hv hbounds hticks hmade, htoward.trans (hsteady.onTheWay hv hbounds hmade).moves⟩

/-- Along a run the books balance, and the crossings are in order. -/
theorem Walked.facts (hv : Navigable v zeroForOne) (hbounds : StepBounds X) (hticks : TickPriceLaw X)
    (hliquidity : LiquidityLaw X) (hcurrent : PriceInTick v)
    (hlimit : Toward zeroForOne v.poolState.sqrtPriceX64 sqrtPriceLimit) {nav : TickNavState}
    (hnav : v.initTickNavState fuel zeroForOne = .ok nav) {amount : Nat} {log : List Move}
    {c : SwapState × TickNavState}
    (h : Walked v searchFuel feeRate sqrtPriceLimit zeroForOne currentTimestamp
      (v.initialSwapState amount, nav) log c) :
    Accounts v zeroForOne amount log c.1 ∧ CrossedInOrder zeroForOne sqrtPriceLimit log c.1 := by
  induction h with
  | start =>
      refine ⟨⟨?_, rfl, rfl, ?_, nofun⟩, ⟨List.Pairwise.nil, nofun⟩⟩
      · exact Nat.add_zero amount
      · exact (Int.add_zero _).symm
  | move hwalked hmade ih =>
      obtain ⟨haccounts, horder⟩ := ih
      obtain ⟨hsteady, -⟩ := hwalked.steady hv hbounds hticks hcurrent hlimit hnav
      exact ⟨haccounts.step hliquidity hmade,
        horder.step hbounds.toStepSpends hmade (hsteady.onTheWay hv hbounds hmade).ahead⟩

/-- No step exceeds the remaining input. -/
theorem simulateSwapSteps_never_exceeds (hbounds : StepBounds X) (amount : Nat) :
    v.simulateSwapSteps fuel feeRate amount sqrtPriceLimit zeroForOne currentTimestamp ≠
      .error (.err .stepExceedsRemaining) := by
  have hscan : ∀ last, (v.nextInitializedTickArrayStartIndex fuel last zeroForOne).Avoids
      (.err .stepExceedsRemaining) := by
    intro last
    unfold nextInitializedTickArrayStartIndex
    rw [scanBitmaps_eq]
    exact Loop.iterate_avoids (I := fun _ => True) nofun (fun _ _ _ _ => trivial)
      (fun last _ => (common_scanTurn last).avoids .exceeds) trivial
  show Res.Avoids _ _
  unfold simulateSwapSteps
  refine (avoids_initTickNavState .exceeds (hscan _)).bind fun nav _ => ?_
  rw [simulateLoop_eq]
  refine Loop.iterate_avoids (I := fun _ => True) nofun (fun _ _ _ _ => trivial) (fun c _ => ?_) trivial
  unfold swapTurn
  split
  · refine Res.Avoids.bind ?_ fun _ _ => Res.Avoids.bind ?_ fun _ _ => Res.avoids_ok
    · unfold findNextInitializedTickWithNav
      rw [findNextTick_eq]
      exact Loop.iterate_avoids (I := fun _ => True) nofun (fun _ _ _ _ => trivial)
        (fun nav _ => avoids_searchTurn .exceeds (hscan _)) trivial
    · exact avoids_applyStep .exceeds fun _ _ _ hstep => hbounds.covered hstep
  · exact Res.avoids_ok

/-- A simulation that succeeds walked to a state that no longer runs. -/
theorem simulateSwapSteps_walked {amount : Nat} {state : SwapState}
    (h : v.simulateSwapSteps fuel feeRate amount sqrtPriceLimit zeroForOne currentTimestamp = .ok state) :
    (∃ nav log nav', v.initTickNavState fuel zeroForOne = .ok nav ∧
      Walked v fuel feeRate sqrtPriceLimit zeroForOne currentTimestamp (v.initialSwapState amount, nav) log
        (state, nav')) ∧
      (state.amountSpecifiedRemaining = 0 ∨ state.sqrtPriceX64 = sqrtPriceLimit) := by
  obtain ⟨nav, hnav, hloop⟩ := Except.bind_eq_ok.mp h
  rw [simulateLoop_eq, Loop.iterate_eq_ok] at hloop
  obtain ⟨n, c, -, hreach, hleave⟩ := hloop
  obtain ⟨hstop, rfl⟩ := swapTurn_leave.mp hleave
  obtain ⟨log, -, hwalked⟩ := exists_walked hreach
  refine ⟨⟨nav, log, c.2, hnav, hwalked⟩, ?_⟩
  unfold Running at hstop
  by_cases hremaining : c.1.amountSpecifiedRemaining = 0
  · exact Or.inl hremaining
  · right
    by_contra hprice
    exact hstop ⟨hremaining, hprice⟩

/-- **The swap loop keeps its books.** Along every run of it the price moves one way, past no tick it goes
    for and not past the limit; the ticks crossed lie one behind the other, and the liquidity is the
    pool's with their net liquidity; input and output are the sums of the steps. No step exceeds the
    remaining input, and a simulation that succeeds has spent all of it or come to the limit. -/
theorem swap_accounting (hv : Navigable v zeroForOne) (hbounds : StepBounds X) (hticks : TickPriceLaw X)
    (hliquidity : LiquidityLaw X) (hcurrent : PriceInTick v)
    (hlimit : Toward zeroForOne v.poolState.sqrtPriceX64 sqrtPriceLimit) (fuel feeRate : Nat)
    (amount : UInt64) (currentTimestamp : Int) :
    (∀ nav log c, v.initTickNavState fuel zeroForOne = .ok nav →
      Walked v fuel feeRate sqrtPriceLimit zeroForOne currentTimestamp
          (v.initialSwapState amount.toNat, nav) log c →
        Accounts v zeroForOne amount.toNat log c.1 ∧
        (crossings log).Pairwise (fun a b => Further zeroForOne a.1 b.1) ∧
        Toward zeroForOne v.poolState.sqrtPriceX64 c.1.sqrtPriceX64 ∧
        Toward zeroForOne c.1.sqrtPriceX64 sqrtPriceLimit ∧
        ∀ m c', Made v fuel feeRate sqrtPriceLimit zeroForOne currentTimestamp c m c' →
          OnTheWay zeroForOne sqrtPriceLimit c.1 m c'.1) ∧
    v.simulateSwapSteps fuel feeRate amount.toNat sqrtPriceLimit zeroForOne currentTimestamp ≠
      .error (.err .stepExceedsRemaining) ∧
    (∀ state, v.simulateSwapSteps fuel feeRate amount.toNat sqrtPriceLimit zeroForOne currentTimestamp =
      .ok state →
      (∃ nav log nav', v.initTickNavState fuel zeroForOne = .ok nav ∧
        Walked v fuel feeRate sqrtPriceLimit zeroForOne currentTimestamp
          (v.initialSwapState amount.toNat, nav) log
          (state, nav')) ∧
        (state.amountSpecifiedRemaining = 0 ∨ state.sqrtPriceX64 = sqrtPriceLimit)) ∧
    ∀ limit swap, limit.getD (defaultPriceLimit X zeroForOne) = sqrtPriceLimit →
      v.computeSwap fuel zeroForOne amount.toNat limit currentTimestamp = .ok swap →
        swap.amountIn < amount.toNat → swap.sqrtPriceX64 = sqrtPriceLimit := by
  refine ⟨?_, simulateSwapSteps_never_exceeds hbounds _, fun state => simulateSwapSteps_walked, ?_⟩
  · intro nav log c hnav hwalked
    obtain ⟨hsteady, htoward⟩ := hwalked.steady hv hbounds hticks hcurrent hlimit hnav
    obtain ⟨haccounts, horder⟩ := hwalked.facts hv hbounds hticks hliquidity hcurrent hlimit hnav
    exact ⟨haccounts, horder.inOrder, htoward, hsteady.limit,
      fun m c' hmade => hsteady.onTheWay hv hbounds hmade⟩
  · rintro limit swap rfl hswap hless
    obtain ⟨feeRate', nav, state, -, hnav, hloop, hle, rfl⟩ := computeSwap_eq_ok.mp hswap
    have hsteps : v.simulateSwapSteps fuel feeRate' amount.toNat
        (limit.getD (defaultPriceLimit X zeroForOne)) zeroForOne currentTimestamp = .ok state :=
          Except.bind_eq_ok.mpr ⟨nav, hnav, hloop⟩
    rcases (simulateSwapSteps_walked hsteps).2 with hzero | hprice
    · simp only at hless
      omega
    · exact hprice

section Sample

open Adapter

/-- The sample pool is at the price of its tick. -/
theorem sample_priceInTick {v : ByrealClmmVenue (Reference.narrow Sample.X)}
    (hpool : v.poolState = Sample.pool) :
    PriceInTick v := by
  refine ⟨⟨2 ^ 64, ?_, ?_⟩, Reference.narrowPrice 65, ?_, ?_⟩
  · rw [hpool]
    decide +kernel
  · rw [hpool]
    exact Nat.le_refl _
  · rw [hpool]
    rfl
  · rw [hpool]
    decide +kernel

/-- The price of the next tick down, as a limit. -/
def nextTickDown : Nat := Reference.narrowPrice 60

/-- The pool's price is above it. -/
theorem sample_toward :
    Toward true (Sample.loadedOf (Reference.narrow Sample.X) Sample.pool).poolState.sqrtPriceX64
      nextTickDown := by
  show Reference.narrowPrice 60 ≤ 2 ^ 64
  decide +kernel

/-- The sample venue down to the next tick, with more input than it takes to get there: the tick is
    crossed, its net liquidity is all of the pool's, and the input that is left stays on the books. -/
theorem swap_accounting_sample :
    let v := Sample.loadedOf (Reference.narrow Sample.X) Sample.pool
    ∃ state nav log nav', v.simulateSwapSteps 100 2500 (5000 : UInt64).toNat nextTickDown true 100 =
      .ok state ∧
      Walked v 100 2500 nextTickDown true 100 (v.initialSwapState 5000, nav) log (state, nav') ∧
      Accounts v true 5000 log state ∧ (crossings log).Pairwise (fun a b => Further true a.1 b.1) ∧
      state.liquidity = 0 ∧ crossings log ≠ [] ∧ 0 < state.amountSpecifiedRemaining ∧
      state.sqrtPriceX64 = nextTickDown := by
  intro v
  have hends : (v.simulateSwapSteps 100 2500 (5000 : UInt64).toNat nextTickDown true 100).okAnd
      (fun state => decide (state.liquidity = 0 ∧ 0 < state.amountSpecifiedRemaining)) = true := by
    decide +kernel
  obtain ⟨state, hstate, hleft⟩ := Except.okAnd_eq_true.mp hends
  obtain ⟨hliquidity, hremaining⟩ := of_decide_eq_true hleft
  obtain ⟨hwalks, -, hdone, -⟩ := swap_accounting
    (sample_navigable (Reference.standard_narrow _) true (by decide) (by decide))
    (Reference.stepBounds rfl)
    (Reference.narrow_ticks _) (Reference.liquidityLaw rfl) (sample_priceInTick rfl) sample_toward
    100 2500 5000 100
  obtain ⟨⟨nav, log, nav', hnav, hwalked⟩, hend⟩ := hdone state hstate
  obtain ⟨haccounts, horder, -⟩ := hwalks nav log (state, nav') hnav hwalked
  refine ⟨state, nav, log, nav', hstate, hwalked, haccounts, horder, hliquidity, ?_, hremaining, ?_⟩
  · -- without a crossing the liquidity would be the pool's
    intro hnone
    have hsum := haccounts.liquidity
    rw [hnone, hliquidity] at hsum
    exact absurd hsum (by decide)
  · exact hend.resolve_left hremaining.ne'

end Sample

end ByrealClmmVenue

end ByrealTitan.Clmm
