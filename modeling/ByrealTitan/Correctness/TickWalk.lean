import ByrealTitan.Correctness.Exhausted
import ByrealTitan.Correctness.NextTick

/-!
# `Correctness.TickWalk` — a swap steps through the initialised ticks in order

The reference folds one step of the swap over the sorted list of the initialised ticks ahead
(`referenceSwap`); it knows of no navigation. The simulation, which finds each tick through flags, array
starts and bitmaps, comes to the same (`simulation_walks_ticks`), up to the first marked array that is
not loaded: there it refuses, and the reference ends there too.
-/

namespace ByrealTitan.Clmm

open Direction

variable {X : Crates} {zeroForOne : Bool}

/-! ## Kinds of failures -/

/-- The same result, or failures of the same kind. -/
def SameKind {α : Type} (x y : SwapRes α) : Prop :=
  x = y ∨ ∃ e e', x = Res.fail e ∧ y = Res.fail e' ∧ e.kind = e'.kind

theorem SameKind.refl {α : Type} (x : SwapRes α) : SameKind x x := Or.inl rfl

/-- Errors of one kind report the same. -/
theorem SwapError.kind_reportsInsufficient (e : SwapError) :
    e.kind.reportsInsufficient = e.reportsInsufficient := by
  have hmissing : ∀ start, (SwapError.missingTickArray start).reportsInsufficient = false := fun start =>
    numbered_plain rfl (by decide)
  have hadvanced : ∀ start, (SwapError.missingAdvancedTickArray start).reportsInsufficient = false :=
    fun start => numbered_plain rfl (by decide)
  cases e with
  | missingAdvancedTickArray start => exact (hmissing start).trans (hadvanced start).symm
  | noFurtherTickArrays => decide
  | _ => rfl

/-- The failure reports insufficient liquidity. -/
def ReportsInsufficient {α : Type} (x : SwapRes α) :
    Prop := ∃ e, x = Res.fail e ∧ e.reportsInsufficient = true

theorem SameKind.reportsInsufficient {α : Type} {x y : SwapRes α} (h : SameKind x y) :
    ReportsInsufficient x ↔ ReportsInsufficient y := by
  rcases h with rfl | ⟨e, e', rfl, rfl, hkind⟩
  · exact Iff.rfl
  · have hsame : e.reportsInsufficient = e'.reportsInsufficient := by
      rw [← e.kind_reportsInsufficient, hkind, e'.kind_reportsInsufficient]
    constructor
    · rintro ⟨_, heq, hreports⟩
      cases heq
      exact ⟨e', rfl, hsame.symm.trans hreports⟩
    · rintro ⟨_, heq, hreports⟩
      cases heq
      exact ⟨e, rfl, hsame.trans hreports⟩

namespace ByrealClmmVenue

/-! ## The reference -/

variable (v : ByrealClmmVenue X)

/-- The step of the swap, folded over the ticks while it runs. -/
def foldTicks (feeRate sqrtPriceLimit : Nat) (zeroForOne : Bool) (currentTimestamp : Int)
    (state : SwapState) (ticks : List Int) : SwapRes SwapState :=
  ticks.foldlM (fun state tick =>
    if Running sqrtPriceLimit state then v.applyStep feeRate sqrtPriceLimit zeroForOne
      currentTimestamp state tick
    else .ok state) state

def conclude (sqrtPriceLimit : Nat) (missing : Option Int) (state : SwapState) : SwapRes SwapState :=
  if Running sqrtPriceLimit state then Res.fail (ticksExhausted missing) else .ok state

/-- The state of the swap after the ticks on the way. -/
def afterTicks (feeRate amountSpecified sqrtPriceLimit : Nat) (zeroForOne : Bool) (currentTimestamp : Int)
    (missing : Option Int) : SwapRes SwapState :=
  v.foldTicks feeRate sqrtPriceLimit zeroForOne currentTimestamp (v.initialSwapState amountSpecified)
    (v.ticksOnTheWay zeroForOne missing)

/-- The swap over the ticks on the way. -/
def referenceSwap (feeRate amountSpecified sqrtPriceLimit : Nat) (zeroForOne : Bool)
    (currentTimestamp : Int) (missing : Option Int) : SwapRes SwapState :=
  v.afterTicks feeRate amountSpecified sqrtPriceLimit zeroForOne currentTimestamp missing >>=
    conclude sqrtPriceLimit missing

/-! ## The whole simulation -/

variable {v} {fuel : Nat} {t : Int} {missing : Option Int}
variable {feeRate sqrtPriceLimit : Nat} {currentTimestamp : Int} {state : SwapState} {ticks : List Int}

theorem foldTicks_running (hrun : Running sqrtPriceLimit state) :
    v.foldTicks feeRate sqrtPriceLimit zeroForOne currentTimestamp state (t :: ticks) =
      v.applyStep feeRate sqrtPriceLimit zeroForOne currentTimestamp state t >>= fun state' =>
        v.foldTicks feeRate sqrtPriceLimit zeroForOne currentTimestamp state' ticks := by
  unfold foldTicks
  rw [List.foldlM_cons, if_pos hrun]

theorem foldTicks_stopped (hstop : ¬ Running sqrtPriceLimit state) :
    v.foldTicks feeRate sqrtPriceLimit zeroForOne currentTimestamp state ticks = .ok state := by
  unfold foldTicks
  induction ticks with
  | nil => rfl
  | cons t ticks ih =>
      rw [List.foldlM_cons, if_neg hstop]
      exact ih

/-- The loop of the simulation, with the ticks on the way that are left to it. -/
structure OnTicks (v : ByrealClmmVenue X) (zeroForOne : Bool) (missing : Option Int) (searchFuel : Nat)
    (current : Int) (nav : TickNavState) (ticks : List Int) :
    Prop extends NavStands v zeroForOne current nav where
  left : Enumerates zeroForOne (Due v zeroForOne missing) current ticks
  missing : MissingFrom v zeroForOne nav.currentValidTickArrayStartIndex missing
  fuel : v.room zeroForOne nav.currentValidTickArrayStartIndex < searchFuel

theorem kind_ticksExhausted (missing : Option Int) :
    (ticksExhausted missing).kind = ticksExhausted missing := by
  cases missing with
  | none => rfl
  | some start => rfl

/-- A swap that no longer runs is over, whatever ticks are left. -/
theorem simulateLoop_stopped (hstop : ¬ Running sqrtPriceLimit state) {searchFuel : Nat}
    {nav : TickNavState} :
    v.simulateLoop searchFuel feeRate sqrtPriceLimit zeroForOne currentTimestamp (fuel + 1) state nav =
      v.foldTicks feeRate sqrtPriceLimit zeroForOne currentTimestamp state ticks >>=
        conclude sqrtPriceLimit missing := by
  have hleave : v.simulateLoop searchFuel feeRate sqrtPriceLimit zeroForOne currentTimestamp (fuel + 1)
      state nav = .ok state := by
    rw [simulateLoop]
    exact if_neg hstop
  rw [hleave, foldTicks_stopped hstop, Except.ok_bind]
  unfold conclude
  rw [if_neg hstop]

/-- One that runs looks for the next tick and makes its step. -/
theorem simulateLoop_running (hrun : Running sqrtPriceLimit state) {searchFuel : Nat}
    {nav : TickNavState} :
    v.simulateLoop searchFuel feeRate sqrtPriceLimit zeroForOne currentTimestamp (fuel + 1) state nav =
      v.findNextTick searchFuel state.tick zeroForOne searchFuel nav >>= fun found =>
        v.applyStep feeRate sqrtPriceLimit zeroForOne currentTimestamp state found.1 >>= fun state' =>
          v.simulateLoop searchFuel feeRate sqrtPriceLimit zeroForOne currentTimestamp fuel
            state' found.2 := by
  rw [simulateLoop]
  exact if_pos hrun

/-- **The loop walks the ticks**: one step for each in turn, by induction on those that are left. -/
theorem simulateLoop_walks (hw : v.Walkable zeroForOne) (hspends : StepSpends X) {searchFuel : Nat}
    {nav : TickNavState}
    (hon : Running sqrtPriceLimit state → OnTicks v zeroForOne missing searchFuel state.tick nav ticks)
    (hfuel : ticks.length < fuel) :
    SameKind (v.simulateLoop searchFuel feeRate sqrtPriceLimit zeroForOne currentTimestamp fuel state nav)
      (v.foldTicks feeRate sqrtPriceLimit zeroForOne currentTimestamp state ticks >>=
        conclude sqrtPriceLimit missing) := by
  induction ticks generalizing fuel state nav with
  | nil =>
      obtain ⟨fuel, rfl⟩ : ∃ n, fuel = n + 1 := ⟨fuel - 1, by omega⟩
      by_cases hrun : Running sqrtPriceLimit state
      · obtain ⟨hat, hleft, hmissing, hroom⟩ := hon hrun
        have hfinds := findNextTick_finds hw hat hmissing hroom hroom
        rw [simulateLoop_running hrun]
        generalize v.findNextTick searchFuel state.tick zeroForOne searchFuel nav = found at hfinds ⊢
        cases hfinds with
        | tick ht _ _ _ => exact absurd ht.ahead (hleft.found _ ht.mem)
        | exhausted hkind _ =>
            refine Or.inr ⟨_, ticksExhausted missing, rfl, ?_, by rw [hkind, kind_ticksExhausted]⟩
            show conclude sqrtPriceLimit missing state = _
            unfold conclude
            rw [if_pos hrun]
      · exact Or.inl (simulateLoop_stopped hrun)
  | cons t ticks ih =>
      rw [List.length_cons] at hfuel
      obtain ⟨fuel, rfl⟩ : ∃ n, fuel = n + 1 := ⟨fuel - 1, by omega⟩
      by_cases hrun : Running sqrtPriceLimit state
      · obtain ⟨hat, hleft, hmissing, hroom⟩ := hon hrun
        have hfinds := findNextTick_finds hw hat hmissing hroom hroom
        have hnearest : Nearest zeroForOne (Due v zeroForOne missing) state.tick t := hleft.found
        rw [simulateLoop_running hrun, foldTicks_running hrun]
        generalize v.findNextTick searchFuel state.tick zeroForOne searchFuel nav = found at hfinds ⊢
        cases hfinds with
        | exhausted _ hnone => exact absurd hnearest.ahead (hnone t hnearest.mem)
        | @tick t' nav' ht hat' hmissing' hroom' =>
            obtain rfl : t' = t := Nearest.unique ht hnearest
            simp only [Except.ok_bind]
            cases happly : v.applyStep feeRate sqrtPriceLimit zeroForOne currentTimestamp state t' with
            | error e => exact SameKind.refl _
            | ok state' =>
                refine ih (fun hrun' => ?_) (by omega)
                -- a swap that still runs has crossed the tick
                rw [(crossed_of_running hspends happly hrun').1]
                exact ⟨hat', hleft.tail, hmissing', Nat.lt_of_le_of_lt hroom' hroom⟩
      · exact Or.inl (simulateLoop_stopped hrun)

/-- **The simulation comes to what the reference does.** -/
theorem simulateSwapSteps_walks (hw : v.Walkable zeroForOne) (hspends : StepSpends X)
    {amountSpecified : Nat} (hrun : Running sqrtPriceLimit (v.initialSwapState amountSpecified))
    (hfuel : v.room zeroForOne (X.getArrayStartIndex v.poolState.tickCurrent v.spacing) +
      (v.ticksOnTheWay zeroForOne (v.missingArray zeroForOne)).length < fuel) :
    SameKind (v.simulateSwapSteps fuel feeRate amountSpecified sqrtPriceLimit zeroForOne currentTimestamp)
      (v.referenceSwap feeRate amountSpecified sqrtPriceLimit zeroForOne currentTimestamp
        (v.missingArray zeroForOne)) := by
  have hleft := ticksOnTheWay_enumerates v zeroForOne (v.missingArray zeroForOne)
  have hfrom := missingArray_from hw
  unfold referenceSwap afterTicks simulateSwapSteps
  generalize v.missingArray zeroForOne = missing at *
  generalize v.ticksOnTheWay zeroForOne missing = ticks at *
  have hscan : v.room zeroForOne (X.getArrayStartIndex v.poolState.tickCurrent v.spacing) <
      fuel := by omega
  rcases initTickNavState_stands hw hscan hfrom with ⟨nav, hnav, hat, hmissing, hroom⟩ |
    ⟨hfail, hnone, hempty⟩
  · rw [hnav, Except.ok_bind]
    exact simulateLoop_walks hw hspends (fun _ => ⟨hat, hleft, hmissing, by omega⟩) (by omega)
  · -- without a marked array there is no tick on the way either
    have hticks : ticks = [] := by
      refine List.eq_nil_iff_forall_not_mem.mpr fun t ht => ?_
      obtain ⟨hon, hahead⟩ := (hleft.mem_iff t).mp ht
      exact hempty t hon.1 hahead
    subst hticks hnone
    rw [hfail]
    refine Or.inl ?_
    show Res.fail .noInitializedTickArray = conclude sqrtPriceLimit none
        (v.initialSwapState amountSpecified)
    unfold conclude
    rw [if_pos hrun]
    rfl

/-! ## What is reported -/

theorem plain_foldTicks (hplain : PlainErrors X) :
    Plain (v.foldTicks feeRate sqrtPriceLimit zeroForOne currentTimestamp state ticks) := by
  induction ticks generalizing state with
  | nil => exact Yields.ok trivial
  | cons t ticks ih =>
      by_cases hrun : Running sqrtPriceLimit state
      · rw [foldTicks_running hrun]
        exact (plain_applyStep hplain).bind fun _ _ _ => ih
      · rw [foldTicks_stopped hrun]
        exact Yields.ok trivial

/-- The reference reports insufficient liquidity where the swap still runs
    after the last tick and no array is missing. -/
theorem referenceSwap_reports (hplain : PlainErrors X) {amountSpecified : Nat} :
    ReportsInsufficient
        (v.referenceSwap feeRate amountSpecified sqrtPriceLimit zeroForOne currentTimestamp missing) ↔
      missing = none ∧ ∃ state,
        v.afterTicks feeRate amountSpecified sqrtPriceLimit zeroForOne currentTimestamp missing =
          .ok state ∧
          Running sqrtPriceLimit state := by
  unfold referenceSwap
  constructor
  · rintro ⟨e, hfail, hreports⟩
    rcases Except.bind_eq_error.mp hfail with hfold | ⟨state, hfold, hend⟩
    · have hplainly : Plain (v.afterTicks feeRate amountSpecified sqrtPriceLimit zeroForOne
          currentTimestamp missing) :=
        plain_foldTicks hplain
      rw [hfold] at hplainly
      rw [hplainly e rfl] at hreports
      cases hreports
    · unfold conclude at hend
      split at hend
      next hrun =>
        obtain rfl : ticksExhausted missing = e := Fault.err.inj (Except.error.inj hend)
        cases missing with
        | none => exact ⟨rfl, state, hfold, hrun⟩
        | some start =>
            have hnumbered : (ticksExhausted (some start)).reportsInsufficient = false :=
              numbered_plain rfl (by decide)
            rw [hnumbered] at hreports
            cases hreports
      next => cases hend
  · rintro ⟨rfl, state, hfold, hrun⟩
    refine ⟨.noInitializedTickArray, ?_, by decide⟩
    rw [hfold, Except.ok_bind]
    unfold conclude
    rw [if_pos hrun]
    rfl

/-- **A swap walks exactly the initialised ticks, in order**: the ticks on the way are those
    ahead, each once and nearest first, as far as the first marked array that is not loaded. With
    enough fuel for its loops the simulation returns the state, or the kind of failure, of the
    step folded over them; and it reports insufficient liquidity exactly where no array is
    missing and the swap still runs after the last tick. -/
theorem simulation_walks_ticks (hw : v.Walkable zeroForOne) (hspends : StepSpends X)
    (hplain : PlainErrors X) (feeRate : Nat) {amountSpecified sqrtPriceLimit : Nat}
    (hamount : 0 < amountSpecified)
    (hlimit : v.poolState.sqrtPriceX64 ≠ sqrtPriceLimit) (currentTimestamp : Int) :
    Enumerates zeroForOne (Due v zeroForOne (v.missingArray zeroForOne)) v.poolState.tickCurrent
        (v.ticksOnTheWay zeroForOne (v.missingArray zeroForOne)) ∧
      MissingFrom v zeroForOne (X.getArrayStartIndex v.poolState.tickCurrent v.spacing)
        (v.missingArray zeroForOne) ∧
      ∃ N, ∀ fuel, N ≤ fuel →
        SameKind (v.simulateSwapSteps fuel feeRate amountSpecified sqrtPriceLimit zeroForOne
          currentTimestamp) (v.referenceSwap feeRate amountSpecified sqrtPriceLimit zeroForOne
            currentTimestamp (v.missingArray zeroForOne)) ∧
        (ReportsInsufficient
            (v.simulateSwapSteps fuel feeRate amountSpecified sqrtPriceLimit zeroForOne currentTimestamp) ↔
          v.missingArray zeroForOne = none ∧ ∃ state,
            v.afterTicks feeRate amountSpecified sqrtPriceLimit zeroForOne currentTimestamp
              (v.missingArray zeroForOne) = .ok state ∧ Running sqrtPriceLimit state) := by
  refine ⟨ticksOnTheWay_enumerates v zeroForOne _, missingArray_from hw, ?_⟩
  refine ⟨v.room zeroForOne (X.getArrayStartIndex v.poolState.tickCurrent v.spacing) +
    (v.ticksOnTheWay zeroForOne (v.missingArray zeroForOne)).length + 1, fun fuel hfuel => ?_⟩
  have hrun : Running sqrtPriceLimit (v.initialSwapState amountSpecified) := ⟨Nat.ne_of_gt hamount, hlimit⟩
  have hsame : SameKind
      (v.simulateSwapSteps fuel feeRate amountSpecified sqrtPriceLimit zeroForOne currentTimestamp)
      (v.referenceSwap feeRate amountSpecified sqrtPriceLimit zeroForOne currentTimestamp
        (v.missingArray zeroForOne)) := simulateSwapSteps_walks hw hspends hrun hfuel
  exact ⟨hsame, hsame.reportsInsufficient.trans (referenceSwap_reports hplain)⟩

/-! ## Sample venues -/

section Sample

open Adapter

/-- Fixed arrays with one slot a tick can be walked, where the bitmap marks them. -/
theorem walkable_of_slots (hX : Reference.Standard X) (hmin : X.MIN_TICK ≤ 0) (hmax : 0 ≤ X.MAX_TICK)
    {v : ByrealClmmVenue X} (hv : Reference.PoolMarked v) (hspacing : v.spacing = 1)
    (hcurrent : v.poolState.tickCurrent = 0)
    (hdistinct : (v.dynamicTickArrays.map fun entry => entry.2.startTickIndex).Nodup)
    (harrays : ∀ entry ∈ v.dynamicTickArrays, ∃ start net, entry.2 = .fixed
      (Sample.tickSlots X start net) ∧
      v.marksArray start = true) : v.Walkable zeroForOne where
  starts := hX.arrayStartLaw hv.spacing
  fits := by
    unfold Crates.span
    rw [hspacing, hX.size]
    decide
  bitmaps := hX.bitmapLaw hv zeroForOne
  extension := hv.extension
  current := by
    rw [hcurrent]
    exact ⟨hmin, hmax⟩
  distinct := hdistinct
  arrays entry hmem := by
    obtain ⟨start, net, hfixed, hmarked⟩ := harrays entry hmem
    refine ⟨_, hfixed, ?_, fun _ _ => hmarked⟩
    rw [hspacing]
    exact tickSlots_inPlace start net

/-- The pool's bitmap reaches no array out of the range of ticks. -/
theorem poolMarked_of_spacing (hX : Reference.Standard X) (hmin : X.MIN_TICK = TotalX.MIN_TICK)
    (hmax : X.MAX_TICK = TotalX.MAX_TICK)
    (hrange : X.tickArrayStartIndexRange = TotalX.tickArrayStartIndexRange)
    {v : ByrealClmmVenue X} (hspacing : v.poolState.tickSpacing = 1)
    (hextension : v.bitmapExtension.isSome = true) :
    Reference.PoolMarked v where
  spacing := by
    unfold spacing
    rw [hspacing]
    decide
  range := by
    rw [hrange]
    rfl
  extension := hextension
  reach i hindex := by
    obtain ⟨⟨hlow, hhigh⟩, -⟩ := Reference.marksIndex_eq_true.mp hindex
    have hfirst : X.getArrayStartIndex X.MIN_TICK v.spacing = -443640 := by
      unfold spacing
      rw [hX.start, hmin, hspacing]
      decide
    have hticks : Reference.arrayTicks v.spacing = 60 := by
      unfold spacing
      rw [hspacing]
      decide
    have hlast : X.MAX_TICK = 443636 := hmax
    rw [hfirst, hticks, hlast]
    omega

/-- The sample venue: from its tick 0 down only the tick -4 is initialised. -/
def walkedVenue : ByrealClmmVenue TotalX := Sample.loadedOf TotalX Sample.pool

theorem walkedVenue_walkable : walkedVenue.Walkable zeroForOne := by
  refine walkable_of_slots (Reference.standard_total _) (by decide) (by decide)
    (poolMarked_of_spacing (Reference.standard_total _) rfl rfl rfl rfl rfl) rfl rfl (by decide)
    fun entry hmem => ?_
  rcases List.mem_cons.mp hmem with rfl | hmem
  · exact ⟨0, _, rfl, by decide +kernel⟩
  · rw [List.mem_singleton] at hmem
    rw [hmem]
    exact ⟨-60, _, rfl, by decide +kernel⟩

theorem simulation_walks_ticks_sample :
    Enumerates true (Due walkedVenue true (walkedVenue.missingArray true)) 0
        (walkedVenue.ticksOnTheWay true (walkedVenue.missingArray true)) ∧
      MissingFrom walkedVenue true 0 (walkedVenue.missingArray true) ∧
      ∃ N, ∀ fuel, N ≤ fuel →
        SameKind (walkedVenue.simulateSwapSteps fuel 2500 5000 (defaultPriceLimit TotalX true) true 100)
          (walkedVenue.referenceSwap 2500 5000 (defaultPriceLimit TotalX true) true 100
            (walkedVenue.missingArray true)) ∧
        (ReportsInsufficient (walkedVenue.simulateSwapSteps fuel 2500 5000
          (defaultPriceLimit TotalX true) true 100) ↔ walkedVenue.missingArray true = none ∧ ∃ state,
            walkedVenue.afterTicks 2500 5000 (defaultPriceLimit TotalX true) true 100
              (walkedVenue.missingArray true) = .ok state ∧
              Running (defaultPriceLimit TotalX true) state) :=
  simulation_walks_ticks walkedVenue_walkable (Reference.stepSpends rfl)
    Adapter.ByrealClmmVenue.totalX_plain 2500 (by decide) (by decide) 100

/-- A pool whose bitmap also marks the array from -120. -/
def furtherPool : PoolState :=
  { Sample.pool with tickArrayBitmap := [0, 0, 0, 0, 0, 0, 0, 0xc000000000000000, 1, 0, 0, 0, 0, 0, 0, 0] }

/-- The venue of that pool, with the array from -120 loaded and the one from -60 not. -/
def unloadedVenue : ByrealClmmVenue TotalX :=
  { Sample.loadedOf TotalX furtherPool with
    dynamicTickArrays := [
      (Sample.tickArrayAddress 0, .fixed (Sample.tickSlots TotalX 0 fun t =>
        if t = 4 then some (-10000000) else none)),
      (Sample.tickArrayAddress (-120),
        .fixed (Sample.tickSlots TotalX (-120) fun t => if t = -100 then some 10000000 else none))] }

theorem unloaded_walkable : unloadedVenue.Walkable zeroForOne := by
  refine walkable_of_slots (Reference.standard_total _) (by decide) (by decide)
    (poolMarked_of_spacing (Reference.standard_total _) rfl rfl rfl rfl rfl) rfl rfl (by decide)
    fun entry hmem => ?_
  rcases List.mem_cons.mp hmem with rfl | hmem
  · exact ⟨0, _, rfl, by decide +kernel⟩
  · rw [List.mem_singleton] at hmem
    rw [hmem]
    exact ⟨-120, _, rfl, by decide +kernel⟩

/-- **An array that is marked and not loaded stops the walk**: the fold over all the initialised ticks
    ahead ends in a state, and the simulation in a failure. -/
theorem unloaded_array_stops_walk :
    unloadedVenue.Walkable true ∧ TotalX.getSqrtPriceAtTick unloadedVenue.poolState.tickCurrent =
        .ok unloadedVenue.poolState.sqrtPriceX64 ∧ ∀ fuel, 10 ≤ fuel →
      ¬ SameKind (unloadedVenue.simulateSwapSteps fuel 2500 1000 (defaultPriceLimit TotalX true) true 100)
        (unloadedVenue.referenceSwap 2500 1000 (defaultPriceLimit TotalX true) true 100 none) := by
  refine ⟨unloaded_walkable, by decide, fun fuel hle hsame => ?_⟩
  have hfails : (unloadedVenue.simulateSwapSteps 10 2500 1000 (defaultPriceLimit TotalX true) true
      100).failure? = some (.err (.missingAdvancedTickArray (-60))) := by decide +kernel
  have hends : (unloadedVenue.referenceSwap 2500 1000 (defaultPriceLimit TotalX true) true 100
      none).failure? = none := by
    decide +kernel
  rw [Except.failure?_eq_some] at hfails
  obtain ⟨state, hstate⟩ := Except.exists_of_failure? hends
  have hmore := unloadedVenue.simulateSwapSteps_below hle 2500 1000 (defaultPriceLimit TotalX true)
    true 100
  rw [hmore (by rw [hfails]; simp), hfails, hstate] at hsame
  rcases hsame with heq | ⟨_, _, -, heq, -⟩
  · cases heq
  · cases heq

end Sample

end ByrealClmmVenue

end ByrealTitan.Clmm
