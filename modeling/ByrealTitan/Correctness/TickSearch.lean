import ByrealTitan.Adapter.Sample
import ByrealTitan.Clmm.ReferenceLaws
import ByrealTitan.Correctness.Navigation

/-!
# `Correctness.TickSearch` — the searches inside one tick array

The current tick may be negative, and need not be a multiple of the spacing. From the slot it lies in, a
search downwards finds the greatest initialised tick that is not above it, a search upwards the least
one above it (`in_array_search`); from outside, the greatest or least of the array.
-/

namespace ByrealTitan.Clmm

open Direction

variable {X : Crates} {ε : Type} {spacing : Nat}

theorem TickUtilsLaw.span_pos (hutils : TickUtilsLaw X spacing) (hspacing : 1 ≤ spacing) :
    0 < X.span spacing := by
  have hsize := hutils.size
  exact Int.mul_pos (by omega) (by omega)

theorem TickUtilsLaw.starts (hutils : TickUtilsLaw X spacing) (hspacing : 1 ≤ spacing) :
    ArrayStartLaw X spacing :=
  .of_floor (hutils.span_pos hspacing) hutils.floor

namespace FixedTickArraySnapshot

variable {ta : FixedTickArraySnapshot X} {t : Int}

/-- **The net liquidity of an initialised tick is its own slot's.** -/
theorem getTickLiquidityNet_of_initialised (hutils : TickUtilsLaw X spacing) (hspacing : 1 ≤ spacing)
    (hstart : X.getArrayStartIndex ta.startTickIndex spacing = ta.startTickIndex)
    {i : Fin X.TICK_ARRAY_SIZE} (hinit : (ta.ticks i).isInitialized = true) :
    ta.getTickLiquidityNet (ta.tickOf spacing i.val) spacing =
      (.ok (some (ta.ticks i).liquidityNet) : Res ε (Option Int)) := by
  have hin : InSpan X spacing ta.startTickIndex (ta.tickOf spacing i.val) :=
    tickOf_inSpan hspacing ⟨i, rfl, hinit⟩
  have hoffset : ta.tickOffset (ta.tickOf spacing i.val) spacing = some i.val := by
    unfold tickOffset
    rw [(hutils.starts hspacing).unique hstart hin, if_neg (fun hne => hne rfl)]
    unfold tickOf
    rw [hutils.offset i.isLt]
    rfl
  unfold getTickLiquidityNet
  rw [hoffset]
  simp only
  unfold slot
  rw [dif_pos i.isLt]
  rfl

/-- **Both searches of an array find the nearest tick**: from the current one, where it lies in the array,
    and from outside; and what they find has the net liquidity of its own slot. -/
theorem in_array_search (hutils : TickUtilsLaw X spacing) (hspacing : 1 ≤ spacing)
    (hstart : X.span spacing ∣ ta.startTickIndex) (hplace : SlotsInPlace X spacing (.fixed ta))
    (current : Int) (zeroForOne : Bool) :
    (X.getArrayStartIndex current spacing ≠ ta.startTickIndex →
      ta.nextInitializedTick current spacing zeroForOne = (.ok none : Res ε (Option Int))) ∧
    (X.getArrayStartIndex current spacing = ta.startTickIndex →
      ∃ r, ta.nextInitializedTick current spacing zeroForOne = (.ok r : Res ε (Option Int)) ∧
        First zeroForOne {u | ta.Holds spacing u ∧ if zeroForOne then u ≤ current else current < u} r) ∧
    (∃ r, ta.firstInitializedTick zeroForOne = (.ok r : Res ε (Option Int)) ∧
      First zeroForOne {u | ta.Holds spacing u} r) ∧
    ∀ t, ta.nextInitializedTick current spacing zeroForOne = (.ok (some t) : Res ε (Option Int)) ∨
        ta.firstInitializedTick zeroForOne = (.ok (some t) : Res ε (Option Int)) →
      ∃ i, (ta.ticks i).isInitialized = true ∧ (ta.ticks i).tick = t ∧
        ta.getTickLiquidityNet t spacing = (.ok (some (ta.ticks i).liquidityNet) : Res ε
          (Option Int)) := by
  have hlaw := hutils.starts hspacing
  have hisStart : X.getArrayStartIndex ta.startTickIndex spacing = ta.startTickIndex := by
    rw [hutils.floor, Int.ediv_mul_cancel hstart]
  obtain ⟨first, hfirst, hfoundFirst⟩ := @firstInitializedTick_found X ε spacing ta hspacing
    hplace zeroForOne
  have hnear : X.getArrayStartIndex current spacing = ta.startTickIndex →
      ∃ r, ta.nextInitializedTick current spacing zeroForOne = (.ok r : Res ε (Option Int)) ∧
        Found zeroForOne (ta.Holds spacing) current r :=
    nextInitializedTick_total hlaw hutils.fits hplace zeroForOne
  refine ⟨nextInitializedTick_elsewhere, fun hcurrent => ?_, ⟨first, hfirst, ?_⟩, fun t h => ?_⟩
  · obtain ⟨r, hnext, hfound⟩ := hnear hcurrent
    exact ⟨r, hnext, hfound.isFirst⟩
  · have hall : {u | ta.Holds spacing u} =
        {u | ta.Holds spacing u ∧ Ahead zeroForOne (entry X spacing zeroForOne ta.startTickIndex) u} :=
      -- from outside, every tick of the array lies ahead
      Set.ext fun u => ⟨fun hu => ⟨hu, ahead_entry (hu.inSpan hspacing)⟩, fun hu => hu.1⟩
    rw [hall]
    exact hfoundFirst.isFirst
  · have hmem : ta.Holds spacing t := by
      rcases h with hnext | hfirst'
      · by_cases hcurrent : X.getArrayStartIndex current spacing = ta.startTickIndex
        · obtain ⟨r, hr, hfound⟩ := hnear hcurrent
          obtain rfl : r = some t := Except.ok.inj (hr.symm.trans hnext)
          exact hfound.mem
        · rw [nextInitializedTick_elsewhere hcurrent] at hnext
          cases hnext
      · obtain rfl : first = some t := Except.ok.inj (hfirst.symm.trans hfirst')
        exact hfoundFirst.mem
    obtain ⟨_, ⟨i, rfl, hinit⟩, rfl⟩ := hmem
    exact ⟨i, hinit, slot_tick hplace hinit, getTickLiquidityNet_of_initialised hutils hspacing
      hisStart hinit⟩

/-! ## A sample array -/

section Sample

open Adapter

/-- An array below zero with a spacing of two, whose slots 0 and 15 are initialised. -/
def evenSlots : FixedTickArraySnapshot Sample.X where
  startTickIndex := -120
  ticks i :=
    { tick := -120 + i.val * (2 : Nat)
      liquidityNet := 5
      isInitialized := decide (i.val = 0 ∨ i.val = 15) }

/-- From a tick between two slots, the search downwards finds the slot below. -/
theorem in_array_search_sample :
    First true {u | evenSlots.Holds 2 u ∧ if true then u ≤ -89 else -89 < u} (some (-90)) ∧
      evenSlots.getTickLiquidityNet (-90) 2 = (.ok (some 5) : SwapRes (Option Int)) := by
  have hutils : TickUtilsLaw Sample.X 2 :=
    Reference.Standard.tickUtilsLaw ⟨rfl, rfl, rfl, rfl, rfl, rfl⟩ rfl (by decide) (by decide)
  have hspan : Sample.X.span 2 = 120 := rfl
  obtain ⟨-, hnext, -, hnet⟩ := @in_array_search Sample.X (SwapError) 2 evenSlots hutils (by decide)
    (by rw [hspan]; exact ⟨-1, rfl⟩) (fun _ _ => rfl) (-89) true
  have hfound : (evenSlots.nextInitializedTick (-89) 2 true : SwapRes (Option Int)) =
      .ok (some (-90)) := by
    decide +kernel
  obtain ⟨r, hr, hfirst⟩ := hnext (by decide +kernel)
  obtain rfl : r = some (-90) := Except.ok.inj (hr.symm.trans hfound)
  refine ⟨hfirst, ?_⟩
  obtain ⟨i, -, -, hi⟩ := hnet (-90) (Or.inl hfound)
  exact hi

end Sample

end FixedTickArraySnapshot

end ByrealTitan.Clmm
