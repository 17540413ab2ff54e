import ByrealTitan.Clmm.Laws
import Mathlib.Tactic.Linarith

/-!
# `Correctness.Slots` — what the searches of a fixed tick array find

A snapshot is searched slot by slot (`scan`), from the slot of the current tick or from the edge the
walk enters at. With its initialised slots at their own ticks, both searches find the nearest of the
ticks it `Holds`: `nextInitializedTick_found` from the current tick, `firstInitializedTick_found` from
outside.
-/

namespace ByrealTitan.Clmm

open Direction

variable {X : Crates} {ε : Type} {spacing : Nat}

theorem ArrayStartLaw.span_pos (hlaw : ArrayStartLaw X spacing) : 0 < X.span spacing := by
  obtain ⟨hlow, hhigh⟩ := hlaw.inSpan 0
  omega

theorem ArrayStartLaw.spacing_pos (hlaw : ArrayStartLaw X spacing) : 0 < spacing := by
  obtain ⟨hlow, hhigh⟩ := hlaw.inSpan 0
  by_contra hzero
  obtain rfl : spacing = 0 := by omega
  unfold Crates.span at hhigh
  rw [Int.natCast_zero, Int.mul_zero] at hhigh
  omega

namespace FixedTickArraySnapshot

variable (ta : FixedTickArraySnapshot X)

/-- The slot at an offset is initialised. -/
def Initialised (offset : Int) : Prop :=
  ∃ i : Fin X.TICK_ARRAY_SIZE, (i.val : Int) = offset ∧ (ta.ticks i).isInitialized = true

/-- The tick at an offset. -/
def tickOf (spacing : Nat) (offset : Int) : Int := ta.startTickIndex + offset * spacing

/-- The ticks of the initialised slots. -/
def Holds (spacing : Nat) (t : Int) : Prop := ∃ offset, ta.Initialised offset ∧
    ta.tickOf spacing offset = t

variable {ta}

theorem Initialised.inBounds {offset : Int} (h : ta.Initialised offset) :
    0 ≤ offset ∧ offset < X.TICK_ARRAY_SIZE := by
  obtain ⟨i, rfl, -⟩ := h
  have := i.isLt
  omega

theorem tickAt_eq {n : Nat} (h : n < X.TICK_ARRAY_SIZE) :
    ta.tickAt (n : Int) = (.ok (ta.ticks ⟨n, h⟩) : Res ε TickState) := by
  unfold tickAt slot
  rw [if_pos (Int.natCast_nonneg n), dif_pos (by rwa [Int.toNat_natCast])]
  simp only [Int.toNat_natCast]

/-! ## The scan -/

/-- The slots are where `tickOf` puts them. -/
theorem slot_tick (hplace : SlotsInPlace X spacing (.fixed ta)) {i : Fin X.TICK_ARRAY_SIZE}
    (h : (ta.ticks i).isInitialized = true) : (ta.ticks i).tick = ta.tickOf spacing i.val := hplace i h

theorem not_initialised_of {n : Nat} (h : n < X.TICK_ARRAY_SIZE)
    (hinit : (ta.ticks ⟨n, h⟩).isInitialized ≠ true) : ¬ ta.Initialised (n : Int) := by
  rintro ⟨i, hi, htrue⟩
  obtain rfl : i = ⟨n, h⟩ := Fin.ext (Int.ofNat_inj.mp hi)
  exact hinit htrue

/-- A scan downwards finds the nearest initialised slot at or below its offset. -/
theorem scan_down (hplace : SlotsInPlace X spacing (.fixed ta)) {n : Nat} (h : n ≤ X.TICK_ARRAY_SIZE) :
    ∃ r, ta.scan (-1) n ((n : Int) - 1) = (.ok (Option.map (ta.tickOf spacing) r) : Res ε (Option Int)) ∧
      Found true ta.Initialised ((n : Int) - 1) r := by
  induction n with
  | zero =>
      refine ⟨none, rfl, fun u hu hahead => ?_⟩
      have := hu.inBounds
      rw [ahead_down] at hahead
      omega
  | succ n ih =>
      have hoffset : ((n + 1 : Nat) : Int) - 1 = n := by omega
      have hlt : n < X.TICK_ARRAY_SIZE := by omega
      rw [hoffset, scan, tickAt_eq hlt, Except.ok_bind]
      by_cases hinit : (ta.ticks ⟨n, hlt⟩).isInitialized = true
      · refine ⟨some (n : Int), ?_, ⟨⟨⟨n, hlt⟩, rfl, hinit⟩, Int.le_refl _, fun u _ hahead => ?_⟩⟩
        · rw [if_pos hinit, slot_tick hplace hinit]
          rfl
        · rw [ahead_down] at hahead
          rw [further_down]
          omega
      · obtain ⟨r, hscan, hfound⟩ := ih (by omega)
        refine ⟨r, ?_, hfound.skip ?_ ?_⟩
        · rw [if_neg hinit, show (n : Int) + -1 = (n : Int) - 1 from rfl]
          exact hscan
        · intro u hu hahead
          have hne : u ≠ n := fun heq => not_initialised_of hlt hinit (heq ▸ hu)
          rw [ahead_down] at hahead ⊢
          omega
        · intro u hahead
          rw [ahead_down] at hahead ⊢
          omega

/-- A scan upwards finds the nearest initialised slot from its offset on. -/
theorem scan_up (hplace : SlotsInPlace X spacing (.fixed ta)) {n : Nat} (h : n ≤ X.TICK_ARRAY_SIZE) :
    ∃ r, ta.scan 1 n ((X.TICK_ARRAY_SIZE : Int) - n) =
        (.ok (Option.map (ta.tickOf spacing) r) : Res ε (Option Int)) ∧
      Found false ta.Initialised ((X.TICK_ARRAY_SIZE : Int) - n - 1) r := by
  induction n with
  | zero =>
      refine ⟨none, rfl, fun u hu hahead => ?_⟩
      have := hu.inBounds
      rw [ahead_up] at hahead
      omega
  | succ n ih =>
      have hlt : X.TICK_ARRAY_SIZE - (n + 1) < X.TICK_ARRAY_SIZE := by omega
      have hoffset : (X.TICK_ARRAY_SIZE : Int) - (n + 1 : Nat) =
          ((X.TICK_ARRAY_SIZE - (n + 1) : Nat) : Int) := by
        omega
      rw [hoffset, scan, tickAt_eq hlt, Except.ok_bind]
      by_cases hinit : (ta.ticks ⟨_, hlt⟩).isInitialized = true
      · -- this slot is the nearest
        refine ⟨some ((X.TICK_ARRAY_SIZE - (n + 1) : Nat) : Int), ?_,
          ⟨⟨⟨_, hlt⟩, rfl, hinit⟩, ?_, fun u _ hahead => ?_⟩⟩
        · rw [if_pos hinit, slot_tick hplace hinit]
          rfl
        · rw [ahead_up]
          omega
        · rw [ahead_up] at hahead
          rw [further_up]
          omega
      · obtain ⟨r, hscan, hfound⟩ := ih (by omega)
        refine ⟨r, ?_, hfound.skip ?_ ?_⟩
        · rw [if_neg hinit, show ((X.TICK_ARRAY_SIZE - (n + 1) : Nat) : Int) + 1 =
            (X.TICK_ARRAY_SIZE : Int) - n by
            omega]
          exact hscan
        · intro u hu hahead
          have hne : u ≠ ((X.TICK_ARRAY_SIZE - (n + 1) : Nat) : Int) := fun heq =>
            not_initialised_of hlt hinit (heq ▸ hu)
          rw [ahead_up] at hahead ⊢
          omega
        · intro u hahead
          rw [ahead_up] at hahead ⊢
          omega

/-! ## The two searches -/

/-- The position from which everything in an array lies ahead. -/
def entry (X : Crates) (spacing : Nat) (zeroForOne : Bool) (start : Int) : Int :=
  if zeroForOne then start + X.span spacing - 1 else start - 1

theorem ahead_entry {zeroForOne : Bool} {start t : Int} (h : InSpan X spacing start t) :
    Ahead zeroForOne (entry X spacing zeroForOne start) t := by
  obtain ⟨hlow, hhigh⟩ := h
  unfold entry
  cases zeroForOne with
  | true =>
      rw [ahead_down, if_pos rfl]
      omega
  | false =>
      rw [ahead_up, if_neg Bool.false_ne_true]
      omega

/-- Ticks are in the order of their slots. -/
theorem tickOf_further {zeroForOne : Bool} (u w : Int)
    (h : Further zeroForOne (ta.tickOf spacing u) (ta.tickOf spacing w)) : Further zeroForOne u w := by
  have hspacing : (0 : Int) ≤ spacing := Int.natCast_nonneg spacing
  unfold tickOf at h
  by_cases hle : u ≤ w
  · have := Int.mul_le_mul_of_nonneg_right hle hspacing
    cases zeroForOne with
    | true =>
        rw [further_down] at h
        omega
    | false =>
        rw [further_up] at h ⊢
        rcases Int.lt_or_eq_of_le hle with hlt | rfl
        · exact hlt
        · omega
  · have := Int.mul_le_mul_of_nonneg_right (show w ≤ u by omega) hspacing
    cases zeroForOne with
    | true =>
        rw [further_down]
        omega
    | false =>
        rw [further_up] at h
        omega

/-- An initialised slot's tick is one of the array's. -/
theorem tickOf_inSpan (hspacing : 0 < spacing) {offset : Int} (h : ta.Initialised offset) :
    InSpan X spacing ta.startTickIndex (ta.tickOf spacing offset) := by
  obtain ⟨hlow, hhigh⟩ := h.inBounds
  have hpos : (0 : Int) < spacing := by omega
  have hfrom : 0 ≤ offset * (spacing : Int) := Int.mul_nonneg hlow (Int.le_of_lt hpos)
  have hto : offset * (spacing : Int) < X.TICK_ARRAY_SIZE * spacing :=
    Int.mul_lt_mul_of_pos_right hhigh hpos
  unfold tickOf InSpan Crates.span
  omega

theorem Holds.inSpan (hspacing : 0 < spacing) {t : Int} (h : ta.Holds spacing t) :
    InSpan X spacing ta.startTickIndex t := by
  obtain ⟨offset, hinit, rfl⟩ := h
  exact tickOf_inSpan hspacing hinit

/-- **The first tick of an array is the nearest from outside.** -/
theorem firstInitializedTick_found (hspacing : 0 < spacing) (hplace : SlotsInPlace X spacing (.fixed ta))
    (zeroForOne : Bool) :
    ∃ r, ta.firstInitializedTick zeroForOne = (.ok r : Res ε (Option Int)) ∧
      Found zeroForOne (ta.Holds spacing) (entry X spacing zeroForOne ta.startTickIndex) r := by
  unfold firstInitializedTick
  cases zeroForOne with
  | true =>
      obtain ⟨r, hscan, hfound⟩ := scan_down hplace (Nat.le_refl X.TICK_ARRAY_SIZE)
      refine ⟨_, hscan, hfound.map tickOf_further fun u hu => ?_⟩
      obtain ⟨-, hbound⟩ := hu.inBounds
      obtain ⟨-, hin⟩ := tickOf_inSpan hspacing hu
      simp only [entry, ahead_down, if_true]
      omega
  | false =>
      obtain ⟨r, hscan, hfound⟩ := scan_up hplace (Nat.le_refl X.TICK_ARRAY_SIZE)
      rw [Int.sub_self] at hscan hfound
      refine ⟨_, hscan, hfound.map tickOf_further fun u hu => ?_⟩
      obtain ⟨hbound, -⟩ := hu.inBounds
      obtain ⟨hin, -⟩ := tickOf_inSpan hspacing hu
      simp only [entry, ahead_up, Bool.false_eq_true, if_false]
      omega

/-- The slot of the current tick: its tick and the next slot's are on either side. -/
theorem slotOffset_eq_ok {current offset : Int} (hin : InSpan X spacing ta.startTickIndex current)
    (h : ta.slotOffset current spacing = (.ok offset : Res ε Int)) :
    0 < spacing ∧ 0 ≤ offset ∧ offset < X.TICK_ARRAY_SIZE ∧ ta.tickOf spacing offset ≤ current ∧
      current < ta.tickOf spacing (offset + 1) := by
  unfold slotOffset at h
  obtain ⟨distance, hdistance, h⟩ := Except.bind_eq_ok.mp h
  obtain ⟨hlow, hhigh⟩ := hin
  unfold checkedI32 at hdistance
  split at hdistance
  next =>
    cases hdistance
    split at h
    next => cases h
    next hne =>
      cases h
      have hpos : (0 : Int) < spacing := by omega
      rw [Int.tdiv_eq_ediv_of_nonneg (by omega)]
      have hdiv := Int.mul_ediv_add_emod (current - ta.startTickIndex) spacing
      have hmod := Int.emod_nonneg (current - ta.startTickIndex) (ne_of_gt hpos)
      have hmod' := Int.emod_lt_of_pos (current - ta.startTickIndex) hpos
      unfold tickOf
      unfold Crates.span at hhigh
      refine ⟨by omega, Int.ediv_nonneg (by omega) (Int.le_of_lt hpos), ?_, by linarith, by linarith⟩
      rw [Int.ediv_lt_iff_lt_mul hpos]
      omega
  next => cases hdistance

theorem slotOffset_total {current : Int} (hspacing : 0 < spacing) (hwidth : X.span spacing ≤ 2 ^ 31)
    (hin : InSpan X spacing ta.startTickIndex current) :
    ∃ offset, ta.slotOffset current spacing = (.ok offset : Res ε Int) := by
  obtain ⟨hlow, hhigh⟩ := hin
  unfold slotOffset checkedI32
  rw [if_pos (by omega), Except.ok_bind, if_neg (by omega)]
  exact ⟨_, rfl⟩

/-- From the slot of the current tick, a search finds the nearest tick ahead of it. -/
theorem nextInitializedTick_of_slot (hplace : SlotsInPlace X spacing (.fixed ta)) {current offset : Int}
    (zeroForOne : Bool) (hstart : X.getArrayStartIndex current spacing = ta.startTickIndex)
    (hin : InSpan X spacing ta.startTickIndex current)
    (hslot : ta.slotOffset current spacing = (.ok offset : Res ε Int)) :
    ∃ r, ta.nextInitializedTick current spacing zeroForOne = (.ok r : Res ε (Option Int)) ∧
      Found zeroForOne (ta.Holds spacing) current r := by
  obtain ⟨hspacing, hlow, hhigh, hbelow, habove⟩ := slotOffset_eq_ok hin hslot
  have hpos : (0 : Int) < spacing := by omega
  unfold nextInitializedTick
  rw [if_neg (fun hne => hne hstart), hslot, Except.ok_bind]
  cases zeroForOne with
  | true =>
      -- downwards the slot of the current tick is included: its tick is at or below the current one
      simp only [if_true]
      obtain ⟨r, hscan, hfound⟩ := scan_down hplace (show (offset + 1).toNat ≤ X.TICK_ARRAY_SIZE by omega)
      rw [show ((offset + 1).toNat : Int) - 1 = offset by omega] at hscan hfound
      refine ⟨_, hscan, hfound.map tickOf_further fun u _ => ?_⟩
      rw [ahead_down, ahead_down]
      constructor
      · intro hu
        by_contra hgt
        have := Int.mul_le_mul_of_nonneg_right (show offset + 1 ≤ u by omega) (Int.le_of_lt hpos)
        unfold tickOf at hu habove
        omega
      · intro hu
        have := Int.mul_le_mul_of_nonneg_right hu (Int.le_of_lt hpos)
        unfold tickOf at hbelow ⊢
        omega
  | false =>
      -- upwards it is left out, as its tick is not above the current one
      simp only [Bool.false_eq_true, if_false]
      obtain ⟨r, hscan, hfound⟩ := scan_up hplace
        (show ((X.TICK_ARRAY_SIZE : Int) - (offset + 1)).toNat ≤ X.TICK_ARRAY_SIZE by omega)
      rw [show (X.TICK_ARRAY_SIZE : Int) - ((X.TICK_ARRAY_SIZE : Int) - (offset + 1)).toNat = offset +
        1 by omega] at hscan hfound
      rw [show offset + 1 - 1 = offset by omega] at hfound
      refine ⟨_, hscan, hfound.map tickOf_further fun u _ => ?_⟩
      rw [ahead_up, ahead_up]
      constructor
      · intro hu
        by_contra hle
        have := Int.mul_le_mul_of_nonneg_right (show u ≤ offset by omega) (Int.le_of_lt hpos)
        unfold tickOf at hu hbelow
        omega
      · intro hu
        have := Int.mul_le_mul_of_nonneg_right (show offset + 1 ≤ u by omega) (Int.le_of_lt hpos)
        unfold tickOf at habove ⊢
        omega

/-- **In the current tick's array** a search succeeds and finds the nearest tick ahead. -/
theorem nextInitializedTick_total (hlaw : ArrayStartLaw X spacing) (hwidth : X.span spacing ≤ 2 ^ 31)
    (hplace : SlotsInPlace X spacing (.fixed ta)) {current : Int} (zeroForOne : Bool)
    (hstart : X.getArrayStartIndex current spacing = ta.startTickIndex) :
    ∃ r, ta.nextInitializedTick current spacing zeroForOne = (.ok r : Res ε (Option Int)) ∧
      Found zeroForOne (ta.Holds spacing) current r := by
  have hin := hlaw.inSpan current
  rw [hstart] at hin
  obtain ⟨offset, hslot⟩ := @slotOffset_total X ε spacing ta current hlaw.spacing_pos hwidth hin
  exact nextInitializedTick_of_slot hplace zeroForOne hstart hin hslot

/-- **What a search in the current tick's array finds is the nearest tick ahead.** -/
theorem nextInitializedTick_found (hlaw : ArrayStartLaw X spacing)
    (hplace : SlotsInPlace X spacing (.fixed ta)) {current : Int} {zeroForOne : Bool} {r : Option Int}
    (hstart : X.getArrayStartIndex current spacing = ta.startTickIndex)
    (h : ta.nextInitializedTick current spacing zeroForOne = (.ok r : Res ε (Option Int))) :
    0 < spacing ∧ Found zeroForOne (ta.Holds spacing) current r := by
  have hin : InSpan X spacing ta.startTickIndex current := by
    rw [← hstart]
    exact hlaw.inSpan current
  have hsearch := h
  unfold nextInitializedTick at hsearch
  rw [if_neg (fun hne => hne hstart)] at hsearch
  obtain ⟨offset, hslot, -⟩ := Except.bind_eq_ok.mp hsearch
  obtain ⟨r', hr', hfound⟩ := nextInitializedTick_of_slot hplace zeroForOne hstart hin hslot
  obtain rfl : r' = r := Except.ok.inj (hr'.symm.trans h)
  exact ⟨(slotOffset_eq_ok hin hslot).1, hfound⟩

/-- A search in another array than the current tick's finds nothing. -/
theorem nextInitializedTick_elsewhere {current : Int} {zeroForOne : Bool}
    (hstart : X.getArrayStartIndex current spacing ≠ ta.startTickIndex) :
    ta.nextInitializedTick current spacing zeroForOne = (.ok none : Res ε (Option Int)) := by
  unfold nextInitializedTick
  rw [if_pos hstart]

end FixedTickArraySnapshot

/-! ## Either kind of array -/

namespace DynamicTickArrayState

variable {array : DynamicTickArrayState X} {zeroForOne : Bool} {t : Int}

/-- **The next tick of an array lies ahead of the current one**, and both are the array's. -/
theorem nextInitializedTick_ahead (hlaw : ArrayStartLaw X spacing) (hplace : SlotsInPlace X spacing array)
    {current : Int}
    (h : array.nextInitializedTick current spacing zeroForOne = (.ok (some t) : Res ε (Option Int))) :
    X.getArrayStartIndex current spacing = array.startTickIndex ∧ InSpan X spacing array.startTickIndex t ∧
      Ahead zeroForOne current t := by
  cases array with
  | dynamic header ticks =>
      rw [nextInitializedTick] at h
      split at h
      next i hi =>
        obtain ⟨tick, htick, h⟩ := Except.bind_eq_ok.mp h
        cases h
        exact hplace.1 current zeroForOne i tick hi (Res.orPanic_eq_ok.mp htick)
      next => cases h
  | fixed ta =>
      have hsearch : ta.nextInitializedTick current spacing zeroForOne =
          (.ok (some t) : Res ε (Option Int)) := h
      by_cases hstart : X.getArrayStartIndex current spacing = ta.startTickIndex
      · obtain ⟨hspacing, hfound⟩ := FixedTickArraySnapshot.nextInitializedTick_found hlaw hplace
          hstart hsearch
        exact ⟨hstart, hfound.mem.inSpan hspacing, hfound.ahead⟩
      · rw [FixedTickArraySnapshot.nextInitializedTick_elsewhere hstart] at hsearch
        cases hsearch

/-- The first tick of an array is the array's. -/
theorem firstInitializedTick_inSpan (hspacing : 0 < spacing) (hplace : SlotsInPlace X spacing array)
    (h : array.firstInitializedTick zeroForOne = (.ok (some t) : Res ε (Option Int))) :
    InSpan X spacing array.startTickIndex t := by
  cases array with
  | dynamic header ticks =>
      rw [firstInitializedTick] at h
      split at h
      next i hi =>
        obtain ⟨tick, htick, h⟩ := Except.bind_eq_ok.mp h
        cases h
        exact hplace.2 zeroForOne i tick hi (Res.orPanic_eq_ok.mp htick)
      next => cases h
  | fixed ta =>
      obtain ⟨r, hfirst, hfound⟩ := @FixedTickArraySnapshot.firstInitializedTick_found X ε spacing ta
        hspacing hplace zeroForOne
      obtain rfl : r = some t := Except.ok.inj (hfirst.symm.trans h)
      exact hfound.mem.inSpan hspacing

end DynamicTickArrayState

end ByrealTitan.Clmm
