import ByrealTitan.Adapter.Sample
import ByrealTitan.Clmm.Instruction
import ByrealTitan.Clmm.ReferenceLaws
import Mathlib.Tactic.Positivity

/-!
# `Correctness.FetchedArrays` — the tick arrays a swap lists, and those a refresh asks for

`getSwapTickArrays` and `accountsToUpdate` enumerate tick arrays apart from one another, each with a
fallback of its own for when the pool's bitmap helpers fail. Where the helper finds a first array in the
direction of the swap, both follow the same chain. Where it does not, the swap falls back to consecutive
arrays in its own direction, while the refresh falls back only if the helper found nothing in either
direction, and then always downwards: an upward fallback is never fetched.
-/

namespace ByrealTitan.Clmm.ByrealClmmVenue

variable {X : Crates} (v : ByrealClmmVenue X)

/-! ## The condition -/

/-- Every tick array a swap in this direction lists is fetched by a refresh. -/
def ArraysFetched (zeroForOne : Bool) : Prop :=
  ∀ key ∈ v.getSwapTickArrays zeroForOne, key ∈ v.accountsToUpdate

/-- The guard of `get_all_tick_array_addresses`. -/
def helpersUsable : Bool :=
  v.bitmapExtension.isSome || !X.isOverflowDefaultTickarrayBitmap v.poolState [v.poolState.tickCurrent]

/-- The pool's helper finds a first array in this direction. -/
def findsFirst (zeroForOne : Bool) : Bool :=
  (X.getFirstInitializedTickArray v.poolState v.bitmapExtension zeroForOne).isOk

/-- The helper finds a first array and is consulted for the refresh too; or the swap goes down and the
    refresh finds nothing, so that both fall back to the same arrays. -/
def SameEnumeration (zeroForOne : Bool) : Prop :=
  (v.findsFirst zeroForOne = true ∧ v.helpersUsable = true ∧ 0 < v.maxOneSideTickArrays) ∨
    (v.findsFirst zeroForOne = false ∧ zeroForOne = true ∧ v.helperStartIndexes = [])

/-! ## What each side lists -/

theorem mem_allStartIndexes {s : Int} : s ∈ v.allStartIndexes ↔
    if v.helperStartIndexes = [] then s ∈ v.fallbackSwapStarts true else s ∈ v.helperStartIndexes := by
  unfold allStartIndexes
  rw [List.mem_insertionSort, List.mem_dedup]
  split
  · exact Iff.rfl
  · exact Iff.rfl

/-- A direction in which the helper finds a first array contributes exactly what the swap lists. -/
theorem collectDir_of_findsFirst {zeroForOne : Bool} (hfirst : v.findsFirst zeroForOne = true)
    (hmax : 0 < v.maxOneSideTickArrays) :
    v.collectDir zeroForOne v.maxOneSideTickArrays = v.swapStarts zeroForOne := by
  unfold findsFirst at hfirst
  unfold collectDir swapStarts
  rw [if_neg (Nat.pos_iff_ne_zero.mp hmax)]
  cases h : X.getFirstInitializedTickArray v.poolState v.bitmapExtension zeroForOne with
  | ok found => rfl
  | error e =>
      rw [h] at hfirst
      cases hfirst

theorem collectDir_of_not_findsFirst {zeroForOne : Bool} (hfirst : v.findsFirst zeroForOne = false)
    (limit : Nat) : v.collectDir zeroForOne limit = [] := by
  unfold findsFirst at hfirst
  unfold collectDir
  cases h : X.getFirstInitializedTickArray v.poolState v.bitmapExtension zeroForOne with
  | ok found =>
      rw [h] at hfirst
      cases hfirst
  | error e => split <;> rfl

theorem swapStarts_of_not_findsFirst {zeroForOne : Bool} (hfirst : v.findsFirst zeroForOne = false) :
    v.swapStarts zeroForOne = v.fallbackSwapStarts zeroForOne := by
  unfold findsFirst at hfirst
  unfold swapStarts
  cases h : X.getFirstInitializedTickArray v.poolState v.bitmapExtension zeroForOne with
  | ok found =>
      rw [h] at hfirst
      cases hfirst
  | error e => rfl

theorem helperStartIndexes_eq : v.helperStartIndexes = if v.helpersUsable = true then
    v.collectDir true v.maxOneSideTickArrays ++ v.collectDir false v.maxOneSideTickArrays else [] := rfl

/-- Where both sides enumerate alike, what the swap lists is fetched. -/
theorem swapStarts_subset {zeroForOne : Bool} (h : v.SameEnumeration zeroForOne) {s : Int}
    (hs : s ∈ v.swapStarts zeroForOne) : s ∈ v.allStartIndexes := by
  rw [mem_allStartIndexes]
  rcases h with ⟨hfirst, husable, hmax⟩ | ⟨hfirst, rfl, hnone⟩
  · have hmem : s ∈ v.helperStartIndexes := by
      rw [helperStartIndexes_eq, if_pos husable, List.mem_append]
      rw [← v.collectDir_of_findsFirst hfirst hmax] at hs
      cases zeroForOne with
      | true  => exact Or.inl hs
      | false => exact Or.inr hs
    rw [if_neg (List.ne_nil_of_mem hmem)]
    exact hmem
  · rw [if_pos hnone]
    rw [v.swapStarts_of_not_findsFirst hfirst] at hs
    exact hs

theorem address_mem_accountsToUpdate {s : Int} (hs : s ∈ v.allStartIndexes) :
    v.getTickArrayAddress s ∈ v.accountsToUpdate := by
  unfold accountsToUpdate getAllTickArrayAddresses
  simp only [List.mem_append, List.mem_map]
  exact Or.inl (Or.inl (Or.inr ⟨s, hs, rfl⟩))

/-! ## The condition is needed

That takes what the crate's helpers and addresses are like: a helper stays on the side of its
direction, and an array's address belongs to no other account. -/

/-- The side of the current array that a direction leads to. -/
def Onward (zeroForOne : Bool) (s : Int) : Prop :=
  if zeroForOne then s ≤ v.currentStartIndex else v.currentStartIndex ≤ s

/-- The pool's bitmap helpers look in the direction they are given, and need the extension where the
    current tick lies beyond the pool's own bitmap. -/
structure DirectionalHelpers : Prop where
  unusable : v.helpersUsable = false → ∀ zeroForOne, v.findsFirst zeroForOne = false
  first {zeroForOne isCurrent : Bool} {s : Int} :
    X.getFirstInitializedTickArray v.poolState v.bitmapExtension zeroForOne = .ok (isCurrent, s) →
    v.Onward zeroForOne s
  next {zeroForOne : Bool} {s t : Int} :
    X.poolNextInitializedTickArrayStartIndex v.poolState v.bitmapExtension s zeroForOne = .ok (some t) →
    if zeroForOne then t < s else s < t

/-- Tick arrays of different starts have different addresses, none of which is another account's. -/
structure DistinctAddresses : Prop where
  starts {zeroForOne : Bool} : ∀ s ∈ v.swapStarts zeroForOne, ∀ t ∈ v.allStartIndexes,
    v.getTickArrayAddress s = v.getTickArrayAddress t → s = t
  others {zeroForOne : Bool} : ∀ s ∈ v.swapStarts zeroForOne,
    v.getTickArrayAddress s ∉ v.baseAccountsToUpdate

/-- The current array has room on both sides, and more than one array a side is listed. -/
structure RoomAround : Prop where
  above : -2 ^ 31 < v.currentStartIndex
  below : v.currentStartIndex < 2 ^ 31 - 1
  span : 0 < X.TICK_ARRAY_SIZE * v.spacing
  sides : 2 ≤ v.maxOneSideTickArrays

variable {v}

theorem DirectionalHelpers.follow (hdir : v.DirectionalHelpers) {zeroForOne : Bool} {count : Nat}
    {start s : Int} (hstart : v.Onward zeroForOne start)
    (hs : s ∈ v.followTickArrays zeroForOne count start) : v.Onward zeroForOne s := by
  induction count generalizing start with
  | zero => cases hs
  | succ count ih =>
      unfold followTickArrays at hs
      split at hs
      next next hnext =>
        have hfurther := hdir.next hnext
        have honward : v.Onward zeroForOne next := by
          unfold Onward at hstart ⊢
          cases zeroForOne with
          | true =>
              simp only [if_true] at hstart hfurther ⊢
              omega
          | false =>
              simp only [Bool.false_eq_true, if_false] at hstart hfurther ⊢
              omega
        rcases List.mem_cons.mp hs with rfl | hs
        · exact honward
        · exact ih honward hs
      next => cases hs

/-- What a direction contributes to the refresh lies on its side. -/
theorem DirectionalHelpers.collect (hdir : v.DirectionalHelpers) {zeroForOne : Bool} {limit : Nat}
    {s : Int} (hs : s ∈ v.collectDir zeroForOne limit) : v.Onward zeroForOne s := by
  unfold collectDir at hs
  split at hs
  next => cases hs
  next =>
    split at hs
    next isCurrent start hfirst =>
      rcases List.mem_cons.mp hs with rfl | hs
      · exact hdir.first hfirst
      · exact hdir.follow (hdir.first hfirst) hs
    next => cases hs

theorem saturateI32_lt {x y : Int} (hxy : x < y) (hy : -2 ^ 31 < y) : saturateI32 x < y := by
  unfold saturateI32
  omega

theorem lt_saturateI32 {x y : Int} (hxy : y < x) (hy : y < 2 ^ 31 - 1) : y < saturateI32 x := by
  unfold saturateI32
  omega

/-- The fallback of a swap lists an array strictly beyond the current one. -/
theorem RoomAround.beyond (hroom : v.RoomAround) (zeroForOne : Bool) :
    ∃ s ∈ v.fallbackSwapStarts zeroForOne,
      if zeroForOne then s < v.currentStartIndex else v.currentStartIndex < s := by
  have hspan : 0 < (X.TICK_ARRAY_SIZE : Int) * 1 * (v.spacing : Int) := by
    have h := hroom.span
    rw [Int.mul_one, ← Int.natCast_mul]
    omega
  have hoffset : (X.TICK_ARRAY_SIZE : Int) * 1 * (v.spacing : Int) ∈ v.fallbackOffsets := by
    unfold fallbackOffsets
    refine List.mem_map.mpr ⟨0, List.mem_range.mpr ?_, by simp⟩
    have := hroom.sides
    omega
  refine ⟨_, List.mem_cons_of_mem _ (List.mem_map.mpr ⟨_, hoffset, rfl⟩), ?_⟩
  cases zeroForOne with
  | true =>
      simp only [if_true]
      exact saturateI32_lt (by omega) hroom.above
  | false =>
      simp only [Bool.false_eq_true, if_false]
      exact lt_saturateI32 (by omega) hroom.below

/-- The refresh's own fallback goes down. -/
theorem fallback_le (hroom : v.RoomAround) {s : Int} (hs : s ∈ v.fallbackSwapStarts true) :
    s ≤ v.currentStartIndex := by
  rcases List.mem_cons.mp hs with rfl | hs
  · exact Int.le_refl _
  · obtain ⟨o, ho, rfl⟩ := List.mem_map.mp hs
    obtain ⟨i, -, rfl⟩ := List.mem_map.mp ho
    have hnonneg : (0 : Int) ≤ (X.TICK_ARRAY_SIZE : Int) * ((i : Int) + 1) * (v.spacing : Int) := by
      positivity
    have habove := hroom.above
    simp only [if_true]
    unfold saturateI32
    omega

/-- Unless both sides enumerate alike, the swap falls back to an array on a side that the refresh leaves
    out. -/
theorem missed_start (hdir : v.DirectionalHelpers) (hroom : v.RoomAround) {zeroForOne : Bool}
    (h : ¬ v.SameEnumeration zeroForOne) : ∃ s ∈ v.swapStarts zeroForOne, s ∉ v.allStartIndexes := by
  have hsides := hroom.sides
  cases hfirst : v.findsFirst zeroForOne with
  | true =>
      cases husable : v.helpersUsable with
      | true  => exact absurd (Or.inl ⟨hfirst, husable, by omega⟩) h
      | false => exact Bool.noConfusion (hfirst.symm.trans (hdir.unusable husable zeroForOne))
  | false =>
      rw [v.swapStarts_of_not_findsFirst hfirst]
      obtain ⟨s, hs, hbeyond⟩ := hroom.beyond zeroForOne
      refine ⟨s, hs, fun hmem => ?_⟩
      rw [mem_allStartIndexes] at hmem
      cases zeroForOne with
      | true =>
          rw [if_neg fun hnone => h (Or.inr ⟨hfirst, rfl, hnone⟩), helperStartIndexes_eq] at hmem
          split at hmem
          next =>
            rw [v.collectDir_of_not_findsFirst hfirst, List.nil_append] at hmem
            have honward := hdir.collect hmem
            simp only [Onward, Bool.false_eq_true, if_false] at honward
            simp only [if_true] at hbeyond
            omega
          next => cases hmem
      | false =>
          simp only [Bool.false_eq_true, if_false] at hbeyond
          split at hmem
          next =>
            have hle := fallback_le hroom hmem
            omega
          next =>
            rw [helperStartIndexes_eq] at hmem
            split at hmem
            next =>
              rw [v.collectDir_of_not_findsFirst hfirst, List.append_nil] at hmem
              have honward := hdir.collect hmem
              simp only [Onward, if_true] at honward
              omega
            next => cases hmem

/-- An address a refresh asks for is that of an array it lists. -/
theorem DistinctAddresses.listed (haddr : v.DistinctAddresses) {zeroForOne : Bool} {s : Int}
    (hs : s ∈ v.swapStarts zeroForOne) (hmem : v.getTickArrayAddress s ∈ v.accountsToUpdate) :
    s ∈ v.allStartIndexes := by
  have hother := haddr.others s hs
  have hcases : v.getTickArrayAddress s ∈ v.getAllTickArrayAddresses ∨
      v.getTickArrayAddress s ∈ v.baseAccountsToUpdate := by
    simp only [accountsToUpdate, baseAccountsToUpdate, List.mem_append, List.mem_cons, List.not_mem_nil,
      or_false] at hmem ⊢
    tauto
  rcases hcases with hmem | hmem
  · obtain ⟨t, ht, heq⟩ := List.mem_map.mp hmem
    rw [haddr.starts s hs t ht heq.symm]
    exact ht
  · exact absurd hmem hother

variable (v)

/-- **A swap's tick arrays are fetched exactly where both sides enumerate alike.**
    That the condition is enough holds of any helpers; that it is needed, of helpers
    that look in the direction they are given. -/
theorem swap_arrays_fetched_iff (zeroForOne : Bool) :
    (v.SameEnumeration zeroForOne → v.ArraysFetched zeroForOne) ∧
      (v.DirectionalHelpers → v.DistinctAddresses → v.RoomAround →
        v.ArraysFetched zeroForOne → v.SameEnumeration zeroForOne) := by
  constructor
  · intro h key hkey
    obtain ⟨s, hs, rfl⟩ := List.mem_map.mp hkey
    exact v.address_mem_accountsToUpdate (v.swapStarts_subset h hs)
  · intro hdir haddr hroom hfetched
    by_contra hne
    obtain ⟨s, hs, hmissed⟩ := missed_start hdir hroom hne
    exact hmissed (haddr.listed hs (hfetched _ (List.mem_map.mpr ⟨s, hs, rfl⟩)))

/-! ## Sample venues -/

section Sample

open Adapter Reference

/-- A venue of the pool without a marked array. -/
def unmarkedVenue : ByrealClmmVenue Sample.X := Sample.freshOf Sample.X Sample.unmarkedPool

/-- **An upward swap lists arrays that no refresh fetches**: with no marked array, the swap lists the
    arrays above the current one, and the refresh asks for those below. -/
theorem upward_arrays_not_fetched :
    ∃ key ∈ unmarkedVenue.getSwapTickArrays false, key ∉ unmarkedVenue.accountsToUpdate :=
  ⟨Sample.tickArrayAddress 60, by decide +kernel, by decide +kernel⟩

/-- The concrete helpers look in the direction they are given. -/
theorem directionalHelpers {pools : List (List UInt8 × PoolState)} (v : ByrealClmmVenue (crates pools))
    (hspacing : 0 < v.spacing) : v.DirectionalHelpers where
  unusable h := by
    simp [helpersUsable, crates] at h
  first {zeroForOne isCurrent s} h := by
    have hcurrent : v.currentStartIndex =
        v.poolState.tickCurrent / arrayTicks v.spacing * arrayTicks v.spacing := rfl
    unfold Onward
    rw [hcurrent]
    simp only [crates] at h
    split at h
    next =>
      cases h
      split <;> exact Int.le_refl _
    next =>
      split at h
      next hfound =>
        cases h
        have hnext : Reference.nextInitializedTickArrayStartIndex v.poolState.tickArrayBitmap
            (v.poolState.tickCurrent / arrayTicks v.spacing * arrayTicks v.spacing) v.spacing zeroForOne =
              (true, _) := Prod.ext hfound rfl
        have hfurther := nextInitializedTickArrayStartIndex_further hspacing hnext
        cases zeroForOne with
        | true => exact Int.le_of_lt hfurther
        | false => exact Int.le_of_lt hfurther
      next => cases h
  next {zeroForOne s t} h := by
    simp only [crates, Except.ok.injEq] at h
    split at h
    next hfound =>
      obtain rfl := Option.some.inj h
      exact nextInitializedTickArrayStartIndex_further hspacing (Prod.ext hfound rfl)
    next => cases h

/-- The sample pool itself has a marked array on both sides. -/
def markedVenue : ByrealClmmVenue Sample.X := Sample.freshOf Sample.X Sample.pool

theorem unmarkedVenue_distinctAddresses : unmarkedVenue.DistinctAddresses where
  starts {zeroForOne} := by cases zeroForOne <;> decide +kernel
  others {zeroForOne} := by cases zeroForOne <;> decide +kernel

theorem unmarkedVenue_roomAround : unmarkedVenue.RoomAround :=
  ⟨by decide +kernel, by decide +kernel, by decide +kernel, by decide +kernel⟩

/-- Both directions of the marked pool are fetched; of the unmarked one, only the downward direction. -/
theorem swap_arrays_fetched_sample :
    (∀ zeroForOne, markedVenue.ArraysFetched zeroForOne) ∧
      unmarkedVenue.ArraysFetched true ∧ ¬ unmarkedVenue.ArraysFetched false := by
  refine ⟨fun zeroForOne => (markedVenue.swap_arrays_fetched_iff zeroForOne).1 (Or.inl ?_),
    (unmarkedVenue.swap_arrays_fetched_iff true).1 (Or.inr (by decide +kernel)), fun hfetched => ?_⟩
  · cases zeroForOne <;> decide +kernel
  · have hsame := (unmarkedVenue.swap_arrays_fetched_iff false).2 (directionalHelpers _ (by decide))
      unmarkedVenue_distinctAddresses unmarkedVenue_roomAround hfetched
    rcases hsame with ⟨hfirst, -⟩ | ⟨-, hdown, -⟩
    · exact absurd hfirst (by decide +kernel)
    · cases hdown

end Sample

end ByrealTitan.Clmm.ByrealClmmVenue
