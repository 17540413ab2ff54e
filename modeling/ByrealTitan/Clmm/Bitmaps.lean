import ByrealTitan.Clmm.ReferenceLaws
import Mathlib.Tactic.Ring

/-!
# `Clmm.Bitmaps` — the arrays that the bitmaps mark

The pool's bitmap marks the arrays around tick zero and the extension's those beyond. What a mark is, is
told by the crate's own checks (`marksArray`); `BitmapLaw` says that checks and scans speak of the same
marks. The concrete crates, whose extension has none, satisfy it (`Standard.bitmapLaw`).
-/

namespace ByrealTitan.Clmm

open Direction

variable {X : Crates}

namespace ByrealClmmVenue

variable (v : ByrealClmmVenue X)

/-- Whether the bitmaps mark the array of a tick, and its start. -/
def tickArrayIsInitialized (tick : Int) : SwapRes (Bool × Int) :=
  if v.isOverflowDefaultTickarrayBitmap tick then do
    let extension ← Res.orErr .missingBitmapExtension v.bitmapExtension
    ofCrate .crate (X.extensionCheckTickArrayIsInitialized extension
      (X.getArrayStartIndex tick v.spacing) v.spacing)
  else ofCrate .crate (X.checkCurrentTickArrayIsInitialized v.poolState.tickArrayBitmap tick v.spacing)

/-- A swap checks the array of the pool's current tick. -/
theorem currentTickArrayIsInitialized_eq :
    v.currentTickArrayIsInitialized = v.tickArrayIsInitialized v.poolState.tickCurrent := rfl

/-- The bitmaps mark the array from `start`, by its first tick in range. -/
def marksArray (start : Int) : Bool :=
  decide ((v.tickArrayIsInitialized (max start X.MIN_TICK)).toOption = some (true, start))

/-- The start of an array that reaches into the range of ticks. -/
structure ArrayStart (start : Int) : Prop where
  isStart : X.getArrayStartIndex start v.spacing = start
  fromMin : X.getArrayStartIndex X.MIN_TICK v.spacing ≤ start
  toMax : start ≤ X.MAX_TICK

/-- Where a scan gives up: not behind where it started, with no marked array on the way. -/
structure ScanEdge (zeroForOne : Bool) (last edge : Int) : Prop where
  isStart : X.getArrayStartIndex edge v.spacing = edge
  notBehind : ¬ Further zeroForOne edge last
  clear (start : Int) : v.marksArray start = true → Further zeroForOne last start →
    Further zeroForOne edge start

/-- The checks and scans of the bitmaps agree on the marked arrays: a check tells the mark of the tick's
    array, a scan of either bitmap finds the nearest marked array or an edge, and the extension's, which
    starts where that of the pool's gave up, gets further. -/
structure BitmapLaw (zeroForOne : Bool) : Prop where
  check {tick : Int} : X.MIN_TICK ≤ tick → tick ≤ X.MAX_TICK →
    v.tickArrayIsInitialized tick =
      .ok (v.marksArray (X.getArrayStartIndex tick v.spacing), X.getArrayStartIndex tick v.spacing)
  marked {start : Int} : v.marksArray start = true → v.ArrayStart start
  pool {last start : Int} : v.ArrayStart last →
    X.nextInitializedTickArrayStartIndex v.poolState.tickArrayBitmap last v.spacing zeroForOne =
      (true, start) →
    Nearest zeroForOne (fun s => v.marksArray s = true) (past zeroForOne last) start
  poolEdge {last edge : Int} : v.ArrayStart last →
    X.nextInitializedTickArrayStartIndex v.poolState.tickArrayBitmap last v.spacing zeroForOne =
      (false, edge) →
    v.ScanEdge zeroForOne last edge
  extension {ext : TickArrayBitmapExtension} {last edge : Int} : v.bitmapExtension = some ext →
    v.ArrayStart last →
    X.nextInitializedTickArrayStartIndex v.poolState.tickArrayBitmap last v.spacing zeroForOne =
      (false, edge) →
    ∃ found, X.extensionNextInitializedTickArrayFromOneBitmap ext edge v.spacing zeroForOne = .ok found ∧
      (found.1 = true → Nearest zeroForOne (fun s => v.marksArray s = true)
        (past zeroForOne edge) found.2) ∧
      (found.1 = false → Further zeroForOne edge found.2 ∧ v.ScanEdge zeroForOne edge found.2)

end ByrealClmmVenue

/-! ## The concrete bitmaps -/

namespace Reference

open ByrealClmmVenue

/-- Where a search of the bitmap finds nothing, nothing is marked. -/
theorem searchBitmap_none {bitmap : List UInt64} {step : Int} {count n : Nat} {index : Int}
    (h : searchBitmap bitmap step count index = none) (hn : n < count) :
    marked bitmap (index + n * step + 512) = false := by
  induction count generalizing index n with
  | zero => omega
  | succ count ih =>
      unfold searchBitmap at h
      split at h
      next => cases h
      next hmark =>
        cases n with
        | zero =>
            rw [Int.natCast_zero, Int.zero_mul, Int.add_zero]
            exact Bool.eq_false_iff.mpr hmark
        | succ n =>
            have hrest := ih h (n := n) (by omega)
            rw [Int.natCast_succ, Int.add_mul, Int.one_mul, Int.add_comm (n * step), ← Int.add_assoc]
            exact hrest

/-- Without a first marked array from an index on, nothing is marked from there on. -/
theorem firstMarked_none {bitmap : List UInt64} {zeroForOne : Bool} {index j : Int} (hlow : -512 ≤ index)
    (h : firstMarked bitmap zeroForOne index = none) (hj : ¬ Further zeroForOne j index) (hj' : j < 512) :
    marked bitmap (j + 512) = false := by
  unfold firstMarked at h
  by_contra hmarked
  obtain ⟨hpos, hbit⟩ := Bool.and_eq_true_iff.mp (Bool.eq_true_of_not_eq_false hmarked)
  have hpos := of_decide_eq_true hpos
  cases zeroForOne with
  | true =>
      rw [further_down] at hj
      simp only [if_true] at h
      split at h
      next hzero =>
        have hmod := Nat.testBit_mod_two_pow (bits bitmap) ((index + 512).toNat + 1) (j + 512).toNat
        rw [hzero, Nat.zero_testBit, hbit, Bool.and_true] at hmod
        have := of_decide_eq_false hmod.symm
        omega
      next =>
        have hnone := searchBitmap_none h (n := (index - j).toNat) (by omega)
        rw [show index + (index - j).toNat * (-1 : Int) + 512 = j + 512 by omega] at hnone
        exact hmarked hnone
  | false =>
      rw [further_up] at hj
      simp only [Bool.false_eq_true, if_false] at h
      split at h
      next hzero =>
        have hdiv := Nat.testBit_div_two_pow (n := (index + 512).toNat) (bits bitmap) (j - index).toNat
        rw [hzero, Nat.zero_testBit, show (j - index).toNat + (index + 512).toNat =
          (j + 512).toNat by omega, hbit] at hdiv
        cases hdiv
      next =>
        have hnone := searchBitmap_none h (n := (j - index).toNat) (by omega)
        rw [show index + (j - index).toNat * (1 : Int) + 512 = j + 512 by omega] at hnone
        exact hmarked hnone

/-- The starts of the arrays are in the order of their indices. -/
theorem further_mul {spacing : Nat} {zeroForOne : Bool} (hspacing : 0 < spacing) {i j : Int} :
    Further zeroForOne (i * arrayTicks spacing) (j * arrayTicks spacing) ↔ Further zeroForOne i j := by
  have hat := arrayTicks_pos hspacing
  cases zeroForOne with
  | true => exact Int.mul_lt_mul_right hat
  | false => exact Int.mul_lt_mul_right hat

/-- How the search of the pool's bitmap gives up: outside of it at once,
    or at its edge with nothing marked. -/
theorem nextInitializedTickArrayStartIndex_gives_up {bitmap : List UInt64} {last edge : Int}
    {spacing : Nat} {zeroForOne : Bool}
    (h : nextInitializedTickArrayStartIndex bitmap last spacing zeroForOne = (false, edge)) :
    (edge = last ∧ (last / arrayTicks spacing + (if zeroForOne then -1 else 1) < -512 ∨
      512 ≤ last / arrayTicks spacing + (if zeroForOne then -1 else 1))) ∨
    (edge = (if zeroForOne then -512 else 511) * arrayTicks spacing ∧
      ∀ j, Further zeroForOne (last / arrayTicks spacing) j → j < 512 →
      marked bitmap (j + 512) = false) := by
  unfold nextInitializedTickArrayStartIndex at h
  have hnear : ∀ j, Further zeroForOne (last / arrayTicks spacing) j →
      ¬ Further zeroForOne j (last / arrayTicks spacing + (if zeroForOne then -1 else 1)) := by
    intro j hj
    cases zeroForOne with
    | true =>
        rw [further_down] at hj ⊢
        simp only [if_true]
        omega
    | false =>
        rw [further_up] at hj ⊢
        simp only [Bool.false_eq_true, if_false]
        omega
  generalize last / arrayTicks spacing + (if zeroForOne then -1 else 1) = index at h hnear ⊢
  simp only at h
  split at h
  next hout =>
    cases h
    exact Or.inl ⟨rfl, hout⟩
  next hin =>
    split at h
    next => cases h
    next hnone =>
      cases h
      exact Or.inr ⟨rfl, fun j hj hj' => firstMarked_none (by omega) hnone (hnear j hj) hj'⟩

/-- The pool's bitmap covers the array with this index and marks it. -/
def marksIndex (bitmap : List UInt64) (i : Int) : Bool :=
  decide (-512 ≤ i ∧ i < 512) && marked bitmap (i + 512)

theorem marksIndex_eq_true {bitmap : List UInt64} {i : Int} :
    marksIndex bitmap i = true ↔ (-512 ≤ i ∧ i < 512) ∧ marked bitmap (i + 512) = true := by
  unfold marksIndex
  rw [Bool.and_eq_true_iff, decide_eq_true_eq]

/-- A venue whose marks are all in the pool's bitmap, among the arrays
    that reach into the range of ticks. -/
structure PoolMarked {X : Crates} (v : ByrealClmmVenue X) : Prop where
  spacing : 0 < v.spacing
  range : X.tickArrayStartIndexRange v.poolState =
    (-512 * arrayTicks v.spacing, 512 * arrayTicks v.spacing)
  extension : v.bitmapExtension.isSome = true
  reach (i : Int) : marksIndex v.poolState.tickArrayBitmap i = true →
    X.getArrayStartIndex X.MIN_TICK v.spacing ≤ i * arrayTicks v.spacing ∧
    i * arrayTicks v.spacing ≤ X.MAX_TICK

variable {X : Crates} {v : ByrealClmmVenue X}

theorem Standard.tickArrayIsInitialized_eq (hX : Standard X) (hv : PoolMarked v) (tick : Int) :
    v.tickArrayIsInitialized tick =
      .ok (marksIndex v.poolState.tickArrayBitmap (tick / arrayTicks v.spacing),
        tick / arrayTicks v.spacing * arrayTicks v.spacing) := by
  have hat := arrayTicks_pos hv.spacing
  obtain ⟨extension, hextension⟩ := Option.isSome_iff_exists.mp hv.extension
  have hstart : X.getArrayStartIndex tick v.spacing = tick / arrayTicks v.spacing *
      arrayTicks v.spacing := by
    rw [hX.start]
    rfl
  obtain ⟨i, hi⟩ : ∃ i, tick / arrayTicks v.spacing = i := ⟨_, rfl⟩
  unfold tickArrayIsInitialized isOverflowDefaultTickarrayBitmap marksIndex
  rw [hv.range, hstart, hi]
  by_cases hin : -512 ≤ i ∧ i < 512
  · have hlow := (Int.mul_le_mul_right hat).mpr hin.1
    have hhigh := (Int.mul_lt_mul_right hat).mpr hin.2
    rw [if_neg (by simp only [Bool.or_eq_true, decide_eq_true_eq]; omega), hX.check, decide_eq_true hin,
      Bool.true_and]
    unfold checkCurrentTickArrayIsInitialized
    rw [hi]
    rfl
  · have hout : 512 * arrayTicks v.spacing ≤ i * arrayTicks v.spacing ∨
        i * arrayTicks v.spacing < -512 * arrayTicks v.spacing := by
      by_cases hlow : -512 ≤ i
      · exact Or.inl ((Int.mul_le_mul_right hat).mpr (by omega))
      · exact Or.inr ((Int.mul_lt_mul_right hat).mpr (by omega))
    rw [if_pos (by simp only [Bool.or_eq_true, decide_eq_true_eq]; exact hout), hextension,
      hX.extensionCheck, decide_eq_false hin, Bool.false_and]
    rfl

/-- **The marked arrays** are those whose index the pool's bitmap marks. -/
theorem Standard.marksArray_iff (hX : Standard X) (hv : PoolMarked v) {start : Int} :
    v.marksArray start = true ↔
      ∃ i, start = i * arrayTicks v.spacing ∧ marksIndex v.poolState.tickArrayBitmap i = true := by
  have hat := arrayTicks_pos hv.spacing
  unfold marksArray
  rw [hX.tickArrayIsInitialized_eq hv, decide_eq_true_eq]
  constructor
  · intro h
    obtain ⟨hmarks, hstart⟩ := Prod.mk.inj (Option.some.inj h)
    exact ⟨_, hstart.symm, hmarks⟩
  · rintro ⟨i, rfl, hmarks⟩
    -- an array that is marked reaches into the range, so its first tick there is its own
    have hindex : max (i * arrayTicks v.spacing) X.MIN_TICK / arrayTicks v.spacing = i := by
      have hreach := (hv.reach i hmarks).1
      rw [hX.start] at hreach
      unfold getArrayStartIndex at hreach
      rcases Int.le_total X.MIN_TICK (i * arrayTicks v.spacing) with hle | hle
      · rw [max_eq_left hle, Int.mul_ediv_cancel i (ne_of_gt hat)]
      · rw [max_eq_right hle]
        have hlow := (Int.mul_le_mul_right hat).mp hreach
        have hhigh := (Int.le_ediv_iff_mul_le hat).mpr hle
        omega
    rw [hindex, hmarks]
    rfl

/-- The start of an array is a multiple of its ticks. -/
theorem Standard.isStart_iff (hX : Standard X) (hspacing : 0 < v.spacing) {start : Int} :
    X.getArrayStartIndex start v.spacing = start ↔ ∃ i, start = i * arrayTicks v.spacing := by
  rw [hX.start]
  constructor
  · intro h
    exact ⟨_, h.symm⟩
  · rintro ⟨i, rfl⟩
    exact getArrayStartIndex_mul hspacing i

/-- Where the pool's scan gives up nothing marked is left behind. -/
theorem Standard.poolEdge (hX : Standard X) (hv : PoolMarked v) {zeroForOne : Bool} {last edge : Int}
    (hlast : X.getArrayStartIndex last v.spacing = last)
    (h : nextInitializedTickArrayStartIndex v.poolState.tickArrayBitmap last v.spacing zeroForOne =
      (false, edge)) :
    v.ScanEdge zeroForOne last edge := by
  have hat := arrayTicks_pos hv.spacing
  have hback : ¬ Further zeroForOne edge last := by
    intro hback
    rcases nextInitializedTickArrayStartIndex_eq_false hv.spacing h with rfl | hfurther
    · exact Further.irrefl hback
    · exact Further.irrefl (hback.trans hfurther)
  obtain ⟨k, rfl⟩ := (hX.isStart_iff hv.spacing).mp hlast
  rcases nextInitializedTickArrayStartIndex_gives_up h with ⟨rfl, -⟩ | ⟨rfl, hclear⟩
  · exact ⟨hlast, hback, fun start _ hstart => hstart⟩
  · refine ⟨(hX.isStart_iff hv.spacing).mpr ⟨_, rfl⟩, hback, fun start hmarks hstart => ?_⟩
    obtain ⟨i, rfl, hindex⟩ := (hX.marksArray_iff hv).mp hmarks
    obtain ⟨hin, hmarked⟩ := marksIndex_eq_true.mp hindex
    rw [Int.mul_ediv_cancel k (ne_of_gt hat)] at hclear
    rw [hclear i ((further_mul hv.spacing).mp hstart) hin.2] at hmarked
    cases hmarked

/-- The empty extension's edge, by indices. -/
theorem emptyExtensionNext_mul {spacing : Nat} {zeroForOne : Bool} (hspacing : 0 < spacing) (k : Int) :
    emptyExtensionNext (k * arrayTicks spacing) spacing zeroForOne =
      (false, (if zeroForOne then (k - 1) / 512 * 512 else ((k + 1) / 512 + 1) * 512 - 1) *
        arrayTicks spacing) := by
  have hat := arrayTicks_pos hspacing
  have hdiv : ∀ m : Int, m * arrayTicks spacing / (512 * arrayTicks spacing) = m / 512 := fun m =>
    Int.mul_ediv_mul_of_pos_left m 512 hat
  unfold emptyExtensionNext
  cases zeroForOne with
  | true =>
      simp only [if_true]
      rw [show k * arrayTicks spacing - arrayTicks spacing = (k - 1) * arrayTicks spacing by ring, hdiv]
      congr 1
      ring
  | false =>
      simp only [Bool.false_eq_true, if_false]
      rw [show k * arrayTicks spacing + arrayTicks spacing = (k + 1) * arrayTicks spacing by ring, hdiv]
      congr 1
      ring

/-- Nor does the scan of an extension without marks, from there. -/
theorem Standard.extensionEdge (hX : Standard X) (hv : PoolMarked v) {zeroForOne : Bool} {last edge : Int}
    (hlast : X.getArrayStartIndex last v.spacing = last)
    (h : nextInitializedTickArrayStartIndex v.poolState.tickArrayBitmap last v.spacing zeroForOne =
      (false, edge)) :
    v.ScanEdge zeroForOne edge (emptyExtensionNext edge v.spacing zeroForOne).2 := by
  have hfurther := @emptyExtensionNext_further edge v.spacing zeroForOne hv.spacing
  obtain ⟨e, rfl⟩ := (hX.isStart_iff hv.spacing).mp (hX.poolEdge hv hlast h).isStart
  rw [emptyExtensionNext_mul hv.spacing] at hfurther ⊢
  refine ⟨(hX.isStart_iff hv.spacing).mpr ⟨_, rfl⟩, fun hback => Further.irrefl (hback.trans hfurther), ?_⟩
  intro start hmarks hstart
  obtain ⟨i, rfl, hindex⟩ := (hX.marksArray_iff hv).mp hmarks
  obtain ⟨⟨hlow, hhigh⟩, -⟩ := marksIndex_eq_true.mp hindex
  -- the scan of the pool's bitmap gave up beyond the marked indices, or before them
  have hedge : e = (if zeroForOne then -512 else 511) ∨ e + (if zeroForOne then -1 else 1) < -512 ∨
      512 ≤ e + (if zeroForOne then -1 else 1) := by
    rcases nextInitializedTickArrayStartIndex_gives_up h with ⟨heq, hout⟩ | ⟨heq, -⟩
    · rw [← heq, Int.mul_ediv_cancel e (ne_of_gt (arrayTicks_pos hv.spacing))] at hout
      exact Or.inr hout
    · exact Or.inl (Int.eq_of_mul_eq_mul_right (ne_of_gt (arrayTicks_pos hv.spacing)) heq)
  rw [further_mul hv.spacing] at hstart ⊢
  cases zeroForOne with
  | true =>
      rw [further_down] at hstart ⊢
      simp only [if_true] at hedge ⊢
      omega
  | false =>
      rw [further_up] at hstart ⊢
      simp only [Bool.false_eq_true, if_false] at hedge ⊢
      omega

/-- **The concrete bitmaps satisfy the law**, where the pool's marks are all there are. -/
theorem Standard.bitmapLaw (hX : Standard X) (hv : PoolMarked v) (zeroForOne : Bool) :
    v.BitmapLaw zeroForOne where
  check {tick} _ _ := by
    rw [hX.tickArrayIsInitialized_eq hv, hX.start]
    unfold getArrayStartIndex
    -- the start of an array and its index mark the same bit
    have hsame : v.marksArray (tick / arrayTicks v.spacing * arrayTicks v.spacing) =
        marksIndex v.poolState.tickArrayBitmap (tick / arrayTicks v.spacing) := by
      rw [Bool.eq_iff_iff, hX.marksArray_iff hv]
      constructor
      · rintro ⟨i, heq, hindex⟩
        rw [Int.eq_of_mul_eq_mul_right (ne_of_gt (arrayTicks_pos hv.spacing)) heq]
        exact hindex
      · intro hindex
        exact ⟨_, rfl, hindex⟩
    rw [hsame]
  marked {start} h := by
    obtain ⟨i, rfl, hindex⟩ := (hX.marksArray_iff hv).mp h
    obtain ⟨hmin, hmax⟩ := hv.reach i hindex
    exact ⟨(hX.isStart_iff hv.spacing).mpr ⟨i, rfl⟩, hmin, hmax⟩
  pool {last start} hlast h := by
    rw [hX.next] at h
    obtain ⟨k, rfl⟩ := (hX.isStart_iff hv.spacing).mp hlast.isStart
    obtain ⟨i, rfl, hlow, hhigh, hmarked, hfurther, hfirst⟩ := nextInitializedTickArrayStartIndex_eq_true h
    rw [Int.mul_ediv_cancel k (ne_of_gt (arrayTicks_pos hv.spacing))] at hfurther hfirst
    refine ⟨(hX.marksArray_iff hv).mpr ⟨i, rfl, marksIndex_eq_true.mpr ⟨⟨hlow, hhigh⟩, hmarked⟩⟩, ?_, ?_⟩
    · rw [ahead_past, further_mul hv.spacing]
      exact hfurther
    · intro start hmarks hahead hnear
      obtain ⟨j, rfl, hindex⟩ := (hX.marksArray_iff hv).mp hmarks
      rw [ahead_past, further_mul hv.spacing] at hahead
      rw [further_mul hv.spacing] at hnear
      have hmark := (marksIndex_eq_true.mp hindex).2
      rw [hfirst j hahead hnear] at hmark
      cases hmark
  poolEdge {last edge} hlast h := by
    rw [hX.next] at h
    exact hX.poolEdge hv hlast.isStart h
  extension {ext last edge} _ hlast h := by
    rw [hX.next] at h
    rw [hX.extensionNext]
    -- the extension marks nothing here, so its search ends at the edge
    have hedge := hX.extensionEdge hv hlast.isStart h
    have hfurther := @emptyExtensionNext_further edge v.spacing zeroForOne hv.spacing
    refine ⟨_, rfl, fun hfound => ?_, fun _ => ⟨hfurther, hedge⟩⟩
    unfold emptyExtensionNext at hfound
    cases zeroForOne <;> cases hfound

end Reference

end ByrealTitan.Clmm
