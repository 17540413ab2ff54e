import ByrealTitan.Clmm.Bitmaps
import ByrealTitan.Correctness.Termination
import ByrealTitan.Lib.Enumeration

/-!
# `Correctness.TickOrder` — the initialised ticks, in the order of a swap

What a swap should walk, said without its navigation: the initialised ticks ahead of the current one,
nearest first, as far as the first array that the bitmaps mark and that is not loaded (`ticksOnTheWay`,
`missingArray`). The scans of the bitmaps find the nearest marked array (`scanBitmaps_found`), and every
initialised tick lies in one.
-/

namespace ByrealTitan.Clmm

open Direction

variable {X : Crates} {zeroForOne : Bool}

/-- The ticks of the initialised slots, by their places. -/
def DynamicTickArrayState.initialisedTicks (spacing : Nat) : DynamicTickArrayState X → List Int
  | .dynamic _ ticks => (ticks.filter (·.isInitialized)).map (·.tick)
  | .fixed ta =>
      ((List.finRange X.TICK_ARRAY_SIZE).filter fun i => (ta.ticks i).isInitialized).map fun i =>
        ta.tickOf spacing i.val

namespace ByrealClmmVenue

variable (v : ByrealClmmVenue X)

def initialisedTicks : List Int :=
  v.dynamicTickArrays.flatMap fun entry => entry.2.initialisedTicks v.spacing

/-- The starts from the current array on, to the end of the range and further. -/
def arraysAhead (zeroForOne : Bool) : List Int :=
  let start := X.getArrayStartIndex v.poolState.tickCurrent v.spacing
  (List.range (v.room zeroForOne start + 1)).map fun i : Nat =>
    if zeroForOne then start - i * X.span v.spacing else start + i * X.span v.spacing

/-- The bitmaps mark the array, and it is not loaded. -/
def isMissing (start : Int) : Bool := v.marksArray start && (v.loadedTickArrayByStartIndex start).isNone

/-- The first array on the way that is marked and not loaded. -/
def missingArray (zeroForOne : Bool) : Option Int := (v.arraysAhead zeroForOne).find? v.isMissing

/-- The tick's array comes before a missing one. -/
def comesBefore (zeroForOne : Bool) (missing : Option Int) (tick : Int) : Bool :=
  missing.all fun start => decide (Further zeroForOne (X.getArrayStartIndex tick v.spacing) start)

/-- The initialised ticks ahead of the current one, nearest first, as far
    as the arrays before a missing one. -/
def ticksOnTheWay (zeroForOne : Bool) (missing : Option Int) : List Int :=
  inOrder zeroForOne v.poolState.tickCurrent (v.initialisedTicks.filter (v.comesBefore zeroForOne missing))

/-- A venue whose simulation can walk its ticks: the crate's laws of arrays and bitmaps hold of it, the
    pool's tick is in range and the extension is loaded, and its arrays are fixed, one for each start,
    with their slots in place, and marked where they hold ticks. -/
structure Walkable (zeroForOne : Bool) : Prop where
  starts : ArrayStartLaw X v.spacing
  fits : X.span v.spacing ≤ 2 ^ 31
  bitmaps : v.BitmapLaw zeroForOne
  extension : v.bitmapExtension.isSome = true
  current : X.MIN_TICK ≤ v.poolState.tickCurrent ∧ v.poolState.tickCurrent ≤ X.MAX_TICK
  distinct : (v.dynamicTickArrays.map fun entry => entry.2.startTickIndex).Nodup
  arrays : ∀ entry ∈ v.dynamicTickArrays, ∃ ta, entry.2 = .fixed ta ∧
    SlotsInPlace X v.spacing (.fixed ta) ∧
    ∀ t, ta.Holds v.spacing t → v.marksArray ta.startTickIndex = true

/-! ## The marked arrays -/

variable {v} {fuel : Nat} {last current start t : Int}

/-- A marked array, as the laws of the bitmaps speak of it. -/
abbrev Marked (v : ByrealClmmVenue X) (start : Int) : Prop := v.marksArray start = true

/-- An edge that is passed after another is one from before. -/
theorem ScanEdge.trans {edge edge' : Int} (h : v.ScanEdge zeroForOne last edge)
    (h' : v.ScanEdge zeroForOne edge edge') : v.ScanEdge zeroForOne last edge' where
  isStart := h'.isStart
  notBehind := IsTrans.trans (r := NotBehind zeroForOne) last edge edge' h.notBehind h'.notBehind
  clear start hmarked hfurther := h'.clear start hmarked (h.clear start hmarked hfurther)

/-- What is marked ahead of an edge is all that is marked ahead of where the scan started. -/
theorem ScanEdge.same_marked {edge u : Int} (h : v.ScanEdge zeroForOne last edge) :
    Marked v u ∧ Ahead zeroForOne (past zeroForOne edge) u ↔ Marked v u ∧
    Ahead zeroForOne (past zeroForOne last) u := by
  rw [ahead_past, ahead_past]
  constructor
  · rintro ⟨hmarked, hfurther⟩
    exact ⟨hmarked, hfurther.of_not_behind h.notBehind⟩
  · rintro ⟨hmarked, hfurther⟩
    exact ⟨hmarked, h.clear u hmarked hfurther⟩

/-- An edge outside the range of ticks leaves nothing marked ahead. -/
theorem ScanEdge.nothing_marked (hw : v.Walkable zeroForOne) {edge : Int} (hlast : v.ArrayStart last)
    (hedge : v.ScanEdge zeroForOne last edge) (hon : Further zeroForOne last edge)
    (hout : edge < X.MIN_TICK ∨ X.MAX_TICK < edge) :
    ∀ start, Marked v start → ¬ Ahead zeroForOne (past zeroForOne last) start := by
  intro start hmarked hahead
  rw [ahead_past] at hahead
  have hfurther := hedge.clear start hmarked hahead
  obtain ⟨-, hmin, hmax⟩ := hw.bitmaps.marked hmarked
  obtain ⟨-, hlastMin, hlastMax⟩ := hlast
  -- an edge in the first array of the range is its start, so that nothing lies before it
  have hfirst : X.getArrayStartIndex X.MIN_TICK v.spacing ≤ edge → edge < X.MIN_TICK →
      edge = X.getArrayStartIndex X.MIN_TICK v.spacing := by
    intro hlow hhigh
    obtain ⟨-, hspan⟩ := hw.starts.inSpan X.MIN_TICK
    rw [← hedge.isStart]
    exact hw.starts.unique (hw.starts.idem X.MIN_TICK) ⟨hlow, by omega⟩
  cases zeroForOne with
  | true =>
      rw [further_down] at hfurther hon
      rcases hout with hlow | hhigh
      · have := hfirst (by omega) hlow
        omega
      · omega
  | false =>
      rw [further_up] at hfurther hon
      rcases hout with hlow | hhigh
      · have := hfirst (by omega) hlow
        omega
      · omega

/-- **A scan of the bitmaps finds the nearest marked array.** -/
theorem scanBitmaps_found (hw : v.Walkable zeroForOne) (hlast : v.ArrayStart last)
    (hfuel : v.room zeroForOne last < fuel) :
    ∃ r, v.scanBitmaps zeroForOne fuel last = .ok r ∧ Found zeroForOne (Marked v)
      (past zeroForOne last) r := by
  obtain ⟨extension, hextension⟩ := Option.isSome_iff_exists.mp hw.extension
  induction fuel generalizing last with
  | zero => omega
  | succ fuel ih =>
      rw [scanBitmaps]
      generalize hpool : X.nextInitializedTickArrayStartIndex v.poolState.tickArrayBitmap last v.spacing
        zeroForOne = found
      obtain ⟨isFound, edge⟩ := found
      cases isFound with
      | true => exact ⟨some edge, rfl, hw.bitmaps.pool hlast hpool⟩
      | false =>
          have hedge := hw.bitmaps.poolEdge hlast hpool
          obtain ⟨⟨isFound, next⟩, hscan, hmarked, hnext⟩ := hw.bitmaps.extension hextension hlast hpool
          simp only [Bool.false_eq_true, if_false, hextension, hscan, ofCrate, Except.ok_bind]
          cases isFound with
          | true =>
              refine ⟨some next, rfl, Found.congr (S := Marked v) (r := some next) (fun u => ?_)
                (hmarked rfl)⟩
              exact hedge.same_marked
          | false =>
              obtain ⟨hfurther, hnextEdge⟩ := hnext rfl
              have hon : Further zeroForOne last next := hfurther.of_not_behind hedge.notBehind
              have hwhole := hedge.trans hnextEdge
              simp only [Bool.false_eq_true, if_false]
              split
              next hout => exact ⟨none, rfl, hwhole.nothing_marked hw hlast hon hout⟩
              next hin =>
                rw [not_or] at hin
                obtain ⟨hmin, -⟩ := hw.starts.inSpan X.MIN_TICK
                have hstart : v.ArrayStart next := ⟨hwhole.isStart, by omega, by omega⟩
                have hroom := room_lt (v := v) hon hstart.fromMin hstart.toMax
                obtain ⟨r, hr, hfound⟩ := ih hstart (by omega)
                exact ⟨r, hr, hfound.congr fun u => hwhole.same_marked⟩

/-! ## The initialised ticks -/

theorem mem_initialisedTicks_fixed {spacing : Nat} {ta : FixedTickArraySnapshot X} :
    t ∈ (DynamicTickArrayState.fixed ta).initialisedTicks spacing ↔ ta.Holds spacing t := by
  unfold DynamicTickArrayState.initialisedTicks FixedTickArraySnapshot.Holds
  simp only [List.mem_map, List.mem_filter, List.mem_finRange, true_and]
  constructor
  · rintro ⟨i, hinit, rfl⟩
    exact ⟨_, ⟨i, rfl, hinit⟩, rfl⟩
  · rintro ⟨_, ⟨i, rfl, hinit⟩, rfl⟩
    exact ⟨i, hinit, rfl⟩

/-- The array that is loaded for a start, among arrays with different starts. -/
theorem loadedTickArray_of_mem (hw : v.Walkable zeroForOne) {entry : Pubkey × DynamicTickArrayState X}
    (hmem : entry ∈ v.dynamicTickArrays) :
    v.loadedTickArrayByStartIndex entry.2.startTickIndex = some entry.2 := by
  have hsome : (v.loadedTickArrayByStartIndex entry.2.startTickIndex).isSome = true := by
    unfold loadedTickArrayByStartIndex
    rw [List.find?_isSome]
    exact ⟨entry.2, List.mem_map_of_mem hmem, decide_eq_true rfl⟩
  obtain ⟨array, harray⟩ := Option.isSome_iff_exists.mp hsome
  obtain ⟨hstart, key, hkey⟩ := loadedTickArray_eq_some harray
  have hsame : (key, array) = entry := List.inj_on_of_nodup_map hw.distinct hkey hmem hstart
  rw [harray, ← hsame]

/-- **The initialised ticks are those of the loaded arrays**, each held by the
    array of its own start, which is marked. -/
theorem mem_initialisedTicks (hw : v.Walkable zeroForOne) :
    t ∈ v.initialisedTicks ↔ ∃ ta, v.loadedTickArrayByStartIndex (X.getArrayStartIndex t v.spacing) =
      some (.fixed ta) ∧ ta.Holds v.spacing t := by
  have hspacing := hw.starts.spacing_pos
  unfold initialisedTicks
  rw [List.mem_flatMap]
  constructor
  · rintro ⟨entry, hmem, ht⟩
    obtain ⟨ta, hfixed, -, hmarks⟩ := hw.arrays entry hmem
    rw [hfixed, mem_initialisedTicks_fixed] at ht
    have harray := hw.bitmaps.marked (hmarks t ht)
    have hloaded := loadedTickArray_of_mem hw hmem
    rw [hfixed] at hloaded
    refine ⟨ta, ?_, ht⟩
    rw [hw.starts.unique harray.isStart (ht.inSpan hspacing)]
    exact hloaded
  · rintro ⟨ta, hloaded, ht⟩
    obtain ⟨-, key, hmem⟩ := loadedTickArray_eq_some hloaded
    exact ⟨_, hmem, mem_initialisedTicks_fixed.mpr ht⟩

/-- The loaded arrays are fixed, with their slots in place. -/
theorem loaded_fixed (hw : v.Walkable zeroForOne) {array : DynamicTickArrayState X}
    (h : v.loadedTickArrayByStartIndex start = some array) :
    ∃ ta, array = .fixed ta ∧ ta.startTickIndex = start ∧ SlotsInPlace X v.spacing (.fixed ta) ∧
      ∀ t, ta.Holds v.spacing t → Marked v start := by
  obtain ⟨hstart, key, hmem⟩ := loadedTickArray_eq_some h
  obtain ⟨ta, hfixed, hplace, hmarks⟩ := hw.arrays _ hmem
  obtain rfl : array = .fixed ta := hfixed
  obtain rfl : ta.startTickIndex = start := hstart
  exact ⟨ta, rfl, rfl, hplace, hmarks⟩

theorem marked_of_initialised (hw : v.Walkable zeroForOne) (h : t ∈ v.initialisedTicks) :
    Marked v (X.getArrayStartIndex t v.spacing) := by
  obtain ⟨ta, hloaded, ht⟩ := (mem_initialisedTicks hw).mp h
  obtain ⟨ta', hsame, -, -, hmarks⟩ := loaded_fixed hw hloaded
  obtain rfl : ta = ta' := DynamicTickArrayState.fixed.inj hsame
  exact hmarks t ht

/-- In a loaded array the initialised ticks are those it holds. -/
theorem holds_iff (hw : v.Walkable zeroForOne) {ta : FixedTickArraySnapshot X}
    (harray : v.ArrayStart start) (hloaded : v.loadedTickArrayByStartIndex start = some (.fixed ta)) :
    ta.Holds v.spacing t ↔ t ∈ v.initialisedTicks ∧ X.getArrayStartIndex t v.spacing = start := by
  rw [mem_initialisedTicks hw]
  constructor
  · intro ht
    obtain ⟨ta', hsame, hstart, -⟩ := loaded_fixed hw hloaded
    obtain rfl : ta = ta' := DynamicTickArrayState.fixed.inj hsame
    have hin := ht.inSpan hw.starts.spacing_pos
    rw [hstart] at hin
    have hown := hw.starts.unique harray.isStart hin
    exact ⟨⟨ta, by rw [hown]; exact hloaded, ht⟩, hown⟩
  · rintro ⟨⟨ta', hloaded', ht⟩, hown⟩
    rw [hown, hloaded] at hloaded'
    obtain rfl := DynamicTickArrayState.fixed.inj (Option.some.inj hloaded')
    exact ht

/-! ## Missing arrays -/

variable {missing : Option Int}

/-- The ticks a swap may come to before a missing array. -/
def Due (v : ByrealClmmVenue X) (zeroForOne : Bool) (missing : Option Int) (t : Int) : Prop :=
  t ∈ v.initialisedTicks ∧ v.comesBefore zeroForOne missing t = true

/-- The first missing array from this one on. -/
def MissingFrom (v : ByrealClmmVenue X) (zeroForOne : Bool) (start : Int) (missing : Option Int) : Prop :=
  Found zeroForOne (fun s => v.isMissing s = true) (before zeroForOne start) missing

theorem isMissing_eq_true : v.isMissing start = true ↔ Marked v start ∧
    v.loadedTickArrayByStartIndex start = none := by
  unfold isMissing
  rw [Bool.and_eq_true_iff, Option.isNone_iff_eq_none]

theorem not_isMissing {array : DynamicTickArrayState X}
    (h : v.loadedTickArrayByStartIndex start = some array) :
    v.isMissing start ≠ true := by
  intro hmissing
  have hnone := (isMissing_eq_true.mp hmissing).2
  rw [h] at hnone
  cases hnone

/-- What is missing from a loaded array on lies further on. -/
theorem further_of_isMissing (hloaded : v.isMissing start ≠ true) {u : Int} (hu : v.isMissing u = true)
    (hahead : Ahead zeroForOne (before zeroForOne start) u) : Further zeroForOne start u := by
  rcases eq_or_further (ahead_before.mp hahead) with rfl | hon
  · exact absurd hu hloaded
  · exact hon

/-- An array with a tick on the way is loaded, so it comes before what is missing. -/
theorem MissingFrom.comesBefore (h : MissingFrom v zeroForOne start missing)
    (hloaded : v.isMissing start ≠ true) (ht : X.getArrayStartIndex t v.spacing = start) :
    v.comesBefore zeroForOne missing t = true := by
  unfold ByrealClmmVenue.comesBefore
  cases missing with
  | none => rfl
  | some s =>
      rw [Option.all_some, decide_eq_true_eq, ht]
      exact further_of_isMissing hloaded h.mem h.ahead

/-- Going on from a loaded array to the next marked one leaves no missing array behind. -/
theorem MissingFrom.next (h : MissingFrom v zeroForOne start missing) (hloaded : v.isMissing start ≠ true)
    {next : Int} (hnext : Nearest zeroForOne (Marked v) (past zeroForOne start) next) :
    MissingFrom v zeroForOne next missing := by
  have hfurther := ahead_past.mp hnext.ahead
  refine Found.congr (fun u => ?_) h
  constructor
  · rintro ⟨hu, hahead⟩
    have hon := further_of_isMissing hloaded hu hahead
    exact ⟨hu, ahead_before.mpr (hnext.first u (isMissing_eq_true.mp hu).1 (ahead_past.mpr hon))⟩
  · rintro ⟨hu, hahead⟩
    rw [ahead_before] at hahead ⊢
    exact ⟨hu, fun hback => hahead (hback.trans hfurther)⟩

theorem MissingFrom.ends (h : MissingFrom v zeroForOne start missing) (hloaded : v.isMissing start ≠ true)
    (hnone : ∀ next, Marked v next → ¬ Ahead zeroForOne (past zeroForOne start) next) :
    missing = none := by
  apply Found.eq_none h
  intro u hu hahead
  have hon := further_of_isMissing hloaded hu hahead
  exact hnone u (isMissing_eq_true.mp hu).1 (ahead_past.mpr hon)

/-! ## The lists -/

/-- A distance of whole arrays is a number of them. -/
theorem exists_arrays {span distance : Int} (hspan : 0 < span) (hdvd : span ∣ distance)
    (hpos : 0 ≤ distance) :
    ∃ n : Nat, n * span = distance ∧ (n : Int) ≤ distance := by
  obtain ⟨n, rfl⟩ := hdvd
  have hn : 0 ≤ n := by
    by_contra hneg
    have := Int.mul_neg_of_pos_of_neg hspan (show n < 0 by omega)
    omega
  have hle := le_mul_of_one_le_left hn (show 1 ≤ span by omega)
  refine ⟨n.toNat, ?_, ?_⟩
  · rw [Int.toNat_of_nonneg hn, Int.mul_comm]
  · rw [Int.toNat_of_nonneg hn]
    exact hle

/-- The arrays of the range from the current one on are among those of the reference. -/
theorem mem_arraysAhead (hw : v.Walkable zeroForOne) (hstart : v.ArrayStart start)
    (hnot : ¬ Further zeroForOne start (X.getArrayStartIndex v.poolState.tickCurrent v.spacing)) :
    start ∈ v.arraysAhead zeroForOne := by
  have hspan := hw.starts.span_pos
  have htiled := hw.starts.tiled start
  have htiled' := hw.starts.tiled v.poolState.tickCurrent
  have hmin := hstart.fromMin
  have hmax := hstart.toMax
  rw [hstart.isStart] at htiled
  unfold arraysAhead room
  generalize X.getArrayStartIndex v.poolState.tickCurrent v.spacing = current at hnot htiled' ⊢
  rw [List.mem_map]
  cases zeroForOne with
  | true =>
      rw [further_down] at hnot
      obtain ⟨n, hn, hle⟩ := exists_arrays hspan (Int.dvd_sub htiled' htiled) (by omega)
      refine ⟨n, ?_, ?_⟩
      · rw [List.mem_range]
        simp only [if_true]
        omega
      · simp only [if_true]
        omega
  | false =>
      rw [further_up] at hnot
      obtain ⟨n, hn, hle⟩ := exists_arrays hspan (Int.dvd_sub htiled htiled') (by omega)
      refine ⟨n, ?_, ?_⟩
      · rw [List.mem_range]
        simp only [Bool.false_eq_true, if_false]
        omega
      · simp only [Bool.false_eq_true, if_false]
        omega

theorem arraysAhead_enumerates (hw : v.Walkable zeroForOne) :
    Enumerates zeroForOne (· ∈ v.arraysAhead zeroForOne)
      (before zeroForOne (X.getArrayStartIndex v.poolState.tickCurrent v.spacing))
      (v.arraysAhead zeroForOne) := by
  have hspan := hw.starts.span_pos
  unfold arraysAhead
  generalize X.getArrayStartIndex v.poolState.tickCurrent v.spacing = current
  refine ⟨?_, fun t => ⟨fun ht => ⟨ht, ?_⟩, And.left⟩⟩
  · rw [List.pairwise_map]
    refine List.pairwise_lt_range.imp fun {i j} hlt => ?_
    have hmul := Int.mul_lt_mul_of_pos_right (Int.ofNat_lt.mpr hlt) hspan
    cases zeroForOne with
    | true =>
        rw [further_down]
        simp only [if_true]
        omega
    | false =>
        rw [further_up]
        simp only [Bool.false_eq_true, if_false]
        omega
  · rw [ahead_before]
    obtain ⟨i, -, rfl⟩ := List.mem_map.mp ht
    have hmul := Int.mul_nonneg (Int.natCast_nonneg i) (Int.le_of_lt hspan)
    cases zeroForOne with
    | true =>
        rw [further_down]
        simp only [if_true]
        omega
    | false =>
        rw [further_up]
        simp only [Bool.false_eq_true, if_false]
        omega

/-- **The missing array** is the first from the current one on. -/
theorem missingArray_from (hw : v.Walkable zeroForOne) :
    MissingFrom v zeroForOne (X.getArrayStartIndex v.poolState.tickCurrent v.spacing)
      (v.missingArray zeroForOne) := by
  refine Found.congr (fun u => ?_) (arraysAhead_enumerates hw).find?
  constructor
  · rintro ⟨⟨-, hu⟩, hahead⟩
    exact ⟨hu, hahead⟩
  · rintro ⟨hu, hahead⟩
    have harray := hw.bitmaps.marked (isMissing_eq_true.mp hu).1
    exact ⟨⟨mem_arraysAhead hw harray (ahead_before.mp hahead), hu⟩, hahead⟩

theorem ticksOnTheWay_enumerates (v : ByrealClmmVenue X) (zeroForOne : Bool) (missing : Option Int) :
    Enumerates zeroForOne (Due v zeroForOne missing) v.poolState.tickCurrent
      (v.ticksOnTheWay zeroForOne missing) := by
  obtain ⟨hsorted, hmem⟩ := @inOrder_enumerates zeroForOne v.poolState.tickCurrent
    (v.initialisedTicks.filter (v.comesBefore zeroForOne missing))
  refine ⟨hsorted, fun t => ?_⟩
  unfold Due
  rw [← List.mem_filter]
  exact hmem t

end ByrealClmmVenue

end ByrealTitan.Clmm
