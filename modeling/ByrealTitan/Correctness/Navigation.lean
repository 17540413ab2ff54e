import ByrealTitan.Adapter.Sample
import ByrealTitan.Clmm.ReferenceLaws
import ByrealTitan.Correctness.Slots
import ByrealTitan.Correctness.SwapLoop

/-!
# `Correctness.Navigation` — from one initialised tick to the next

The search for the next initialised tick looks through the array it stands at and then follows the
bitmaps to the arrays further on. `NavAt` relates the navigation to the current tick: whatever the
arrays further on hold lies ahead. So every tick found lies ahead of the current one (`findNext_found`),
and the relation holds again from the position behind it, whichever way the tick was found.
-/

namespace ByrealTitan.Clmm

open Direction

variable {X : Crates} {spacing : Nat} {zeroForOne : Bool}

/-! ## Arrays in order -/

/-- **Arrays do not overlap**: the ticks of a further array are further on. -/
theorem ArrayStartLaw.further (hlaw : ArrayStartLaw X spacing) {start start' t u : Int}
    (hstart : X.getArrayStartIndex start spacing = start)
    (hstart' : X.getArrayStartIndex start' spacing = start') (h : Further zeroForOne start start')
    (ht : InSpan X spacing start t) (hu : InSpan X spacing start' u) : Further zeroForOne t u := by
  have htiled := hlaw.tiled start
  have htiled' := hlaw.tiled start'
  rw [hstart] at htiled
  rw [hstart'] at htiled'
  obtain ⟨hlow, hhigh⟩ := ht
  obtain ⟨hlow', hhigh'⟩ := hu
  -- two starts differ by a span at least
  cases zeroForOne with
  | true =>
      rw [further_down] at h ⊢
      have := Int.le_of_dvd (by omega) (Int.dvd_sub htiled htiled')
      omega
  | false =>
      rw [further_up] at h ⊢
      have := Int.le_of_dvd (by omega) (Int.dvd_sub htiled' htiled)
      omega

/-- An array is told by any of its ticks. -/
theorem ArrayStartLaw.unique (hlaw : ArrayStartLaw X spacing) {start t : Int}
    (hstart : X.getArrayStartIndex start spacing = start) (ht : InSpan X spacing start t) :
    X.getArrayStartIndex t spacing = start := by
  have htiled := hlaw.tiled start
  rw [hstart] at htiled
  obtain ⟨hlow, hhigh⟩ := ht
  obtain ⟨hlow', hhigh'⟩ := hlaw.inSpan t
  obtain ⟨m, hm⟩ := htiled
  obtain ⟨n, hn⟩ := hlaw.tiled t
  have hpos : 0 < X.span spacing := by omega
  rcases Int.lt_trichotomy m n with hlt | rfl | hgt
  · have := Int.mul_le_mul_of_nonneg_left (show m + 1 ≤ n by omega) (Int.le_of_lt hpos)
    rw [Int.mul_add, Int.mul_one] at this
    omega
  · rw [hn, hm]
  · have := Int.mul_le_mul_of_nonneg_left (show n + 1 ≤ m by omega) (Int.le_of_lt hpos)
    rw [Int.mul_add, Int.mul_one] at this
    omega

/-- The start of an array is one. -/
theorem ArrayStartLaw.idem (hlaw : ArrayStartLaw X spacing) (t : Int) :
    X.getArrayStartIndex (X.getArrayStartIndex t spacing) spacing = X.getArrayStartIndex t spacing := by
  have hspan := hlaw.inSpan t
  have hpos : 0 < X.span spacing := by
    obtain ⟨hlow, hhigh⟩ := hspan
    omega
  obtain ⟨hlow, hhigh⟩ := hlaw.inSpan (X.getArrayStartIndex t spacing)
  have hdvd := Int.dvd_sub (hlaw.tiled t) (hlaw.tiled (X.getArrayStartIndex t spacing))
  -- the difference is a multiple of the span, and less than it
  have hzero : X.getArrayStartIndex t spacing - X.getArrayStartIndex (X.getArrayStartIndex t spacing)
      spacing = 0 :=
    Int.eq_zero_of_dvd_of_nonneg_of_lt (by omega) (by omega) hdvd
  omega

theorem FurtherArray.of_not_behind {edge last start : Int} (hedge : ¬ Further zeroForOne edge last)
    (h : FurtherArray X spacing zeroForOne edge start) : FurtherArray X spacing zeroForOne last start :=
  ⟨h.further.of_not_behind hedge, h.isStart, h.fromMin, h.toMax⟩

theorem FurtherArray.trans {last start start' : Int} (h : FurtherArray X spacing zeroForOne last start)
    (h' : FurtherArray X spacing zeroForOne start start') :
    FurtherArray X spacing zeroForOne last start' :=
  ⟨h.further.trans h'.further, h'.isStart, h'.fromMin, h'.toMax⟩

namespace ByrealClmmVenue

variable {v : ByrealClmmVenue X} {fuel scanFuel : Nat}

/-- What the navigation of a venue rests on: the crate's arithmetic of arrays and its scans of the
    bitmaps, and slots that are in place. -/
structure Navigable (v : ByrealClmmVenue X) (zeroForOne : Bool) : Prop where
  starts : ArrayStartLaw X v.spacing
  scans : ScansFurther v zeroForOne
  checks : CheckLaw X v.spacing
  slots : ∀ entry ∈ v.dynamicTickArrays, SlotsInPlace X v.spacing entry.2

/-! ## The scan of the bitmaps -/

theorem scanTurn_leave (hscans : ScansFurther v zeroForOne) {last start : Int}
    (h : v.scanTurn zeroForOne last = .ok (.leave (some start))) :
    FurtherArray X v.spacing zeroForOne last start := by
  unfold scanTurn at h
  generalize hpool : X.nextInitializedTickArrayStartIndex v.poolState.tickArrayBitmap last v.spacing
    zeroForOne = found at h
  obtain ⟨marked, edge⟩ := found
  cases marked with
  | true =>
      cases h
      exact hscans.pool hpool
  | false =>
      simp only [Bool.false_eq_true, if_false] at h
      split at h
      next => cases h
      next extension hext =>
        obtain ⟨⟨marked, next⟩, hnext, h⟩ := Except.bind_eq_ok.mp h
        rw [ofCrate_eq_ok] at hnext
        cases marked with
        | true =>
            cases h
            exact (hscans.extension hext hnext).of_not_behind (hscans.poolEdge hpool)
        | false =>
            simp only [Bool.false_eq_true, if_false] at h
            split at h
            next => cases h
            next => cases h

theorem scanTurn_next (hscans : ScansFurther v zeroForOne) {last edge : Int}
    (h : v.scanTurn zeroForOne last = .ok (.next edge)) :
    Further zeroForOne last edge ∧ X.MIN_TICK ≤ edge ∧ edge ≤ X.MAX_TICK := by
  unfold scanTurn at h
  generalize hpool : X.nextInitializedTickArrayStartIndex v.poolState.tickArrayBitmap last v.spacing
    zeroForOne = found at h
  obtain ⟨marked, poolEdge⟩ := found
  cases marked with
  | true => cases h
  | false =>
      simp only [Bool.false_eq_true, if_false] at h
      split at h
      next => cases h
      next extension hext =>
        obtain ⟨⟨marked, next⟩, hnext, h⟩ := Except.bind_eq_ok.mp h
        rw [ofCrate_eq_ok] at hnext
        cases marked with
        | true => cases h
        | false =>
            simp only [Bool.false_eq_true, if_false] at h
            split at h
            next => cases h
            next hrange =>
              cases h
              rw [not_or] at hrange
              exact ⟨(hscans.extensionEdge hext hnext).of_not_behind (hscans.poolEdge hpool),
                by omega, by omega⟩

/-- **What a scan finds is an array further on.** -/
theorem scanBitmaps_further (hscans : ScansFurther v zeroForOne) {last start : Int}
    (h : v.scanBitmaps zeroForOne fuel last = .ok (some start)) :
    FurtherArray X v.spacing zeroForOne last start := by
  rw [scanBitmaps_eq, Loop.iterate_eq_ok] at h
  obtain ⟨n, edge, -, hreach, hleave⟩ := h
  have hedge : ¬ Further zeroForOne edge last := by
    refine hreach.inv (I := fun edge => ¬ Further zeroForOne edge last) ?_ Further.irrefl
    intro edge edge' hnot hturn hback
    exact hnot ((scanTurn_next hscans hturn).1.trans hback)
  exact (scanTurn_leave hscans hleave).of_not_behind hedge

theorem nextInitializedTickArrayStartIndex_further (hscans : ScansFurther v zeroForOne) {last start : Int}
    (hlast : X.getArrayStartIndex last v.spacing = last)
    (h : v.nextInitializedTickArrayStartIndex fuel last zeroForOne = .ok (some start)) :
    FurtherArray X v.spacing zeroForOne last start := by
  unfold nextInitializedTickArrayStartIndex at h
  rw [hlast] at h
  exact scanBitmaps_further hscans h

/-! ## One array of the search -/

theorem loadedTickArray_eq_some {start : Int} {array : DynamicTickArrayState X}
    (h : v.loadedTickArrayByStartIndex start = some array) :
    array.startTickIndex = start ∧ ∃ key, (key, array) ∈ v.dynamicTickArrays := by
  unfold loadedTickArrayByStartIndex at h
  have hmem := List.mem_of_find?_eq_some h
  have hstart := List.find?_some h
  obtain ⟨⟨key, array'⟩, hentry, rfl⟩ := List.mem_map.mp hmem
  exact ⟨of_decide_eq_true hstart, key, hentry⟩

/-- The scan goes on to this array, which is loaded. -/
def Advances (v : ByrealClmmVenue X) (scanFuel : Nat) (zeroForOne : Bool) (nav : TickNavState)
    (start : Int) (array : DynamicTickArrayState X) : Prop :=
  v.nextInitializedTickArrayStartIndex scanFuel nav.currentValidTickArrayStartIndex zeroForOne =
    .ok (some start) ∧
    v.loadedTickArrayByStartIndex start = some array

/-- How a turn of the search comes out: a tick in the array it stands at, the first tick of it where that
    is not the pool's current one, or the first tick of the array further on, which may have none. -/
inductive Searched (v : ByrealClmmVenue X) (scanFuel : Nat) (current : Int) (zeroForOne : Bool)
    (nav : TickNavState) (array : DynamicTickArrayState X) :
    Loop.Turn TickNavState (Int × TickNavState) → Prop where
  | here {t : Int} : array.nextInitializedTick current v.spacing zeroForOne = (.ok (some t) : SwapRes _) →
      Searched v scanFuel current zeroForOne nav array (.leave (t, nav))
  | first {t : Int} : array.nextInitializedTick current v.spacing zeroForOne = (.ok none : SwapRes _) →
      nav.isMatchPoolCurrentTickArray = false → array.firstInitializedTick zeroForOne =
        (.ok (some t) : SwapRes _) →
      Searched v scanFuel current zeroForOne nav array
      (.leave (t, ⟨true, nav.currentValidTickArrayStartIndex⟩))
  | advanced {start t : Int} {array' : DynamicTickArrayState X} :
      array.nextInitializedTick current v.spacing zeroForOne = (.ok none : SwapRes _) →
      firstTickIfUnmatched nav array zeroForOne = .ok none →
      Advances v scanFuel zeroForOne nav start array' →
      array'.firstInitializedTick zeroForOne = (.ok (some t) : SwapRes _) →
      Searched v scanFuel current zeroForOne nav array (.leave (t, ⟨true, start⟩))
  | empty {start : Int} {array' : DynamicTickArrayState X} :
      array.nextInitializedTick current v.spacing zeroForOne = (.ok none : SwapRes _) →
      firstTickIfUnmatched nav array zeroForOne = .ok none →
      Advances v scanFuel zeroForOne nav start array' →
      array'.firstInitializedTick zeroForOne = (.ok none : SwapRes _) →
      Searched v scanFuel current zeroForOne nav array (.next ⟨true, start⟩)

theorem searchTurn_searched {current : Int} {nav : TickNavState}
    {turn : Loop.Turn TickNavState (Int × TickNavState)}
    (h : v.searchTurn scanFuel current zeroForOne nav = .ok turn) :
    ∃ array, v.loadedTickArrayByStartIndex nav.currentValidTickArrayStartIndex = some array ∧
      Searched v scanFuel current zeroForOne nav array turn := by
  obtain ⟨array, harray, h⟩ := Except.bind_eq_ok.mp h
  refine ⟨array, Res.orErr_eq_ok.mp harray, ?_⟩
  obtain ⟨found, hfound, h⟩ := Except.bind_eq_ok.mp h
  cases found with
  | some t =>
      cases h
      exact .here hfound
  | none =>
      simp only at h
      obtain ⟨found, hfirst, h⟩ := Except.bind_eq_ok.mp h
      cases found with
      | some t =>
          cases h
          unfold firstTickIfUnmatched at hfirst
          split at hfirst
          next => cases hfirst
          next hmatch => exact .first hfound (Bool.eq_false_iff.mpr hmatch) hfirst
      | none =>
          simp only at h
          obtain ⟨nextArr, hnext, h⟩ := Except.bind_eq_ok.mp h
          obtain ⟨start, hstart, h⟩ := Except.bind_eq_ok.mp h
          obtain ⟨array', harray', h⟩ := Except.bind_eq_ok.mp h
          rw [Res.orErr_eq_ok.mp hstart] at hnext
          have hadvances : Advances v scanFuel zeroForOne nav start array' :=
            ⟨hnext, Res.orErr_eq_ok.mp harray'⟩
          obtain ⟨found, hfound', h⟩ := Except.bind_eq_ok.mp h
          cases found with
          | some t =>
              cases h
              exact .advanced hfound hfirst hadvances hfound'
          | none =>
              cases h
              exact .empty hfound hfirst hadvances hfound'

/-! ## Where the navigation stands -/

/-- The arrays the navigation may still go on to: those further on, and its own
    while the pool's current array is another. -/
def MayGoOnTo (zeroForOne : Bool) (nav : TickNavState) (start : Int) : Prop :=
  Further zeroForOne nav.currentValidTickArrayStartIndex start ∨
    (nav.isMatchPoolCurrentTickArray = false ∧ start = nav.currentValidTickArrayStartIndex)

/-- The navigation stands at an array, and the ticks of the arrays it may go on to lie ahead. -/
structure NavAt (v : ByrealClmmVenue X) (zeroForOne : Bool) (tick : Int) (nav : TickNavState) : Prop where
  isStart : X.getArrayStartIndex nav.currentValidTickArrayStartIndex v.spacing =
    nav.currentValidTickArrayStartIndex
  ahead (start t : Int) : MayGoOnTo zeroForOne nav start → X.getArrayStartIndex start v.spacing = start →
    InSpan X v.spacing start t → Ahead zeroForOne tick t
  elsewhere : nav.isMatchPoolCurrentTickArray = false →
    X.getArrayStartIndex tick v.spacing ≠ nav.currentValidTickArrayStartIndex

/-- Behind any tick of its array, the navigation stands as it should. -/
theorem NavAt.behind (hlaw : ArrayStartLaw X v.spacing) {start t : Int}
    (hstart : X.getArrayStartIndex start v.spacing = start) (ht : InSpan X v.spacing start t) :
    NavAt v zeroForOne (past zeroForOne t) ⟨true, start⟩ := by
  refine ⟨hstart, ?_, nofun⟩
  intro start' u honward hstart' hu
  rcases honward with hfurther | ⟨hmatch, -⟩
  · exact ahead_past.mpr (hlaw.further hstart hstart' hfurther ht hu)
  · cases hmatch

/-- **The navigation of a fresh swap** stands relative to the pool's current tick. -/
theorem initTickNavState_at (hv : Navigable v zeroForOne) {nav : TickNavState}
    (h : v.initTickNavState fuel zeroForOne = .ok nav) :
    NavAt v zeroForOne v.poolState.tickCurrent nav ∧
      (nav.currentValidTickArrayStartIndex = X.getArrayStartIndex v.poolState.tickCurrent v.spacing ∨
        FurtherArray X v.spacing zeroForOne (X.getArrayStartIndex v.poolState.tickCurrent v.spacing)
          nav.currentValidTickArrayStartIndex) := by
  have hidem := hv.starts.idem v.poolState.tickCurrent
  have hcurrent := hv.starts.inSpan v.poolState.tickCurrent
  obtain ⟨⟨isMatch, first⟩, hfirst, hnav⟩ := Except.bind_eq_ok.mp h
  cases hnav
  obtain ⟨⟨isInitialized, start⟩, hcheck, hfirst⟩ := Except.bind_eq_ok.mp hfirst
  cases isInitialized with
  | true =>
      obtain ⟨rfl, rfl⟩ := Prod.mk.inj (Except.ok.inj hfirst)
      -- both checks answer with the start of the current tick's array
      have hstart : start = X.getArrayStartIndex v.poolState.tickCurrent v.spacing := by
        unfold currentTickArrayIsInitialized at hcheck
        split at hcheck
        next =>
          obtain ⟨extension, -, hcheck⟩ := Except.bind_eq_ok.mp hcheck
          exact hv.checks.extension (ofCrate_eq_ok.mp hcheck)
        next => exact hv.checks.pool (ofCrate_eq_ok.mp hcheck)
      refine ⟨⟨by rw [hstart, hidem], ?_, nofun⟩, Or.inl hstart⟩
      intro start' u honward hstart' hu
      rcases honward with hfurther | ⟨hmatch, -⟩
      · rw [hstart] at hfurther
        exact (hv.starts.further hidem hstart' hfurther hcurrent hu).ahead
      · cases hmatch
  | false =>
      simp only [Bool.false_eq_true, if_false] at hfirst
      obtain ⟨found, hscan, hfirst⟩ := Except.bind_eq_ok.mp hfirst
      obtain ⟨next, hnext, hfirst⟩ := Except.bind_eq_ok.mp hfirst
      cases hfirst
      obtain rfl := Res.orErr_eq_ok.mp hnext
      have hfar := nextInitializedTickArrayStartIndex_further hv.scans hidem hscan
      refine ⟨⟨hfar.isStart, ?_, fun _ heq => ?_⟩, Or.inr hfar⟩
      · intro start' u honward hstart' hu
        have hfurther : Further zeroForOne (X.getArrayStartIndex v.poolState.tickCurrent v.spacing)
            start' := by
          rcases honward with hfurther | ⟨-, rfl⟩
          · exact hfar.further.trans hfurther
          · exact hfar.further
        exact (hv.starts.further hidem hstart' hfurther hcurrent hu).ahead
      · have hself := hfar.further
        rw [heq] at hself
        exact Further.irrefl hself

/-! ## The tick that is found -/

/-- Where a tick was found: ahead of the current one, in the array the navigation has come to, which
    stands as it should behind it. -/
structure FoundAt (v : ByrealClmmVenue X) (zeroForOne : Bool) (current : Int) (nav : TickNavState)
    (t : Int) (nav' : TickNavState) : Prop where
  ahead : Ahead zeroForOne current t
  inArray : InSpan X v.spacing nav'.currentValidTickArrayStartIndex t
  behind : NavAt v zeroForOne (past zeroForOne t) nav'
  onward : nav'.currentValidTickArrayStartIndex = nav.currentValidTickArrayStartIndex ∨
    FurtherArray X v.spacing zeroForOne nav.currentValidTickArrayStartIndex
    nav'.currentValidTickArrayStartIndex

theorem searchTurn_leave (hv : Navigable v zeroForOne) {current t : Int} {nav nav' : TickNavState}
    (hat : NavAt v zeroForOne current nav)
    (h : v.searchTurn scanFuel current zeroForOne nav = .ok (.leave (t, nav'))) :
    FoundAt v zeroForOne current nav t nav' := by
  obtain ⟨array, hloaded, hsearched⟩ := searchTurn_searched h
  obtain ⟨hstart, key, hmem⟩ := loadedTickArray_eq_some hloaded
  have hspacing := hv.starts.spacing_pos
  cases hsearched with
  | here hfound =>
      obtain ⟨hhere, hin, hahead⟩ := array.nextInitializedTick_ahead hv.starts (hv.slots _ hmem) hfound
      rw [hstart] at hhere hin
      -- only the array of the current tick is searched from it, so the navigation matches
      have hmatch : nav.isMatchPoolCurrentTickArray = true := by
        by_contra hmatch
        exact hat.elsewhere (Bool.eq_false_iff.mpr hmatch) hhere
      have hnav : nav = ⟨true, nav.currentValidTickArrayStartIndex⟩ := by
        rw [← hmatch]
      refine ⟨hahead, hin, ?_, Or.inl rfl⟩
      rw [hnav]
      exact NavAt.behind hv.starts hat.isStart hin
  | first _ hmatch hfound =>
      have hin := array.firstInitializedTick_inSpan hspacing (hv.slots _ hmem) hfound
      rw [hstart] at hin
      exact ⟨hat.ahead _ t (Or.inr ⟨hmatch, rfl⟩) hat.isStart hin, hin,
        NavAt.behind hv.starts hat.isStart hin, Or.inl rfl⟩
  | advanced _ _ hadvances hfound =>
      obtain ⟨hnext, hloaded'⟩ := hadvances
      obtain ⟨hstart', key', hmem'⟩ := loadedTickArray_eq_some hloaded'
      have hfar := nextInitializedTickArrayStartIndex_further hv.scans hat.isStart hnext
      have hin := DynamicTickArrayState.firstInitializedTick_inSpan hspacing (hv.slots _ hmem') hfound
      rw [hstart'] at hin
      exact ⟨hat.ahead _ t (Or.inl hfar.further) hfar.isStart hin, hin,
        NavAt.behind hv.starts hfar.isStart hin, Or.inr hfar⟩

/-- An array without ticks is passed, and the current tick stays behind what follows. -/
theorem searchTurn_next (hv : Navigable v zeroForOne) {current : Int} {nav nav' : TickNavState}
    (hat : NavAt v zeroForOne current nav)
    (h : v.searchTurn scanFuel current zeroForOne nav = .ok (.next nav')) :
    NavAt v zeroForOne current nav' ∧
      FurtherArray X v.spacing zeroForOne nav.currentValidTickArrayStartIndex
        nav'.currentValidTickArrayStartIndex := by
  obtain ⟨array, -, hsearched⟩ := searchTurn_searched h
  cases hsearched with
  | empty _ _ hadvances _ =>
      have hfar := nextInitializedTickArrayStartIndex_further hv.scans hat.isStart hadvances.1
      refine ⟨⟨hfar.isStart, ?_, nofun⟩, hfar⟩
      intro start' u honward hstart' hu
      rcases honward with hfurther | ⟨hmatch, -⟩
      · exact hat.ahead start' u (Or.inl (hfar.further.trans hfurther)) hstart' hu
      · cases hmatch

/-- **Every tick that is found lies ahead of the current one**, in the array the navigation has come to. -/
theorem findNext_found (hv : Navigable v zeroForOne) {current t : Int} {nav nav' : TickNavState}
    (hat : NavAt v zeroForOne current nav)
    (h : v.findNextInitializedTickWithNav fuel current zeroForOne nav = .ok (t, nav')) :
    FoundAt v zeroForOne current nav t nav' := by
  unfold findNextInitializedTickWithNav at h
  rw [findNextTick_eq, Loop.iterate_eq_ok] at h
  obtain ⟨n, last, -, hreach, hleave⟩ := h
  -- the arrays passed are further on, one after another
  have hinv : NavAt v zeroForOne current last ∧
      (last.currentValidTickArrayStartIndex = nav.currentValidTickArrayStartIndex ∨
        FurtherArray X v.spacing zeroForOne nav.currentValidTickArrayStartIndex
          last.currentValidTickArrayStartIndex) := by
    refine hreach.inv (I := fun last => NavAt v zeroForOne current last ∧
      (last.currentValidTickArrayStartIndex = nav.currentValidTickArrayStartIndex ∨
        FurtherArray X v.spacing zeroForOne nav.currentValidTickArrayStartIndex
          last.currentValidTickArrayStartIndex)) ?_ ⟨hat, Or.inl rfl⟩
    intro s s' hs hturn
    obtain ⟨hat', hfar⟩ := searchTurn_next hv hs.1 hturn
    refine ⟨hat', Or.inr ?_⟩
    rcases hs.2 with heq | hfar'
    · rw [← heq]
      exact hfar
    · exact hfar'.trans hfar
  obtain ⟨hahead, hin, hbehind, honward⟩ := searchTurn_leave hv hinv.1 hleave
  refine ⟨hahead, hin, hbehind, ?_⟩
  rcases hinv.2 with heq | hfar
  · rw [← heq]
    exact honward
  · rcases honward with heq' | hfar'
    · rw [heq']
      exact Or.inr hfar
    · exact Or.inr (hfar.trans hfar')

/-! ## The sample venue -/

section Sample

open Adapter

theorem tickSlots_inPlace (start : Int) (net : Int → Option Int) :
    SlotsInPlace X 1 (.fixed (Sample.tickSlots X start net)) := by
  intro i _
  show start + (i.val : Int) = start + i.val * ((1 : Nat) : Int)
  omega

/-- The sample pool's bitmap marks its two arrays only. -/
theorem sample_marked {i : Int} (hlow : -512 ≤ i) (hhigh : i < 512)
    (h : Reference.marked Sample.pool.tickArrayBitmap (i + 512) = true) : i = -1 ∨ i = 0 := by
  have hall : ∀ n : Fin 1024, Reference.marked Sample.pool.tickArrayBitmap (n.val : Int) = true →
      n.val = 511 ∨ n.val = 512 := by decide +kernel
  have hn := hall ⟨(i + 512).toNat, by omega⟩
  rw [show (((i + 512).toNat : Nat) : Int) = i + 512 by omega] at hn
  have := hn h
  simp only at this
  omega

/-- A venue of the sample pool can be navigated both ways, where the two arrays are among the ticks and
    keep their slots in place. -/
theorem navigable_of_sample_pool (hX : Reference.Standard X) (zeroForOne : Bool) {v : ByrealClmmVenue X}
    (hpool : v.poolState = Sample.pool) (hslots : ∀ entry ∈ v.dynamicTickArrays, SlotsInPlace X 1 entry.2)
    (hmin : X.getArrayStartIndex X.MIN_TICK 1 ≤ -60) (hmax : 0 ≤ X.MAX_TICK) : Navigable v zeroForOne := by
  have hspacing : v.spacing = 1 := by
    unfold spacing
    rw [hpool]
    rfl
  refine ⟨?_, ?_, ?_, ?_⟩
  · rw [hspacing]
    exact hX.arrayStartLaw Nat.one_pos
  · refine hX.scansFurther _ zeroForOne (by rw [hspacing]; exact Nat.one_pos)
      fun i hlow hhigh hmarked => ?_
    rw [hpool] at hmarked
    rw [hspacing, show Reference.arrayTicks 1 = 60 from rfl]
    rcases sample_marked hlow hhigh hmarked with rfl | rfl
    · exact ⟨hmin, by omega⟩
    · exact ⟨by omega, by omega⟩
  · exact hX.checkLaw _
  · rw [hspacing]
    exact hslots

/-- So can the loaded sample venue. -/
theorem sample_navigable (hX : Reference.Standard X) (zeroForOne : Bool)
    (hmin : X.getArrayStartIndex X.MIN_TICK 1 ≤ -60) (hmax : 0 ≤ X.MAX_TICK) :
    Navigable (Sample.loadedOf X Sample.pool) zeroForOne := by
  refine navigable_of_sample_pool hX zeroForOne rfl (fun entry hentry => ?_) hmin hmax
  have hcases := List.mem_cons.mp hentry
  rw [List.mem_singleton] at hcases
  rcases hcases with rfl | rfl
  · exact tickSlots_inPlace 0 _
  · exact tickSlots_inPlace (-60) _

end Sample

end ByrealClmmVenue

end ByrealTitan.Clmm
