import ByrealTitan.Correctness.TickOrder

/-!
# `Correctness.NextTick` — the search finds the next tick of the order

The navigation stands at a marked array, and the ticks of the order that are left lie in it or further
on (`NavStands`). A search from there finds the nearest of them and stands behind it in the same way, or
fails for the reason that none is left (`findNextTick_finds`).
-/

namespace ByrealTitan.Clmm

open Direction

variable {X : Crates} {zeroForOne : Bool}

/-- An error by what it reports: that no array is left, or which one is not loaded. -/
def SwapError.kind : SwapError → SwapError
  | .noFurtherTickArrays            => .noInitializedTickArray
  | .missingAdvancedTickArray start => .missingTickArray start
  | e                               => e

namespace ByrealClmmVenue

variable {v : ByrealClmmVenue X} {fuel : Nat} {current start t : Int} {missing : Option Int}

/-! ## Where the search stands -/

/-- The search has come to this array: the arrays further on lie ahead of the current tick, and no
    initialised tick ahead lies in an array before it. -/
structure Stands (v : ByrealClmmVenue X) (zeroForOne : Bool) (current start : Int) : Prop where
  array : v.ArrayStart start
  onward (start' t : Int) : Further zeroForOne start start' →
    X.getArrayStartIndex start' v.spacing = start' →
    InSpan X v.spacing start' t → Ahead zeroForOne current t
  covers (t : Int) : t ∈ v.initialisedTicks → Ahead zeroForOne current t →
    ¬ Further zeroForOne (X.getArrayStartIndex t v.spacing) start

/-- **The nearest tick of the array is the nearest of all.** -/
theorem Stands.nearest (hw : v.Walkable zeroForOne) (hat : Stands v zeroForOne current start)
    {ta : FixedTickArraySnapshot X} (hloaded : v.loadedTickArrayByStartIndex start = some (.fixed ta))
    (ht : Nearest zeroForOne (ta.Holds v.spacing) current t) :
    Nearest zeroForOne (· ∈ v.initialisedTicks) current t := by
  obtain ⟨hmem, hown⟩ := (holds_iff hw hat.array hloaded).mp ht.mem
  refine ⟨hmem, ht.ahead, ?_⟩
  intro u hu hahead hfurther
  rcases eq_or_further (hat.covers u hu hahead) with hsame | hon
  · exact ht.first u ((holds_iff hw hat.array hloaded).mpr ⟨hu, hsame⟩) hahead hfurther
  · -- the ticks of a further array are further on
    have hspan := hw.starts.inSpan t
    rw [hown] at hspan
    have hfar := hw.starts.further hat.array.isStart (hw.starts.idem u) hon hspan
      (hw.starts.inSpan u)
    exact Further.irrefl (hfurther.trans hfar)

/-- An array without ticks ahead is passed. -/
theorem Stands.next (hw : v.Walkable zeroForOne) (hat : Stands v zeroForOne current start)
    (hempty : ∀ t ∈ v.initialisedTicks, X.getArrayStartIndex t v.spacing = start →
      ¬ Ahead zeroForOne current t)
    {next : Int} (hnext : Nearest zeroForOne (Marked v) (past zeroForOne start) next) :
    Stands v zeroForOne current next := by
  have hfurther := ahead_past.mp hnext.ahead
  refine ⟨hw.bitmaps.marked hnext.mem, ?_, ?_⟩
  · intro start' t hon
    exact hat.onward start' t (hfurther.trans hon)
  · intro t ht hahead hback
    -- a tick before the next array would be of this one, or of a marked one between
    rcases eq_or_further (hat.covers t ht hahead) with hsame | hon
    · exact hempty t ht hsame hahead
    · exact hnext.first _ (marked_of_initialised hw ht) (ahead_past.mpr hon) hback

/-- After the last marked array no tick is left. -/
theorem Stands.ends (hw : v.Walkable zeroForOne) (hat : Stands v zeroForOne current start)
    (hempty : ∀ t ∈ v.initialisedTicks, X.getArrayStartIndex t v.spacing = start →
      ¬ Ahead zeroForOne current t)
    (hnone : ∀ next, Marked v next → ¬ Ahead zeroForOne (past zeroForOne start) next) :
    ∀ t ∈ v.initialisedTicks, ¬ Ahead zeroForOne current t := by
  intro t ht hahead
  rcases eq_or_further (hat.covers t ht hahead) with hsame | hon
  · exact hempty t ht hsame hahead
  · exact hnone _ (marked_of_initialised hw ht) (ahead_past.mpr hon)

/-- Behind any tick of its array, the search stands as it should. -/
theorem Stands.behind (hw : v.Walkable zeroForOne) (harray : v.ArrayStart start)
    (ht : X.getArrayStartIndex t v.spacing = start) : Stands v zeroForOne (past zeroForOne t) start := by
  have hspan := hw.starts.inSpan t
  rw [ht] at hspan
  refine ⟨harray, ?_, ?_⟩
  · intro start' u hon hstart' hu
    rw [ahead_past]
    exact hw.starts.further harray.isStart hstart' hon hspan hu
  · intro u _ hahead hback
    have hfar := hw.starts.further (hw.starts.idem u) harray.isStart hback (hw.starts.inSpan u) hspan
    exact Further.irrefl (hfar.trans (ahead_past.mp hahead))

/-- **At a missing array no tick on the way is left.** -/
theorem Stands.at_missing (hat : Stands v zeroForOne current start) (hmissing : v.isMissing start = true)
    (h : MissingFrom v zeroForOne start missing) :
    missing = some start ∧ ∀ t, Due v zeroForOne missing t → ¬ Ahead zeroForOne current t := by
  have hsome := Found.eq_some h ⟨hmissing, ahead_before.mpr Further.irrefl,
    fun u _ hu => ahead_before.mp hu⟩
  refine ⟨hsome, fun t ht hahead => ?_⟩
  have hbefore := ht.2
  rw [hsome] at hbefore
  exact hat.covers t ht.1 hahead (of_decide_eq_true hbefore)

/-- The search has moved on to the next marked array, all of which lies ahead. -/
structure MovesOn (v : ByrealClmmVenue X) (zeroForOne : Bool) (current start : Int) (missing : Option Int)
    (next : Int) : Prop extends Stands v zeroForOne current next where
  further : Further zeroForOne start next
  marked : Marked v next
  ahead (t : Int) : InSpan X v.spacing next t → Ahead zeroForOne current t
  missing : MissingFrom v zeroForOne next missing
  room : v.room zeroForOne next < v.room zeroForOne start

/-- **Behind an array that is done** the scan moves on to the next marked one; or there is none, and then
    no array is missing and no tick is left. -/
theorem Stands.movesOn (hw : v.Walkable zeroForOne) (hat : Stands v zeroForOne current start)
    (hempty : ∀ t ∈ v.initialisedTicks, X.getArrayStartIndex t v.spacing = start →
      ¬ Ahead zeroForOne current t)
    (hhere : v.isMissing start ≠ true) (hmissing : MissingFrom v zeroForOne start missing)
    (hfuel : v.room zeroForOne start < fuel) :
    (v.nextInitializedTickArrayStartIndex fuel start zeroForOne = .ok none ∧ missing = none ∧
        ∀ t ∈ v.initialisedTicks, ¬ Ahead zeroForOne current t) ∨
      ∃ next, v.nextInitializedTickArrayStartIndex fuel start zeroForOne = .ok (some next) ∧
        MovesOn v zeroForOne current start missing next := by
  obtain ⟨r, hr, hfound⟩ := scanBitmaps_found hw hat.array hfuel
  unfold nextInitializedTickArrayStartIndex
  rw [hat.array.isStart, hr]
  cases r with
  | none => exact Or.inl ⟨rfl, hmissing.ends hhere hfound, hat.ends hw hempty hfound⟩
  | some next =>
      have hfurther : Further zeroForOne start next := ahead_past.mp hfound.ahead
      have hnext := hat.next hw hempty hfound
      exact Or.inr ⟨next, rfl, hnext, hfurther, hfound.mem,
        fun t ht => hat.onward next t hfurther hnext.array.isStart ht,
        hmissing.next hhere hfound, room_lt hfurther hnext.array.fromMin hnext.array.toMax⟩

/-! ## The search -/

/-- The search with its flag stands at a marked array: while the pool's current array is another, all of
    the array lies ahead; afterwards the current tick is in the array or has passed its ticks. -/
structure NavStands (v : ByrealClmmVenue X) (zeroForOne : Bool) (current : Int) (nav : TickNavState) :
    Prop extends Stands v zeroForOne current nav.currentValidTickArrayStartIndex where
  marked : Marked v nav.currentValidTickArrayStartIndex
  unmatched : nav.isMatchPoolCurrentTickArray = false →
    X.getArrayStartIndex current v.spacing ≠ nav.currentValidTickArrayStartIndex ∧
      ∀ t, InSpan X v.spacing nav.currentValidTickArrayStartIndex t → Ahead zeroForOne current t
  passed : nav.isMatchPoolCurrentTickArray = true →
    X.getArrayStartIndex current v.spacing ≠ nav.currentValidTickArrayStartIndex →
    ∀ t ∈ v.initialisedTicks, X.getArrayStartIndex t v.spacing = nav.currentValidTickArrayStartIndex →
      ¬ Ahead zeroForOne current t

/-- What a swap fails with that still runs when the ticks are exhausted. -/
def ticksExhausted : Option Int → SwapError
  | none       => .noInitializedTickArray
  | some start => .missingTickArray start

/-- What a search from the current tick comes to: the nearest tick on the way, with the navigation behind
    it, or a failure that tells why none is left. -/
inductive Finds (v : ByrealClmmVenue X) (zeroForOne : Bool) (current : Int) (missing : Option Int)
    (bound : Nat) : SwapRes (Int × TickNavState) → Prop where
  | tick {t : Int} {nav : TickNavState} : Nearest zeroForOne (Due v zeroForOne missing) current t →
      NavStands v zeroForOne (past zeroForOne t) nav →
      MissingFrom v zeroForOne nav.currentValidTickArrayStartIndex missing →
      v.room zeroForOne nav.currentValidTickArrayStartIndex ≤ bound →
      Finds v zeroForOne current missing bound (.ok (t, nav))
  | exhausted {e : SwapError} : e.kind = ticksExhausted missing →
      (∀ t, Due v zeroForOne missing t → ¬ Ahead zeroForOne current t) →
      Finds v zeroForOne current missing bound (Res.fail e)

theorem Finds.mono {bound bound' : Nat} (hle : bound ≤ bound') {r : SwapRes (Int × TickNavState)}
    (h : Finds v zeroForOne current missing bound r) : Finds v zeroForOne current missing bound' r := by
  cases h with
  | tick ht hnav hmissing hroom => exact .tick ht hnav hmissing (Nat.le_trans hroom hle)
  | exhausted hkind hnone => exact .exhausted hkind hnone

/-- **A tick that is nearest in the array** is found, and the search goes on from behind it. -/
theorem Stands.finds (hw : v.Walkable zeroForOne) (hat : Stands v zeroForOne current start)
    (hmissing : MissingFrom v zeroForOne start missing) {ta : FixedTickArraySnapshot X}
    (hloaded : v.loadedTickArrayByStartIndex start = some (.fixed ta))
    (ht : Nearest zeroForOne (ta.Holds v.spacing) current t) :
    Finds v zeroForOne current missing (v.room zeroForOne start) (.ok (t, ⟨true, start⟩)) := by
  have hnearest := hat.nearest hw hloaded ht
  obtain ⟨hmem, hown⟩ := (holds_iff hw hat.array hloaded).mp ht.mem
  have hmarked := marked_of_initialised hw hmem
  rw [hown] at hmarked
  refine .tick ⟨⟨hmem, hmissing.comesBefore (not_isMissing hloaded) hown⟩, ht.ahead,
    fun u hu => hnearest.first u hu.1⟩ ⟨Stands.behind hw hat.array hown, hmarked, nofun,
      fun _ hne u _ hu hahead => hne ?_⟩ hmissing (Nat.le_refl _)
  -- behind the tick and with another of the array ahead, the position is still in the array
  have hown' : X.getArrayStartIndex u v.spacing = start := hu
  have hspan := hw.starts.inSpan t
  have hspan' := hw.starts.inSpan u
  rw [hown] at hspan
  rw [hown'] at hspan'
  refine hw.starts.unique hat.array.isStart ?_
  obtain ⟨hlow, hhigh⟩ := hspan
  obtain ⟨hlow', -⟩ := hspan'
  rw [ahead_past] at hahead
  cases zeroForOne with
  | true =>
      rw [further_down] at hahead
      rw [past_down]
      exact ⟨by omega, by omega⟩
  | false =>
      rw [past_up]
      exact ⟨hlow, hhigh⟩

/-- The first tick of an array that lies ahead as a whole is its nearest. -/
theorem firstInitializedTick_nearest (hw : v.Walkable zeroForOne) {ta : FixedTickArraySnapshot X}
    (hloaded : v.loadedTickArrayByStartIndex start = some (.fixed ta))
    (hahead : ∀ t, InSpan X v.spacing start t → Ahead zeroForOne current t) :
    ∃ r, (DynamicTickArrayState.fixed ta).firstInitializedTick zeroForOne =
      (.ok r : SwapRes (Option Int)) ∧
      Found zeroForOne (ta.Holds v.spacing) current r := by
  have hspacing := hw.starts.spacing_pos
  obtain ⟨ta', hsame, hstart, hplace, -⟩ := loaded_fixed hw hloaded
  obtain rfl : ta = ta' := DynamicTickArrayState.fixed.inj hsame
  obtain ⟨r, hr, hfound⟩ := FixedTickArraySnapshot.firstInitializedTick_found (ε := SwapError) hspacing
    hplace zeroForOne
  refine ⟨r, hr, hfound.congr fun u => and_congr_right fun hu => ?_⟩
  -- from outside and from the current tick alike, all that the array holds lies ahead
  have hin := hu.inSpan hspacing
  have hentry : Ahead zeroForOne (FixedTickArraySnapshot.entry X v.spacing zeroForOne ta.startTickIndex)
      u :=
    FixedTickArraySnapshot.ahead_entry hin
  rw [hstart] at hin
  exact ⟨fun _ => hahead u hin, fun _ => hentry⟩

/-- **One array is searched** for its nearest tick: from the current tick where that is in the array, and
    from outside while it is in another. -/
theorem NavStands.search (hw : v.Walkable zeroForOne) {nav : TickNavState}
    (hat : NavStands v zeroForOne current nav)
    {ta : FixedTickArraySnapshot X}
    (hloaded : v.loadedTickArrayByStartIndex nav.currentValidTickArrayStartIndex = some (.fixed ta)) :
    ∃ r, Found zeroForOne (ta.Holds v.spacing) current r ∧
      (((DynamicTickArrayState.fixed ta).nextInitializedTick current v.spacing zeroForOne =
        (.ok r : SwapRes _) ∧
          nav.isMatchPoolCurrentTickArray = true) ∨
        ((DynamicTickArrayState.fixed ta).nextInitializedTick current v.spacing zeroForOne =
          (.ok none : SwapRes _) ∧
          firstTickIfUnmatched nav (.fixed ta) zeroForOne = .ok r)) := by
  obtain ⟨ta', hsame, hstart, hplace, -⟩ := loaded_fixed hw hloaded
  obtain rfl : ta = ta' := DynamicTickArrayState.fixed.inj hsame
  by_cases hown : X.getArrayStartIndex current v.spacing = nav.currentValidTickArrayStartIndex
  · have hmatch : nav.isMatchPoolCurrentTickArray = true := by
      by_contra hmatch
      exact (hat.unmatched (Bool.eq_false_iff.mpr hmatch)).1 hown
    obtain ⟨r, hr, hfound⟩ := FixedTickArraySnapshot.nextInitializedTick_total (ε := SwapError)
      hw.starts hw.fits hplace zeroForOne (hown.trans hstart.symm)
    exact ⟨r, hfound, Or.inl ⟨hr, hmatch⟩⟩
  · have hnone : (DynamicTickArrayState.fixed ta).nextInitializedTick current v.spacing zeroForOne =
        (.ok none : SwapRes _) :=
      FixedTickArraySnapshot.nextInitializedTick_elsewhere fun heq => hown (heq.trans hstart)
    cases hmatch : nav.isMatchPoolCurrentTickArray with
    | true =>
        refine ⟨none, fun u hu => ?_, Or.inl ⟨hnone, rfl⟩⟩
        obtain ⟨hmem, hu⟩ := (holds_iff hw hat.array hloaded).mp hu
        exact hat.passed hmatch hown u hmem hu
    | false =>
        obtain ⟨r, hr, hfound⟩ := firstInitializedTick_nearest hw hloaded (hat.unmatched hmatch).2
        refine ⟨r, hfound, Or.inr ⟨hnone, ?_⟩⟩
        unfold firstTickIfUnmatched
        rw [hmatch]
        exact hr

/-- An array that is not loaded ends the search, with no tick left in front of it. -/
theorem Stands.stops (hat : Stands v zeroForOne current start) (hmarked : Marked v start)
    (hmissing : MissingFrom v zeroForOne start missing)
    (hloaded : v.loadedTickArrayByStartIndex start = none)
    {e : SwapError} (hkind : e.kind = .missingTickArray start) {bound : Nat} :
    Finds v zeroForOne current missing bound (Res.fail e) := by
  obtain ⟨hsome, hnone⟩ := hat.at_missing (isMissing_eq_true.mpr ⟨hmarked, hloaded⟩) hmissing
  refine .exhausted ?_ hnone
  rw [hsome]
  exact hkind

/-- **On arrival at the next array** the search ends: at an array that is not loaded, or with the first
    tick of the array. Only an array without ticks is passed. -/
theorem MovesOn.arrives (hw : v.Walkable zeroForOne) {next : Int}
    (h : MovesOn v zeroForOne current start missing next) :
    (v.loadedTickArrayByStartIndex next = none ∧ Finds v zeroForOne current missing
      (v.room zeroForOne start) (Res.fail (.missingAdvancedTickArray next))) ∨
      ∃ array r, v.loadedTickArrayByStartIndex next = some array ∧
        array.firstInitializedTick zeroForOne = (.ok r : SwapRes (Option Int)) ∧
        ((∃ t, r = some t ∧ Finds v zeroForOne current missing (v.room zeroForOne start)
          (.ok (t, ⟨true, next⟩))) ∨
          (r = none ∧ NavStands v zeroForOne current ⟨true, next⟩)) := by
  cases hloaded : v.loadedTickArrayByStartIndex next with
  | none => exact Or.inl ⟨rfl, h.stops h.marked h.missing hloaded rfl⟩
  | some array =>
      obtain ⟨ta, rfl, -, -⟩ := loaded_fixed hw hloaded
      obtain ⟨r, hfirst, hfound⟩ := firstInitializedTick_nearest hw hloaded h.ahead
      refine Or.inr ⟨_, r, rfl, hfirst, ?_⟩
      cases r with
      | some t => exact Or.inl ⟨t, rfl, (h.finds hw h.missing hloaded hfound).mono (Nat.le_of_lt h.room)⟩
      | none =>
          refine Or.inr ⟨rfl, h.toStands, h.marked, nofun, fun _ _ t ht hown => ?_⟩
          exact hfound t ((holds_iff hw h.array hloaded).mpr ⟨ht, hown⟩)

/-- **The search for the next tick** finds the nearest one on the way, or tells why there is none. The
    induction is on the fuel, which the room behind the array always exceeds. -/
theorem findNextTick_finds (hw : v.Walkable zeroForOne) {scanFuel : Nat} {nav : TickNavState}
    (hat : NavStands v zeroForOne current nav)
    (hmissing : MissingFrom v zeroForOne nav.currentValidTickArrayStartIndex missing)
    (hscan : v.room zeroForOne nav.currentValidTickArrayStartIndex < scanFuel)
    (hfuel : v.room zeroForOne nav.currentValidTickArrayStartIndex < fuel) :
    Finds v zeroForOne current missing (v.room zeroForOne nav.currentValidTickArrayStartIndex)
      (v.findNextTick scanFuel current zeroForOne fuel nav) := by
  induction fuel generalizing nav with
  | zero => omega
  | succ fuel ih =>
      rw [findNextTick]
      cases hloaded : v.loadedTickArrayByStartIndex nav.currentValidTickArrayStartIndex with
      | none => exact hat.stops hat.marked hmissing hloaded rfl
      | some array =>
          obtain ⟨ta, rfl, -, -⟩ := loaded_fixed hw hloaded
          obtain ⟨r, hfound, hsearch⟩ := hat.search hw hloaded
          simp only [Res.orErr, Except.ok_bind]
          cases r with
          | some t =>
              have hfinds := hat.finds hw hmissing hloaded hfound
              rcases hsearch with ⟨hnext, hmatch⟩ | ⟨hnext, hfirst⟩
              · rw [hnext]
                rw [← hmatch] at hfinds
                exact hfinds
              · rw [hnext, Except.ok_bind]
                simp only [hfirst, Except.ok_bind]
                exact hfinds
          | none =>
              -- neither search of this array has a tick: the navigation moves on
              have hempty : ∀ t ∈ v.initialisedTicks,
                  X.getArrayStartIndex t v.spacing = nav.currentValidTickArrayStartIndex →
                  ¬ Ahead zeroForOne current t :=
                fun t ht hown => hfound t ((holds_iff hw hat.array hloaded).mpr ⟨ht, hown⟩)
              have hon : (DynamicTickArrayState.fixed ta).nextInitializedTick
                  current v.spacing zeroForOne = (.ok none : SwapRes _) ∧
                  firstTickIfUnmatched nav (.fixed ta) zeroForOne = .ok none := by
                rcases hsearch with ⟨hnext, hmatch⟩ | hsearch
                · refine ⟨hnext, ?_⟩
                  unfold firstTickIfUnmatched
                  rw [if_pos hmatch]
                · exact hsearch
              rw [hon.1, Except.ok_bind]
              simp only [hon.2, Except.ok_bind]
              rcases hat.movesOn hw hempty (not_isMissing hloaded) hmissing hscan with
                ⟨hscanned, rfl, hnone⟩ | ⟨next, hscanned, hmoves⟩
              · rw [hscanned]
                exact .exhausted rfl fun t ht => hnone t ht.1
              · rw [hscanned, Except.ok_bind]
                simp only [Except.ok_bind]
                rcases hmoves.arrives hw with
                  ⟨hloaded', hfinds⟩ | ⟨array, r, hloaded', hfirst, ⟨t, rfl, hfinds⟩ | ⟨rfl, hstands⟩⟩
                · rw [hloaded']
                  exact hfinds
                · rw [hloaded']
                  simp only [Except.ok_bind]
                  rw [hfirst]
                  exact hfinds
                · rw [hloaded']
                  simp only [Except.ok_bind]
                  rw [hfirst]
                  have hroom := hmoves.room
                  exact (ih hstands hmoves.missing (Nat.lt_trans hroom hscan)
                    (Nat.lt_of_lt_of_le hroom (Nat.le_of_lt_succ hfuel))).mono (Nat.le_of_lt hroom)

/-! ## The first array -/

/-- The current array is where the arrays ahead begin. -/
theorem arrayStart_current (hw : v.Walkable zeroForOne) :
    v.ArrayStart (X.getArrayStartIndex v.poolState.tickCurrent v.spacing) := by
  obtain ⟨hmin, hmax⟩ := hw.current
  obtain ⟨hlow, -⟩ := hw.starts.inSpan v.poolState.tickCurrent
  refine ⟨hw.starts.idem v.poolState.tickCurrent, ?_, by omega⟩
  by_contra hlt
  have hbelow : Further true (X.getArrayStartIndex X.MIN_TICK v.spacing)
      (X.getArrayStartIndex v.poolState.tickCurrent v.spacing) := Int.not_le.mp hlt
  have hfar := hw.starts.further (hw.starts.idem X.MIN_TICK) (hw.starts.idem v.poolState.tickCurrent)
    hbelow (hw.starts.inSpan X.MIN_TICK) (hw.starts.inSpan v.poolState.tickCurrent)
  rw [further_down] at hfar
  omega

/-- No initialised tick ahead of the current one lies in an array before its own. -/
theorem not_before_current (hw : v.Walkable zeroForOne) (hahead : Ahead zeroForOne current t) :
    ¬ Further zeroForOne (X.getArrayStartIndex t v.spacing) (X.getArrayStartIndex current v.spacing) := by
  intro hback
  have hfar := hw.starts.further (hw.starts.idem t) (hw.starts.idem current) hback (hw.starts.inSpan t)
    (hw.starts.inSpan current)
  cases zeroForOne with
  | true =>
      rw [further_down] at hfar
      rw [ahead_down] at hahead
      omega
  | false =>
      rw [further_up] at hfar
      rw [ahead_up] at hahead
      omega

/-- What a fresh navigation comes to: it stands at the first marked array, or there is none. -/
theorem initTickNavState_stands (hw : v.Walkable zeroForOne)
    (hfuel : v.room zeroForOne (X.getArrayStartIndex v.poolState.tickCurrent v.spacing) < fuel)
    (hmissing : MissingFrom v zeroForOne (X.getArrayStartIndex v.poolState.tickCurrent v.spacing)
      missing) :
    (∃ nav, v.initTickNavState fuel zeroForOne = .ok nav ∧
      NavStands v zeroForOne v.poolState.tickCurrent nav ∧
        MissingFrom v zeroForOne nav.currentValidTickArrayStartIndex missing ∧
        v.room zeroForOne nav.currentValidTickArrayStartIndex ≤
          v.room zeroForOne (X.getArrayStartIndex v.poolState.tickCurrent v.spacing)) ∨
      (v.initTickNavState fuel zeroForOne = Res.fail .noInitializedTickArray ∧ missing = none ∧
        ∀ t ∈ v.initialisedTicks, ¬ Ahead zeroForOne v.poolState.tickCurrent t) := by
  have hcurrent := arrayStart_current hw
  have hcheck := hw.bitmaps.check hw.current.1 hw.current.2
  have hspan := hw.starts.inSpan v.poolState.tickCurrent
  unfold initTickNavState firstInitializedTickArray
  rw [currentTickArrayIsInitialized_eq, hcheck, Except.ok_bind]
  generalize hstart : X.getArrayStartIndex v.poolState.tickCurrent v.spacing = start at *
  -- whatever is ahead of the current tick lies in its array or further on
  have hat : Stands v zeroForOne v.poolState.tickCurrent start := by
    refine ⟨hcurrent, fun start' t hon hstart' ht => ?_, fun t _ hahead => ?_⟩
    · exact (hw.starts.further hcurrent.isStart hstart' hon hspan ht).ahead
    · rw [← hstart]
      exact not_before_current hw hahead
  cases hmarked : v.marksArray start with
  | true =>
      exact Or.inl ⟨⟨true, start⟩, rfl, ⟨hat, hmarked, nofun, fun _ hne => absurd hstart hne⟩, hmissing,
        Nat.le_refl _⟩
  | false =>
      -- an array without a mark holds no initialised tick, and is not missing
      have hempty : ∀ t ∈ v.initialisedTicks, X.getArrayStartIndex t v.spacing = start →
          ¬ Ahead zeroForOne v.poolState.tickCurrent t := by
        intro t ht hown _
        have hmarks := marked_of_initialised hw ht
        rw [hown, Marked, hmarked] at hmarks
        cases hmarks
      have hnot : v.isMissing start ≠ true := by
        intro h
        have hmarks := (isMissing_eq_true.mp h).1
        rw [Marked, hmarked] at hmarks
        cases hmarks
      simp only [Bool.false_eq_true, if_false]
      rcases hat.movesOn hw hempty hnot hmissing hfuel with ⟨hscanned, hnone, hends⟩ |
        ⟨next, hscanned, hmoves⟩
      · rw [hscanned]
        exact Or.inr ⟨rfl, hnone, hends⟩
      · rw [hscanned]
        refine Or.inl ⟨⟨false, next⟩, rfl, ⟨hmoves.toStands, hmoves.marked, fun _ =>
          ⟨fun heq => ?_, hmoves.ahead⟩, nofun⟩, hmoves.missing, Nat.le_of_lt hmoves.room⟩
        have hself := hmoves.further
        rw [show next = start from heq.symm.trans hstart] at hself
        exact Further.irrefl hself

end ByrealClmmVenue

end ByrealTitan.Clmm
