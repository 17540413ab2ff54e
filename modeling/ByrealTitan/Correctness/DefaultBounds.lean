import ByrealTitan.Correctness.Life
import ByrealTitan.Correctness.QuoteTotal
import ByrealTitan.Correctness.QuotedRange

/-!
# `Correctness.DefaultBounds` — the cached bounds and the trait's own search

The trait's `bounds` searches `quote` whenever it is asked; the venue searches the core once, in
`update_state`, and hands out what it found. Where the fee is fixed both are the same: a probe only
looks at the fill, which the upper bound of the price does not change (`probe_eq`), and more turns
change no search (`findBoundaries_below`). What the search found also shows that the venue can be quoted
at all, with an empty request among others.
-/

namespace ByrealTitan

open Res

/-! ## More turns for the probes -/

variable {f g : Nat → VenueRes QuoteResult}

theorem probe_below {x : Nat} (h : (f x).Below (g x)) : (probe f x).Below (probe g x) := by
  intro hends
  unfold probe at hends ⊢
  have hf : f x ≠ .error .diverge := by
    intro hdiverge
    rw [hdiverge] at hends
    exact hends rfl
  rw [h hf]

theorem expandLower_below (h : ∀ x, (probe f x).Below (probe g x)) (fuel low high : Nat) :
    (expandLower f fuel low high).Below (expandLower g fuel low high) := by
  induction fuel generalizing low high with
  | zero => exact .refl _
  | succ fuel ih =>
      rw [expandLower, expandLower]
      refine (h high).bind fun valid => ?_
      split
      · exact .refl _
      · split
        · exact .refl _
        · exact ih _ _

theorem expandUpper_below (h : ∀ x, (probe f x).Below (probe g x)) (fuel low high : Nat) :
    (expandUpper f fuel low high).Below (expandUpper g fuel low high) := by
  induction fuel generalizing low high with
  | zero => exact .refl _
  | succ fuel ih =>
      rw [expandUpper, expandUpper]
      refine (h high).bind fun valid => ?_
      split
      · split
        · exact .refl _
        · exact ih _ _
      · exact .refl _

theorem refineLower_below (h : ∀ x, (probe f x).Below (probe g x)) (fuel low high : Nat) :
    (refineLower f fuel low high).Below (refineLower g fuel low high) := by
  induction fuel generalizing low high with
  | zero => exact .refl _
  | succ fuel ih =>
      rw [refineLower, refineLower]
      refine (Below.refl _).bind fun gap => ?_
      split
      · refine (h _).bind fun valid => ?_
        split
        · exact ih _ _
        · exact ih _ _
      · exact .refl _

theorem refineUpper_below (h : ∀ x, (probe f x).Below (probe g x)) (fuel low high : Nat) :
    (refineUpper f fuel low high).Below (refineUpper g fuel low high) := by
  induction fuel generalizing low high with
  | zero => exact .refl _
  | succ fuel ih =>
      rw [refineUpper, refineUpper]
      refine (Below.refl _).bind fun gap => ?_
      split
      · refine (h _).bind fun valid => ?_
        split
        · exact ih _ _
        · exact ih _ _
      · exact .refl _

/-- **A search whose probes are not cut short** comes to the same with more turns for them. -/
theorem findBoundaries_below (h : ∀ x, (probe f x).Below (probe g x)) :
    (findBoundaries f).Below (findBoundaries g) := by
  unfold findBoundaries findBoundariesCoarse
  refine ((expandLower_below h _ _ _).bind fun lower => ?_).bind fun coarse => ?_
  · simp only
    split
    · exact .refl _
    · exact (expandUpper_below h _ _ _).bind fun _ => .refl _
  · exact (Below.refl _).bind fun _ => (Below.refl _).bind fun _ =>
      (refineLower_below h _ _ _).bind fun _ => (refineUpper_below h _ _ _).bind fun _ => .refl _

namespace Adapter.ByrealClmmVenue

open Clmm Clmm.ByrealClmmVenue

variable {X : Crates} {u v : ByrealClmmVenue X} {fuel fuel' : Nat} {cache : AccountsCache}
  {inputMint outputMint : Pubkey}

/-! ## One probe -/

/-- Without a dynamic fee the upper bound of the price does not matter. -/
theorem quoteWithPriceUpperBound_static (hstatic : v.core.isSwapDynamicFeeEnabled = false)
    (request : QuoteRequest) (upperBound : Option Nat) :
    v.core.quoteWithPriceUpperBound fuel request upperBound = v.core.quoteWithPriceUpperBound fuel
      request none := by
  unfold Clmm.ByrealClmmVenue.quoteWithPriceUpperBound quoteSwap
  simp only [actualCurvePrice_static hstatic]

/-- A probe of the venue is one of the core. -/
theorem probe_eq (hinit : v.initialized = true) (hstatic : v.core.isSwapDynamicFeeEnabled = false)
    (x : Nat) :
    probe ((v.asTradingVenue fuel).quoteExactIn inputMint outputMint) x =
      probe (v.quoteForBounds fuel inputMint outputMint) x := by
  show probe (fun x => v.quote fuel ⟨inputMint, outputMint, UInt64.ofNat x, .exactIn⟩) x = _
  unfold probe Adapter.ByrealClmmVenue.quote quoteForBounds Clmm.ByrealClmmVenue.quote
    ensureExactIn Res.require
  simp only [quoteWithPriceUpperBound_static hstatic, if_pos hinit, if_true, Except.ok_bind]
  cases v.core.quoteWithPriceUpperBound fuel ⟨inputMint, outputMint, UInt64.ofNat x, .exactIn⟩ none with
  | ok core => rfl
  | error fault => rfl

/-- What the search of the core found, the default search finds with no fewer turns. -/
theorem findBoundaries_default (hinit : v.initialized = true)
    (hstatic : v.core.isSwapDynamicFeeEnabled = false) (hle : fuel ≤ fuel') {found : Nat × Nat}
    (h : findBoundaries (v.quoteForBounds fuel inputMint outputMint) = .ok found) :
    findBoundaries ((v.asTradingVenue fuel').quoteExactIn inputMint outputMint) = .ok found := by
  have hprobe : ∀ x, (probe (v.quoteForBounds fuel inputMint outputMint) x).Below
      (probe ((v.asTradingVenue fuel').quoteExactIn inputMint outputMint) x) := by
    intro x
    rw [probe_eq hinit hstatic]
    apply probe_below
    exact (quoteWithPriceUpperBound_below hle _ _).bind fun _ => .refl _
  exact (findBoundaries_below hprobe).of_ok h

/-! ## The tokens of an updated venue -/

theorem Updated.tokenPair (h : Updated v) :
    ∃ info0 info1, v.tokenInfo = [info0, info1] ∧ info0.pubkey = v.core.poolState.tokenMint0 ∧
      info1.pubkey = v.core.poolState.tokenMint1 := by
  have hkeys := h.tokens
  obtain ⟨info0, info1, htokens⟩ := List.length_eq_two.mp h.wellFormed.tokens
  rw [htokens] at hkeys
  simp only [List.map_cons, List.map_nil, List.cons.injEq] at hkeys
  exact ⟨info0, info1, htokens, hkeys.1, hkeys.2.1⟩

/-- There is no third token. -/
theorem Updated.getToken_out (h : Updated v) {i : UInt8} (hi : ¬ i.toNat < 2) :
    v.getToken i.toNat = Res.fail (.tokenInfoIndexError i.toNat) := by
  unfold getToken getTokenInfo
  rw [List.getElem?_eq_none (by rw [h.wellFormed.tokens]; omega)]
  rfl

theorem Updated.getToken_in (h : Updated v) {i : UInt8} (hi : i.toNat < 2) :
    ∃ info, v.getToken i.toNat = .ok info := by
  unfold getToken getTokenInfo
  exact ⟨_, Res.orErr_eq_ok.mpr (List.getElem?_eq_getElem (by rw [h.wellFormed.tokens]; exact hi))⟩

/-- A mint is never quoted against itself. -/
theorem Accepts.mints_ne {core : CoreByrealClmmVenue X} {input output : Pubkey} {zeroForOne : Bool}
    (h : core.Accepts input output zeroForOne) : input ≠ output := by
  obtain ⟨⟨_, h⟩, -⟩ := h
  simp only [validateMints, Except.bind_eq_ok, Res.require_eq_ok] at h
  obtain ⟨_, -, _, -, _, hne, -⟩ := h
  exact hne

/-! ## All pairs of indices -/

/-- **The cached bounds are those of the trait's default method.** After a successful refresh of a pool
    with a fixed fee, every pair of different indices is answered, or refused with the same error, as the
    default search over the venue's own quotes would; and neither answers for a token against itself. -/
theorem bounds_as_default (hbuilt : Built X u) (hupdate : u.updateState fuel cache = (.ok (), v))
    (hstatic : v.core.isSwapDynamicFeeEnabled = false) :
    ∃ N, ∀ fuel', N ≤ fuel' →
      (∀ i j, i ≠ j → v.bounds i j = (v.asTradingVenue fuel').bounds i j) ∧
      ∀ i found, v.bounds i i ≠ .ok found ∧ (v.asTradingVenue fuel').bounds i i ≠ .ok found := by
  have hupdated := updateState_ok hbuilt hupdate
  obtain ⟨info0, info1, htokens, hmint0, hmint1⟩ := hupdated.tokenPair
  obtain ⟨N, bounds0, bounds1, hcache, h0, h1⟩ := hupdated.bounds
  have hinit := hupdated.initialized
  refine ⟨N, fun fuel' hle => ⟨fun i j hne => ?_, fun i found => ⟨?_, ?_⟩⟩⟩
  · by_cases hpair : (i = 0 ∧ j = 1) ∨ (i = 1 ∧ j = 0)
    · rcases hpair with ⟨rfl, rfl⟩ | ⟨rfl, rfl⟩
      · have hdefault := findBoundaries_default hinit hstatic hle h0
        rw [← hmint0, ← hmint1] at hdefault
        unfold bounds TradingVenue.bounds TradingVenue.getToken asTradingVenue getTokenInfo at *
        rw [htokens, hcache]
        exact hdefault.symm
      · have hdefault := findBoundaries_default hinit hstatic hle h1
        rw [← hmint0, ← hmint1] at hdefault
        unfold bounds TradingVenue.bounds TradingVenue.getToken asTradingVenue getTokenInfo at *
        rw [htokens, hcache]
        exact hdefault.symm
    · -- an index is out of range, and both report the first such one
      have hout : ¬ i.toNat < 2 ∨ (i.toNat < 2 ∧ ¬ j.toNat < 2) := by
        have hnot := mt two_directions.mp hpair
        by_cases hi : i.toNat < 2
        · exact Or.inr ⟨hi, fun hj => hnot ⟨hne, hi, hj⟩⟩
        · exact Or.inl hi
      rw [not_or] at hpair
      unfold bounds
      rw [if_neg hpair.1, if_neg hpair.2]
      show _ = (v.getToken i.toNat >>= fun input => v.getToken j.toNat >>= fun output => _)
      rcases hout with hi | ⟨hi, hj⟩
      · rw [hupdated.getToken_out hi]
        rfl
      · obtain ⟨info, hinfo⟩ := hupdated.getToken_in hi
        rw [hinfo, hupdated.getToken_out hj]
        rfl
  · intro hfound
    unfold bounds at hfound
    rw [if_neg (by rintro ⟨rfl, h⟩; cases h), if_neg (by rintro ⟨rfl, h⟩; cases h)] at hfound
    obtain ⟨_, -, hfound⟩ := Except.bind_eq_ok.mp hfound
    obtain ⟨_, -, hfound⟩ := Except.bind_eq_ok.mp hfound
    cases hfound
  · intro hfound
    obtain ⟨input, hinput, hfound⟩ := Except.bind_eq_ok.mp hfound
    obtain ⟨output, houtput, hfound⟩ := Except.bind_eq_ok.mp hfound
    obtain rfl := Except.ok.inj (hinput.symm.trans houtput)
    have hbounds := findBoundaries_ok hfound
    have hvalid := hbounds.valid_lo
    unfold Valid at hvalid
    rw [probe_eq hinit hstatic] at hvalid
    obtain ⟨zeroForOne, out, haccepts, -⟩ := fills_of_valid
      (Nat.le_trans hbounds.le hbounds.le_max) hvalid
    exact Accepts.mints_ne haccepts rfl

/-! ## Empty requests -/

/-- **An empty request is always answered.** After a successful refresh of a pool with a fixed fee, whose
    price converts, a request for nothing quotes nothing for nothing in both directions, with the
    liquidity not found wanting, however few turns the loops are given. -/
theorem zero_amounts_quoted (hbuilt : Built X u) (hupdate : u.updateState fuel cache = (.ok (), v))
    (hbase : BaseFeeLaw v.core) (hstatic : v.core.isSwapDynamicFeeEnabled = false)
    (hprice : ∃ price, X.priceFromSqrtPriceX64 v.core.poolState.sqrtPriceX64 = .ok price)
    (hmints : v.boundsForMints inputMint outputMint ≠ none) (fuel' : Nat) :
    ∃ quote, v.quote fuel' (exactIn inputMint outputMint 0) = .ok quote ∧ quote.amount = 0 ∧
      quote.expectedOutput = 0 ∧ quote.notEnoughLiquidity = false := by
  have hupdated := updateState_ok hbuilt hupdate
  -- the bounds that were found show that the fee can be computed
  obtain ⟨⟨lo, hi⟩, hstored⟩ := Option.ne_none_iff_exists'.mp hmints
  obtain ⟨fuel₀, hsearch⟩ := hupdated.stored hstored
  have hbounds := findBoundaries_ok hsearch
  obtain ⟨zeroForOne, out, haccepts, -, ⟨swap, hswap, -⟩, -⟩ :=
    fills_of_valid hbounds.le_max hbounds.valid_hi
  obtain ⟨feeRate, nav, state, hrate, -, -, -, -⟩ := computeSwap_eq_ok.mp hswap
  rw [computeTradeFeeRate_static hstatic zeroForOne hi 0] at hrate
  have hle : feeRate ≤ X.FEE_RATE_DENOMINATOR_VALUE := computeTradeFeeRate_static_le hbase hstatic hrate
  obtain ⟨price, hmarginal⟩ : ∃ price, marginalPriceFromSwapState X zeroForOne
      v.core.poolState.sqrtPriceX64 feeRate = .ok price := marginalPrice_ok hprice hle
  have hanswer : ∃ core, v.core.answer fuel' zeroForOne 0 (v.upperBoundFor inputMint outputMint) =
      .ok core := by
    unfold answer quoteZero
    rw [if_pos rfl, hrate]
    simp only [orMathError, Except.ok_bind, hmarginal]
    exact ⟨_, rfl⟩
  obtain ⟨core, hcore⟩ := hanswer
  have hzero : v.core.quoteZero zeroForOne = .ok core := hcore
  obtain ⟨hin, hout, hflag⟩ := quoteZero_amounts hzero
  exact ⟨_, quote_eq_ok.mpr ⟨⟨hupdated.initialized, rfl⟩, zeroForOne, core, haccepts, hcore, rfl⟩,
    hin, hout, hflag⟩

/-! ## The sample venue -/

section Sample

/-- The sample market: the bounds of its first refresh are the default ones,
    for the pairs 0, 1 and 1, 0 as for 0, 7. -/
theorem bounds_as_default_sample :
    ∃ N, ∀ fuel, N ≤ fuel →
      (∀ i j, i ≠ j → Sample.refreshed.bounds i j = (Sample.refreshed.asTradingVenue fuel).bounds i j) ∧
      ∀ i found, Sample.refreshed.bounds i i ≠ .ok found ∧
        (Sample.refreshed.asTradingVenue fuel).bounds i i ≠ .ok found :=
  bounds_as_default built_venue refreshed_ok (by decide +kernel)

theorem zero_amounts_quoted_sample :
    ∃ v : Adapter.ByrealClmmVenue NarrowX, narrowVenue.updateState 100 Sample.goodCache = (.ok (), v) ∧
      ∀ fuel, ∃ quote, v.quote fuel (exactIn (Pubkey.fill 1) (Pubkey.fill 2) 0) = .ok quote ∧
      quote.amount = 0 ∧
        quote.expectedOutput = 0 ∧ quote.notEnoughLiquidity = false := by
  obtain ⟨hfail, hpoolState, hcache, -⟩ := narrowVenue_refreshed
  obtain ⟨⟨⟩, hok⟩ := Except.exists_of_failure? hfail
  generalize hrefreshed : narrowVenue.updateState 100 Sample.goodCache = r at *
  obtain ⟨result, v⟩ := r
  simp only at hpoolState hcache hok
  subst hok
  have hbuilt : Built NarrowX narrowVenue :=
    @Built.fromAccount NarrowX Sample.market ⟨0, [1], BYREAL_CLMM_PROGRAM_ID⟩ _ rfl
  refine ⟨v, rfl, fun fuel => zero_amounts_quoted hbuilt hrefreshed (Reference.narrow_baseFee _)
    ?_ ⟨_, rfl⟩ ?_ fuel⟩
  · unfold isSwapDynamicFeeEnabled
    rw [hpoolState]
    decide
  · unfold boundsForMints
    rw [hpoolState, hcache]
    decide

end Sample

end Adapter.ByrealClmmVenue

end ByrealTitan
