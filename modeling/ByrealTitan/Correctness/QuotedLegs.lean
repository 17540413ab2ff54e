import ByrealTitan.Correctness.RouteLegs
import ByrealTitan.Correctness.VisitedArrays

/-!
# `Correctness.QuotedLegs` — from a quote to a leg

Quoting and building check a request apart from each other: a quote runs the simulation, the builder
looks at the transfer fees of the mints and at the arrays it lists. `LegOutcome` names the ways a leg of
a quoted request can end; there is no other (`quoted_requests_routed`), and where the quote was full
only a transfer fee is in the way.
-/

namespace ByrealTitan.SwapRoute

open Clmm Clmm.ByrealClmmVenue Adapter Adapter.ByrealClmmVenue

variable {X : Crates} {v : Adapter.ByrealClmmVenue X} {request : QuoteRequest}

/-! ## How a leg ends -/

/-- No mint of the request takes a fee on transfers. -/
def FeeFree (v : Adapter.ByrealClmmVenue X) (request : QuoteRequest) : Prop :=
  ∀ token ∈ v.tokenInfo, token.pubkey = request.inputMint ∨ token.pubkey = request.outputMint →
    token.transferFee = none

/-- How the leg of a request ends: refused for a fee of a mint, refused for want of the array it would
    start in, or built, with the arrays that are loaded of those listed. -/
inductive LegOutcome (v : Adapter.ByrealClmmVenue X) (request : QuoteRequest) (zeroForOne : Bool)
    (titanPda : Pubkey) (fromIdx dest : UInt8) (weight : UInt32) :
    VenueRes (SwapSpecInputV2 × List AccountMeta) → Prop where
  | fee : ¬ FeeFree v request → LegOutcome v request zeroForOne titanPda fromIdx dest weight
      (Res.fail (.unsupportedVenue (.staticStr
        "Token-2022 transfer-fee route mints require route-level gross/net accounting")))
  | missing {first : Pubkey} {others : List Pubkey} : FeeFree v request →
      v.core.getSwapTickArrays zeroForOne = first :: others → v.core.isLoaded first = false →
      LegOutcome v request zeroForOne titanPda fromIdx dest weight
        (Res.fail (.missingState (.string
          ("directional first tick array account missing for swap: " ++ first.toText))))
  | built {first : Pubkey} {others : List Pubkey} {ix : Instruction} {accounts : List AccountMeta}
      {count : UInt8} :
      FeeFree v request → v.core.getSwapTickArrays zeroForOne = first :: others →
      v.core.isLoaded first = true →
      v.generateSwapInstruction request titanPda = .ok ix →
      tickArrayAccounts ix = first :: others.filter v.core.isLoaded →
      accounts = assembleLegAccounts ix titanPda v.programId → count.toNat = accounts.length →
      LegOutcome v request zeroForOne titanPda fromIdx dest weight
        (.ok (⟨.byrealClmm zeroForOne, fromIdx, dest, weight, count⟩, accounts))

/-! ## The check of the fees -/

/-- A list that is checked with one error is refused with it, or passes. -/
theorem forM_require {α : Type} (p : α → Prop) [DecidablePred p] (e : TradingVenueError) (l : List α) :
    ((∀ a ∈ l, p a) ∧ (l.forM fun a => (Res.require (p a) e : VenueRes Unit)) = .ok ()) ∨
      ((¬ ∀ a ∈ l, p a) ∧ (l.forM fun a => (Res.require (p a) e : VenueRes Unit)) = Res.fail e) := by
  induction l with
  | nil =>
      left
      exact ⟨fun a ha => absurd ha List.not_mem_nil, rfl⟩
  | cons a l ih =>
      rw [List.forM_eq_forM] at ih ⊢
      rw [List.forM_cons, List.forall_mem_cons]
      by_cases ha : p a
      · rw [Res.require, if_pos ha]
        rcases ih with ⟨hall, hok⟩ | ⟨hnot, hfail⟩
        · left
          exact ⟨⟨ha, hall⟩, hok⟩
        · right
          exact ⟨fun h => hnot h.2, hfail⟩
      · rw [Res.require, if_neg ha]
        right
        exact ⟨fun h => ha h.1, rfl⟩

/-- The check of the fees passes on mints without one, and fails otherwise. -/
theorem failClosed_cases :
    (FeeFree v request ∧ failClosedForTransferFeeRouteMints v request = .ok ()) ∨
      (¬ FeeFree v request ∧ failClosedForTransferFeeRouteMints v request =
        Res.fail (.unsupportedVenue (.staticStr
          "Token-2022 transfer-fee route mints require route-level gross/net accounting"))) := by
  have hfree : FeeFree v request ↔ ∀ token ∈ v.tokenInfo,
      ¬ ((token.pubkey = request.inputMint ∨ token.pubkey = request.outputMint) ∧
        token.transferFee.isSome) := by
    unfold FeeFree
    refine forall₂_congr fun token _ => ?_
    rw [not_and, Bool.not_eq_true, Option.isSome_eq_false_iff, Option.isNone_iff_eq_none]
  rw [hfree]
  exact forM_require _ _ _

/-! ## The arrays of a direction -/

/-- Every direction lists an array to start in. -/
theorem swapArrays_cons (core : CoreByrealClmmVenue X) (zeroForOne : Bool) :
    ∃ first others, core.getSwapTickArrays zeroForOne = first :: others := by
  unfold ByrealClmmVenue.getSwapTickArrays ByrealClmmVenue.swapStarts
  split
  next start _ => exact ⟨_, _, List.map_cons⟩
  next => exact ⟨_, _, List.map_cons⟩

/-- What is listed behind a loaded array counts where it is loaded; without the first one nothing does. -/
theorem liveArrays_cases {core : CoreByrealClmmVenue X} {zeroForOne : Bool} {first : Pubkey}
    {others : List Pubkey} (h : core.getSwapTickArrays zeroForOne = first :: others) :
    (core.isLoaded first = true ∧
      core.liveDirectionalTickArrays zeroForOne = .ok (first :: others.filter core.isLoaded)) ∨
    (core.isLoaded first = false ∧ core.liveDirectionalTickArrays zeroForOne =
      Res.fail (.missingState (.string ("directional first tick array account missing for swap: " ++
        first.toText)))) := by
  unfold ByrealClmmVenue.liveDirectionalTickArrays
  rw [h, ByrealClmmVenue.keepLive]
  cases hfirst : core.isLoaded first with
  | true =>
      left
      rw [if_pos rfl, List.nil_append, keepLive_of_ne_nil (List.cons_ne_nil first [])]
      exact ⟨rfl, rfl⟩
  | false =>
      right
      exact ⟨rfl, rfl⟩

/-! ## The mints of a quoted request -/

/-- Which mints a request that passes the checks names. -/
inductive Sides (v : Adapter.ByrealClmmVenue X) (input output : Pubkey) : Bool → Prop where
  | down : input = v.core.poolState.tokenMint0 → output = v.core.poolState.tokenMint1 → input ≠ output →
      Sides v input output true
  | up : input = v.core.poolState.tokenMint1 → output = v.core.poolState.tokenMint0 → input ≠ output →
      Sides v input output false

theorem sides_of_accepts {input output : Pubkey} {zeroForOne : Bool} (hmints : MintsAgree v.core)
    (h : v.core.Accepts input output zeroForOne) : Sides v input output zeroForOne := by
  obtain ⟨⟨outputIs0, hvalid⟩, -⟩ := h
  obtain ⟨hdir, hin, hout, hne⟩ := validateMints_eq_ok hvalid
  rw [hmints] at hdir hin hout
  by_cases h0 : input = v.core.poolState.tokenMint0
  · rw [hdir, decide_eq_true h0]
    apply Sides.down h0
    · apply hout.resolve_left
      intro hback
      exact hne (h0.trans hback.symm)
    · exact hne
  · have h1 : input = v.core.poolState.tokenMint1 := hin.resolve_left h0
    rw [hdir, decide_eq_false h0]
    apply Sides.up h1
    · apply hout.resolve_right
      intro hback
      exact hne (h1.trans hback.symm)
    · exact hne

/-- The positions of two different mints. -/
theorem tokenPositions {tokens : List TokenInfo} {mint0 mint1 : Pubkey}
    (htokens : tokens.map TokenInfo.pubkey = [mint0, mint1]) (hne : mint0 ≠ mint1) :
    tokenPosition tokens mint0 = .ok 0 ∧ tokenPosition tokens mint1 = .ok 1 := by
  obtain ⟨t0, tokens, rfl, h0, htokens⟩ := List.map_eq_cons_iff.mp htokens
  obtain ⟨t1, tokens, rfl, h1, htokens⟩ := List.map_eq_cons_iff.mp htokens
  obtain rfl := List.map_eq_nil_iff.mp htokens
  simp only [tokenPosition, Res.orErr_eq_ok, List.findIdx?_cons, h0, h1, decide_eq_false hne]
  exact ⟨rfl, rfl⟩

/-- The flag of the leg is the direction of the quote. -/
theorem protocolToVenue_of_sides {zeroForOne : Bool} (hupdated : Updated v)
    (h : Sides v request.inputMint request.outputMint zeroForOne) :
    protocolToVenue v request = .ok (.byrealClmm zeroForOne) := by
  have hlength : ¬ v.tokenInfo.length < 2 := by
    rw [hupdated.wellFormed.tokens]
    exact Nat.lt_irrefl 2
  unfold protocolToVenue
  show (do
    let inputIndex ← tokenPosition v.getTokenInfo request.inputMint
    let outputIndex ← tokenPosition v.getTokenInfo request.outputMint
    Res.require (¬ (inputIndex = outputIndex ∨ v.getTokenInfo.length < 2))
      (.invalidMint (.pubkey request.inputMint))
    return .byrealClmm (decide (inputIndex = 0 ∧ outputIndex = 1)) : VenueRes Venue) = _
  cases h with
  | down hin hout hne =>
      rw [hin, hout] at hne
      obtain ⟨h0, h1⟩ := tokenPositions hupdated.tokens hne
      rw [hin, hout, getTokenInfo, h0, h1, Except.ok_bind, Except.ok_bind, Res.require,
        if_pos (not_or.mpr ⟨Nat.zero_ne_one, hlength⟩)]
      rfl
  | up hin hout hne =>
      rw [hin, hout] at hne
      obtain ⟨h0, h1⟩ := tokenPositions hupdated.tokens hne.symm
      rw [hin, hout, getTokenInfo, h0, h1, Except.ok_bind, Except.ok_bind, Res.require,
        if_pos (not_or.mpr ⟨Nat.one_ne_zero, hlength⟩)]
      rfl

/-- There is metadata for a mint of the pool. -/
theorem tokenOf_of_mem {mint : Pubkey} (hupdated : Updated v)
    (h : mint = v.core.poolState.tokenMint0 ∨ mint = v.core.poolState.tokenMint1) :
    ∃ info, v.tokenOf mint = .ok info := by
  have hmem : mint ∈ v.tokenInfo.map TokenInfo.pubkey := by
    rw [hupdated.tokens]
    simpa using h
  obtain ⟨token, htoken, hkey⟩ := List.mem_map.mp hmem
  have hfound : (v.tokenInfo.find? fun token => decide (token.pubkey = mint)).isSome := by
    rw [List.find?_isSome]
    exact ⟨token, htoken, decide_eq_true hkey⟩
  obtain ⟨info, hinfo⟩ := Option.isSome_iff_exists.mp hfound
  refine ⟨info, ?_⟩
  rw [tokenOf, hinfo]
  rfl

theorem Sides.tokens {zeroForOne : Bool} (hupdated : Updated v)
    (h : Sides v request.inputMint request.outputMint zeroForOne) :
    (∃ info, v.tokenOf request.inputMint = .ok info) ∧
    ∃ info, v.tokenOf request.outputMint = .ok info := by
  cases h with
  | down hin hout _ => exact ⟨tokenOf_of_mem hupdated (Or.inl hin), tokenOf_of_mem hupdated (Or.inr hout)⟩
  | up hin hout _   => exact ⟨tokenOf_of_mem hupdated (Or.inr hin), tokenOf_of_mem hupdated (Or.inl hout)⟩

/-! ## The leg of a quoted request -/

/-- What the venue generates for a quoted request: an instruction over the arrays that are loaded, or the
    error for the first one. -/
theorem generate_of_accepts {zeroForOne : Bool} (hupdated : Updated v) (hexact : v.Ready request)
    (haccepts : v.core.Accepts request.inputMint request.outputMint zeroForOne) (user : Pubkey)
    {first : Pubkey}
    {others : List Pubkey} (hlisted : v.core.getSwapTickArrays zeroForOne = first :: others) :
    (v.core.isLoaded first = true ∧ ∃ ix, v.generateSwapInstruction request user = .ok ix ∧
      tickArrayAccounts ix = first :: others.filter v.core.isLoaded) ∨
    (v.core.isLoaded first = false ∧ v.generateSwapInstruction request user =
      Res.fail (.missingState (.string ("directional first tick array account missing for swap: " ++
        first.toText)))) := by
  obtain ⟨hinitialized, hswap⟩ := hexact
  obtain ⟨before, accounts, hcore⟩ := hupdated.core
  obtain ⟨-, oracles, horacles⟩ := updateState_loaded hcore
  have hsides := sides_of_accepts hupdated.wellFormed.mints haccepts
  obtain ⟨⟨inputToken, hinput⟩, ⟨outputToken, houtput⟩⟩ := hsides.tokens hupdated
  -- up to the core, nothing is in the way
  let build : SwapBuildRequest := {
    userAuthority := user
    sourceMint := request.inputMint
    destinationMint := request.outputMint
    sourceTokenAccount := inputToken.getAssociatedTokenAddress X user
    destinationTokenAccount := outputToken.getAssociatedTokenAddress X user
    amount := request.amount
    otherAmountThreshold := 0 }
  have hgenerate : v.generateSwapInstruction request user = v.core.buildSwapInstruction build := by
    unfold generateSwapInstruction ensureExactIn
    rw [hinitialized, hswap, hinput, houtput]
    rfl
  rw [hgenerate]
  rcases liveArrays_cases hlisted with ⟨hloaded, hlive⟩ | ⟨hmissing, hlive⟩
  · left
    obtain ⟨ix, hix, haccounts⟩ := @buildSwapInstruction_of_accepts X v.core zeroForOne request build _
      oracles haccepts
      rfl rfl hlive horacles
    exact ⟨hloaded, ix, hix, tickArrayAccounts_eq (oracleAccounts_readonly horacles) haccounts⟩
  · right
    obtain ⟨⟨outputIs0, hmints⟩, hquotable⟩ := haccepts
    obtain ⟨⟨⟩, hopen, -⟩ := Except.bind_eq_ok.mp hquotable
    have hvalid : v.core.validateMints build.sourceMint build.destinationMint =
        .ok (zeroForOne, outputIs0) := hmints
    refine ⟨hmissing, ?_⟩
    unfold ByrealClmmVenue.buildSwapInstruction
    rw [hopen, Except.ok_bind, hvalid, Except.ok_bind]
    simp only
    rw [hlive]
    rfl

theorem length_generated (hupdated : Updated v) {user : Pubkey} {ix : Instruction}
    (h : v.generateSwapInstruction request user = .ok ix) : ix.accounts.length ≤ 22 := by
  unfold generateSwapInstruction at h
  simp only [Except.bind_eq_ok] at h
  obtain ⟨-, -, -, -, _, -, _, -, hcore⟩ := h
  exact length_accounts_le hupdated.wellFormed.sides hcore

theorem legOutcome_of_accepts {zeroForOne : Bool} (hupdated : Updated v) (hexact : v.Ready request)
    (haccepts : v.core.Accepts request.inputMint request.outputMint zeroForOne) (titanPda : Pubkey)
    (fromIdx dest : UInt8) (weight : UInt32) :
    LegOutcome v request zeroForOne titanPda fromIdx dest weight
      (buildSwapLeg v request titanPda fromIdx dest weight) := by
  unfold buildSwapLeg
  rcases @failClosed_cases X v request with ⟨hfree, hcheck⟩ | ⟨hfee, hcheck⟩
  · rw [hcheck, Except.ok_bind]
    obtain ⟨first, others, hlisted⟩ := swapArrays_cons v.core zeroForOne
    rcases generate_of_accepts hupdated hexact haccepts titanPda hlisted with
      ⟨hloaded, ix, hix, harrays⟩ | ⟨hmissing, hfail⟩
    · have hvenue := protocolToVenue_of_sides hupdated
        (sides_of_accepts hupdated.wellFormed.mints haccepts)
      rw [hix, Except.ok_bind, hvenue, Except.ok_bind]
      refine LegOutcome.built hfree hlisted hloaded hix harrays rfl ?_
      -- at most 22 accounts and the program's id: the count is not cut
      have hlength := length_generated hupdated hix
      have hcount : (assembleLegAccounts ix titanPda v.programId).length < 256 := by
        rw [assembleLegAccounts, List.length_append, List.length_map, List.length_singleton]
        omega
      exact UInt8.toNat_ofNat_of_lt' hcount
    · rw [hfail]
      exact LegOutcome.missing hfree hlisted hmissing
  · rw [hcheck]
    exact LegOutcome.fee hfee

/-- **A full quote starts in a loaded array**, the first of those its instruction lists. -/
theorem fullQuote_loaded {core : CoreByrealClmmVenue X} {fuel amount : Nat} {zeroForOne : Bool}
    {upperBound : Option Nat} {quote : CoreQuoteResult}
    (hkeys : ∀ entry ∈ core.dynamicTickArrays, entry.1 ∈ core.getAllTickArrayAddresses)
    (hhome : core.ArraysAtHome) (hagree : core.HelpersAgree) (hamount : amount ≠ 0)
    (hanswer : core.answer fuel zeroForOne amount upperBound = .ok quote)
    (hfull : quote.notEnoughLiquidity = false)
    {first : Pubkey} {others : List Pubkey}
    (hlisted : core.getSwapTickArrays zeroForOne = first :: others) :
    core.isLoaded first = true := by
  obtain ⟨swap, hswap, hall, -, -⟩ := answer_full hamount hanswer hfull
  obtain ⟨isMatch, start, last, hstart, htrail, hloaded⟩ := arraysLookedAt_trail hagree hamount hswap hall
  -- the trail of the simulation and the list begin with what the pool's helper finds first
  have hlist : core.getSwapTickArrays zeroForOne = core.getTickArrayAddress start ::
      (core.followTickArrays zeroForOne (core.maxOneSideTickArrays - 1) start).map
      core.getTickArrayAddress := by
    unfold ByrealClmmVenue.getSwapTickArrays ByrealClmmVenue.swapStarts
    rw [hstart]
    exact List.map_cons
  rw [hlist] at hlisted
  cases hlisted
  exact (hhome.loaded hkeys (hloaded start htrail.head_mem)).2

/-- **The leg of a quoted request**: refused for a transfer fee, refused for want of the array it starts
    in, or built for the direction of the quote, with a count that fits and with the loaded arrays in
    order. After a full quote the array is there, so without transfer fees the leg is built. -/
theorem quoted_requests_routed (hupdated : Updated v) {fuel : Nat} {quote : QuoteResult}
    (hquote : v.quote fuel request = .ok quote) (titanPda : Pubkey) (fromIdx dest : UInt8)
    (weight : UInt32) :
    LegOutcome v request (decide (request.inputMint = v.core.poolState.tokenMint0))
      titanPda fromIdx dest weight
        (buildSwapLeg v request titanPda fromIdx dest weight) ∧
      (v.core.ArraysAtHome → v.core.HelpersAgree → request.amount.toNat ≠ 0 →
        quote.notEnoughLiquidity = false →
        FeeFree v request → ∃ leg, buildSwapLeg v request titanPda fromIdx dest weight = .ok leg) := by
  obtain ⟨hexact, zeroForOne, core, haccepts, hanswer, rfl⟩ := quote_eq_ok.mp hquote
  have hdir : decide (request.inputMint = v.core.poolState.tokenMint0) = zeroForOne := by
    rw [haccepts.eq_decide, hupdated.wellFormed.mints]
  rw [hdir]
  have houtcome := legOutcome_of_accepts hupdated hexact haccepts titanPda fromIdx dest weight
  refine ⟨houtcome, ?_⟩
  intro hhome hagree hamount hfull hfree
  obtain ⟨before, accounts, hcore⟩ := hupdated.core
  have hkeys := (updateState_loaded hcore).1
  generalize buildSwapLeg v request titanPda fromIdx dest weight = leg at houtcome
  cases houtcome with
  | fee hfee => exact absurd hfree hfee
  | missing _ hlisted hmissing =>
      have hloaded := fullQuote_loaded hkeys hhome hagree hamount hanswer hfull hlisted
      rw [hmissing] at hloaded
      cases hloaded
  | built => exact ⟨_, rfl⟩

/-! ## A sale on the sample market -/

section Sample

/-- The sample venue has two arrays loaded, at their addresses, and its helpers find them. -/
theorem sample_venue_arrays :
    let core := Sample.refreshed.core
    core.poolState = Sample.pool ∧
      core.dynamicTickArrays.map (fun entry => (entry.1, entry.2.startTickIndex)) =
        [(core.getTickArrayAddress (-60), -60), (core.getTickArrayAddress 0, 0)] ∧
      (∀ s ∈ core.allStartIndexes,
        (s = -60 ∨ core.getTickArrayAddress (-60) ≠ core.getTickArrayAddress s) ∧
        (s = 0 ∨ core.getTickArrayAddress 0 ≠ core.getTickArrayAddress s)) ∧
      (∀ zeroForOne, (core.firstInitializedTickArray 20 zeroForOne).toOption = some (true, 0)) ∧
      (∀ zeroForOne,
        (core.nextInitializedTickArrayStartIndex 20 0 zeroForOne).toOption =
          some (if zeroForOne then some (-60) else none) ∧
        (core.nextInitializedTickArrayStartIndex 20 (-60) zeroForOne).toOption =
          some (if zeroForOne then none else some 0)) ∧
      FeeFree Sample.refreshed (Sample.requestOf Sample.pool true 1000) ∧
      (Sample.refreshed.quote 30 (Sample.requestOf Sample.pool true 1000)).okAnd
        (!·.notEnoughLiquidity) = true := by
  unfold FeeFree
  decide +kernel

/-- A sale of 1000 base units is quoted in full, and gets its leg. -/
theorem quoted_requests_routed_sample :
    let request := Sample.requestOf Sample.pool true 1000
    LegOutcome Sample.refreshed request (decide (request.inputMint =
      Sample.refreshed.core.poolState.tokenMint0)) (Pubkey.fill 7) 0 1 1000000000
        (buildSwapLeg Sample.refreshed request (Pubkey.fill 7) 0 1 1000000000) ∧
      ∃ leg, buildSwapLeg Sample.refreshed request (Pubkey.fill 7) 0 1 1000000000 = .ok leg := by
  obtain ⟨hpool, harrays, hapart, hfirst, hnext, hfree, hquote⟩ := sample_venue_arrays
  obtain ⟨quote, hok, hfull⟩ := Except.okAnd_eq_true.mp hquote
  obtain ⟨houtcome, hleg⟩ := quoted_requests_routed refreshed_updated hok (Pubkey.fill 7) 0 1 1000000000
  refine ⟨houtcome, hleg ?_ ?_ ?_ ?_ hfree⟩
  · exact sample_arraysAtHome harrays hapart
  · exact sample_helpersAgree hpool (sample_loaded harrays) hfirst hnext
  · decide
  · simpa using hfull

end Sample

end ByrealTitan.SwapRoute
