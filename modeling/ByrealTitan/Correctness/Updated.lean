import ByrealTitan.Correctness.Refresh

/-!
# `Correctness.Updated` — venues that arise, and what a successful refresh leaves

`Built` venues come from a pool account by any number of refreshes; what every refresh keeps of them is
`WellFormed`. `updateState_ok` says what a successful refresh of the Titan venue guarantees: the core was
refreshed from one set of accounts, the metadata is that of its two mints, and the bounds are what the
search found on it.
-/

namespace ByrealTitan.Adapter.ByrealClmmVenue

open Clmm Clmm.ByrealClmmVenue

variable {X : Crates}

/-! ## Venues that arise -/

/-- A venue made from a pool account and refreshed any number of times, successfully or not. -/
inductive Built (X : Crates) : ByrealClmmVenue X → Prop where
  | fromAccount {pubkey : Pubkey} {account : Account} {v : ByrealClmmVenue X} :
      fromAccount X pubkey account = .ok v → Built X v
  | refreshed {v : ByrealClmmVenue X} (fuel : Nat) (cache : AccountsCache) :
      Built X v → Built X (v.updateState fuel cache).2

/-- What the refreshes of the core and the finishing steps keep, a whole refresh keeps. -/
theorem updateState_keeps {I : ByrealClmmVenue X → Prop}
    (hcore : ∀ v accounts, I v → I (v.refreshCore accounts).2)
    (hfinish : ∀ fuel v accounts, I v → I (Steps.runSteps (finishSteps fuel accounts) v).2)
    {v : ByrealClmmVenue X} (h : I v) (fuel : Nat) (cache : AccountsCache) :
    I (v.updateState fuel cache).2 := by
  unfold updateState
  split
  next => exact h
  next accounts _ =>
    refine Steps.andThen_inv (hcore v accounts h) fun w hw => ?_
    unfold updateRest
    split
    next => exact hw
    next accounts' _ =>
      exact Steps.andThen_inv (hcore w accounts' hw) fun u hu => hfinish fuel u accounts' hu

/-- The core's copy of the mints agrees with its pool state. -/
def MintsAgree (core : CoreByrealClmmVenue X) : Prop :=
  core.reserveMints = (core.poolState.tokenMint0, core.poolState.tokenMint1)

/-- The mints agree with the pool, there is metadata for both, and six tick arrays a side are listed. -/
structure WellFormed (v : ByrealClmmVenue X) : Prop where
  mints : MintsAgree v.core
  tokens : v.tokenInfo.length = 2
  sides : v.core.maxOneSideTickArrays = 6

theorem WellFormed.refreshCore {v : ByrealClmmVenue X} (h : WellFormed v) (accounts : AccountMap) :
    WellFormed (v.refreshCore accounts).2 := by
  refine ⟨updateState_inv accounts (I := fun c : CoreByrealClmmVenue X => MintsAgree c) ?_ h.mints,
    h.tokens, (congrArg (fun k => k.2.2) (updateState_keys accounts v.core)).trans h.sides⟩
  intro c c' hc hwrote
  cases hwrote with
  | pool _ _ => rfl
  | _        => exact hc

theorem WellFormed.finish {v : ByrealClmmVenue X} (h : WellFormed v) (fuel : Nat) (accounts : AccountMap) :
    WellFormed (Steps.runSteps (finishSteps fuel accounts) v).2 := by
  refine Steps.runSteps_inv (I := fun w : ByrealClmmVenue X => WellFormed w) ?_ h
  intro step hmem w w' hw hstep
  simp only [finishSteps, List.mem_cons, List.not_mem_nil, or_false] at hmem
  rcases hmem with rfl | rfl | rfl | rfl
  · obtain ⟨clock, -, hv⟩ := Except.bind_eq_ok.mp hstep
    cases hv
    exact ⟨hw.mints, hw.tokens, hw.sides⟩
  · obtain ⟨clock, -, hstep⟩ := Except.bind_eq_ok.mp hstep
    obtain ⟨info, hinfo, hv⟩ := Except.bind_eq_ok.mp hstep
    cases hv
    exact ⟨hw.mints, (Except.mapM_eq_ok hinfo).1, hw.sides⟩
  · obtain ⟨bounds0, -, hstep⟩ := Except.bind_eq_ok.mp hstep
    obtain ⟨bounds1, -, hv⟩ := Except.bind_eq_ok.mp hstep
    cases hv
    exact ⟨hw.mints, hw.tokens, hw.sides⟩
  · cases hstep
    exact ⟨hw.mints, hw.tokens, hw.sides⟩

theorem Built.wellFormed {v : ByrealClmmVenue X} (h : Built X v) : WellFormed v := by
  induction h with
  | fromAccount hnew =>
      obtain ⟨-, -, hnew⟩ := Except.bind_eq_ok.mp hnew
      obtain ⟨core, hcore, hv⟩ := Except.bind_eq_ok.mp hnew
      obtain ⟨pool, -, hc⟩ := Except.bind_eq_ok.mp hcore
      cases hv
      cases hc
      exact ⟨rfl, rfl, rfl⟩
  | refreshed fuel cache _ ih =>
      exact updateState_keeps (I := fun w => WellFormed w) (fun _ accounts h => h.refreshCore accounts)
        (fun fuel _ accounts h => h.finish fuel accounts) ih fuel cache

/-! ## A successful refresh -/

/-- The metadata of a mint is filed under its address. -/
theorem mintInfo_pubkey {accounts : AccountMap} {epoch : Nat} {mint : Pubkey} {decimals : UInt8}
    {info : TokenInfo} (h : mintInfo X accounts epoch mint decimals = .ok info) : info.pubkey = mint := by
  obtain ⟨account, -, h⟩ := Except.bind_eq_ok.mp h
  split at h
  next info' hnew =>
    cases h
    have hkey : info'.pubkey = mint := TokenInfo.new_pubkey hnew
    exact hkey
  next => cases h

/-- **What a successful refresh guarantees** of the venue it leaves. -/
structure Updated (v : ByrealClmmVenue X) : Prop where
  wellFormed : WellFormed v
  initialized : v.initialized = true
  /-- The core was refreshed from one set of accounts. -/
  core : ∃ (before : CoreByrealClmmVenue X) (accounts : AccountMap),
    before.updateState accounts = (.ok (), v.core)
  /-- There is metadata for the first mint, and for the second. -/
  tokens : v.tokenInfo.map TokenInfo.pubkey = [v.core.poolState.tokenMint0, v.core.poolState.tokenMint1]
  /-- The bounds are what the search found, in both directions. -/
  bounds : ∃ fuel bounds0 bounds1, v.boundsCache = (some bounds0, some bounds1) ∧
    findBoundaries (v.quoteForBounds fuel v.core.poolState.tokenMint0 v.core.poolState.tokenMint1) =
      .ok bounds0 ∧
    findBoundaries (v.quoteForBounds fuel v.core.poolState.tokenMint1 v.core.poolState.tokenMint0) =
      .ok bounds1

/-- A map over two elements that succeeds. -/
theorem mapM_pair_eq_ok {ε α β : Type} {f : α → Except ε β} {a a' : α} {bs : List β}
    (h : [a, a'].mapM f = .ok bs) : ∃ b b', f a = .ok b ∧ f a' = .ok b' ∧ bs = [b, b'] := by
  simp only [List.mapM_cons, List.mapM_nil, Except.bind_eq_ok, Except.pure_eq_ok] at h
  obtain ⟨b, hb, bs', ⟨b', hb', _, rfl, rfl⟩, rfl⟩ := h
  exact ⟨b, b', hb, hb', rfl⟩

/-- The finishing steps leave the core alone, and check in turn the mints and the bounds. -/
theorem finish_ok {fuel : Nat} {accounts : AccountMap} {w v : ByrealClmmVenue X}
    (h : Steps.runSteps (finishSteps fuel accounts) w = (.ok (), v)) :
    v.core = w.core ∧ v.initialized = true ∧
      (∃ epoch, (w.core.tokenMints.zip w.core.mintDecimals).mapM
        (fun p => mintInfo X accounts epoch p.1 p.2) = .ok v.tokenInfo) ∧
      ∃ bounds0 bounds1, v.boundsCache = (some bounds0, some bounds1) ∧
        findBoundaries (v.quoteForBounds fuel v.core.poolState.tokenMint0 v.core.poolState.tokenMint1) =
          .ok bounds0 ∧
        findBoundaries (v.quoteForBounds fuel v.core.poolState.tokenMint1 v.core.poolState.tokenMint0) =
          .ok bounds1 := by
  rw [Steps.runSteps_ok] at h
  simp only [finishSteps, List.foldlM_cons, List.foldlM_nil, Except.bind_eq_ok, Except.pure_eq_ok] at h
  obtain ⟨w₁, ⟨clock, hclock, rfl⟩, w₂, ⟨clock', hclock', htokens⟩, w₃, hbounds, w₄, hinit, rfl⟩ := h
  obtain ⟨info, hinfo, hw₂⟩ := Except.bind_eq_ok.mp htokens
  cases hw₂
  obtain ⟨bounds0, h0, hbounds⟩ := Except.bind_eq_ok.mp hbounds
  obtain ⟨bounds1, h1, hw₃⟩ := Except.bind_eq_ok.mp hbounds
  cases hw₃
  cases hinit
  exact ⟨rfl, rfl, ⟨clock'.epoch, hinfo⟩, bounds0, bounds1, rfl, h0, h1⟩

theorem updateState_ok {fuel : Nat} {cache : AccountsCache} {u v : ByrealClmmVenue X} (hu : Built X u)
    (h : u.updateState fuel cache = (.ok (), v)) : Updated v := by
  have hwf : WellFormed v := by
    have hbuilt := Built.refreshed fuel cache hu
    rw [h] at hbuilt
    exact hbuilt.wellFormed
  unfold updateState at h
  split at h
  next => cases h
  next accounts _ =>
    rw [Steps.andThen_ok] at h
    obtain ⟨-, h⟩ := h
    generalize (u.refreshCore accounts).2 = u₁ at h
    unfold updateRest at h
    split at h
    next => cases h
    next accounts' _ =>
      rw [Steps.andThen_ok] at h
      obtain ⟨hsecond, h⟩ := h
      obtain ⟨hcore, hinit, ⟨epoch, hinfo⟩, hbounds⟩ := finish_ok h
      obtain ⟨info0, info1, h0, h1, htokens⟩ := mapM_pair_eq_ok hinfo
      refine ⟨hwf, hinit, ⟨u₁.core, accounts', ?_⟩, ?_, fuel, hbounds⟩
      · rw [hcore]
        exact Prod.ext hsecond rfl
      · rw [htokens, List.map_cons, List.map_cons, List.map_nil, mintInfo_pubkey h0,
          mintInfo_pubkey h1, hcore]

/-! ## The sample venue -/

theorem built_venue : Built Sample.X Sample.venue :=
  @Built.fromAccount Sample.X Sample.market ⟨0, [1], BYREAL_CLMM_PROGRAM_ID⟩ _ rfl

theorem built_refreshed : Built Sample.X Sample.refreshed := .refreshed 100 Sample.goodCache built_venue

theorem refreshed_ok : Sample.venue.updateState 100 Sample.goodCache = (.ok (), Sample.refreshed) := by
  have hfail : (Sample.venue.updateState 100 Sample.goodCache).1.failure? = none := by decide +kernel
  obtain ⟨_, hok⟩ := Except.exists_of_failure? hfail
  rw [Sample.refreshed, ← hok]

theorem refreshed_updated : Updated Sample.refreshed := updateState_ok built_venue refreshed_ok

/-- And that of the second market. -/
theorem secondRefreshed_updated : Updated Sample.secondRefreshed := by
  have hbuilt : Built Sample.X Sample.secondVenue :=
    @Built.fromAccount Sample.X Sample.secondMarket ⟨0, [3], BYREAL_CLMM_PROGRAM_ID⟩ _ rfl
  have hfail : (Sample.secondVenue.updateState 100 Sample.secondCache).1.failure? = none :=
    by decide +kernel
  obtain ⟨_, hok⟩ := Except.exists_of_failure? hfail
  have hupdate : Sample.secondVenue.updateState 100 Sample.secondCache =
      (.ok (), Sample.secondRefreshed) := by
    rw [Sample.secondRefreshed, ← hok]
  exact updateState_ok hbuilt hupdate

end ByrealTitan.Adapter.ByrealClmmVenue
