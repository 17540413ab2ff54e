import ByrealTitan.Correctness.CatchUp

/-!
# `Correctness.OneSnapshot` — refreshing from one snapshot of the chain

A refresh fetches twice, and what it asks for depends on what the venue held before. Against one
snapshot this leaves no trace: both core refreshes take over the same pool state and bitmap extension,
so the second fetch is keyed by the snapshot alone (`updateState_takes`), and everything the venue
answers from is written after it. So two venues of one market end alike (`snapshot_decides_refresh`), a
second refresh changes nothing (`refresh_settles`), and a host may fetch beforehand what the venue lists
(`prefetch_suffices`).
-/

namespace ByrealTitan.Clmm.ByrealClmmVenue

variable {X : Crates} {accounts part : AccountMap} {v w : ByrealClmmVenue X}

/-! ## One core refresh -/

/-- The pool step checks the owner of the account it reads. -/
theorem loadPoolState_poolAccount (hload : v.loadPoolState accounts = .ok w)
    (hgiven : accounts v.marketId ≠ none) :
    PoolAccount X accounts v.marketId v.programId w.poolState ∧
      w = { v with poolState := w.poolState, reserveMints := (w.poolState.tokenMint0,
        w.poolState.tokenMint1) } := by
  obtain ⟨acc, hacc⟩ := Option.ne_none_iff_exists'.mp hgiven
  rw [loadPoolState, hacc] at hload
  simp only [Except.bind_eq_ok, Res.require_eq_ok, orDecodeError_eq_ok, Except.pure_eq_ok] at hload
  obtain ⟨-, howner, pool, hdecode, rfl⟩ := hload
  exact ⟨⟨acc, hacc, howner, hdecode⟩, rfl⟩

/-- **A core refresh takes the market over**: the pool state of the pool account, and the extension under
    its key. Without a clock it fails. -/
theorem updateState_takes (hrun : v.updateState accounts = (.ok (), w))
    (hgiven : accounts v.marketId ≠ none) :
    accounts X.CLOCK_ID ≠ none ∧ PoolAccount X accounts v.marketId v.programId w.poolState ∧
      w.reserveMints = (w.poolState.tokenMint0, w.poolState.tokenMint1) ∧
      w.bitmapExtension = (accounts v.tickArrayBitmapExtensionKey).bind fun acc =>
        (X.decodeBitmapExtension acc.data).toOption := by
  have hsteps := Steps.runSteps_ok.mp hrun
  simp only [updateSteps, List.foldlM_cons, List.foldlM_nil, Except.bind_eq_ok,
    Except.pure_eq_ok] at hsteps
  obtain ⟨v₁, hclock, v₂, hstate, v₃, hconfig, v₄, hvault0, v₅, hvault1, v₆, horacle0, v₇, horacle1, v₈,
    hextension, v₉, harrays, rfl⟩ := hsteps
  have hclockGiven : accounts X.CLOCK_ID ≠ none := by
    intro hnone
    rw [loadClock, hnone] at hclock
    cases hclock
  obtain ⟨ts, rfl⟩ := loadClock_ok hclock
  obtain ⟨hpool, hv₂⟩ := loadPoolState_poolAccount hstate hgiven
  -- the later steps write other fields
  obtain ⟨c, rfl⟩ := loadAmmConfig_ok hconfig
  obtain ⟨n0, program0, -, rfl⟩ := loadVault0_ok hvault0
  obtain ⟨n1, program1, -, rfl⟩ := loadVault1_ok hvault1
  obtain ⟨⟨o0, rfl⟩, -⟩ := loadOracle0_ok horacle0
  obtain ⟨⟨o1, rfl⟩, -⟩ := loadOracle1_ok horacle1
  cases hextension
  cases harrays
  rw [hv₂]
  exact ⟨hclockGiven, hpool, rfl, rfl⟩

/-- A vault that is read from accounts is read from a part of them, as it is or as missing. -/
theorem vaultOf_of_part {key : Pubkey} {name : String} {p : Nat × Pubkey} (hpart : PartOf part accounts)
    (hread : vaultOf X accounts key name = .ok p) :
    ∃ q, vaultOf X part key name = .ok q ∧ (part key ≠ none → q = p) := by
  rcases hpart key with hnone | hsame
  · refine ⟨(0, ZERO_PUBKEY), ?_, fun h => absurd hnone h⟩
    rw [vaultOf, hnone]
  · refine ⟨p, ?_, fun _ => rfl⟩
    rw [vaultOf, hsame]
    exact hread

theorem loadAmmConfig_of_part (hpart : PartOf part accounts) (hload : v.loadAmmConfig accounts = .ok w) :
    ∃ c, v.loadAmmConfig part = .ok { v with ammConfig := c } := by
  rcases hpart v.poolState.ammConfig with hnone | hsame
  · refine ⟨none, ?_⟩
    rw [loadAmmConfig, hnone]
  · obtain ⟨c, rfl⟩ := loadAmmConfig_ok hload
    refine ⟨c, ?_⟩
    rw [loadAmmConfig, hsame]
    exact hload

/-- An oracle that was read is read from a part that has its account. -/
theorem oraclePrice_of_part {key feedId : Pubkey} {token : String} {price : Price}
    (hpart : PartOf part accounts)
    (hread : oraclePrice X accounts key feedId token = .ok price) (hgiven : part key ≠ none) :
    oraclePrice X part key feedId token = .ok price := by
  rw [oraclePrice, hpart.eq hgiven]
  exact hread

/-- Both oracle steps succeed on a part that has the accounts of the dynamic fee. -/
theorem oracles_of_part (hpart : PartOf part accounts) (hfee : ∀ k ∈ v.dynamicFeeAccounts, part k ≠ none)
    {u : ByrealClmmVenue X} (hpool : u.poolState = v.poolState)
    (hprograms : v.isSwapDynamicFeeEnabled = true → u.token0ProgramId = v.token0ProgramId ∧
      u.token1ProgramId = v.token1ProgramId)
    {w₀ w₁ : ByrealClmmVenue X} (horacle0 : v.loadOracle0 accounts = .ok w₀)
    (horacle1 : w₀.loadOracle1 accounts = .ok w₁) :
    ∃ p0 p1, u.loadOracle0 part = .ok { u with token0PythOracleData := p0 } ∧
      loadOracle1 { u with token0PythOracleData := p0 } part =
        .ok { u with token0PythOracleData := p0, token1PythOracleData := p1 } := by
  obtain ⟨⟨o, rfl⟩, hfirst⟩ := loadOracle0_ok horacle0
  obtain ⟨-, hsecond⟩ := loadOracle1_ok horacle1
  have hsame : u.isSwapDynamicFeeEnabled = v.isSwapDynamicFeeEnabled := by
    simp only [isSwapDynamicFeeEnabled, hpool]
  by_cases hdyn : v.isSwapDynamicFeeEnabled = true
  · obtain ⟨hne0, hne1, key0, key1, price0, hkey0, hkey1, hprice0⟩ := hfirst hdyn
    obtain ⟨key1', price1, hkey1', hprice1⟩ := hsecond hdyn
    obtain rfl : key1 = key1' := Option.some.inj (hkey1.symm.trans hkey1')
    obtain ⟨hprogram0, hprogram1⟩ := hprograms hdyn
    have hkey0' : u.token0PythOraclePubkey = some key0 := by
      rw [token0PythOraclePubkey, hpool]
      exact hkey0
    have hkey1'' : u.token1PythOraclePubkey = some key1 := by
      rw [token1PythOraclePubkey, hpool]
      exact hkey1
    have hgiven : ∀ k, v.token0PythOraclePubkey = some k ∨ v.token1PythOraclePubkey = some k →
        part k ≠ none :=
      fun k hk => hfee k (mem_dynamicFeeAccounts.mpr ⟨hdyn, Or.inr (Or.inr hk)⟩)
    have hprice0' : oraclePrice X part key0 u.poolState.token0PythFeedId "token0" = .ok price0 := by
      rw [hpool]
      exact oraclePrice_of_part hpart hprice0 (hgiven key0 (Or.inl hkey0))
    have hprice1' : oraclePrice X part key1 u.poolState.token1PythFeedId "token1" = .ok price1 := by
      rw [hpool]
      exact oraclePrice_of_part hpart hprice1 (hgiven key1 (Or.inr hkey1))
    refine ⟨some price0, some price1, ?_, ?_⟩
    · rw [loadOracle0, if_pos (hsame.trans hdyn)]
      simp only [Except.bind_eq_ok, Res.require_eq_ok, Res.orErr_eq_ok, hprogram0, hprogram1]
      exact ⟨(), ⟨hne0, hne1⟩, key0, hkey0', key1, hkey1'', price0, hprice0', rfl⟩
    · rw [loadOracle1]
      split
      next =>
        simp only [Except.bind_eq_ok, Res.orErr_eq_ok]
        exact ⟨key1, hkey1'', price1, hprice1', rfl⟩
      next hoff => exact absurd (hsame.trans hdyn) hoff
  · have hoff : ¬ u.isSwapDynamicFeeEnabled = true := fun h => hdyn (hsame.symm.trans h)
    refine ⟨none, none, ?_, ?_⟩
    · rw [loadOracle0, if_neg hoff]
    · rw [loadOracle1]
      split
      next hon => exact absurd hon hoff
      next => rfl

/-- **A core refresh that succeeds on accounts succeeds on a part of them** that has the clock, the pool
    and the accounts of its dynamic fee. -/
theorem updateState_of_part (hrun : v.updateState accounts = (.ok (), w)) (hpart : PartOf part accounts)
    (hclock : part X.CLOCK_ID ≠ none) (hpool : part v.marketId ≠ none)
    (hfee : ∀ k ∈ w.dynamicFeeAccounts, part k ≠ none) : ∃ c, v.updateState part = (.ok (), c) := by
  have hsteps := Steps.runSteps_ok.mp hrun
  simp only [updateSteps, List.foldlM_cons, List.foldlM_nil, Except.bind_eq_ok,
    Except.pure_eq_ok] at hsteps
  obtain ⟨v₁, hload, v₂, hstate, v₃, hconfig, v₄, hvault0, v₅, hvault1, v₆, horacle0, v₇, horacle1, v₈,
    hextension, v₉, harrays, rfl⟩ := hsteps
  -- the clock and the pool account are the same
  have hload' : v.loadClock part = .ok v₁ := by
    rw [loadClock, hpart.eq hclock]
    exact hload
  obtain ⟨ts, rfl⟩ := loadClock_ok hload
  have hstate' : loadPoolState { v with currentUnixTimestamp := ts } part = .ok v₂ := by
    rw [loadPoolState, hpart.eq hpool]
    exact hstate
  -- config and vaults may be missing
  obtain ⟨c, hconfig'⟩ := loadAmmConfig_of_part hpart hconfig
  obtain ⟨c₀, rfl⟩ := loadAmmConfig_ok hconfig
  obtain ⟨n0, program0, hread0, rfl⟩ := loadVault0_ok hvault0
  obtain ⟨n1, program1, hread1, rfl⟩ := loadVault1_ok hvault1
  obtain ⟨⟨m0, q0⟩, hread0', hsame0⟩ := vaultOf_of_part hpart hread0
  obtain ⟨⟨m1, q1⟩, hread1', hsame1⟩ := vaultOf_of_part hpart hread1
  have hw : v₉.poolState = v₂.poolState := by
    obtain ⟨⟨o0, rfl⟩, -⟩ := loadOracle0_ok horacle0
    obtain ⟨⟨o1, rfl⟩, -⟩ := loadOracle1_ok horacle1
    cases hextension
    cases harrays
    rfl
  have hfee' : ∀ k ∈ ({ v₂ with
      ammConfig := c₀
      token0VaultAmount := n0
      token0ProgramId := program0
      token1VaultAmount := n1
      token1ProgramId := program1 } : ByrealClmmVenue X).dynamicFeeAccounts, part k ≠ none := by
    intro k hk
    apply hfee k
    rw [mem_dynamicFeeAccounts] at hk ⊢
    simp only [isSwapDynamicFeeEnabled, token0PythOraclePubkey, token1PythOraclePubkey, hw]
    exact hk
  have hvaults : v₂.isSwapDynamicFeeEnabled = true → q0 = program0 ∧ q1 = program1 := by
    intro hdyn
    refine ⟨congrArg Prod.snd (hsame0 ?_), congrArg Prod.snd (hsame1 ?_)⟩
    · exact hfee' _ (mem_dynamicFeeAccounts.mpr ⟨hdyn, Or.inl rfl⟩)
    · exact hfee' _ (mem_dynamicFeeAccounts.mpr ⟨hdyn, Or.inr (Or.inl rfl)⟩)
  obtain ⟨p0, p1, horacle0', horacle1'⟩ := oracles_of_part (u := { v₂ with
      ammConfig := c
      token0VaultAmount := m0
      token0ProgramId := q0
      token1VaultAmount := m1
      token1ProgramId := q1 }) hpart hfee' rfl hvaults horacle0 horacle1
  have hload0 : loadVault0 { v₂ with ammConfig := c } part =
      .ok { v₂ with ammConfig := c, token0VaultAmount := m0, token0ProgramId := q0 } := by
    rw [loadVault0, hread0']
    rfl
  have hload1 : loadVault1 { v₂ with ammConfig := c, token0VaultAmount := m0, token0ProgramId := q0 }
      part = .ok { v₂ with
        ammConfig := c
        token0VaultAmount := m0
        token0ProgramId := q0
        token1VaultAmount := m1
        token1ProgramId := q1 } := by
    rw [loadVault1, hread1']
    rfl
  simp only [updateState, updateSteps, Steps.runSteps, hload', hstate', hconfig', hload0, hload1,
    horacle0', horacle1', loadBitmapExtension, loadTickArrays]
  exact ⟨_, rfl⟩

end ByrealTitan.Clmm.ByrealClmmVenue

namespace ByrealTitan.Adapter.ByrealClmmVenue

open Clmm Clmm.ByrealClmmVenue LittleEndian

variable {X : Crates} {snapshot : AccountMap} {cache cache' : AccountsCache} {fuel : Nat}
  {v w : ByrealClmmVenue X}

/-! ## Both fetches of a refresh -/

/-- What a fetch of these keys gives. -/
def listed (snapshot : AccountMap) (keys : List Pubkey) :
    AccountMap := fun k => if k ∈ keys then snapshot k else none

theorem listed_eq {keys : List Pubkey} {k : Pubkey} (hk : k ∈ keys) :
    listed snapshot keys k = snapshot k := if_pos hk

/-- The second half of a refresh, fetched from one snapshot. -/
def restFrom (fuel : Nat) (snapshot : AccountMap) (v : ByrealClmmVenue X) :
    VenueRes Unit × ByrealClmmVenue X :=
  Steps.andThen (v.refreshCore (listed snapshot v.requiredPubkeysForUpdate))
    (Steps.runSteps (finishSteps fuel (listed snapshot v.requiredPubkeysForUpdate)))

theorem updateRest_served (hserves : Serves cache snapshot) :
    v.updateRest fuel cache = v.restFrom fuel snapshot := by
  rw [updateRest, fetch_served hserves]
  rfl

/-- A refresh from one snapshot is two core refreshes, each with the part of it that was asked for. -/
theorem updateState_served (hserves : Serves cache snapshot) :
    v.updateState fuel cache =
      Steps.andThen (v.refreshCore (listed snapshot v.baseKeys)) fun u => u.restFrom fuel snapshot := by
  rw [updateState, fetch_served hserves]
  simp only [updateRest_served hserves]
  rfl

/-- The keys that are pushed are the ones there were and the mints. -/
theorem mem_foldl_pushUnique_iff {k : Pubkey} (mints : List Pubkey) {keys : List Pubkey} :
    k ∈ mints.foldl pushUnique keys ↔ k ∈ keys ∨ k ∈ mints := by
  induction mints generalizing keys with
  | nil => simp
  | cons mint mints ih =>
      have hpush : k ∈ pushUnique keys mint ↔ k ∈ keys ∨ k = mint := by
        unfold pushUnique
        split
        next hmem =>
          refine ⟨Or.inl, ?_⟩
          rintro (hk | rfl)
          · exact hk
          · exact hmem
        next => rw [List.mem_append, List.mem_singleton]
      rw [List.foldl_cons, ih, hpush, List.mem_cons, or_assoc]

/-- What the first fetch asks for, the list of required keys has. -/
theorem baseKeys_required {k : Pubkey} (hk : k ∈ v.baseKeys) : k ∈ v.requiredPubkeysForUpdate := by
  rw [baseKeys, mem_foldl_pushUnique_iff] at hk
  rw [requiredPubkeysForUpdate, mem_foldl_pushUnique_iff]
  rcases hk with hk | hk
  · apply Or.inl
    simp only [baseAccountsToUpdate, accountsToUpdate, List.mem_append, List.mem_cons, List.not_mem_nil,
      or_false] at hk ⊢
    tauto
  · exact Or.inr hk

/-- The first fetch asks for the bitmap extension and the accounts of the dynamic fee too. -/
theorem mem_baseKeys_core {k : Pubkey} (hk : k ∈ v.core.baseAccountsToUpdate) : k ∈ v.baseKeys :=
  mem_foldl_pushUnique v.core.tokenMints hk

/-! ## The market after a core refresh -/

/-- The core holds the market as the snapshot has it. -/
structure TakenOver (snapshot : AccountMap) (core : CoreByrealClmmVenue X) : Prop where
  pool : ∃ acc, snapshot core.marketId = some acc ∧ X.decodePoolState acc.data = .ok core.poolState
  mints : MintsAgree core
  extension : core.bitmapExtension = (snapshot core.tickArrayBitmapExtensionKey).bind fun acc =>
    (X.decodeBitmapExtension acc.data).toOption

/-- Cores that took over one market are alike in it. -/
theorem TakenOver.sameMarket {c d : CoreByrealClmmVenue X} (hc : TakenOver snapshot c)
    (hd : TakenOver snapshot d) (hkeys : c.keys = d.keys) : SameMarket c d := by
  have hmarket : c.marketId = d.marketId := congrArg Prod.fst hkeys
  have hprogram : c.programId = d.programId := congrArg (fun k => k.2.1) hkeys
  obtain ⟨acc, hacc, hdecode⟩ := hc.pool
  obtain ⟨acc', hacc', hdecode'⟩ := hd.pool
  rw [← hmarket] at hacc'
  obtain rfl := Option.some.inj (hacc.symm.trans hacc')
  have hpool : c.poolState = d.poolState := Except.ok.inj (hdecode.symm.trans hdecode')
  refine ⟨hkeys, hpool, ?_, ?_⟩
  · rw [hc.mints, hd.mints, hpool]
  · rw [hc.extension, hd.extension]
    simp only [tickArrayBitmapExtensionKey, hmarket, hprogram]

/-- A core refresh that was given the market and the extension takes the market over. -/
theorem takenOver_of_listed {core core' : CoreByrealClmmVenue X} {keys : List Pubkey}
    (hrun : core.updateState (listed snapshot keys) = (.ok (), core'))
    (hpool : snapshot core.marketId ≠ none)
    (hmarket : core.marketId ∈ keys) (hext : core.tickArrayBitmapExtensionKey ∈ keys) :
    TakenOver snapshot core' ∧ core'.keys = core.keys := by
  have hgiven : listed snapshot keys core.marketId ≠ none := by
    rw [listed_eq hmarket]
    exact hpool
  obtain ⟨-, ⟨acc, hacc, -, hdecode⟩, hmints, hextension⟩ := updateState_takes hrun hgiven
  rw [listed_eq hmarket] at hacc
  have hkeys := updateState_keys (listed snapshot keys) core
  rw [hrun] at hkeys
  have hmarket' : core'.marketId = core.marketId := congrArg Prod.fst hkeys
  have hprogram' : core'.programId = core.programId := congrArg (fun k => k.2.1) hkeys
  have hextKey : core'.tickArrayBitmapExtensionKey = core.tickArrayBitmapExtensionKey := by
    simp only [tickArrayBitmapExtensionKey, hmarket', hprogram']
  refine ⟨⟨⟨acc, by rw [hmarket']; exact hacc, hdecode⟩, hmints, ?_⟩, hkeys⟩
  rw [hextension, hextKey, listed_eq hext]

theorem refreshCore_eq_ok {accounts : AccountMap} {u : ByrealClmmVenue X} :
    v.refreshCore accounts = (.ok (), u) ↔
      v.core.updateState accounts = (.ok (), u.core) ∧ u = { v with core := u.core } := by
  unfold refreshCore
  constructor
  · intro h
    obtain ⟨hend, hu⟩ := Prod.mk.inj h
    subst hu
    exact ⟨Prod.ext hend rfl, rfl⟩
  · rintro ⟨hcore, hu⟩
    rw [hcore, hu]

/-- The core refresh after the first fetch takes the market over. -/
theorem refreshCore_base {u : ByrealClmmVenue X}
    (hrun : v.refreshCore (listed snapshot v.baseKeys) = (.ok (), u))
    (hpool : snapshot v.core.marketId ≠ none) : TakenOver snapshot u.core ∧ u.core.keys = v.core.keys := by
  obtain ⟨hcore, -⟩ := refreshCore_eq_ok.mp hrun
  apply takenOver_of_listed hcore hpool (mem_baseKeys v).1
  apply mem_baseKeys_core
  simp [baseAccountsToUpdate]

/-- And so does the one after the second fetch. -/
theorem refreshCore_required {u : ByrealClmmVenue X}
    (hrun : v.refreshCore (listed snapshot v.requiredPubkeysForUpdate) = (.ok (), u))
    (hpool : snapshot v.core.marketId ≠ none) : TakenOver snapshot u.core ∧ u.core.keys = v.core.keys := by
  obtain ⟨hcore, -⟩ := refreshCore_eq_ok.mp hrun
  apply takenOver_of_listed hcore hpool (mem_requiredPubkeys v).1
  apply mem_foldl_pushUnique
  simp [accountsToUpdate]

/-! ## The second half of a refresh -/

/-- The finishing steps overwrite everything but the core. -/
theorem finishSteps_chain (fuel : Nat) (accounts : AccountMap) :
    Steps.Chain (fun v w : ByrealClmmVenue X => v.core = w.core) (finishSteps fuel accounts) Eq := by
  refine .cons (S := fun v w => v.core = w.core ∧ v.currentEpoch = w.currentEpoch) ?_ <|
    .cons (S := fun v w => v.core = w.core ∧ v.currentEpoch = w.currentEpoch ∧
      v.tokenInfo = w.tokenInfo) ?_ <|
    .cons (S := fun v w => v.core = w.core ∧ v.currentEpoch = w.currentEpoch ∧ v.tokenInfo = w.tokenInfo ∧
      v.boundsCache = w.boundsCache) ?_ <| .cons ?_ (.nil _)
  · intro v w hcore
    exact Steps.Alike.bind _ fun clock => Steps.Alike.ok ⟨hcore, rfl⟩
  · rintro v w ⟨hcore, hepoch⟩
    refine Steps.Alike.bind _ fun clock => ?_
    simp only [refreshTokenInfo, hcore]
    exact Steps.Alike.bind _ fun info => Steps.Alike.ok ⟨rfl, hepoch, rfl⟩
  · rintro v w ⟨hcore, hepoch, hinfo⟩
    have hquote : v.quoteForBounds fuel = w.quoteForBounds fuel := by
      funext mint mint' amount
      simp only [quoteForBounds, hcore]
    simp only [refreshBoundsCache, hcore, hquote]
    refine Steps.Alike.bind _ fun bounds0 => ?_
    exact Steps.Alike.bind _ fun bounds1 => Steps.Alike.ok ⟨rfl, hepoch, hinfo, rfl⟩
  · rintro v w ⟨hcore, hepoch, hinfo, hbounds⟩
    refine Steps.Alike.ok ?_
    cases v
    cases w
    simp_all

/-- How the second half ends, and on success the venue it leaves, are decided by the market. -/
theorem restFrom_agree (hmarket : SameMarket v.core w.core) :
    (v.restFrom fuel snapshot).1 = (w.restFrom fuel snapshot).1 ∧
      ((v.restFrom fuel snapshot).1 = .ok () → (v.restFrom fuel snapshot).2 =
        (w.restFrom fuel snapshot).2) := by
  have hkeys := hmarket.requiredPubkeys
  obtain ⟨hend, hsame⟩ := updateState_agree (listed snapshot w.requiredPubkeysForUpdate) hmarket.keys
    (.inr ⟨hmarket.pool, hmarket.mints⟩)
  unfold restFrom refreshCore
  rw [hkeys]
  generalize listed snapshot w.requiredPubkeysForUpdate = accounts at hend hsame ⊢
  unfold Steps.andThen
  simp only [hend]
  cases hok : (w.core.updateState accounts).1 with
  | error e => simp
  | ok _ =>
      have hcore := hsame (hend.trans hok)
      rcases Steps.runSteps_agree (finishSteps_chain fuel accounts)
        (s := { v with core := (v.core.updateState accounts).2 })
        (t := { w with core := (w.core.updateState accounts).2 }) hcore with ⟨e, hv, hw⟩ |
          ⟨s, t, hv, hw, rfl⟩
      · simp [hv, hw]
      · simp [hv, hw]

/-! ## A whole refresh -/

/-- The first core refresh of a refresh from this snapshot succeeds. -/
def FirstRefreshed (snapshot : AccountMap) (v : ByrealClmmVenue X) : Prop :=
  (v.refreshCore (listed snapshot v.baseKeys)).1 = .ok ()

theorem FirstRefreshed.exists (h : FirstRefreshed snapshot v) :
    ∃ u, v.refreshCore (listed snapshot v.baseKeys) = (.ok (), u) := Steps.exists_of_ok h

theorem updateState_of_first {u : ByrealClmmVenue X} (hserves : Serves cache snapshot)
    (hfirst : v.refreshCore (listed snapshot v.baseKeys) = (.ok (), u)) :
    v.updateState fuel cache = u.restFrom fuel snapshot := by
  rw [updateState_served hserves, hfirst]
  rfl

/-- **The snapshot decides how a refresh ends.** Two venues of one market, whatever
    refreshes they went through, that get past their first core refresh end alike:
    with the same error, or equal in every field. -/
theorem snapshot_decides_refresh (hv : Built X v) (hw : Built X w) (hmarket : v.marketId = w.marketId)
    (hprogram : v.programId = w.programId) (hserves : Serves cache snapshot)
    (hserves' : Serves cache' snapshot)
    (hpool : snapshot v.marketId ≠ none) (hfirst : FirstRefreshed snapshot v)
    (hfirst' : FirstRefreshed snapshot w) :
    (v.updateState fuel cache).1 = (w.updateState fuel cache').1 ∧
      ((v.updateState fuel cache).1 = .ok () → (v.updateState fuel cache).2 =
        (w.updateState fuel cache').2) := by
  obtain ⟨u, hu⟩ := hfirst.exists
  obtain ⟨u', hu'⟩ := hfirst'.exists
  have hpool' : snapshot w.core.marketId ≠ none := by
    intro hnone
    apply hpool
    rw [hmarket]
    exact hnone
  obtain ⟨htaken, hkeys⟩ := refreshCore_base hu hpool
  obtain ⟨htaken', hkeys'⟩ := refreshCore_base hu' hpool'
  have hcores : v.core.keys = w.core.keys := by
    unfold marketId programId at *
    simp only [Clmm.ByrealClmmVenue.keys, hmarket, hprogram, hv.wellFormed.sides, hw.wellFormed.sides]
  rw [updateState_of_first hserves hu, updateState_of_first hserves' hu']
  apply restFrom_agree
  apply htaken.sameMarket htaken'
  rw [hkeys, hkeys', hcores]

/-- The second half of a refresh takes the market over. -/
theorem restFrom_ok {u r : ByrealClmmVenue X} (hrest : u.restFrom fuel snapshot = (.ok (), r))
    (hpool : snapshot u.core.marketId ≠ none) :
    u.core.updateState (listed snapshot u.requiredPubkeysForUpdate) = (.ok (), r.core) ∧
      TakenOver snapshot r.core ∧ r.core.keys = u.core.keys := by
  obtain ⟨hsecond, hfinish⟩ := Steps.andThen_ok.mp hrest
  obtain ⟨hcore, -⟩ := finish_ok hfinish
  have hrun : u.refreshCore (listed snapshot u.requiredPubkeysForUpdate) =
      (.ok (), (u.refreshCore (listed snapshot u.requiredPubkeysForUpdate)).2) := Prod.ext hsecond rfl
  obtain ⟨htaken, hkeys⟩ := refreshCore_required hrun hpool
  obtain ⟨hupdate, -⟩ := refreshCore_eq_ok.mp hrun
  rw [hcore]
  exact ⟨hupdate, htaken, hkeys⟩

/-- A refreshed venue gets past the first core refresh from the same snapshot. -/
theorem firstRefreshed_again {u r : ByrealClmmVenue X} (htaken : TakenOver snapshot u.core)
    (hrest : u.restFrom fuel snapshot = (.ok (), r)) : FirstRefreshed snapshot r := by
  obtain ⟨acc, hacc, hdecode⟩ := htaken.pool
  have hpool : snapshot u.core.marketId ≠ none := by
    rw [hacc]
    exact Option.some_ne_none acc
  obtain ⟨hsecond, htaken', hkeys⟩ := restFrom_ok hrest hpool
  have hmarket := htaken'.sameMarket htaken hkeys
  have hrequired : r.requiredPubkeysForUpdate = u.requiredPubkeysForUpdate := hmarket.requiredPubkeys
  -- the accounts of the second fetch would refresh the refreshed core too
  obtain ⟨hend, hsame⟩ := updateState_agree (listed snapshot u.requiredPubkeysForUpdate) hkeys.symm
    (.inr ⟨hmarket.pool.symm, hmarket.mints.symm⟩)
  have hagain : r.core.updateState (listed snapshot u.requiredPubkeysForUpdate) = (.ok (), r.core) := by
    rw [hsecond] at hend hsame
    exact Prod.ext hend.symm (hsame rfl).symm
  have hpart : PartOf (listed snapshot r.baseKeys) (listed snapshot u.requiredPubkeysForUpdate) := by
    intro k
    by_cases hk : k ∈ r.baseKeys
    · apply Or.inr
      rw [listed_eq hk, listed_eq (hrequired ▸ baseKeys_required hk)]
    · exact Or.inl (if_neg hk)
  -- and the first fetch has everything of them that it cannot do without
  have hgiven : ∀ k ∈ r.baseKeys, listed snapshot u.requiredPubkeysForUpdate k ≠ none →
      listed snapshot r.baseKeys k ≠ none := by
    intro k hk hne
    rw [listed_eq (hrequired ▸ baseKeys_required hk)] at hne
    rw [listed_eq hk]
    exact hne
  have hmarketKey : r.core.marketId ∈ r.baseKeys := (mem_baseKeys r).1
  have hpool' : listed snapshot u.requiredPubkeysForUpdate r.core.marketId ≠ none := by
    have hsameId : r.core.marketId = u.core.marketId := congrArg Prod.fst hkeys
    rw [listed_eq (hrequired ▸ baseKeys_required hmarketKey), hsameId]
    exact hpool
  obtain ⟨hclock, hpoolAccount, -, -⟩ := updateState_takes hagain hpool'
  have hfee : ∀ k ∈ r.core.dynamicFeeAccounts, listed snapshot r.baseKeys k ≠ none := by
    intro k hk
    refine hgiven k (mem_baseKeys_core ?_) (updateState_given hpoolAccount hagain k hk)
    simp [baseAccountsToUpdate, hk]
  obtain ⟨c, hc⟩ := updateState_of_part hagain hpart (hgiven _ (mem_baseKeys r).2 hclock)
    (hgiven _ hmarketKey hpool') hfee
  exact congrArg Prod.fst hc

/-- **A refresh settles.** Once a venue was refreshed from a snapshot, refreshing it from the same
    snapshot again succeeds and changes nothing. -/
theorem refresh_settles {r : ByrealClmmVenue X} (hserves : Serves cache snapshot)
    (hserves' : Serves cache' snapshot)
    (hpool : snapshot v.marketId ≠ none) (hok : v.updateState fuel cache = (.ok (), r)) :
    r.updateState fuel cache' = (.ok (), r) := by
  rw [updateState_served hserves, Steps.andThen_ok] at hok
  obtain ⟨hfirst, hrest⟩ := hok
  obtain ⟨u, hu⟩ := FirstRefreshed.exists hfirst
  rw [hu] at hrest
  obtain ⟨htaken, hkeys⟩ := refreshCore_base hu hpool
  have hpoolOf : ∀ c : CoreByrealClmmVenue X, c.keys = v.core.keys → snapshot c.marketId ≠ none := by
    intro c hc
    have hsameId : c.marketId = v.core.marketId := congrArg Prod.fst hc
    rw [hsameId]
    exact hpool
  obtain ⟨-, htaken', hkeys'⟩ := restFrom_ok hrest (hpoolOf u.core hkeys)
  obtain ⟨u', hu'⟩ := (firstRefreshed_again htaken hrest).exists
  obtain ⟨htaken'', hkeys''⟩ := refreshCore_base hu' (hpoolOf r.core (hkeys'.trans hkeys))
  -- the second half starts from the same market as before
  have hmarket : SameMarket u.core u'.core := htaken.sameMarket htaken'' (hkeys'.symm.trans hkeys''.symm)
  obtain ⟨hend, hsame⟩ := @restFrom_agree X snapshot fuel u u' hmarket
  rw [updateState_of_first hserves' hu']
  rw [hrest] at hend hsame
  exact Prod.ext hend.symm (hsame rfl).symm

/-! ## Fetching beforehand -/

/-- **What the venue lists may be fetched beforehand.** A cache that has nothing but the accounts the
    venue listed before the refresh serves the refresh as the whole snapshot does, failures included,
    unless the market has moved to where it needs an account of the snapshot that was not listed. -/
theorem prefetch_suffices (hserves : Serves cache snapshot)
    (hprefetched : Serves cache' (listed snapshot v.requiredPubkeysForUpdate))
    (hlisted : ∀ u, v.refreshCore (listed snapshot v.baseKeys) = (.ok (), u) →
      ∀ k ∈ u.requiredPubkeysForUpdate, snapshot k ≠ none → k ∈ v.requiredPubkeysForUpdate) :
    v.updateState fuel cache' = v.updateState fuel cache := by
  have hbase : listed (listed snapshot v.requiredPubkeysForUpdate) v.baseKeys = listed snapshot
      v.baseKeys := by
    funext k
    by_cases hk : k ∈ v.baseKeys
    · rw [listed_eq hk, listed_eq hk, listed_eq (baseKeys_required hk)]
    · rw [listed, if_neg hk, listed, if_neg hk]
  rw [updateState_served hserves, updateState_served hprefetched, hbase]
  cases hend : (v.refreshCore (listed snapshot v.baseKeys)).1 with
  | error e => simp only [Steps.andThen, hend]
  | ok _ =>
      obtain ⟨u, hu⟩ := FirstRefreshed.exists hend
      -- what was not listed is not on the chain either
      have hrequired : listed (listed snapshot v.requiredPubkeysForUpdate) u.requiredPubkeysForUpdate =
          listed snapshot u.requiredPubkeysForUpdate := by
        funext k
        by_cases hk : k ∈ u.requiredPubkeysForUpdate
        · rw [listed_eq hk, listed_eq hk]
          by_cases hin : k ∈ v.requiredPubkeysForUpdate
          · exact listed_eq hin
          · have hnone : snapshot k = none := by
              by_contra hsome
              exact hin (hlisted u hu k hk hsome)
            rw [listed, if_neg hin, hnone]
        · rw [listed, if_neg hk, listed, if_neg hk]
      rw [hu]
      show u.restFrom fuel (listed snapshot v.requiredPubkeysForUpdate) = u.restFrom fuel snapshot
      rw [restFrom, restFrom, hrequired]

/-! ## Samples -/

section Sample

/-- The sample pool as another venue has seen it, after a swap. -/
def movedVenue : ByrealClmmVenue Sample.X where
  core := Sample.fresh Sample.movedPool
  tokenInfo := baseTokenInfo (Sample.fresh Sample.movedPool)
  initialized := false
  currentEpoch := 0
  boundsCache := (none, none)

theorem built_movedVenue : Built Sample.X movedVenue :=
  @Built.fromAccount Sample.X Sample.market ⟨0, [2], BYREAL_CLMM_PROGRAM_ID⟩ _ rfl

theorem firstRefreshed_sample {v : ByrealClmmVenue Sample.X} {snapshot : AccountMap}
    (h : (v.refreshCore (listed snapshot v.baseKeys)).1.failure? = none) : FirstRefreshed snapshot v := by
  obtain ⟨_, hok⟩ := Except.exists_of_failure? h
  exact hok

/-- A venue refreshed before and one that never was, made from different states of the pool, end alike. -/
theorem snapshot_decides_refresh_sample :
    (Sample.refreshed.updateState 100 Sample.goodCache).1 =
    (movedVenue.updateState 100 Sample.goodCache).1 ∧
      ((Sample.refreshed.updateState 100 Sample.goodCache).1 = .ok () →
        (Sample.refreshed.updateState 100 Sample.goodCache).2 =
        (movedVenue.updateState 100 Sample.goodCache).2) :=
  snapshot_decides_refresh built_refreshed built_movedVenue (by decide +kernel) (by decide +kernel)
    (serves_cacheOf _) (serves_cacheOf _) (by decide +kernel) (firstRefreshed_sample (by decide +kernel))
    (firstRefreshed_sample (by decide +kernel))

/-- The sample venue, refreshed twice. -/
theorem refresh_settles_sample :
    Sample.refreshed.updateState 100 Sample.goodCache = (.ok (), Sample.refreshed) := by
  apply refresh_settles (v := Sample.venue) (serves_cacheOf _) (serves_cacheOf _) _ refreshed_ok
  decide +kernel

/-- The pool moved inside the two listed arrays. -/
theorem prefetch_suffices_sample :
    let snapshot := Sample.accounts 2 (leBytes 8 90) (leBytes 8 2500)
    Sample.refreshed.updateState 100 (Sample.cacheOf
      (listed snapshot Sample.refreshed.requiredPubkeysForUpdate)) =
      Sample.refreshed.updateState 100 (Sample.cacheOf snapshot) := by
  intro snapshot
  apply prefetch_suffices (serves_cacheOf _) (serves_cacheOf _)
  intro u hu
  have hu' : u = (Sample.refreshed.refreshCore (listed snapshot Sample.refreshed.baseKeys)).2 :=
    (congrArg Prod.snd hu).symm
  rw [hu']
  decide +kernel

end Sample

end ByrealTitan.Adapter.ByrealClmmVenue
