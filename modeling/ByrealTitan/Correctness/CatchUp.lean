import ByrealTitan.Correctness.FailedRefresh

/-!
# `Correctness.CatchUp` — whether one refresh catches up with the chain

The first fetch of a refresh is keyed by the pool state the venue holds, and the first core refresh already
checks what the pool state it has just read requires. Against one snapshot of the chain this goes wrong in
one place only: the vaults and oracles of a dynamic fee are demanded at once, and the first fetch has them
only where the pool state that was held asks for the same ones (`refresh_catches_up_iff`). A pool whose
dynamic fee was switched on meanwhile fails its first refresh (`dynamic_fee_not_fetched`).
-/

namespace ByrealTitan.Clmm.ByrealClmmVenue

variable {X : Crates}

/-! ## One core refresh against a part of a snapshot -/

/-- A vault account with the amount it holds, under a token program. -/
def VaultGiven (X : Crates) (snapshot : AccountMap) (key : Pubkey) (name : String) : Prop :=
  ∃ acc amount, snapshot key = some acc ∧ decodeVaultAmount X acc.owner acc.data name = .ok amount ∧
    acc.owner ≠ ZERO_PUBKEY

/-- The snapshot serves everything this pool state requires of the core: the clock, the config, both vaults
    and, with the dynamic fee on, a price of each feed. -/
structure ServesPool (X : Crates) (snapshot : AccountMap) (pool : PoolState) : Prop where
  clock : ∃ clock, DecodesTo (fun a => X.decodeClock a.data) (snapshot X.CLOCK_ID) clock
  config : ∃ config, DecodesTo (fun a => X.decodeAmmConfig a.data) (snapshot pool.ammConfig) config
  vault0 : VaultGiven X snapshot pool.tokenVault0 "token0 vault"
  vault1 : VaultGiven X snapshot pool.tokenVault1 "token1 vault"
  oracles : X.isSwapDynamicFeeEnabled pool = true →
    (∃ price, OracleGives X snapshot pool.token0PythFeedId price) ∧
      ∃ price, OracleGives X snapshot pool.token1PythFeedId price

/-- The pool account of a market: it belongs to the program and decodes to this pool state. -/
def PoolAccount (X : Crates) (snapshot : AccountMap) (marketId programId : Pubkey) (pool : PoolState) :
    Prop :=
  ∃ acc, snapshot marketId = some acc ∧ acc.owner = programId ∧ X.decodePoolState acc.data = .ok pool

/-- Accounts fetched from the snapshot, some perhaps not. -/
def PartOf (accounts snapshot : AccountMap) : Prop := ∀ k, accounts k = none ∨ accounts k = snapshot k

variable {accounts snapshot : AccountMap} {pool : PoolState} {v w : ByrealClmmVenue X}

theorem PartOf.eq {k : Pubkey} (h : PartOf accounts snapshot) (hk : accounts k ≠ none) :
    accounts k = snapshot k := (h k).resolve_left hk

/-- A vault of the snapshot is read as it is, or as missing where it was not fetched. -/
theorem vaultOf_part {key : Pubkey} {name : String} (hpart : PartOf accounts snapshot)
    (hvault : VaultGiven X snapshot key name) :
    ∃ p, vaultOf X accounts key name = .ok p ∧ (accounts key ≠ none → p.2 ≠ ZERO_PUBKEY) := by
  obtain ⟨acc, amount, hacc, hamount, howner⟩ := hvault
  unfold vaultOf
  rcases hpart key with hnone | hsame
  · rw [hnone]
    exact ⟨_, rfl, fun h => absurd rfl h⟩
  · rw [hsame, hacc]
    simp only [hamount, Except.ok_bind]
    exact ⟨_, rfl, fun _ => howner⟩

/-- An oracle that was fetched gives its price. -/
theorem oraclePrice_part {key feedId : Pubkey} {price : Price} {token : String}
    (hpart : PartOf accounts snapshot) (hkey : pythOraclePubkey X feedId = some key)
    (hgiven : accounts key ≠ none) (horacle : OracleGives X snapshot feedId price) :
    oraclePrice X accounts key feedId token = .ok price := by
  obtain ⟨key', acc, hkey', hacc, howner, hprice⟩ := horacle
  obtain rfl := Option.some.inj (hkey.symm.trans hkey')
  exact oraclePrice_eq_ok.mpr ⟨acc, (hpart.eq hgiven).trans hacc, howner, hprice⟩

/-- The keys of the dynamic fee, where it is on. -/
theorem mem_dynamicFeeAccounts {k : Pubkey} :
    k ∈ v.dynamicFeeAccounts ↔ v.isSwapDynamicFeeEnabled = true ∧
      (k = v.poolState.tokenVault0 ∨ k = v.poolState.tokenVault1 ∨ v.token0PythOraclePubkey = some k ∨
        v.token1PythOraclePubkey = some k) := by
  unfold dynamicFeeAccounts
  cases v.isSwapDynamicFeeEnabled with
  | false => simp
  | true => simp [eq_comm]

/-- Both oracle steps succeed where vaults and oracles were fetched. -/
theorem oracles_ok (hpart : PartOf accounts snapshot) (hreq : ServesPool X snapshot v.poolState)
    (hgiven : ∀ k ∈ v.dynamicFeeAccounts, accounts k ≠ none)
    (h0 : accounts v.poolState.tokenVault0 ≠ none → v.token0ProgramId ≠ ZERO_PUBKEY)
    (h1 : accounts v.poolState.tokenVault1 ≠ none → v.token1ProgramId ≠ ZERO_PUBKEY) :
    ∃ p0 p1, v.loadOracle0 accounts = .ok { v with token0PythOracleData := p0 } ∧
      loadOracle1 { v with token0PythOracleData := p0 } accounts =
        .ok { v with token0PythOracleData := p0, token1PythOracleData := p1 } := by
  by_cases hdyn : v.isSwapDynamicFeeEnabled = true
  · obtain ⟨⟨price0, horacle0⟩, price1, horacle1⟩ := hreq.oracles hdyn
    obtain ⟨key0, hkey0⟩ : ∃ key, v.token0PythOraclePubkey = some key :=
      let ⟨key, _, hkey, _⟩ := horacle0
      ⟨key, hkey⟩
    obtain ⟨key1, hkey1⟩ : ∃ key, v.token1PythOraclePubkey = some key :=
      let ⟨key, _, hkey, _⟩ := horacle1
      ⟨key, hkey⟩
    have hfetched : ∀ k, (k = v.poolState.tokenVault0 ∨ k = v.poolState.tokenVault1 ∨
        v.token0PythOraclePubkey = some k ∨ v.token1PythOraclePubkey = some k) → accounts k ≠ none :=
      fun k hk => hgiven k (mem_dynamicFeeAccounts.mpr ⟨hdyn, hk⟩)
    have hprice0 : oraclePrice X accounts key0 v.poolState.token0PythFeedId "token0" = .ok price0 :=
      oraclePrice_part hpart hkey0 (hfetched key0 (Or.inr (Or.inr (Or.inl hkey0)))) horacle0
    have hprice1 : oraclePrice X accounts key1 v.poolState.token1PythFeedId "token1" = .ok price1 :=
      oraclePrice_part hpart hkey1 (hfetched key1 (Or.inr (Or.inr (Or.inr hkey1)))) horacle1
    have hvaults : v.token0ProgramId ≠ ZERO_PUBKEY ∧ v.token1ProgramId ≠ ZERO_PUBKEY :=
      ⟨h0 (hfetched _ (Or.inl rfl)), h1 (hfetched _ (Or.inr (Or.inl rfl)))⟩
    -- both steps read the keys of the venue, which the first one leaves alone
    refine ⟨some price0, some price1, ?_, ?_⟩
    · rw [loadOracle0, if_pos hdyn]
      simp only [Except.bind_eq_ok, Res.require_eq_ok, Res.orErr_eq_ok]
      exact ⟨(), hvaults, key0, hkey0, key1, hkey1, price0, hprice0, rfl⟩
    · rw [loadOracle1]
      split
      next =>
        simp only [Except.bind_eq_ok, Res.orErr_eq_ok]
        exact ⟨key1, hkey1, price1, hprice1, rfl⟩
      next hoff => exact absurd hdyn hoff
  · refine ⟨none, none, ?_, ?_⟩
    · rw [loadOracle0, if_neg hdyn]
    · rw [loadOracle1]
      split
      next hon => exact absurd hon hdyn
      next => rfl

theorem loadClock_part (hpart : PartOf accounts snapshot) (hreq : ServesPool X snapshot pool)
    (hclock : accounts X.CLOCK_ID ≠ none) :
    ∃ ts, v.loadClock accounts = .ok { v with currentUnixTimestamp := ts } := by
  obtain ⟨clock, acc, hacc, hdecode⟩ := hreq.clock
  refine ⟨clock.unixTimestamp, ?_⟩
  rw [loadClock, hpart.eq hclock, hacc]
  simp only [Except.bind_eq_ok, orDecodeError_eq_ok]
  exact ⟨clock, hdecode, rfl⟩

theorem loadPoolState_part (hpool : PoolAccount X accounts v.marketId v.programId pool) :
    v.loadPoolState accounts =
      .ok { v with poolState := pool, reserveMints := (pool.tokenMint0, pool.tokenMint1) } := by
  obtain ⟨acc, hacc, howner, hdecode⟩ := hpool
  unfold loadPoolState
  simp only [hacc, Except.bind_eq_ok, Res.require_eq_ok, orDecodeError_eq_ok]
  exact ⟨(), howner, pool, hdecode, rfl⟩

/-- The config is taken over from the snapshot, or missing where it was not fetched. -/
theorem loadAmmConfig_part (hpart : PartOf accounts snapshot) (hreq : ServesPool X snapshot v.poolState) :
    ∃ c, v.loadAmmConfig accounts = .ok { v with ammConfig := c } := by
  obtain ⟨config, acc, hacc, hdecode⟩ := hreq.config
  unfold loadAmmConfig
  rcases hpart v.poolState.ammConfig with hnone | hsame
  · rw [hnone]
    exact ⟨none, rfl⟩
  · rw [hsame, hacc]
    simp only [Except.bind_eq_ok, orDecodeError_eq_ok]
    exact ⟨some config, config, hdecode, rfl⟩

/-- Both vaults are taken over from the snapshot. A token program is missing only where its vault was not
    fetched. -/
theorem vaults_part (hpart : PartOf accounts snapshot) (hreq : ServesPool X snapshot v.poolState) :
    ∃ n0 program0 n1 program1,
      v.loadVault0 accounts = .ok { v with token0VaultAmount := n0, token0ProgramId := program0 } ∧
      loadVault1 { v with token0VaultAmount := n0, token0ProgramId := program0 } accounts = .ok
        { v with
          token0VaultAmount := n0
          token0ProgramId := program0
          token1VaultAmount := n1
          token1ProgramId := program1 } ∧
      (accounts v.poolState.tokenVault0 ≠ none → program0 ≠ ZERO_PUBKEY) ∧
      (accounts v.poolState.tokenVault1 ≠ none → program1 ≠ ZERO_PUBKEY) := by
  obtain ⟨⟨n0, program0⟩, hvault0, hne0⟩ := vaultOf_part hpart hreq.vault0
  obtain ⟨⟨n1, program1⟩, hvault1, hne1⟩ := vaultOf_part hpart hreq.vault1
  refine ⟨n0, program0, n1, program1, ?_, ?_, hne0, hne1⟩
  · simp only [loadVault0, hvault0, Except.ok_bind]
    rfl
  · simp only [loadVault1, hvault1, Except.ok_bind]
    rfl

/-- **A core refresh succeeds on a part of the snapshot** that has the clock, the pool account and the
    accounts of its dynamic fee, and takes the snapshot's pool state over. -/
theorem updateState_part (hpart : PartOf accounts snapshot) (hreq : ServesPool X snapshot pool)
    (hclock : accounts X.CLOCK_ID ≠ none) (hpool : PoolAccount X accounts v.marketId v.programId pool)
    (hgiven : ∀ k ∈ ({ v with poolState := pool } : ByrealClmmVenue X).dynamicFeeAccounts,
      accounts k ≠ none) :
    ∃ w, v.updateState accounts = (.ok (), w) ∧ w.poolState = pool ∧ w.marketId = v.marketId ∧
      w.programId = v.programId := by
  obtain ⟨ts, hload⟩ := loadClock_part (v := v) hpart hreq hclock
  have hstate := loadPoolState_part (v := { v with currentUnixTimestamp := ts }) hpool
  -- from here on the pool state is the snapshot's
  generalize hv₂ : ({ v with
      currentUnixTimestamp := ts
      poolState := pool
      reserveMints := (pool.tokenMint0, pool.tokenMint1) } : ByrealClmmVenue X) = v₂ at hstate
  have hpool₂ : v₂.poolState = pool := by rw [← hv₂]
  rw [← hpool₂] at hreq
  obtain ⟨config, hconfig⟩ := loadAmmConfig_part hpart hreq
  obtain ⟨n0, program0, n1, program1, hload0, hload1, hne0, hne1⟩ :=
    vaults_part (v := { v₂ with ammConfig := config }) hpart hreq
  obtain ⟨p0, p1, horacle0, horacle1⟩ := oracles_ok (v := { v₂ with
      ammConfig := config
      token0VaultAmount := n0
      token0ProgramId := program0
      token1VaultAmount := n1
      token1ProgramId := program1 }) hpart hreq
    (fun k hk => hgiven k (by rw [← hv₂] at hk; exact hk)) hne0 hne1
  have hrun : ∃ w, v.updateState accounts = (.ok (), w) ∧ w.poolState = pool := by
    simp only [updateState, updateSteps, Steps.runSteps, hload, hstate, hconfig, hload0, hload1, horacle0,
      horacle1, loadBitmapExtension, loadTickArrays]
    exact ⟨_, rfl, hpool₂⟩
  obtain ⟨w, hw, hwpool⟩ := hrun
  have hkeys := updateState_keys accounts v
  rw [hw] at hkeys
  exact ⟨w, hw, hwpool, congrArg Prod.fst hkeys, congrArg (fun k => k.2.1) hkeys⟩

/-- A vault step that left a token program read a vault account. -/
theorem vaultOf_ne_none {key : Pubkey} {name : String} {p : Nat × Pubkey}
    (h : vaultOf X accounts key name = .ok p) (hne : p.2 ≠ ZERO_PUBKEY) : accounts key ≠ none := by
  intro hnone
  unfold vaultOf at h
  rw [hnone] at h
  cases h
  exact hne rfl

/-- An oracle step that succeeded read the account of its feed. -/
theorem oraclePrice_ne_none {key feedId : Pubkey} {token : String} {price : Price}
    (h : oraclePrice X accounts key feedId token = .ok price) : accounts key ≠ none := by
  obtain ⟨acc, hacc, -⟩ := oraclePrice_eq_ok.mp h
  rw [hacc]
  exact Option.some_ne_none acc

/-- Where the pool state that a core refresh reads comes from. -/
theorem updateState_pool (hpool : PoolAccount X accounts v.marketId v.programId pool)
    {v₁ v₂ v₃ : ByrealClmmVenue X}
    (hclock : v.loadClock accounts = .ok v₁) (hstate : v₁.loadPoolState accounts = .ok v₂)
    (hconfig : v₂.loadAmmConfig accounts = .ok v₃) : v₃.poolState = pool := by
  obtain ⟨acc, hacc, -, hdecode⟩ := hpool
  obtain ⟨ts, rfl⟩ := loadClock_ok hclock
  obtain ⟨c, rfl⟩ := loadAmmConfig_ok hconfig
  rcases loadPoolState_ok hstate with ⟨hnone, -⟩ | ⟨acc', pool', hacc', hdecode', rfl⟩
  · rw [hacc] at hnone
    cases hnone
  · obtain rfl := Option.some.inj (hacc.symm.trans hacc')
    exact Except.ok.inj (hdecode'.symm.trans hdecode)

/-- **A core refresh that succeeded was given the accounts of the
    dynamic fee** of the pool state it read. -/
theorem updateState_given (hpool : PoolAccount X accounts v.marketId v.programId pool)
    (hrun : v.updateState accounts = (.ok (), w)) :
    ∀ k ∈ ({ v with poolState := pool } : ByrealClmmVenue X).dynamicFeeAccounts, accounts k ≠ none := by
  have hsteps := Steps.runSteps_ok.mp hrun
  simp only [updateSteps, List.foldlM_cons, Except.bind_eq_ok] at hsteps
  obtain ⟨v₁, hclock, v₂, hstate, v₃, hconfig, v₄, hvault0, v₅, hvault1, v₆, horacle0, v₇,
      horacle1, -⟩ := hsteps
  obtain rfl := updateState_pool hpool hclock hstate hconfig
  obtain ⟨n0, program0, hread0, rfl⟩ := loadVault0_ok hvault0
  obtain ⟨n1, program1, hread1, rfl⟩ := loadVault1_ok hvault1
  obtain ⟨⟨o, rfl⟩, hfirst⟩ := loadOracle0_ok horacle0
  obtain ⟨-, hsecond⟩ := loadOracle1_ok horacle1
  intro k hk
  obtain ⟨hdyn, hk⟩ := mem_dynamicFeeAccounts.mp hk
  obtain ⟨hne0, hne1, key0, key1, price0, hkey0, hkey1, hprice0⟩ := hfirst hdyn
  obtain ⟨key1', price1, hkey1', hprice1⟩ := hsecond hdyn
  rcases hk with rfl | rfl | hk | hk
  · exact vaultOf_ne_none hread0 hne0
  · exact vaultOf_ne_none hread1 hne1
  · obtain rfl := Option.some.inj (hkey0.symm.trans hk)
    exact oraclePrice_ne_none hprice0
  · obtain rfl := Option.some.inj (hkey1'.symm.trans hk)
    exact oraclePrice_ne_none hprice1

end ByrealTitan.Clmm.ByrealClmmVenue

namespace ByrealTitan.Adapter.ByrealClmmVenue

open Clmm Clmm.ByrealClmmVenue LittleEndian

variable {X : Crates}

/-! ## Fetching from one snapshot -/

/-- The cache answers every call from one snapshot. -/
def Serves (cache : AccountsCache) (snapshot : AccountMap) : Prop :=
  ∀ call keys, cache.getAccounts call keys = .ok (keys.map snapshot)

/-- Looking a key up among the pairs of a function finds the function's value. -/
theorem findSome?_pairs (keys : List Pubkey) (snapshot : AccountMap) (k : Pubkey) :
    ((keys.map fun k => (k, snapshot k)).findSome? fun p => if p.1 = k then p.2 else none) =
      if k ∈ keys then snapshot k else none := by
  induction keys with
  | nil => rfl
  | cons k' keys ih =>
      rw [List.map_cons, List.findSome?_cons, ih]
      by_cases heq : k' = k
      · subst heq
        simp only [if_true, List.mem_cons, true_or]
        cases snapshot k' with
        | some acc => rfl
        | none => simp only [ite_self]
      · have hne : k ≠ k' := fun h => heq h.symm
        simp only [heq, if_false, List.mem_cons, hne, false_or]

/-- The map of a fetch from a snapshot: the snapshot on the keys that were asked for. -/
theorem accountMap_zip (keys : List Pubkey) (snapshot : AccountMap) (k : Pubkey) :
    accountMap (keys.zip (keys.map snapshot)) k = if k ∈ keys then snapshot k else none := by
  unfold accountMap
  rw [← List.map_prod_left_eq_zip, ← List.map_reverse, findSome?_pairs]
  simp only [List.mem_reverse]

variable {snapshot : AccountMap} {cache : AccountsCache} {keys : List Pubkey} {call : Nat}

/-- A fetch from a snapshot succeeds, with a part of it. -/
theorem fetch_served (hserves : Serves cache snapshot) :
    fetchAccountMap cache call keys = .ok fun k => if k ∈ keys then snapshot k else none := by
  unfold fetchAccountMap
  rw [hserves call keys]
  exact congrArg Except.ok (funext fun k => accountMap_zip keys snapshot k)

theorem partOf_fetched (keys : List Pubkey) (snapshot : AccountMap) :
    PartOf (fun k => if k ∈ keys then snapshot k else none) snapshot := by
  intro k
  by_cases hk : k ∈ keys
  · exact Or.inr (if_pos hk)
  · exact Or.inl (if_neg hk)

theorem mem_pushUnique {k : Pubkey} (mint : Pubkey) (h : k ∈ keys) : k ∈ pushUnique keys mint := by
  unfold pushUnique
  split
  next => exact h
  next => exact List.mem_append_left _ h

/-- The mints are added to the keys. -/
theorem mem_foldl_pushUnique {k : Pubkey} (mints : List Pubkey) (h : k ∈ keys) :
    k ∈ mints.foldl pushUnique keys := by
  induction mints generalizing keys with
  | nil => exact h
  | cons mint mints ih => exact ih (mem_pushUnique mint h)

/-! ## Both core refreshes of one call -/

/-- Neither of the two core refreshes of `update_state` fails. -/
def CoreRefreshed (v : ByrealClmmVenue X) (cache : AccountsCache) : Prop :=
  ∃ base u update w, fetchAccountMap cache 0 v.baseKeys = .ok base ∧ v.refreshCore base = (.ok (), u) ∧
    fetchAccountMap cache 1 u.requiredPubkeysForUpdate = .ok update ∧ u.refreshCore update = (.ok (), w)

/-- The accounts the dynamic fee of a pool state needs: both vaults and
    both oracles, none with the fee off. -/
def feeAccountsOf (core : CoreByrealClmmVenue X) (pool : PoolState) : List Pubkey :=
  ({ core with poolState := pool } : CoreByrealClmmVenue X).dynamicFeeAccounts

variable {v : ByrealClmmVenue X} {pool : PoolState}

/-- What the first fetch always asks for. -/
theorem mem_baseKeys (v : ByrealClmmVenue X) : v.core.marketId ∈ v.baseKeys ∧ X.CLOCK_ID ∈ v.baseKeys := by
  refine ⟨mem_foldl_pushUnique _ ?_, mem_foldl_pushUnique _ ?_⟩
  · simp [baseAccountsToUpdate]
  · simp [baseAccountsToUpdate]

/-- What the second fetch always asks for. -/
theorem mem_requiredPubkeys (v : ByrealClmmVenue X) :
    v.core.marketId ∈ v.requiredPubkeysForUpdate ∧ X.CLOCK_ID ∈ v.requiredPubkeysForUpdate ∧
      ∀ k ∈ v.core.dynamicFeeAccounts, k ∈ v.requiredPubkeysForUpdate := by
  refine ⟨mem_foldl_pushUnique _ ?_, mem_foldl_pushUnique _ ?_, fun k hk => mem_foldl_pushUnique _ ?_⟩
  · simp [accountsToUpdate]
  · simp [accountsToUpdate]
  · simp [accountsToUpdate, hk]

/-- A key that was asked for, of an account the snapshot has, is fetched. -/
theorem fetched_ne_none {k : Pubkey} (hk : k ∈ keys) (hsnap : snapshot k ≠ none) :
    (if k ∈ keys then snapshot k else none) ≠ none := by
  rw [if_pos hk]
  exact hsnap

/-- The snapshot has every account of the dynamic fee. -/
theorem servesPool_feeAccounts {core : CoreByrealClmmVenue X} (hreq : ServesPool X snapshot pool)
    {k : Pubkey} (hk : k ∈ feeAccountsOf core pool) : snapshot k ≠ none := by
  obtain ⟨hdyn, hk⟩ := mem_dynamicFeeAccounts.mp hk
  obtain ⟨⟨price0, key0, acc0, hkey0, hacc0, -⟩, price1, key1, acc1, hkey1, hacc1, -⟩ := hreq.oracles hdyn
  rcases hk with rfl | rfl | hk | hk
  · obtain ⟨acc, -, hacc, -⟩ := hreq.vault0
    exact fun hnone => Option.some_ne_none acc (hacc.symm.trans hnone)
  · obtain ⟨acc, -, hacc, -⟩ := hreq.vault1
    exact fun hnone => Option.some_ne_none acc (hacc.symm.trans hnone)
  · obtain rfl := Option.some.inj (hkey0.symm.trans hk)
    exact fun hnone => Option.some_ne_none acc0 (hacc0.symm.trans hnone)
  · obtain rfl := Option.some.inj (hkey1.symm.trans hk)
    exact fun hnone => Option.some_ne_none acc1 (hacc1.symm.trans hnone)

/-- What a first refresh that succeeded had fetched. -/
theorem CoreRefreshed.fetched (h : CoreRefreshed v cache) (hserves : Serves cache snapshot)
    (hpool : PoolAccount X snapshot v.core.marketId v.core.programId pool) :
    ∀ k ∈ feeAccountsOf v.core pool, k ∈ v.baseKeys := by
  obtain ⟨base, u, -, -, hbase, hfirst, -⟩ := h
  rw [fetch_served hserves] at hbase
  cases hbase
  have hok : (v.core.updateState fun k => if k ∈ v.baseKeys then snapshot k else none).1 = .ok () :=
    congrArg Prod.fst hfirst
  have hpool' : PoolAccount X (fun k => if k ∈ v.baseKeys then snapshot k else none) v.core.marketId
      v.core.programId pool := by
    obtain ⟨acc, hacc, hrest⟩ := hpool
    exact ⟨acc, by simp only [if_pos (mem_baseKeys v).1]; exact hacc, hrest⟩
  intro k hk
  by_contra hnot
  exact updateState_given hpool' (Prod.ext hok rfl) k hk (if_neg hnot)

/-- **One refresh catches up exactly where the first fetch asks for the accounts of the dynamic fee** that
    the snapshot's pool state has, whatever else has changed since the pool state that was held. -/
theorem refresh_catches_up_iff (hserves : Serves cache snapshot)
    (hpool : PoolAccount X snapshot v.core.marketId v.core.programId pool)
    (hreq : ServesPool X snapshot pool) :
    CoreRefreshed v cache ↔ ∀ k ∈ feeAccountsOf v.core pool, k ∈ v.baseKeys := by
  refine ⟨fun h => h.fetched hserves hpool, fun hkeys => ?_⟩
  have hclock : snapshot X.CLOCK_ID ≠ none := by
    obtain ⟨clock, acc, hacc, -⟩ := hreq.clock
    exact fun hnone => Option.some_ne_none acc (hacc.symm.trans hnone)
  have hfetched : ∀ keys : List Pubkey, v.core.marketId ∈ keys →
      PoolAccount X (fun k => if k ∈ keys then snapshot k else none) v.core.marketId
      v.core.programId pool := by
    intro keys hmem
    obtain ⟨acc, hacc, hrest⟩ := hpool
    exact ⟨acc, by simp only [if_pos hmem]; exact hacc, hrest⟩
  obtain ⟨hmarket, hclockKey⟩ := mem_baseKeys v
  obtain ⟨core, hfirst, hstate, hmarketId, hprogramId⟩ :=
    updateState_part (partOf_fetched v.baseKeys snapshot)
      hreq (fetched_ne_none hclockKey hclock) (hfetched _ hmarket)
      fun k hk => fetched_ne_none (hkeys k hk) (servesPool_feeAccounts hreq hk)
  -- the second fetch is keyed by the pool state the first refresh took over
  obtain ⟨hmarket', hclockKey', hfee⟩ := mem_requiredPubkeys ({ v with core := core } : ByrealClmmVenue X)
  have hpool' : PoolAccount X
      (fun k => if k ∈ ({ v with core := core } : ByrealClmmVenue X).requiredPubkeysForUpdate
        then snapshot k else none) core.marketId core.programId pool := by
    rw [hmarketId, hprogramId]
    rw [hmarketId] at hmarket'
    exact hfetched _ hmarket'
  obtain ⟨core', hsecond, -⟩ := updateState_part (partOf_fetched _ snapshot) hreq
    (fetched_ne_none hclockKey' hclock) hpool' fun k hk => by
      have hk' : k ∈ core.dynamicFeeAccounts := by
        rw [← hstate] at hk
        exact hk
      exact fetched_ne_none (hfee k hk') (servesPool_feeAccounts hreq hk)
  exact ⟨_, { v with core := core }, _, { v with core := core' }, fetch_served hserves,
    by simp only [refreshCore, hfirst], fetch_served hserves, by simp only [refreshCore, hsecond]⟩

/-! ## Samples -/

section Sample

/-- The sample pool after its dynamic fee was switched on. -/
def dynamicPool : PoolState :=
  { Sample.pool with other := [1], token0PythFeedId := Pubkey.fill 30, token1PythFeedId := Pubkey.fill 31 }

/-- Pool accounts are tagged 1 before the switch and 3 after it. -/
abbrev DynamicX : Crates := Reference.crates [([1], Sample.pool), ([3], dynamicPool)]

/-- A venue that holds the pool as it was before the switch. -/
def outdatedVenue : ByrealClmmVenue DynamicX where
  core := Sample.freshOf DynamicX Sample.pool
  tokenInfo := baseTokenInfo (Sample.freshOf DynamicX Sample.pool)
  initialized := false
  currentEpoch := 0
  boundsCache := (none, none)

/-- The market after the switch, with both oracles. -/
def dynamicSnapshot : AccountMap := fun key =>
  ([(getPriceFeedAccountAddress DynamicX 0 (Pubkey.fill 30),
      (⟨0, leBytes 8 5, Pubkey.fill 105⟩ : Account)),
    (getPriceFeedAccountAddress DynamicX 0 (Pubkey.fill 31),
      ⟨0, leBytes 8 7, Pubkey.fill 105⟩)].lookup key).or
    (Sample.accounts 3 (leBytes 8 100) (leBytes 8 2500) key)

theorem serves_cacheOf (snapshot : AccountMap) : Serves (Sample.cacheOf snapshot) snapshot :=
  fun _ _ => rfl

theorem dynamicSnapshot_pool :
    PoolAccount DynamicX dynamicSnapshot Sample.market BYREAL_CLMM_PROGRAM_ID dynamicPool :=
  ⟨⟨0, [3], BYREAL_CLMM_PROGRAM_ID⟩, by decide +kernel, rfl, rfl⟩

theorem dynamicSnapshot_serves : ServesPool DynamicX dynamicSnapshot dynamicPool where
  clock := ⟨_, ⟨0, leBytes 8 100, ZERO_PUBKEY⟩, by decide +kernel, rfl⟩
  config := ⟨_, ⟨0, leBytes 8 2500, BYREAL_CLMM_PROGRAM_ID⟩, by decide +kernel, rfl⟩
  vault0 := ⟨⟨0, leBytes 8 1000000, Pubkey.fill 102⟩, _, by decide +kernel, rfl, by decide⟩
  vault1 := ⟨⟨0, leBytes 8 1000000, Pubkey.fill 102⟩, _, by decide +kernel, rfl, by decide⟩
  oracles _ :=
    ⟨⟨_, _, ⟨0, leBytes 8 5, Pubkey.fill 105⟩, rfl, by decide +kernel, rfl, rfl⟩,
      ⟨_, _, ⟨0, leBytes 8 7, Pubkey.fill 105⟩, rfl, by decide +kernel, rfl, rfl⟩⟩

/-- **A dynamic fee that was switched on meanwhile is not caught up with**: the snapshot serves everything,
    and the first core refresh fails, since the old pool state did not ask for the vaults. -/
theorem dynamic_fee_not_fetched :
    Serves (Sample.cacheOf dynamicSnapshot) dynamicSnapshot ∧
      PoolAccount DynamicX dynamicSnapshot Sample.market BYREAL_CLMM_PROGRAM_ID dynamicPool ∧
      ServesPool DynamicX dynamicSnapshot dynamicPool ∧
      ¬ CoreRefreshed outdatedVenue (Sample.cacheOf dynamicSnapshot) := by
  refine ⟨serves_cacheOf _, dynamicSnapshot_pool, dynamicSnapshot_serves, fun h => ?_⟩
  have hkeys := h.fetched (serves_cacheOf _) dynamicSnapshot_pool
  have hvault : Sample.pool.tokenVault0 ∈ feeAccountsOf outdatedVenue.core dynamicPool := by decide +kernel
  exact absurd (hkeys _ hvault) (by decide +kernel)

theorem movedSnapshot_serves :
    ServesPool Sample.X (Sample.accounts 2 (leBytes 8 90) (leBytes 8 2500)) Sample.movedPool where
  clock := ⟨_, ⟨0, leBytes 8 90, ZERO_PUBKEY⟩, by decide +kernel, rfl⟩
  config := ⟨_, ⟨0, leBytes 8 2500, BYREAL_CLMM_PROGRAM_ID⟩, by decide +kernel, rfl⟩
  vault0 := ⟨⟨0, leBytes 8 1000000, Pubkey.fill 102⟩, _, by decide +kernel, rfl, by decide⟩
  vault1 := ⟨⟨0, leBytes 8 1000000, Pubkey.fill 102⟩, _, by decide +kernel, rfl, by decide⟩
  oracles hdyn := Bool.noConfusion hdyn

/-- The sample pool after a swap is caught up with. -/
theorem refresh_catches_up_sample :
    CoreRefreshed Sample.venue (Sample.cacheOf (Sample.accounts 2 (leBytes 8 90) (leBytes 8 2500))) :=
  (refresh_catches_up_iff (serves_cacheOf _)
    ⟨⟨0, [2], BYREAL_CLMM_PROGRAM_ID⟩, by decide +kernel, rfl, rfl⟩ movedSnapshot_serves).mpr
    fun _ hk => absurd hk List.not_mem_nil

end Sample

end ByrealTitan.Adapter.ByrealClmmVenue
