import ByrealTitan.Adapter.Sample

/-!
# `Correctness.Refresh` — a refresh forgets the past

Two venues of one market, however they came about, are refreshed alike by any accounts that contain the
pool. Each step of `update_state` overwrites its fields from the accounts and from what earlier steps of
the same call wrote, so the agreement of two venues grows by one step at a time (`AgreeUpTo`) until it is
equality (`updateState_forgets`).
-/

namespace ByrealTitan.Clmm

open LittleEndian

namespace ByrealClmmVenue

variable {X : Crates}

/-! ## Venues that arise -/

/-- A venue made from a pool account and refreshed any number of times, successfully or not. -/
inductive Built (X : Crates) : ByrealClmmVenue X → Prop where
  | fromAccount {marketId owner : Pubkey} {data : List UInt8} {v : ByrealClmmVenue X} :
      fromPoolStateAccount X marketId owner data = .ok v → Built X v
  | refreshed {v : ByrealClmmVenue X} (accounts : AccountMap) :
      Built X v → Built X (v.updateState accounts).2

/-- The fields that no refresh writes. -/
def keys (v : ByrealClmmVenue X) : Pubkey × Pubkey × Nat :=
  (v.marketId, v.programId, v.maxOneSideTickArrays)

/-! ## Agreement after `n` steps -/

/-- The two venues agree on what no step writes, and on what the first `n` steps write. -/
structure AgreeUpTo (n : Nat) (v w : ByrealClmmVenue X) : Prop where
  marketId : v.marketId = w.marketId
  programId : v.programId = w.programId
  maxOneSideTickArrays : v.maxOneSideTickArrays = w.maxOneSideTickArrays
  clock : 1 ≤ n → v.currentUnixTimestamp = w.currentUnixTimestamp
  pool : 2 ≤ n → v.poolState = w.poolState ∧ v.reserveMints = w.reserveMints
  config : 3 ≤ n → v.ammConfig = w.ammConfig
  vault0 : 4 ≤ n → v.token0VaultAmount = w.token0VaultAmount ∧ v.token0ProgramId = w.token0ProgramId
  vault1 : 5 ≤ n → v.token1VaultAmount = w.token1VaultAmount ∧ v.token1ProgramId = w.token1ProgramId
  oracle0 : 6 ≤ n → v.token0PythOracleData = w.token0PythOracleData
  oracle1 : 7 ≤ n → v.token1PythOracleData = w.token1PythOracleData
  extension : 8 ≤ n → v.bitmapExtension = w.bitmapExtension
  tickArrays : 9 ≤ n → v.dynamicTickArrays = w.dynamicTickArrays

/-- Agreement on what all nine steps write is equality. -/
theorem AgreeUpTo.eq {v w : ByrealClmmVenue X} (h : AgreeUpTo 9 v w) : v = w := by
  obtain ⟨hm, hp, hx, hc, hpool, hcfg, hv0, hv1, ho0, ho1, he, ht⟩ := h
  cases v
  cases w
  simp_all

theorem AgreeUpTo.of_keys {v w : ByrealClmmVenue X} (h : v.keys = w.keys) : AgreeUpTo 0 v w := by
  simp only [keys, Prod.mk.injEq] at h
  obtain ⟨hm, hp, hx⟩ := h
  constructor <;> first | assumption | omega

theorem AgreeUpTo.keys {n : Nat} {v w : ByrealClmmVenue X} (h : AgreeUpTo n v w) : v.keys = w.keys := by
  simp only [ByrealClmmVenue.keys, h.marketId, h.programId, h.maxOneSideTickArrays]

variable {v w : ByrealClmmVenue X}

/-- The pool's helper is the only thing the walk over the arrays asks. -/
theorem followTickArrays_congr (hpool : v.poolState = w.poolState)
    (hext : v.bitmapExtension = w.bitmapExtension) (zeroForOne : Bool) (count : Nat) (start : Int) :
    v.followTickArrays zeroForOne count start = w.followTickArrays zeroForOne count start := by
  induction count generalizing start with
  | zero => rfl
  | succ count ih => simp only [followTickArrays, hpool, hext, ih]

/-- The tick arrays to load are decided by the market, the pool state and the bitmap extension. -/
theorem getAllTickArrayAddresses_congr (hkeys : v.keys = w.keys) (hpool : v.poolState = w.poolState)
    (hext : v.bitmapExtension = w.bitmapExtension) :
    v.getAllTickArrayAddresses = w.getAllTickArrayAddresses := by
  simp only [keys, Prod.mk.injEq] at hkeys
  obtain ⟨hmarket, hprogram, hmax⟩ := hkeys
  have hfollow : v.followTickArrays = w.followTickArrays := by
    funext zeroForOne count start
    exact followTickArrays_congr hpool hext zeroForOne count start
  have hcollect : v.collectDir = w.collectDir := by
    funext zeroForOne limit
    simp only [collectDir, hpool, hext, hfollow]
  have hhelper : v.helperStartIndexes = w.helperStartIndexes := by
    simp only [helperStartIndexes, hpool, hext, hcollect, hmax]
  have hstarts : v.allStartIndexes = w.allStartIndexes := by
    simp only [allStartIndexes, fallbackOffsets, currentStartIndex, spacing, hhelper, hpool, hmax]
  have haddr : v.getTickArrayAddress = w.getTickArrayAddress := by
    funext start
    simp only [getTickArrayAddress, hmarket, hprogram]
  simp only [getAllTickArrayAddresses, hstarts, haddr]

/-! ## What each step leaves -/

section StepsOk

variable {accounts : AccountMap}

theorem loadClock_ok (h : v.loadClock accounts = .ok w) :
    ∃ ts, w = { v with currentUnixTimestamp := ts } := by
  unfold loadClock at h
  split at h
  next => cases h
  next acc _ =>
    obtain ⟨clock, -, hw⟩ := Except.bind_eq_ok.mp h
    cases hw
    exact ⟨clock.unixTimestamp, rfl⟩

/-- The pool state is kept where the pool account is not given. -/
theorem loadPoolState_ok (h : v.loadPoolState accounts = .ok w) :
    (accounts v.marketId = none ∧ w = v) ∨
      ∃ acc poolState, accounts v.marketId = some acc ∧ X.decodePoolState acc.data = .ok poolState ∧
        w = { v with poolState, reserveMints := (poolState.tokenMint0, poolState.tokenMint1) } := by
  unfold loadPoolState at h
  split at h
  next hnone =>
    cases h
    exact Or.inl ⟨hnone, rfl⟩
  next acc hacc =>
    simp only [Except.bind_eq_ok, orDecodeError_eq_ok] at h
    obtain ⟨-, -, poolState, hpool, hw⟩ := h
    cases hw
    exact Or.inr ⟨acc, poolState, hacc, hpool, rfl⟩

theorem loadAmmConfig_ok (h : v.loadAmmConfig accounts = .ok w) : ∃ c, w = { v with ammConfig := c } := by
  unfold loadAmmConfig at h
  split at h
  next =>
    cases h
    exact ⟨none, rfl⟩
  next acc _ =>
    obtain ⟨cfg, -, hw⟩ := Except.bind_eq_ok.mp h
    cases hw
    exact ⟨some cfg, rfl⟩

theorem loadVault0_ok (h : v.loadVault0 accounts = .ok w) :
    ∃ n program, vaultOf X accounts v.poolState.tokenVault0 "token0 vault" = .ok (n, program) ∧
      w = { v with token0VaultAmount := n, token0ProgramId := program } := by
  obtain ⟨⟨n, program⟩, hvault, hw⟩ := Except.bind_eq_ok.mp h
  cases hw
  exact ⟨n, program, hvault, rfl⟩

theorem loadVault1_ok (h : v.loadVault1 accounts = .ok w) :
    ∃ n program, vaultOf X accounts v.poolState.tokenVault1 "token1 vault" = .ok (n, program) ∧
      w = { v with token1VaultAmount := n, token1ProgramId := program } := by
  obtain ⟨⟨n, program⟩, hvault, hw⟩ := Except.bind_eq_ok.mp h
  cases hw
  exact ⟨n, program, hvault, rfl⟩

/-- With the dynamic fee on, both vaults had been read, both feeds are configured and the first oracle was
    given. -/
theorem loadOracle0_ok (h : v.loadOracle0 accounts = .ok w) :
    (∃ o, w = { v with token0PythOracleData := o }) ∧ (v.isSwapDynamicFeeEnabled = true →
      v.token0ProgramId ≠ ZERO_PUBKEY ∧ v.token1ProgramId ≠ ZERO_PUBKEY ∧
        ∃ key0 key1 price, v.token0PythOraclePubkey = some key0 ∧ v.token1PythOraclePubkey = some key1 ∧
          oraclePrice X accounts key0 v.poolState.token0PythFeedId "token0" = .ok price) := by
  unfold loadOracle0 at h
  split at h
  next =>
    simp only [Except.bind_eq_ok, Res.require_eq_ok, Res.orErr_eq_ok] at h
    obtain ⟨-, ⟨hne0, hne1⟩, key0, hkey0, key1, hkey1, price, hprice, hw⟩ := h
    cases hw
    exact ⟨⟨some price, rfl⟩, fun _ => ⟨hne0, hne1, key0, key1, price, hkey0, hkey1, hprice⟩⟩
  next hoff =>
    cases h
    exact ⟨⟨none, rfl⟩, fun hon => absurd hon hoff⟩

/-- With the dynamic fee on, the second oracle was given. -/
theorem loadOracle1_ok (h : v.loadOracle1 accounts = .ok w) :
    (∃ o, w = { v with token1PythOracleData := o }) ∧ (v.isSwapDynamicFeeEnabled = true →
      ∃ key1 price, v.token1PythOraclePubkey = some key1 ∧
        oraclePrice X accounts key1 v.poolState.token1PythFeedId "token1" = .ok price) := by
  unfold loadOracle1 at h
  split at h
  next =>
    simp only [Except.bind_eq_ok, Res.orErr_eq_ok] at h
    obtain ⟨key1, hkey1, price, hprice, hw⟩ := h
    cases hw
    exact ⟨⟨some price, rfl⟩, fun _ => ⟨key1, price, hkey1, hprice⟩⟩
  next hoff =>
    cases h
    exact ⟨⟨none, rfl⟩, fun hon => absurd hon hoff⟩

end StepsOk

/-! ## What each step passes on -/

variable (accounts : AccountMap)

/-- The pool account is given, or the two venues hold the same pool. -/
def PoolKnown (v w : ByrealClmmVenue X) : Prop :=
  accounts v.marketId ≠ none ∨ (v.poolState = w.poolState ∧ v.reserveMints = w.reserveMints)

theorem loadClock_preserves :
    Steps.Preserves (fun v w : ByrealClmmVenue X => AgreeUpTo 0 v w ∧ PoolKnown accounts v w)
      (fun v w => AgreeUpTo 1 v w ∧ PoolKnown accounts v w) fun v => v.loadClock accounts := by
  rintro v w ⟨h, hknown⟩
  unfold loadClock
  cases accounts X.CLOCK_ID with
  | none => exact Steps.Alike.error _
  | some acc =>
      refine Steps.Alike.bind _ fun clock => Steps.Alike.ok ⟨?_, hknown⟩
      cases h; constructor <;> simp_all

/-- The one step that needs the pool account: without it each venue keeps the pool state it has. -/
theorem loadPoolState_preserves :
    Steps.Preserves (fun v w : ByrealClmmVenue X => AgreeUpTo 1 v w ∧ PoolKnown accounts v w)
      (AgreeUpTo 2) fun v => v.loadPoolState accounts := by
  rintro v w ⟨h, hknown⟩
  simp only [loadPoolState, ← h.marketId, ← h.programId]
  cases hacc : accounts v.marketId with
  | none =>
      have hpool := hknown.resolve_left (not_not_intro hacc)
      refine Steps.Alike.ok ?_
      cases h; constructor <;> simp_all
  | some poolAcc =>
      refine Steps.Alike.bind _ fun _ => ?_
      refine Steps.Alike.bind _ fun poolState => Steps.Alike.ok ?_
      cases h; constructor <;> simp_all

theorem loadAmmConfig_preserves :
    Steps.Preserves (AgreeUpTo (X := X) 2) (AgreeUpTo 3) fun v => v.loadAmmConfig accounts := by
  intro v w h
  obtain ⟨hpool, -⟩ := h.pool le_rfl
  simp only [loadAmmConfig, hpool]
  cases accounts w.poolState.ammConfig with
  | none =>
      refine Steps.Alike.ok ?_
      cases h; constructor <;> simp_all
  | some acc =>
      refine Steps.Alike.bind _ fun cfg => Steps.Alike.ok ?_
      cases h; constructor <;> simp_all

theorem loadVault0_preserves :
    Steps.Preserves (AgreeUpTo (X := X) 3) (AgreeUpTo 4) fun v => v.loadVault0 accounts := by
  intro v w h
  obtain ⟨hpool, -⟩ := h.pool (by omega)
  simp only [loadVault0, hpool]
  refine Steps.Alike.bind _ fun vault => Steps.Alike.ok ?_
  cases h; constructor <;> simp_all

theorem loadVault1_preserves :
    Steps.Preserves (AgreeUpTo (X := X) 4) (AgreeUpTo 5) fun v => v.loadVault1 accounts := by
  intro v w h
  obtain ⟨hpool, -⟩ := h.pool (by omega)
  simp only [loadVault1, hpool]
  refine Steps.Alike.bind _ fun vault => Steps.Alike.ok ?_
  cases h; constructor <;> simp_all

theorem loadOracle0_preserves :
    Steps.Preserves (AgreeUpTo (X := X) 5) (AgreeUpTo 6) fun v => v.loadOracle0 accounts := by
  intro v w h
  obtain ⟨hpool, -⟩ := h.pool (by omega)
  obtain ⟨-, h0⟩ := h.vault0 (by omega)
  obtain ⟨-, h1⟩ := h.vault1 (by omega)
  simp only [loadOracle0, isSwapDynamicFeeEnabled, token0PythOraclePubkey, token1PythOraclePubkey, hpool,
    h0, h1]
  refine Steps.Alike.ite (fun _ => ?_) (fun _ => Steps.Alike.ok ?_)
  · refine Steps.Alike.bind _ fun _ => ?_
    refine Steps.Alike.bind _ fun pyth0Key => ?_
    refine Steps.Alike.bind _ fun _ => ?_
    refine Steps.Alike.bind _ fun price => Steps.Alike.ok ?_
    cases h; constructor <;> simp_all
  · cases h; constructor <;> simp_all

theorem loadOracle1_preserves :
    Steps.Preserves (AgreeUpTo (X := X) 6) (AgreeUpTo 7) fun v => v.loadOracle1 accounts := by
  intro v w h
  obtain ⟨hpool, -⟩ := h.pool (by omega)
  simp only [loadOracle1, isSwapDynamicFeeEnabled, token1PythOraclePubkey, hpool]
  refine Steps.Alike.ite (fun _ => ?_) (fun _ => Steps.Alike.ok ?_)
  · refine Steps.Alike.bind _ fun pyth1Key => ?_
    refine Steps.Alike.bind _ fun price => Steps.Alike.ok ?_
    cases h; constructor <;> simp_all
  · cases h; constructor <;> simp_all

theorem loadBitmapExtension_preserves :
    Steps.Preserves (AgreeUpTo (X := X) 7) (AgreeUpTo 8) fun v => v.loadBitmapExtension accounts := by
  intro v w h
  simp only [loadBitmapExtension, tickArrayBitmapExtensionKey, h.marketId, h.programId]
  refine Steps.Alike.ok ?_
  cases h; constructor <;> simp_all

theorem loadTickArrays_preserves :
    Steps.Preserves (AgreeUpTo (X := X) 8) Eq fun v => v.loadTickArrays accounts := by
  intro v w h
  have haddr := getAllTickArrayAddresses_congr h.keys (h.pool (by omega)).1 (h.extension (by omega))
  simp only [loadTickArrays, haddr]
  refine Steps.Alike.ok (AgreeUpTo.eq ?_)
  cases h; constructor <;> simp_all

/-! ## The whole refresh -/

/-- The agreement grows from the keys of the market to equality. -/
theorem updateSteps_chain :
    Steps.Chain (fun v w : ByrealClmmVenue X => AgreeUpTo 0 v w ∧ PoolKnown accounts v w)
      (updateSteps accounts) Eq :=
  .cons (loadClock_preserves accounts) <| .cons (loadPoolState_preserves accounts) <|
    .cons (loadAmmConfig_preserves accounts) <| .cons (loadVault0_preserves accounts) <|
    .cons (loadVault1_preserves accounts) <| .cons (loadOracle0_preserves accounts) <|
    .cons (loadOracle1_preserves accounts) <| .cons (loadBitmapExtension_preserves accounts) <|
    .cons (loadTickArrays_preserves accounts) (.nil _)

/-- How a refresh ends, and on success the venue it leaves, depend on the market alone. -/
theorem updateState_agree {v w : ByrealClmmVenue X} (hkeys : v.keys = w.keys)
    (hknown : PoolKnown accounts v w) :
    (v.updateState accounts).1 = (w.updateState accounts).1 ∧
      ((v.updateState accounts).1 = .ok () → (v.updateState accounts).2 = (w.updateState accounts).2) := by
  rcases Steps.runSteps_agree (updateSteps_chain accounts) ⟨AgreeUpTo.of_keys hkeys, hknown⟩ with
    ⟨e, hv, hw⟩ | ⟨s, t, hv, hw, rfl⟩
  · simp [updateState, hv, hw]
  · simp [updateState, hv, hw]

/-! ## What a refresh never writes -/

/-- What one successful step can have written. -/
inductive Wrote (accounts : AccountMap) (v : ByrealClmmVenue X) : ByrealClmmVenue X → Prop where
  | nothing : Wrote accounts v v
  | clock (ts : Int) : Wrote accounts v { v with currentUnixTimestamp := ts }
  | pool {acc : Account} {poolState : PoolState} : accounts v.marketId = some acc →
      X.decodePoolState acc.data = .ok poolState → Wrote accounts v
        { v with poolState, reserveMints := (poolState.tokenMint0, poolState.tokenMint1) }
  | config (c : Option AmmConfig) : Wrote accounts v { v with ammConfig := c }
  | vault0 (n : Nat) (p : Pubkey) :
      Wrote accounts v { v with token0VaultAmount := n, token0ProgramId := p }
  | vault1 (n : Nat) (p : Pubkey) :
      Wrote accounts v { v with token1VaultAmount := n, token1ProgramId := p }
  | oracle0 (o : Option Price) : Wrote accounts v { v with token0PythOracleData := o }
  | oracle1 (o : Option Price) : Wrote accounts v { v with token1PythOracleData := o }
  | extension : Wrote accounts v
      { v with bitmapExtension := (accounts v.tickArrayBitmapExtensionKey).bind fun acc =>
          (X.decodeBitmapExtension acc.data).toOption }
  | tickArrays : Wrote accounts v
      { v with dynamicTickArrays := parseTickArrays accounts v.getAllTickArrayAddresses }

/-- Every step that succeeds is one of these writes. -/
theorem updateSteps_wrote {step : ByrealClmmVenue X → VenueRes (ByrealClmmVenue X)}
    (hmem : step ∈ updateSteps accounts) {v v' : ByrealClmmVenue X} (hstep : step v = .ok v') :
    Wrote accounts v v' := by
  simp only [updateSteps, List.mem_cons, List.not_mem_nil, or_false] at hmem
  rcases hmem with rfl | rfl | rfl | rfl | rfl | rfl | rfl | rfl | rfl
  · obtain ⟨ts, rfl⟩ := loadClock_ok hstep
    exact .clock ts
  · rcases loadPoolState_ok hstep with ⟨-, rfl⟩ | ⟨acc, poolState, hacc, hpool, rfl⟩
    · exact .nothing
    · exact .pool hacc hpool
  · obtain ⟨c, rfl⟩ := loadAmmConfig_ok hstep
    exact .config c
  · obtain ⟨n, program, -, rfl⟩ := loadVault0_ok hstep
    exact .vault0 n program
  · obtain ⟨n, program, -, rfl⟩ := loadVault1_ok hstep
    exact .vault1 n program
  · obtain ⟨⟨o, rfl⟩, -⟩ := loadOracle0_ok hstep
    exact .oracle0 o
  · obtain ⟨⟨o, rfl⟩, -⟩ := loadOracle1_ok hstep
    exact .oracle1 o
  · cases hstep
    exact .extension
  · cases hstep
    exact .tickArrays

/-- What every write keeps, a refresh keeps, whether it succeeds or not. -/
theorem updateState_inv {I : ByrealClmmVenue X → Prop} {v : ByrealClmmVenue X}
    (hkeep : ∀ w w', I w → Wrote accounts w w' → I w') (h : I v) : I (v.updateState accounts).2 :=
  Steps.runSteps_inv (fun _ hmem w w' hw hstep => hkeep w w' hw (updateSteps_wrote accounts hmem hstep)) h

/-- No step writes the keys. -/
theorem Wrote.keys {v v' : ByrealClmmVenue X} (h : Wrote accounts v v') : v'.keys = v.keys := by
  cases h <;> rfl

/-- A refresh keeps the keys, whether it succeeds or not. -/
theorem updateState_keys (v : ByrealClmmVenue X) : (v.updateState accounts).2.keys = v.keys :=
  updateState_inv accounts (I := fun w : ByrealClmmVenue X => w.keys = v.keys)
    (fun _ _ hw hwrote => hwrote.keys.trans hw) rfl

/-- Every venue that arises asks for six tick arrays a side. -/
theorem Built.maxOneSideTickArrays {v : ByrealClmmVenue X} (h : Built X v) :
    v.maxOneSideTickArrays = 6 := by
  induction h with
  | fromAccount hnew =>
      obtain ⟨poolState, -, hv⟩ := Except.bind_eq_ok.mp hnew
      cases hv
      rfl
  | @refreshed v accounts _ ih =>
      have hkeys := updateState_keys accounts v
      simp only [keys, Prod.mk.injEq] at hkeys
      exact hkeys.2.2.trans ih

theorem Built.keys_eq {v w : ByrealClmmVenue X} (hv : Built X v) (hw : Built X w)
    (hmarket : v.marketId = w.marketId) (hprogram : v.programId = w.programId) : v.keys = w.keys := by
  simp only [keys, hmarket, hprogram, hv.maxOneSideTickArrays, hw.maxOneSideTickArrays]

/-- **A refresh forgets the past.** Two venues of one market and program, whatever refreshes produced them,
    are refreshed alike by accounts that contain the pool: both fail with the same error, or both end
    equal in every field. A second refresh from the same accounts then changes nothing. -/
theorem updateState_forgets {v w : ByrealClmmVenue X} (hv : Built X v) (hw : Built X w)
    (hmarket : v.marketId = w.marketId) (hprogram : v.programId = w.programId) (accounts : AccountMap)
    (hpool : accounts v.marketId ≠ none) :
    (v.updateState accounts).1 = (w.updateState accounts).1 ∧
      ((v.updateState accounts).1 = .ok () →
        (v.updateState accounts).2 = (w.updateState accounts).2 ∧
        (v.updateState accounts).2.updateState accounts = (.ok (), (v.updateState accounts).2)) := by
  obtain ⟨hend, heq⟩ := updateState_agree accounts (hv.keys_eq hw hmarket hprogram) (.inl hpool)
  refine ⟨hend, fun hok => ⟨heq hok, ?_⟩⟩
  -- the refreshed venue is one more venue of the market
  have hkeys := updateState_keys accounts v
  obtain ⟨hend', heq'⟩ := updateState_agree accounts hkeys.symm (.inl hpool)
  exact Prod.ext (hend'.symm.trans hok) (heq' hok).symm

/-! ## Two pasts of the sample market -/

open Adapter Adapter.Sample in
/-- A venue fresh from its pool account, and one made from another state of the pool and then refreshed
    with an undecodable config, are refreshed alike. -/
theorem updateState_forgets_sample :
    let refreshed := ((fresh movedPool).updateState (Sample.accounts 2 (leBytes 8 90) [])).2
    let given := Sample.accounts 1 (leBytes 8 100) (leBytes 8 2500)
    refreshed.poolState ≠ (fresh pool).poolState ∧ ((fresh pool).updateState given).1 = .ok () ∧
      ((fresh pool).updateState given).2 = (refreshed.updateState given).2 := by
  have hv : Built Sample.X (fresh pool) :=
    @Built.fromAccount Sample.X market BYREAL_CLMM_PROGRAM_ID [1] _ rfl
  have hw : Built Sample.X (fresh movedPool) :=
    @Built.fromAccount Sample.X market BYREAL_CLMM_PROGRAM_ID [2] _ rfl
  have hok : ((fresh pool).updateState (Sample.accounts 1 (leBytes 8 100) (leBytes 8 2500))).1 =
      .ok () := by
    rfl
  refine ⟨by decide +kernel, hok, ?_⟩
  exact ((updateState_forgets hv (.refreshed _ hw) rfl rfl _ (by decide +kernel)).2 hok).1

end ByrealClmmVenue

end ByrealTitan.Clmm
