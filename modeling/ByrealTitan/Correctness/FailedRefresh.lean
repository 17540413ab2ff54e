import ByrealTitan.Correctness.Updated

/-!
# `Correctness.FailedRefresh` — what a failed refresh leaves behind

A refresh writes field after field and returns early in between, so a failure can leave new pool state next
to old tick arrays, prices and bounds, and the venue goes on answering from the mixture
(`failed_refresh_mixes`). A failure is harmless where every account read before it decodes to what the
venue already holds (`HarmlessFailure`): then the venue is left as it was, but for the epoch. Over a run
whose failures are harmless, the venue answers as the last successful refresh left it
(`harmless_run_answers`).
-/

namespace ByrealTitan.Clmm.ByrealClmmVenue

variable {X : Crates}

/-! ## The stages of a core refresh

For each step of `update_state`: when the account it reads is refused, and when what it reads is what the
venue holds. -/

variable (accounts : AccountMap) (v : ByrealClmmVenue X)

/-- An account that is given and decodes to `b`. -/
def DecodesTo {β : Type} (decode : Account → Except String β) (acc : Option Account) (b : β) : Prop :=
  ∃ a, acc = some a ∧ decode a = .ok b

/-- An account that is given and does not decode. -/
def Undecodable {β : Type} (decode : Account → Except String β) (acc : Option Account) : Prop :=
  ∃ a, acc = some a ∧ ∀ b, decode a ≠ .ok b

def clockStage : Steps.Stage where
  refuses := ∀ clock, ¬ DecodesTo (fun a => X.decodeClock a.data) (accounts X.CLOCK_ID) clock
  held := ∃ clock, DecodesTo (fun a => X.decodeClock a.data) (accounts X.CLOCK_ID) clock ∧
    clock.unixTimestamp = v.currentUnixTimestamp

/-- The pool account may be absent; its owner has to be the program. -/
def poolStage : Steps.Stage where
  refuses := ∃ a, accounts v.marketId = some a ∧
    (a.owner ≠ v.programId ∨ ∀ pool, X.decodePoolState a.data ≠ .ok pool)
  held := ∀ a, accounts v.marketId = some a →
    a.owner = v.programId ∧ X.decodePoolState a.data = .ok v.poolState

def configStage : Steps.Stage where
  refuses := Undecodable (fun a => X.decodeAmmConfig a.data) (accounts v.poolState.ammConfig)
  held := (accounts v.poolState.ammConfig = none ∧ v.ammConfig = none) ∨
    ∃ config, DecodesTo (fun a => X.decodeAmmConfig a.data) (accounts v.poolState.ammConfig) config ∧
      v.ammConfig = some config

/-- A vault under `key`, of which the venue holds `amount` and `program`. -/
def vaultStage (X : Crates) (accounts : AccountMap) (key : Pubkey) (name : String) (amount : Nat)
    (program : Pubkey) : Steps.Stage where
  refuses := ∃ a, accounts key = some a ∧ ∀ n, decodeVaultAmount X a.owner a.data name ≠ .ok n
  held := (accounts key = none ∧ amount = 0 ∧ program = ZERO_PUBKEY) ∨
    ∃ a, accounts key = some a ∧ decodeVaultAmount X a.owner a.data name = .ok amount ∧ a.owner = program

/-- An oracle account that belongs to the Pyth receiver and carries a price of the feed. -/
def OracleGives (X : Crates) (accounts : AccountMap) (feedId : Pubkey) (price : Price) : Prop :=
  ∃ key a, pythOraclePubkey X feedId = some key ∧ accounts key = some a ∧
    a.owner = X.PYTH_RECEIVER_PROGRAM_ID ∧ decodePythPrice X a.data feedId = .ok price

def oracle0Stage : Steps.Stage where
  refuses := v.isSwapDynamicFeeEnabled ∧
    (v.token0ProgramId = ZERO_PUBKEY ∨ v.token1ProgramId = ZERO_PUBKEY ∨ v.token1PythOraclePubkey = none ∨
      ∀ price, ¬ OracleGives X accounts v.poolState.token0PythFeedId price)
  held := (v.isSwapDynamicFeeEnabled = false ∧ v.token0PythOracleData = none) ∨
    (v.isSwapDynamicFeeEnabled ∧ v.token0ProgramId ≠ ZERO_PUBKEY ∧ v.token1ProgramId ≠ ZERO_PUBKEY ∧
      v.token1PythOraclePubkey ≠ none ∧
      ∃ price, OracleGives X accounts v.poolState.token0PythFeedId price ∧
        v.token0PythOracleData = some price)

def oracle1Stage : Steps.Stage where
  refuses := v.isSwapDynamicFeeEnabled ∧
    ∀ price, ¬ OracleGives X accounts v.poolState.token1PythFeedId price
  held := (v.isSwapDynamicFeeEnabled = false ∧ v.token1PythOracleData = none) ∨
    (v.isSwapDynamicFeeEnabled ∧ ∃ price, OracleGives X accounts v.poolState.token1PythFeedId price ∧
      v.token1PythOracleData = some price)

/-- An extension that is absent or undecodable is none, never refused. -/
def extensionStage : Steps.Stage where
  refuses := False
  held := v.bitmapExtension = (accounts v.tickArrayBitmapExtensionKey).bind fun acc =>
    (X.decodeBitmapExtension acc.data).toOption

def tickArraysStage : Steps.Stage where
  refuses := False
  held := v.dynamicTickArrays = parseTickArrays accounts v.getAllTickArrayAddresses

def updateStages : List Steps.Stage :=
  [clockStage accounts v, poolStage accounts v, configStage accounts v,
    vaultStage X accounts v.poolState.tokenVault0 "token0 vault" v.token0VaultAmount v.token0ProgramId,
    vaultStage X accounts v.poolState.tokenVault1 "token1 vault" v.token1VaultAmount v.token1ProgramId,
    oracle0Stage accounts v, oracle1Stage accounts v, extensionStage accounts v,
    tickArraysStage accounts v]

/-! ## The stages describe the steps -/

variable {accounts v}

/-- A computation without a value fails. -/
theorem exists_error {ε α : Type} {x : Except ε α} (h : ∀ a, x ≠ .ok a) : ∃ e, x = .error e := by
  cases x with
  | error e => exact ⟨e, rfl⟩
  | ok a    => exact absurd rfl (h a)

theorem clockStage_describes :
    (clockStage accounts v).Describes (fun v => v.loadClock accounts) v where
  refuse h := by
    refine exists_error fun w hw => ?_
    cases hacc : accounts X.CLOCK_ID with
    | none => simp [loadClock, hacc, missingState, Res.fail] at hw
    | some acc =>
        simp only [loadClock, hacc, Except.bind_eq_ok, orDecodeError_eq_ok] at hw
        obtain ⟨clock, hclock, -⟩ := hw
        exact h clock ⟨acc, hacc, hclock⟩
  hold h := by
    obtain ⟨clock, ⟨acc, hacc, hclock⟩, hts⟩ := h
    simp only [loadClock, hacc, Except.bind_eq_ok, orDecodeError_eq_ok]
    exact ⟨clock, hclock, by rw [hts]; rfl⟩

theorem poolStage_describes (hmints : v.reserveMints = (v.poolState.tokenMint0, v.poolState.tokenMint1)) :
    (poolStage accounts v).Describes (fun v => v.loadPoolState accounts) v where
  refuse h := by
    obtain ⟨acc, hacc, hbad⟩ := h
    refine exists_error fun w hw => ?_
    simp only [loadPoolState, hacc, Except.bind_eq_ok, orDecodeError_eq_ok, Res.require_eq_ok] at hw
    obtain ⟨-, howner, pool, hpool, -⟩ := hw
    exact hbad.elim (fun h => h howner) fun h => h pool hpool
  hold h := by
    cases hacc : accounts v.marketId with
    | none => simp only [loadPoolState, hacc]
    | some acc =>
        obtain ⟨howner, hpool⟩ := h acc hacc
        simp only [loadPoolState, hacc, Except.bind_eq_ok, orDecodeError_eq_ok, Res.require_eq_ok]
        exact ⟨(), howner, v.poolState, hpool, by rw [← hmints]; rfl⟩

theorem configStage_describes :
    (configStage accounts v).Describes (fun v => v.loadAmmConfig accounts) v where
  refuse h := by
    obtain ⟨acc, hacc, hbad⟩ := h
    refine exists_error fun w hw => ?_
    simp only [loadAmmConfig, hacc, Except.bind_eq_ok, orDecodeError_eq_ok] at hw
    obtain ⟨config, hconfig, -⟩ := hw
    exact hbad config hconfig
  hold h := by
    rcases h with ⟨hacc, hheld⟩ | ⟨config, ⟨acc, hacc, hconfig⟩, hheld⟩
    · simp only [loadAmmConfig, hacc, ← hheld]
    · simp only [loadAmmConfig, hacc, Except.bind_eq_ok, orDecodeError_eq_ok]
      exact ⟨config, hconfig, by rw [← hheld]; rfl⟩

/-- What the two vault steps read. -/
theorem vaultOf_of_stage {key program : Pubkey} {name : String} {amount : Nat} :
    ((vaultStage X accounts key name amount program).refuses →
      ∀ p, vaultOf X accounts key name ≠ .ok p) ∧
    ((vaultStage X accounts key name amount program).held →
      vaultOf X accounts key name = .ok (amount, program)) := by
  constructor
  · rintro ⟨acc, hacc, hbad⟩ p hp
    simp only [vaultOf, hacc, Except.bind_eq_ok] at hp
    obtain ⟨n, hn, -⟩ := hp
    exact hbad n hn
  · rintro (⟨hacc, rfl, rfl⟩ | ⟨acc, hacc, hn, rfl⟩)
    · simp only [vaultOf, hacc]
    · simp only [vaultOf, hacc, hn, Except.ok_bind]
      rfl

theorem vault0Stage_describes :
    (vaultStage X accounts v.poolState.tokenVault0 "token0 vault" v.token0VaultAmount
      v.token0ProgramId).Describes (fun v => v.loadVault0 accounts) v where
  refuse h := by
    refine exists_error fun w hw => ?_
    obtain ⟨p, hp, -⟩ := Except.bind_eq_ok.mp hw
    exact vaultOf_of_stage.1 h p hp
  hold h := by
    simp only [loadVault0, vaultOf_of_stage.2 h, Except.ok_bind]
    rfl

theorem vault1Stage_describes :
    (vaultStage X accounts v.poolState.tokenVault1 "token1 vault" v.token1VaultAmount
      v.token1ProgramId).Describes (fun v => v.loadVault1 accounts) v where
  refuse h := by
    refine exists_error fun w hw => ?_
    obtain ⟨p, hp, -⟩ := Except.bind_eq_ok.mp hw
    exact vaultOf_of_stage.1 h p hp
  hold h := by
    simp only [loadVault1, vaultOf_of_stage.2 h, Except.ok_bind]
    rfl

/-- What the two oracle steps read. -/
theorem oraclePrice_eq_ok {key feedId : Pubkey} {token : String} {price : Price} :
    oraclePrice X accounts key feedId token = .ok price ↔
      ∃ a, accounts key = some a ∧ a.owner = X.PYTH_RECEIVER_PROGRAM_ID ∧
        decodePythPrice X a.data feedId = .ok price := by
  unfold oraclePrice
  cases accounts key with
  | none => simp [missingState, Res.fail]
  | some a => simp [Except.bind_eq_ok]

theorem oracle0Stage_describes :
    (oracle0Stage accounts v).Describes (fun v => v.loadOracle0 accounts) v where
  refuse h := by
    obtain ⟨hdyn, hbad⟩ := h
    refine exists_error fun w hw => ?_
    simp only [loadOracle0, hdyn, if_true, Except.bind_eq_ok, Res.require_eq_ok, Res.orErr_eq_ok,
      oraclePrice_eq_ok] at hw
    obtain ⟨-, ⟨h0, h1⟩, key0, hkey0, key1, hkey1, price, ⟨a, ha, howner, hprice⟩, -⟩ := hw
    rcases hbad with hz | hz | hz | hz
    · exact h0 hz
    · exact h1 hz
    · simp [hkey1] at hz
    · exact hz price ⟨key0, a, hkey0, ha, howner, hprice⟩
  hold h := by
    rcases h with ⟨hdyn, hheld⟩ | ⟨hdyn, h0, h1, hkey1, price, ⟨key, a, hkey, ha, howner, hprice⟩, hheld⟩
    · simp only [loadOracle0, hdyn, ← hheld, Bool.false_eq_true, if_false]
    · obtain ⟨key1, hkey1⟩ := Option.ne_none_iff_exists'.mp hkey1
      simp only [loadOracle0, hdyn, if_true, Except.bind_eq_ok, Res.require_eq_ok, Res.orErr_eq_ok,
        oraclePrice_eq_ok]
      exact ⟨(), ⟨h0, h1⟩, key, hkey, key1, hkey1, price, ⟨a, ha, howner, hprice⟩, by rw [← hheld]; rfl⟩

theorem oracle1Stage_describes :
    (oracle1Stage accounts v).Describes (fun v => v.loadOracle1 accounts) v where
  refuse h := by
    obtain ⟨hdyn, hbad⟩ := h
    refine exists_error fun w hw => ?_
    simp only [loadOracle1, hdyn, if_true, Except.bind_eq_ok, Res.orErr_eq_ok, oraclePrice_eq_ok] at hw
    obtain ⟨key, hkey, price, ⟨a, ha, howner, hprice⟩, -⟩ := hw
    exact hbad price ⟨key, a, hkey, ha, howner, hprice⟩
  hold h := by
    rcases h with ⟨hdyn, hheld⟩ | ⟨hdyn, price, ⟨key, a, hkey, ha, howner, hprice⟩, hheld⟩
    · simp only [loadOracle1, hdyn, ← hheld, Bool.false_eq_true, if_false]
    · simp only [loadOracle1, hdyn, if_true, Except.bind_eq_ok, Res.orErr_eq_ok, oraclePrice_eq_ok]
      exact ⟨key, hkey, price, ⟨a, ha, howner, hprice⟩, by rw [← hheld]; rfl⟩

theorem extensionStage_describes :
    (extensionStage accounts v).Describes (fun v => v.loadBitmapExtension accounts) v where
  refuse h := h.elim
  hold h := by
    have h : v.bitmapExtension = _ := h
    simp only [loadBitmapExtension, ← h]

theorem tickArraysStage_describes :
    (tickArraysStage accounts v).Describes (fun v => v.loadTickArrays accounts) v where
  refuse h := h.elim
  hold h := by
    have h : v.dynamicTickArrays = _ := h
    simp only [loadTickArrays, ← h]

theorem updateStages_describe (hmints : v.reserveMints =
      (v.poolState.tokenMint0, v.poolState.tokenMint1)) :
    List.Forall₂ (fun st step => st.Describes step v) (updateStages accounts v) (updateSteps accounts) :=
  .cons clockStage_describes <| .cons (poolStage_describes hmints) <| .cons configStage_describes <|
    .cons vault0Stage_describes <| .cons vault1Stage_describes <| .cons oracle0Stage_describes <|
    .cons oracle1Stage_describes <| .cons extensionStage_describes <|
    .cons tickArraysStage_describes .nil

end ByrealTitan.Clmm.ByrealClmmVenue

namespace ByrealTitan.Adapter.ByrealClmmVenue

open Clmm Clmm.ByrealClmmVenue LittleEndian

variable {X : Crates}

/-! ## Harmless failures of a whole refresh -/

/-- The metadata of the mints: some mint account is missing or undecodable, or all say what is held. -/
def tokenInfoStage (accounts : AccountMap) (v : ByrealClmmVenue X) : Steps.Stage where
  refuses := ∀ epoch, ∃ p ∈ v.core.tokenMints.zip v.core.mintDecimals, ∀ info,
    mintInfo X accounts epoch p.1 p.2 ≠ .ok info
  held := ∃ clock, clockFromAccountMap X accounts = .ok clock ∧
    (v.core.tokenMints.zip v.core.mintDecimals).mapM (fun p => mintInfo X accounts clock.epoch p.1 p.2) =
      .ok v.tokenInfo

/-- **When a failed refresh does no harm**: no fetched account that decodes differently from what the venue
    holds was read before the failure. -/
inductive HarmlessFailure (v : ByrealClmmVenue X) (cache : AccountsCache) : Prop where
  /-- The first fetch fails. -/
  | notFetched {e} : fetchAccountMap cache 0 v.baseKeys = .error e → HarmlessFailure v cache
  /-- The core refuses an account of the first fetch, and holds what it read before. -/
  | refused {accounts} : fetchAccountMap cache 0 v.baseKeys = .ok accounts →
      Steps.StopsHeld (updateStages accounts v.core) → HarmlessFailure v cache
  /-- The core holds all that the first fetch gave, and the second fetch fails. -/
  | notFetchedAgain {accounts e} : fetchAccountMap cache 0 v.baseKeys = .ok accounts →
      Steps.AllHeld (updateStages accounts v.core) →
      fetchAccountMap cache 1 v.requiredPubkeysForUpdate = .error e → HarmlessFailure v cache
  /-- The core holds all that the first fetch gave, and refuses an account of the second. -/
  | refusedAgain {accounts accounts'} : fetchAccountMap cache 0 v.baseKeys = .ok accounts →
      Steps.AllHeld (updateStages accounts v.core) →
      fetchAccountMap cache 1 v.requiredPubkeysForUpdate = .ok accounts' →
      Steps.StopsHeld (updateStages accounts' v.core) → HarmlessFailure v cache
  /-- The core accepts the first fetch, which leaves pool and bitmap extension as they are, and holds all
      that the second fetch gave; the failure comes after it. -/
  | unfinished {accounts accounts'} : fetchAccountMap cache 0 v.baseKeys = .ok accounts →
      (v.core.updateState accounts).1 = .ok () →
      (poolStage accounts v.core).held → (extensionStage accounts v.core).held →
      fetchAccountMap cache 1 v.requiredPubkeysForUpdate = .ok accounts' →
      Steps.AllHeld (updateStages accounts' v.core) →
      (tokenInfoStage accounts' v).refuses ∨ (tokenInfoStage accounts' v).held → HarmlessFailure v cache

/-! ## The venue after a harmless failure -/

section

variable {core : CoreByrealClmmVenue X} {accounts : AccountMap}

theorem refreshCore_of_stopsHeld {v : ByrealClmmVenue X} (hmints : MintsAgree v.core)
    (h : Steps.StopsHeld (updateStages accounts v.core)) :
    ∃ e, v.refreshCore accounts = (.error e, v) := by
  obtain ⟨e, he⟩ := Steps.runSteps_of_stopsHeld (updateStages_describe hmints) h
  exact ⟨e, by simp only [refreshCore, Clmm.ByrealClmmVenue.updateState, he]⟩

theorem refreshCore_of_allHeld {v : ByrealClmmVenue X} (hmints : MintsAgree v.core)
    (h : Steps.AllHeld (updateStages accounts v.core)) : v.refreshCore accounts = (.ok (), v) := by
  have hrun := Steps.runSteps_of_allHeld (updateStages_describe hmints) h
  simp only [refreshCore, Clmm.ByrealClmmVenue.updateState, hrun]

/-- What decides the accounts a core asks for. -/
structure SameMarket (c d : CoreByrealClmmVenue X) : Prop where
  keys : c.keys = d.keys
  pool : c.poolState = d.poolState
  mints : c.reserveMints = d.reserveMints
  extension : c.bitmapExtension = d.bitmapExtension

/-- A refresh that reads the pool and the extension as they are held keeps the market. -/
theorem updateState_sameMarket (hmints : MintsAgree core) (hpool : (poolStage accounts core).held)
    (hext : (extensionStage accounts core).held) :
    SameMarket (core.updateState accounts).2 core := by
  refine updateState_inv accounts (I := fun c : CoreByrealClmmVenue X => SameMarket c core) ?_
    ⟨rfl, rfl, rfl, rfl⟩
  intro c c' hc hwrote
  obtain ⟨hkeys, hsame, hm, he⟩ := hc
  have hmarket : c.marketId = core.marketId := congrArg Prod.fst hkeys
  have hprogram : c.programId = core.programId := congrArg (fun k => k.2.1) hkeys
  cases hwrote with
  | @pool acc poolState hacc hdecode =>
      -- the pool that was decoded is the one that is held
      have hread : X.decodePoolState acc.data = .ok core.poolState :=
        (hpool acc (hmarket ▸ hacc)).2
      obtain rfl : poolState = core.poolState := Except.ok.inj (hdecode.symm.trans hread)
      exact ⟨hkeys, rfl, hmints.symm, he⟩
  | extension =>
      have hheld : core.bitmapExtension = _ := hext
      refine ⟨hkeys, hsame, hm, ?_⟩
      rw [hheld]
      simp only [tickArrayBitmapExtensionKey, hmarket, hprogram]
  | _ => exact ⟨hkeys, hsame, hm, he⟩

/-- Cores of one market ask for the same accounts. -/
theorem SameMarket.requiredPubkeys {v w : ByrealClmmVenue X} (h : SameMarket v.core w.core) :
    v.requiredPubkeysForUpdate = w.requiredPubkeysForUpdate := by
  have haddr := getAllTickArrayAddresses_congr h.keys h.pool h.extension
  have hmarket : v.core.marketId = w.core.marketId := congrArg Prod.fst h.keys
  have hprogram : v.core.programId = w.core.programId := congrArg (fun k => k.2.1) h.keys
  have hdyn : v.core.isSwapDynamicFeeEnabled = w.core.isSwapDynamicFeeEnabled := by
    simp only [Clmm.ByrealClmmVenue.isSwapDynamicFeeEnabled, h.pool]
  have hfee : v.core.dynamicFeeAccounts = w.core.dynamicFeeAccounts := by
    simp only [dynamicFeeAccounts, hdyn, token0PythOraclePubkey, token1PythOraclePubkey, h.pool]
  simp only [requiredPubkeysForUpdate, accountsToUpdate, tokenMints, tickArrayBitmapExtensionKey, hfee,
    haddr, hmarket, hprogram, h.pool]

end

/-! ## The end of a refresh -/

section

variable {accounts : AccountMap} {fuel : Nat} {v : ByrealClmmVenue X}

/-- What follows the second refresh of the core writes the epoch and, from the mints, the metadata, unless
    it succeeds. -/
theorem finish_failed (hfail : (Steps.runSteps (finishSteps fuel accounts) v).1 ≠ .ok ()) :
    ∃ epoch info, (Steps.runSteps (finishSteps fuel accounts) v).2 =
        { v with currentEpoch := epoch, tokenInfo := info } ∧
      (info = v.tokenInfo ∨ ∃ clock, clockFromAccountMap X accounts = .ok clock ∧
        (v.core.tokenMints.zip v.core.mintDecimals).mapM
          (fun p => mintInfo X accounts clock.epoch p.1 p.2) = .ok info) := by
  unfold finishSteps at hfail ⊢
  cases hclock : clockFromAccountMap X accounts with
  | error e =>
      simp only [Steps.runSteps, Except.error_bind]
      exact ⟨_, _, rfl, .inl rfl⟩
  | ok clock =>
      cases hinfo : (v.core.tokenMints.zip v.core.mintDecimals).mapM
          (fun p => mintInfo X accounts clock.epoch p.1 p.2) with
      | error e =>
          simp only [Steps.runSteps, Except.ok_bind, pure, Except.pure, refreshTokenInfo, hinfo,
            Except.error_bind]
          exact ⟨_, _, rfl, .inl rfl⟩
      | ok info =>
          simp only [Steps.runSteps, hclock, Except.ok_bind, pure, Except.pure, refreshTokenInfo, hinfo]
            at hfail ⊢
          split
          next w hbounds =>
            -- the last step never fails
            simp only [hbounds, ne_eq, not_true_eq_false] at hfail
          next e hbounds => exact ⟨_, _, rfl, .inr ⟨clock, rfl, hinfo⟩⟩

/-- Where the metadata is refused or as it is held, only the epoch is written. -/
theorem finish_failed_of_stage (hfail : (Steps.runSteps (finishSteps fuel accounts) v).1 ≠ .ok ())
    (hstage : (tokenInfoStage accounts v).refuses ∨ (tokenInfoStage accounts v).held) :
    ∃ epoch, (Steps.runSteps (finishSteps fuel accounts) v).2 = { v with currentEpoch := epoch } := by
  obtain ⟨epoch, info, hrun, hinfo⟩ := finish_failed hfail
  have hsame : info = v.tokenInfo := by
    rcases hinfo with rfl | ⟨clock, hclock, hinfo⟩
    · rfl
    · rcases hstage with hrefuses | ⟨clock', hclock', hheld⟩
      · obtain ⟨p, hp, hbad⟩ := hrefuses clock.epoch
        obtain ⟨t, ht⟩ := (Except.mapM_eq_ok hinfo).2 p hp
        exact absurd ht (hbad t)
      · obtain rfl := Except.ok.inj (hclock.symm.trans hclock')
        exact Except.ok.inj (hinfo.symm.trans hheld)
  exact ⟨epoch, by rw [hrun, hsame]⟩

end

/-- **A harmless failure** leaves the venue as it was, but for the epoch. -/
theorem harmless_failure {fuel : Nat} {v : ByrealClmmVenue X} {cache : AccountsCache}
    (hmints : MintsAgree v.core) (h : HarmlessFailure v cache)
    (hfail : (v.updateState fuel cache).1 ≠ .ok ()) :
    ∃ epoch, (v.updateState fuel cache).2 = { v with currentEpoch := epoch } := by
  cases h with
  | notFetched hfetch =>
      simp only [updateState, hfetch]
      exact ⟨_, rfl⟩
  | refused hfetch hstop =>
      obtain ⟨e, hcore⟩ := refreshCore_of_stopsHeld hmints hstop
      simp only [updateState, hfetch, hcore, Steps.andThen]
      exact ⟨_, rfl⟩
  | notFetchedAgain hfetch hheld hfetch' =>
      have hcore := refreshCore_of_allHeld hmints hheld
      simp only [updateState, hfetch, hcore, Steps.andThen, updateRest, hfetch']
      exact ⟨_, rfl⟩
  | refusedAgain hfetch hheld hfetch' hstop =>
      have hcore := refreshCore_of_allHeld hmints hheld
      obtain ⟨e, hcore'⟩ := refreshCore_of_stopsHeld hmints hstop
      simp only [updateState, hfetch, hcore, Steps.andThen, updateRest, hfetch', hcore']
      exact ⟨_, rfl⟩
  | @unfinished accounts accounts' hfetch hok hpool hext hfetch' hheld hstage =>
      -- the second refresh of the core brings back what is held, whatever the first one wrote
      have hmarket := updateState_sameMarket hmints hpool hext
      have hagree := updateState_agree accounts' hmarket.keys
        (.inr ⟨hmarket.pool, hmarket.mints⟩)
      have hback : v.core.updateState accounts' = (.ok (), v.core) :=
        Steps.runSteps_of_allHeld (updateStages_describe hmints) hheld
      have hfirst : v.refreshCore accounts = (.ok (),
          { v with core := (v.core.updateState accounts).2 }) := by
        simp only [refreshCore, hok]
      have hsecond : ({ v with core := (v.core.updateState accounts).2 } : ByrealClmmVenue X).refreshCore
          accounts' = (.ok (), v) := by
        obtain ⟨hend, heq⟩ := hagree
        rw [hback] at hend heq
        simp only [refreshCore, hend, heq hend]
      have hkeys := SameMarket.requiredPubkeys (v := { v with core := (v.core.updateState accounts).2 })
        (w := v) hmarket
      simp only [updateState, hfetch, hfirst, Steps.andThen, updateRest, hkeys, hfetch',
        hsecond] at hfail ⊢
      exact finish_failed_of_stage hfail hstage

/-! ## Failures before the venue is initialised -/

/-- What a failed refresh may have written: never `initialized` or the bounds. -/
def FailedFrom (v w : ByrealClmmVenue X) : Prop :=
  ∃ core epoch info, w = { v with core, currentEpoch := epoch, tokenInfo := info } ∧
    core.keys = v.core.keys ∧ (info = v.tokenInfo ∨ info.length = 2)

theorem failedFrom_refreshCore (v : ByrealClmmVenue X) (accounts : AccountMap) :
    FailedFrom v (v.refreshCore accounts).2 :=
  ⟨_, _, _, rfl, updateState_keys accounts v.core, .inl rfl⟩

theorem FailedFrom.trans {u v w : ByrealClmmVenue X} (h : FailedFrom u v) (h' : FailedFrom v w) :
    FailedFrom u w := by
  obtain ⟨core, epoch, info, rfl, hkeys, hinfo⟩ := h
  obtain ⟨core', epoch', info', rfl, hkeys', hinfo'⟩ := h'
  refine ⟨core', epoch', info', rfl, hkeys'.trans hkeys, ?_⟩
  rcases hinfo' with rfl | hlen
  · exact hinfo
  · exact .inr hlen

theorem updateState_failed {fuel : Nat} {v : ByrealClmmVenue X} {cache : AccountsCache}
    (hfail : (v.updateState fuel cache).1 ≠ .ok ()) : FailedFrom v (v.updateState fuel cache).2 := by
  have hself : ∀ u : ByrealClmmVenue X, FailedFrom u u := fun u => ⟨_, _, _, rfl, rfl, .inl rfl⟩
  unfold updateState Steps.andThen at *
  cases hfetch : fetchAccountMap cache 0 v.baseKeys with
  | error e => exact hself v
  | ok accounts =>
      simp only [hfetch] at hfail ⊢
      have hfirst := failedFrom_refreshCore v accounts
      cases hend : (v.refreshCore accounts).1 with
      | error e => exact hfirst
      | ok _ =>
          simp only [hend] at hfail ⊢
          refine hfirst.trans ?_
          generalize (v.refreshCore accounts).2 = v₁ at hfail ⊢
          unfold updateRest Steps.andThen at *
          cases hfetch' : fetchAccountMap cache 1 v₁.requiredPubkeysForUpdate with
          | error e => exact hself v₁
          | ok accounts' =>
              simp only [hfetch'] at hfail ⊢
              have hsecond := failedFrom_refreshCore v₁ accounts'
              cases hend' : (v₁.refreshCore accounts').1 with
              | error e => exact hsecond
              | ok _ =>
                  simp only [hend'] at hfail ⊢
                  refine hsecond.trans ?_
                  obtain ⟨epoch, info, hrun, hinfo⟩ := finish_failed hfail
                  refine ⟨_, epoch, info, hrun, rfl, ?_⟩
                  rcases hinfo with rfl | ⟨clock, -, hinfo⟩
                  · exact .inl rfl
                  · exact .inr (Except.mapM_eq_ok hinfo).1

/-! ## Answers -/

/-- Two venues that answer every request alike. -/
structure SameAnswers (v w : ByrealClmmVenue X) : Prop where
  quote : ∀ fuel request, v.quote fuel request = w.quote fuel request
  bounds : ∀ tknInInd tknOutInd, v.bounds tknInInd tknOutInd = w.bounds tknInInd tknOutInd
  instruction : ∀ request user,
    v.generateSwapInstruction request user = w.generateSwapInstruction request user

theorem SameAnswers.refl (v : ByrealClmmVenue X) : SameAnswers v v :=
  ⟨fun _ _ => rfl, fun _ _ => rfl, fun _ _ => rfl⟩

theorem SameAnswers.trans {u v w : ByrealClmmVenue X} (h : SameAnswers u v) (h' : SameAnswers v w) :
    SameAnswers u w :=
  ⟨fun fuel request => (h.quote fuel request).trans (h'.quote fuel request),
    fun i j => (h.bounds i j).trans (h'.bounds i j),
    fun request user => (h.instruction request user).trans (h'.instruction request user)⟩

/-- No answer depends on the epoch. -/
theorem sameAnswers_epoch (v : ByrealClmmVenue X) (epoch : Nat) :
    SameAnswers { v with currentEpoch := epoch } v :=
  ⟨fun _ _ => rfl, fun _ _ => rfl, fun _ _ => rfl⟩

/-- The bounds depend on the cache, and on how many tokens there are. -/
theorem bounds_congr {v w : ByrealClmmVenue X} (hcache : v.boundsCache = w.boundsCache)
    (hlen : v.tokenInfo.length = w.tokenInfo.length) (i j : UInt8) : v.bounds i j = w.bounds i j := by
  have hget : ∀ k, (∃ e, v.getToken k = .error e ∧ w.getToken k = .error e) ∨
      ∃ a b, v.getToken k = .ok a ∧ w.getToken k = .ok b := by
    intro k
    simp only [getToken, getTokenInfo]
    by_cases hk : k < v.tokenInfo.length
    · refine .inr ⟨v.tokenInfo[k], w.tokenInfo[k], ?_, ?_⟩
      · rw [List.getElem?_eq_getElem hk]; rfl
      · rw [List.getElem?_eq_getElem (hlen ▸ hk)]; rfl
    · refine .inl ⟨.err (.tokenInfoIndexError k), ?_, ?_⟩
      · rw [List.getElem?_eq_none (by omega)]; rfl
      · rw [List.getElem?_eq_none (by omega)]; rfl
  simp only [bounds, hcache]
  rcases hget i.toNat with ⟨e, hv, hw⟩ | ⟨a, b, hv, hw⟩
  · simp only [hv, hw, Except.error_bind]
  · rcases hget j.toNat with ⟨e, hv', hw'⟩ | ⟨a', b', hv', hw'⟩
    · simp only [hv, hw, hv', hw', Except.ok_bind, Except.error_bind]
    · simp only [hv, hw, hv', hw', Except.ok_bind]

/-- Before the venue is initialised, a failure changes no answer: quotes and instructions are refused. -/
theorem sameAnswers_uninitialized {v w : ByrealClmmVenue X} (h : FailedFrom v w)
    (hinit : v.initialized = false) (hlen : v.tokenInfo.length = 2) : SameAnswers w v := by
  obtain ⟨core, epoch, info, rfl, hkeys, hinfo⟩ := h
  have hmarket : core.marketId = v.core.marketId := congrArg Prod.fst hkeys
  refine ⟨fun fuel request => ?_, bounds_congr ?_ ?_, fun request user => ?_⟩
  · simp only [quote, hinit, marketId, hmarket, Res.require, Bool.false_eq_true, if_false, Res.fail,
      Except.error_bind]
  · rfl
  · rcases hinfo with rfl | hinfo
    · rfl
    · exact hinfo.trans hlen.symm
  · simp only [generateSwapInstruction, hinit, marketId, hmarket, Res.require, Bool.false_eq_true,
      if_false, Res.fail, Except.error_bind]

/-! ## Runs of refreshes -/

/-- The venue after refreshing from one cache after another. -/
def refreshes (fuel : Nat) : List AccountsCache → ByrealClmmVenue X → ByrealClmmVenue X
  | [],              v => v
  | cache :: caches, v => refreshes fuel caches (v.updateState fuel cache).2

/-- The venue as the last successful refresh of the run left it; `good` where none succeeds. -/
def lastRefreshed (fuel : Nat) :
    List AccountsCache → (good v : ByrealClmmVenue X) → ByrealClmmVenue X
  | [],              good, _ => good
  | cache :: caches, good, v =>
      match v.updateState fuel cache with
      | (.ok _, w)    => lastRefreshed fuel caches w w
      | (.error _, w) => lastRefreshed fuel caches good w

/-- Every failure of the run comes before the venue is initialised, or does no harm. -/
def HarmlessRun (fuel : Nat) : List AccountsCache → ByrealClmmVenue X → Prop
  | [],              _ => True
  | cache :: caches, v =>
      ((v.updateState fuel cache).1 ≠ .ok () → v.initialized = false ∨ HarmlessFailure v cache) ∧
        HarmlessRun fuel caches (v.updateState fuel cache).2

/-- One failed refresh of a run changes no answer. -/
theorem failed_sameAnswers {fuel : Nat} {v : ByrealClmmVenue X} {cache : AccountsCache}
    (hwf : WellFormed v) (hfail : (v.updateState fuel cache).1 ≠ .ok ())
    (h : v.initialized = false ∨ HarmlessFailure v cache) :
    SameAnswers (v.updateState fuel cache).2 v := by
  rcases h with hinit | hharmless
  · exact sameAnswers_uninitialized (updateState_failed hfail) hinit hwf.tokens
  · obtain ⟨epoch, hv⟩ := harmless_failure hwf.mints hharmless hfail
    rw [hv]
    exact sameAnswers_epoch v epoch

theorem refreshes_sameAnswers {fuel : Nat} {caches : List AccountsCache} {good v : ByrealClmmVenue X}
    (hv : Built X v) (hrun : HarmlessRun fuel caches v) (h : SameAnswers v good) :
    SameAnswers (refreshes fuel caches v) (lastRefreshed fuel caches good v) := by
  induction caches generalizing good v with
  | nil => exact h
  | cons cache caches ih =>
      obtain ⟨hfirst, hrest⟩ := hrun
      have hbuilt := Built.refreshed fuel cache hv
      simp only [refreshes, lastRefreshed]
      split
      next w hw =>
        rw [hw] at hrest hbuilt
        simp only [hw]
        exact ih hbuilt hrest (.refl _)
      next e w hw =>
        have hfail : (v.updateState fuel cache).1 ≠ .ok () := by simp [hw]
        have hsame := failed_sameAnswers hv.wellFormed hfail (hfirst hfail)
        rw [hw] at hrest hbuilt hsame
        simp only [hw]
        exact ih hbuilt hrest (hsame.trans h)

/-- **Over a run whose failures do no harm**, the venue answers every quote, every request for bounds and
    every request for an instruction as the last successful refresh left it. -/
theorem harmless_run_answers {fuel : Nat} {caches : List AccountsCache} {v : ByrealClmmVenue X}
    (hv : Built X v) (hrun : HarmlessRun fuel caches v) :
    SameAnswers (refreshes fuel caches v) (lastRefreshed fuel caches v v) :=
  refreshes_sameAnswers hv hrun (.refl v)

/-! ## The sample market -/

section Sample

open Adapter.Sample

/-- The pool has moved, and its config account does not decode. -/
def movedCache : AccountsCache := cacheOf (Sample.accounts 2 (leBytes 8 100) [])

/-- 1900 of the first mint for the second. -/
def sampleRequest : QuoteRequest := ⟨Pubkey.fill 1, Pubkey.fill 2, 1900, .exactIn⟩

/-- **A failed refresh can leave a mixture that answers.** An initialised venue, whose refresh fails at the
    config, quotes the new pool state over the tick arrays, config and bounds of the refresh before. -/
theorem failed_refresh_mixes :
    ∃ (v : ByrealClmmVenue Sample.X) (cache : AccountsCache) (request : QuoteRequest),
      Built Sample.X v ∧ v.initialized = true ∧
      (∃ e, (v.updateState 100 cache).1.failure? = some (.err e)) ∧
      (v.quote 100 request).okAnd (fun quote => quote.expectedOutput = 1894) ∧
      ((v.updateState 100 cache).2.quote 100 request).okAnd (fun quote => quote.expectedOutput = 1902) ∧
      (v.updateState 100 cache).2.core.poolState ≠ v.core.poolState ∧
      (v.updateState 100 cache).2.core.ammConfig = v.core.ammConfig ∧
      (v.updateState 100 cache).2.boundsCache = v.boundsCache := by
  have hfacts : Sample.refreshed.initialized = true ∧
      (Sample.refreshed.updateState 100 movedCache).1.failure? =
        some (.err (.deserializationFailed (.string "decode AmmConfig failed: undecodable"))) ∧
      (Sample.refreshed.quote 100 sampleRequest).okAnd (fun quote => quote.expectedOutput = 1894) ∧
      ((Sample.refreshed.updateState 100 movedCache).2.quote 100 sampleRequest).okAnd
        (fun quote => quote.expectedOutput = 1902) ∧
      (Sample.refreshed.updateState 100 movedCache).2.core.poolState ≠ Sample.refreshed.core.poolState ∧
      (Sample.refreshed.updateState 100 movedCache).2.core.ammConfig = Sample.refreshed.core.ammConfig ∧
      (Sample.refreshed.updateState 100 movedCache).2.boundsCache = Sample.refreshed.boundsCache := by
    decide +kernel
  obtain ⟨hinit, hfail, hrest⟩ := hfacts
  exact ⟨Sample.refreshed, movedCache, sampleRequest, built_refreshed, hinit, ⟨_, hfail⟩, hrest⟩

/-- The config account does not decode, and nothing else has changed. -/
def brokenCache : AccountsCache := cacheOf (Sample.accounts 1 (leBytes 8 100) [])

/-- What the sample venue holds, and what it is given by the first fetch of `brokenCache`. -/
theorem refreshed_facts :
    let fetched := accountMap (Sample.refreshed.baseKeys.zip
      (Sample.refreshed.baseKeys.map (Sample.accounts 1 (leBytes 8 100) [])))
    (Sample.refreshed.core.currentUnixTimestamp = 100 ∧ Sample.refreshed.core.poolState = pool ∧
      Sample.refreshed.core.programId = BYREAL_CLMM_PROGRAM_ID ∧
      Sample.refreshed.core.marketId = market) ∧
    fetched (Pubkey.fill 101) = some ⟨0, leBytes 8 100, ZERO_PUBKEY⟩ ∧
    fetched market = some ⟨0, [1], BYREAL_CLMM_PROGRAM_ID⟩ ∧
    fetched pool.ammConfig = some ⟨0, [], BYREAL_CLMM_PROGRAM_ID⟩ := by
  decide +kernel

theorem harmless_broken : HarmlessFailure Sample.refreshed brokenCache := by
  obtain ⟨⟨hclock, hpool, hprogram, hmarket⟩, hacc, hmacc, hcacc⟩ := refreshed_facts
  refine .refused rfl (.inr ⟨⟨⟨0, 100⟩, ⟨_, hacc, rfl⟩, hclock.symm⟩,
    .inr ⟨?_, .inl ⟨⟨0, [], BYREAL_CLMM_PROGRAM_ID⟩, ?_, ?_⟩⟩⟩)
  · rintro a ha
    rw [hmarket, hmacc] at ha
    obtain rfl := Option.some.inj ha
    exact ⟨hprogram.symm, by rw [hpool]; rfl⟩
  · rw [hpool]; exact hcacc
  · rintro b hb
    cases hb

/-- A success and then a harmless failure: the venue answers as after the success. -/
theorem harmless_run_answers_sample :
    SameAnswers (refreshes 100 [goodCache, brokenCache] venue)
      (lastRefreshed 100 [goodCache, brokenCache] venue venue) := by
  refine harmless_run_answers (@Built.fromAccount Sample.X market
    ⟨0, [1], BYREAL_CLMM_PROGRAM_ID⟩ _ rfl) ⟨fun _ => .inl rfl, fun _ => .inr ?_, trivial⟩
  exact harmless_broken

end Sample

end ByrealTitan.Adapter.ByrealClmmVenue
