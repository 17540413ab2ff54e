import ByrealTitan.Clmm.Instruction
import ByrealTitan.TradingVenue.Bounds
import ByrealTitan.TradingVenue.TokenInfo

/-!
# `Adapter.Venue` — the Titan trading venue over the core (`src/byreal_clmm/mod.rs`)

`ByrealClmmVenue` wraps the core venue with token metadata, the epoch and the quoting bounds of both
directions. `update_state` fetches twice (what the base keys give, then everything the refreshed core asks
for) and works on `&mut self`, so its model returns how it ended together with the venue it left.
-/

namespace ByrealTitan.Adapter

open Clmm

abbrev CoreByrealClmmVenue := Clmm.ByrealClmmVenue

/-- The production program, `REALQqNEomY6cQGZJUGwywTBD2UmDT32rZcNnfxQ5N2`. -/
def BYREAL_CLMM_PROGRAM_ID : Pubkey :=
  ⟨[6, 52, 210, 15, 27, 245, 109, 209, 100, 227, 193, 60, 120, 54, 164, 34, 158, 197, 171, 33, 255, 84, 82,
    131, 144, 165, 23, 137, 243, 205, 187, 219], rfl⟩

example : BYREAL_CLMM_PROGRAM_ID.toText = "REALQqNEomY6cQGZJUGwywTBD2UmDT32rZcNnfxQ5N2" := by
  decide +kernel

/-- The answers of an account cache; calls are numbered, so that two of them may differ. -/
structure AccountsCache where
  getAccounts : (call : Nat) → List Pubkey → Except AccountCacheError (List (Option Account))

/-- `push_unique`. -/
def pushUnique (keys : List Pubkey) (key : Pubkey) : List Pubkey :=
  if key ∈ keys then keys else keys ++ [key]

/-- The map that inserting the pairs one after another builds. -/
def accountMap (pairs : List (Pubkey × Option Account)) : AccountMap := fun key =>
  pairs.reverse.findSome? fun p => if p.1 = key then p.2 else none

def fetchAccountMap (cache : AccountsCache) (call : Nat) (keys : List Pubkey) : VenueRes AccountMap :=
  match cache.getAccounts call keys with
  | .error e     => Res.fail (.accountCacheError e)
  | .ok accounts => .ok (accountMap (keys.zip accounts))

/-- The Titan venue. -/
structure ByrealClmmVenue (X : Crates) where
  core : CoreByrealClmmVenue X
  tokenInfo : List TokenInfo
  initialized : Bool
  currentEpoch : Nat
  /-- The bounds from the first mint to the second, and back. -/
  boundsCache : Option (Nat × Nat) × Option (Nat × Nat)

namespace ByrealClmmVenue

variable {X : Crates}

/-! ## Construction -/

/-- Metadata as far as the pool account gives it. -/
def baseTokenInfo (core : CoreByrealClmmVenue X) : List TokenInfo :=
  (core.tokenMints.zip core.mintDecimals).map fun p =>
    { pubkey := p.1, decimals := p.2.toNat, isToken2022 := false, transferFee := none, maximumFee := none }

def fromAccount (X : Crates) (pubkey : Pubkey) (account : Account) : VenueRes (ByrealClmmVenue X) := do
  Res.require (account.owner = BYREAL_CLMM_PROGRAM_ID) (.unsupportedVenue (.string
    ("Byreal CLMM pool owner must be production program " ++ BYREAL_CLMM_PROGRAM_ID.toText ++ ", got "
      ++ account.owner.toText)))
  let core ← Clmm.ByrealClmmVenue.fromPoolStateAccount X pubkey account.owner account.data
  return {
    core
    tokenInfo := baseTokenInfo core
    initialized := false
    currentEpoch := 0
    boundsCache := (none, none) }

variable (v : ByrealClmmVenue X)

def programId : Pubkey := v.core.programId

def marketId : Pubkey := v.core.marketId

def getTokenInfo : List TokenInfo := v.tokenInfo

def protocol (_v : ByrealClmmVenue X) : PoolProtocol := .byrealClmm

/-! ## Refresh -/

/-- The keys of the first fetch. -/
def baseKeys : List Pubkey := v.core.tokenMints.foldl pushUnique v.core.baseAccountsToUpdate

/-- `get_required_pubkeys_for_update`: the keys of the second fetch. -/
def requiredPubkeysForUpdate : List Pubkey :=
  v.core.tokenMints.foldl pushUnique v.core.accountsToUpdate

def clockFromAccountMap (X : Crates) (accounts : AccountMap) : VenueRes Clock := do
  let acc ← Res.orErr (.missingState (.staticStr "sysvar clock")) (accounts X.CLOCK_ID)
  orDecodeError "sysvar clock" (X.decodeClock acc.data)

/-- Metadata of one mint; decimals below zero are replaced by the pool's. -/
def mintInfo (X : Crates) (accounts : AccountMap) (epoch : Nat) (mint : Pubkey) (decimals : UInt8) :
    VenueRes TokenInfo := do
  let account ← Res.orErr (.missingState (.pubkey mint)) (accounts mint)
  match TokenInfo.new X mint account epoch with
  | .ok info => return { info with decimals := if info.decimals < 0 then decimals.toNat
      else info.decimals }
  | .error _ => Res.fail (.deserializationFailed (.string ("failed to decode token mint " ++ mint.toText)))

/-- The two mints in turn; nothing is written unless both decode. -/
def refreshTokenInfo (accounts : AccountMap) (epoch : Nat) : VenueRes (ByrealClmmVenue X) := do
  let tokenInfo ← (v.core.tokenMints.zip v.core.mintDecimals).mapM fun p =>
    mintInfo X accounts epoch p.1 p.2
  return { v with tokenInfo }

/-- The quoting function whose bounds are searched. -/
def quoteForBounds (fuel : Nat) (inputMint outputMint : Pubkey) (amount : Nat) : VenueRes QuoteResult := do
  let quote ← v.core.quote fuel
    { inputMint, outputMint, amount := UInt64.ofNat amount, swapType := .exactIn }
  return {
    inputMint, outputMint
    amount := quote.inAmount
    expectedOutput := quote.outAmount
    notEnoughLiquidity := quote.notEnoughLiquidity
    price := 0 }

/-- Both directions in turn; nothing is written unless both searches succeed. -/
def refreshBoundsCache (fuel : Nat) : VenueRes (ByrealClmmVenue X) := do
  let mint0 := v.core.poolState.tokenMint0
  let mint1 := v.core.poolState.tokenMint1
  let bounds0 ← findBoundaries (v.quoteForBounds fuel mint0 mint1)
  let bounds1 ← findBoundaries (v.quoteForBounds fuel mint1 mint0)
  return { v with boundsCache := (some bounds0, some bounds1) }

def refreshCore (accounts : AccountMap) : VenueRes Unit × ByrealClmmVenue X :=
  let result := v.core.updateState accounts
  (result.1, { v with core := result.2 })

/-- What follows the second refresh of the core. -/
def finishSteps (fuel : Nat) (accounts : AccountMap) :
    List (ByrealClmmVenue X → VenueRes (ByrealClmmVenue X)) :=
  [fun v => do
      let clock ← clockFromAccountMap X accounts
      return { v with currentEpoch := clock.epoch },
    fun v => do
      let clock ← clockFromAccountMap X accounts
      v.refreshTokenInfo accounts clock.epoch,
    fun v => v.refreshBoundsCache fuel,
    fun v => .ok { v with initialized := true }]

/-- The second half: fetch what the refreshed core asks for, refresh it again, and finish. -/
def updateRest (fuel : Nat) (cache : AccountsCache) : VenueRes Unit × ByrealClmmVenue X :=
  match fetchAccountMap cache 1 v.requiredPubkeysForUpdate with
  | .error e           => (.error e, v)
  | .ok updateAccounts =>
      Steps.andThen (v.refreshCore updateAccounts) (Steps.runSteps (finishSteps fuel updateAccounts))

/-- `update_state`: how it ends, and the venue it leaves. -/
def updateState (fuel : Nat) (cache : AccountsCache) : VenueRes Unit × ByrealClmmVenue X :=
  match fetchAccountMap cache 0 v.baseKeys with
  | .error e         => (.error e, v)
  | .ok baseAccounts => Steps.andThen (v.refreshCore baseAccounts) fun v => v.updateRest fuel cache

/-! ## Answers -/

def ensureExactIn (request : QuoteRequest) : VenueRes Unit :=
  Res.require (request.swapType = .exactIn) .exactOutNotSupported

/-- The bounds cache of a direction, told by its mints. -/
def boundsForMints (inputMint outputMint : Pubkey) : Option (Nat × Nat) :=
  let ps := v.core.poolState
  if inputMint = ps.tokenMint0 ∧ outputMint = ps.tokenMint1 then v.boundsCache.1
  else if inputMint = ps.tokenMint1 ∧ outputMint = ps.tokenMint0 then v.boundsCache.2
  else none

def quote (fuel : Nat) (request : QuoteRequest) : VenueRes QuoteResult := do
  Res.require v.initialized (.notInitialized (.pubkey v.marketId))
  ensureExactIn request
  let upperBound := (v.boundsForMints request.inputMint request.outputMint).map Prod.snd
  let quote ← v.core.quoteWithPriceUpperBound fuel request upperBound
  return {
    inputMint := request.inputMint
    outputMint := request.outputMint
    amount := quote.inAmount
    expectedOutput := quote.outAmount
    notEnoughLiquidity := quote.notEnoughLiquidity
    price := if quote.notEnoughLiquidity then 0 else quote.price }

/-- `get_token`. -/
def getToken (i : Nat) : VenueRes TokenInfo := Res.orErr (.tokenInfoIndexError i) v.getTokenInfo[i]?

/-- The bounds of one direction, where they are cached. -/
def cachedBounds (cached : Option (Nat × Nat)) : VenueRes (Nat × Nat) :=
  Res.orErr (.boundarySearchFailed (.staticStr "bounds cache missing; call update_state()")) cached

def bounds (tknInInd tknOutInd : UInt8) : VenueRes (Nat × Nat) :=
  if tknInInd = 0 ∧ tknOutInd = 1 then cachedBounds v.boundsCache.1
  else if tknInInd = 1 ∧ tknOutInd = 0 then cachedBounds v.boundsCache.2
  else do
    let _ ← v.getToken tknInInd.toNat
    let _ ← v.getToken tknOutInd.toNat
    Res.fail (.boundarySearchFailed (.staticStr "Byreal CLMM supports only two-token directions"))

/-- The metadata of a mint of the request. -/
def tokenOf (mint : Pubkey) : VenueRes TokenInfo :=
  Res.orErr (.invalidMint (.pubkey mint)) (v.tokenInfo.find? fun token => decide (token.pubkey = mint))

def generateSwapInstruction (request : QuoteRequest) (user : Pubkey) : VenueRes Instruction := do
  Res.require v.initialized (.notInitialized (.pubkey v.marketId))
  ensureExactIn request
  let inputToken ← v.tokenOf request.inputMint
  let outputToken ← v.tokenOf request.outputMint
  v.core.buildSwapInstruction {
    userAuthority := user
    sourceMint := request.inputMint
    destinationMint := request.outputMint
    sourceTokenAccount := inputToken.getAssociatedTokenAddress X user
    destinationTokenAccount := outputToken.getAssociatedTokenAddress X user
    amount := request.amount
    otherAmountThreshold := 0 }

end ByrealClmmVenue

end ByrealTitan.Adapter
