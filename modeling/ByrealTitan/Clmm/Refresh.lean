import ByrealTitan.Base.Errors
import ByrealTitan.Clmm.Venue
import ByrealTitan.Lib.Steps
import Mathlib.Data.List.Dedup
import Mathlib.Data.List.Sort

/-!
# `Clmm.Refresh` — construction and refresh of the core venue (`src/byreal_clmm/core.rs`)

`update_state` is straight-line code with early returns on `&mut self`. It is modelled as the list of its
steps (`updateSteps`), each of which decodes what it needs before it writes; a step that fails leaves what
the earlier ones wrote.
-/

namespace ByrealTitan.Clmm

open LittleEndian

/-- The accounts a refresh was given. -/
abbrev AccountMap := Pubkey → Option Account

def utf8 (s : String) : List UInt8 := s.toList.map fun c => UInt8.ofNat c.toNat

/-- `POOL_TICK_ARRAY_BITMAP_SEED`. -/
def POOL_TICK_ARRAY_BITMAP_SEED : List UInt8 := utf8 "pool_tick_array_bitmap_extension"

/-- `i32` saturation. -/
def saturateI32 (x : Int) : Int := max (-2 ^ 31) (min x (2 ^ 31 - 1))

/-- `start_index.to_be_bytes()`. -/
def i32BeBytes (x : Int) : List UInt8 := (leBytes 4 (x % 2 ^ 32).toNat).reverse

/-- The error of a decoder, with the label of what was decoded. -/
def orDecodeError {α : Type} (label : String) : Except String α → VenueRes α
  | .ok a    => .ok a
  | .error e => Res.fail (.deserializationFailed (.string ("decode " ++ label ++ " failed: " ++ e)))

@[simp] theorem orDecodeError_eq_ok {α : Type} {label : String} {r : Except String α} {a : α} :
    orDecodeError label r = .ok a ↔ r = .ok a := by
  cases r with
  | ok b => simp [orDecodeError]
  | error e => simp [orDecodeError, Res.fail]

def missingState {α : Type} (message : String) :
    VenueRes α := Res.fail (.missingState (.staticStr message))

namespace ByrealClmmVenue

variable {X : Crates}

/-! ## Construction -/

def fromPoolStateAccount (X : Crates) (marketId owner : Pubkey) (poolStateData : List UInt8) :
    VenueRes (ByrealClmmVenue X) := do
  let poolState ← orDecodeError "PoolState" (X.decodePoolState poolStateData)
  return {
    marketId
    programId := owner
    reserveMints := (poolState.tokenMint0, poolState.tokenMint1)
    poolState
    ammConfig := none
    bitmapExtension := none
    dynamicTickArrays := []
    token0VaultAmount := 0
    token1VaultAmount := 0
    token0ProgramId := ZERO_PUBKEY
    token1ProgramId := ZERO_PUBKEY
    token0PythOracleData := none
    token1PythOracleData := none
    maxOneSideTickArrays := 6
    currentUnixTimestamp := 0 }

/-! ## Addresses -/

variable (v : ByrealClmmVenue X)

def tickArrayBitmapExtensionKey : Pubkey :=
  X.findProgramAddress [POOL_TICK_ARRAY_BITMAP_SEED, v.marketId.bytes] v.programId

def tokenMints : List Pubkey := [v.poolState.tokenMint0, v.poolState.tokenMint1]

def mintDecimals : List UInt8 := [v.poolState.mintDecimals0, v.poolState.mintDecimals1]

def getPriceFeedAccountAddress (X : Crates) (shardId : UInt16) (priceFeedId : Pubkey) : Pubkey :=
  X.findProgramAddress [leBytes 2 shardId.toNat, priceFeedId.bytes] X.PYTH_PRICE_FEED_PROGRAM_ID

/-- The oracle account of a feed; an all-zero feed id is an unset one. -/
def pythOraclePubkey (X : Crates) (feedId : Pubkey) : Option Pubkey :=
  if feedId ≠ ZERO_PUBKEY then some (getPriceFeedAccountAddress X 0 feedId) else none

def token0PythOraclePubkey : Option Pubkey := pythOraclePubkey X v.poolState.token0PythFeedId

def token1PythOraclePubkey : Option Pubkey := pythOraclePubkey X v.poolState.token1PythFeedId

def getTickArrayAddress (startIndex : Int) : Pubkey :=
  X.findProgramAddress [X.TICK_ARRAY_SEED, v.marketId.bytes, i32BeBytes startIndex] v.programId

/-- Up to `count` further initialised arrays behind `start`, by the pool's own helper. -/
def followTickArrays (zeroForOne : Bool) : (count : Nat) → (start : Int) → List Int
  | 0,         _     => []
  | count + 1, start =>
      match X.poolNextInitializedTickArrayStartIndex v.poolState v.bitmapExtension start zeroForOne with
      | .ok (some next) => next :: followTickArrays zeroForOne count next
      | _               => []

/-- `collect_dir`: the start indexes one direction contributes. -/
def collectDir (zeroForOne : Bool) (limit : Nat) : List Int :=
  if limit = 0 then []
  else
    match X.getFirstInitializedTickArray v.poolState v.bitmapExtension zeroForOne with
    | .ok (_, start) => start :: v.followTickArrays zeroForOne (limit - 1) start
    | .error _       => []

/-- The fallback offsets, `TICK_ARRAY_SIZE * i * tick_spacing` for `i` in `1..max`. -/
def fallbackOffsets : List Int :=
  (List.range (v.maxOneSideTickArrays - 1)).map fun i : Nat =>
    (X.TICK_ARRAY_SIZE : Int) * ((i : Int) + 1) * (v.spacing : Int)

/-- The start index of the current tick's array. -/
def currentStartIndex : Int := X.getArrayStartIndex v.poolState.tickCurrent v.spacing

/-- What the bitmap helpers collect, where they can be used. -/
def helperStartIndexes : List Int :=
  let overflowDefault := X.isOverflowDefaultTickarrayBitmap v.poolState [v.poolState.tickCurrent]
  if v.bitmapExtension.isSome || !overflowDefault then
    v.collectDir true v.maxOneSideTickArrays ++ v.collectDir false v.maxOneSideTickArrays
  else []

/-- The members of the source's `BTreeSet`, in its order. -/
def allStartIndexes : List Int :=
  let collected := v.helperStartIndexes
  let starts := if collected = [] then
      v.currentStartIndex :: v.fallbackOffsets.map fun o => saturateI32 (v.currentStartIndex - o)
    else collected
  starts.dedup.insertionSort (· ≤ ·)

def getAllTickArrayAddresses : List Pubkey := v.allStartIndexes.map v.getTickArrayAddress

/-- The vaults and oracles a dynamic fee needs. -/
def dynamicFeeAccounts : List Pubkey :=
  if v.isSwapDynamicFeeEnabled then
    [v.poolState.tokenVault0, v.poolState.tokenVault1] ++ v.token0PythOraclePubkey.toList
      ++ v.token1PythOraclePubkey.toList
  else []

def accountsToUpdate : List Pubkey :=
  [v.marketId, v.poolState.ammConfig, v.poolState.tokenMint0, v.poolState.tokenMint1,
    v.tickArrayBitmapExtensionKey] ++ v.getAllTickArrayAddresses ++ v.dynamicFeeAccounts
    ++ [X.CLOCK_ID]

def baseAccountsToUpdate : List Pubkey :=
  [v.marketId, v.poolState.ammConfig, v.poolState.tokenMint0, v.poolState.tokenMint1,
    v.tickArrayBitmapExtensionKey, X.CLOCK_ID] ++ v.dynamicFeeAccounts

/-! ## Decoding -/

def decodeVaultAmount (X : Crates) (vaultOwner : Pubkey) (vaultData : List UInt8) (vaultName : String) :
    VenueRes Nat :=
  if vaultOwner = X.SPL_TOKEN_ID then orDecodeError vaultName (X.unpackTokenAccount vaultData)
  else if vaultOwner = X.SPL_TOKEN_2022_ID then
    orDecodeError vaultName (X.unpackToken2022Account vaultData)
  else Res.fail (.deserializationFailed (.string ("decode " ++ vaultName
    ++ " failed: unsupported token program owner " ++ vaultOwner.toText)))

def decodePythPrice (X : Crates) (accountData : List UInt8) (expectedFeedId : Pubkey) :
    VenueRes Price := do
  let update ← orDecodeError "pyth oracle" (X.decodePriceUpdate accountData)
  match X.getPriceUnchecked update expectedFeedId with
  | .ok price => return price
  | .error _  => missingState "pyth feed id mismatch"

/-! ## The steps of `update_state` -/

variable (accounts : AccountMap)

def loadClock : VenueRes (ByrealClmmVenue X) := do
  match accounts X.CLOCK_ID with
  | none => missingState "missing sysvar clock"
  | some acc =>
      let clock ← orDecodeError "sysvar clock" (X.decodeClock acc.data)
      return { v with currentUnixTimestamp := clock.unixTimestamp }

def loadPoolState : VenueRes (ByrealClmmVenue X) :=
  match accounts v.marketId with
  | none => .ok v
  | some poolAcc => do
      Res.require (poolAcc.owner = v.programId) (.unsupportedVenue (.string
        ("Byreal CLMM pool owner must remain " ++ v.programId.toText ++ ", got "
          ++ poolAcc.owner.toText)))
      let poolState ← orDecodeError "PoolState" (X.decodePoolState poolAcc.data)
      return { v with poolState, reserveMints := (poolState.tokenMint0, poolState.tokenMint1) }

def loadAmmConfig : VenueRes (ByrealClmmVenue X) :=
  match accounts v.poolState.ammConfig with
  | none => .ok { v with ammConfig := none }
  | some ammAcc => do
      let cfg ← orDecodeError "AmmConfig" (X.decodeAmmConfig ammAcc.data)
      return { v with ammConfig := some cfg }

/-- The amount and the token program of a vault; zeros where it was not given. -/
def vaultOf (X : Crates) (accounts : AccountMap) (key : Pubkey) (vaultName : String) :
    VenueRes (Nat × Pubkey) :=
  match accounts key with
  | none => .ok (0, ZERO_PUBKEY)
  | some vaultAcc => do
      let amount ← decodeVaultAmount X vaultAcc.owner vaultAcc.data vaultName
      return (amount, vaultAcc.owner)

def loadVault0 : VenueRes (ByrealClmmVenue X) := do
  let (amount, program) ← vaultOf X accounts v.poolState.tokenVault0 "token0 vault"
  return { v with token0VaultAmount := amount, token0ProgramId := program }

def loadVault1 : VenueRes (ByrealClmmVenue X) := do
  let (amount, program) ← vaultOf X accounts v.poolState.tokenVault1 "token1 vault"
  return { v with token1VaultAmount := amount, token1ProgramId := program }

/-- The price of one oracle account, which must belong to the Pyth receiver. -/
def oraclePrice (X : Crates) (accounts : AccountMap) (key feedId : Pubkey) (token : String) :
    VenueRes Price :=
  match accounts key with
  | none => missingState ("missing " ++ token
      ++ " pyth oracle; call update_state() with required accounts")
  | some acc => do
      Res.require (acc.owner = X.PYTH_RECEIVER_PROGRAM_ID)
        (.missingState (.staticStr (token ++ " pyth oracle owner mismatch")))
      decodePythPrice X acc.data feedId

/-- The checks of both oracle keys come before the first oracle account is read. -/
def loadOracle0 : VenueRes (ByrealClmmVenue X) :=
  if v.isSwapDynamicFeeEnabled then do
    Res.require (v.token0ProgramId ≠ ZERO_PUBKEY ∧ v.token1ProgramId ≠ ZERO_PUBKEY)
      (.missingState (.staticStr
        "missing dynamic fee vault accounts; call update_state() with required accounts"))
    let pyth0Key ← Res.orErr (.missingState (.staticStr "token0 pyth feed id is not configured"))
      v.token0PythOraclePubkey
    let _ ← Res.orErr (.missingState (.staticStr "token1 pyth feed id is not configured"))
      v.token1PythOraclePubkey
    let price ← oraclePrice X accounts pyth0Key v.poolState.token0PythFeedId "token0"
    return { v with token0PythOracleData := some price }
  else .ok { v with token0PythOracleData := none }

def loadOracle1 : VenueRes (ByrealClmmVenue X) :=
  if v.isSwapDynamicFeeEnabled then do
    let pyth1Key ← Res.orErr (.missingState (.staticStr "token1 pyth feed id is not configured"))
      v.token1PythOraclePubkey
    let price ← oraclePrice X accounts pyth1Key v.poolState.token1PythFeedId "token1"
    return { v with token1PythOracleData := some price }
  else .ok { v with token1PythOracleData := none }

def loadBitmapExtension : VenueRes (ByrealClmmVenue X) :=
  let extension := (accounts v.tickArrayBitmapExtensionKey).bind fun acc =>
    (X.decodeBitmapExtension acc.data).toOption
  .ok { v with bitmapExtension := extension }

/-- `HashMap::insert`. -/
def insertTickArray (arrays : List (Pubkey × DynamicTickArrayState X)) (key : Pubkey)
    (parsed : DynamicTickArrayState X) : List (Pubkey × DynamicTickArrayState X) :=
  if key ∈ arrays.map Prod.fst then arrays.map fun p => if p.1 = key then (key, parsed) else p
  else arrays ++ [(key, parsed)]

/-- The arrays that were given and parse. -/
def parseTickArrays (accounts : AccountMap) (keys : List Pubkey) :
    List (Pubkey × DynamicTickArrayState X) :=
  keys.foldl (fun arrays key =>
    match accounts key with
    | none     => arrays
    | some acc =>
        match DynamicTickArrayState.fromAccountData acc.data with
        | none        => arrays
        | some parsed => insertTickArray arrays key parsed) []

def loadTickArrays : VenueRes (ByrealClmmVenue X) :=
  .ok { v with dynamicTickArrays := parseTickArrays accounts v.getAllTickArrayAddresses }

/-- The source's `update_state`, in order. -/
def updateSteps (accounts : AccountMap) : List (ByrealClmmVenue X → VenueRes (ByrealClmmVenue X)) :=
  [fun v => v.loadClock accounts, fun v => v.loadPoolState accounts, fun v => v.loadAmmConfig accounts,
    fun v => v.loadVault0 accounts, fun v => v.loadVault1 accounts, fun v => v.loadOracle0 accounts,
    fun v => v.loadOracle1 accounts, fun v => v.loadBitmapExtension accounts,
    fun v => v.loadTickArrays accounts]

/-- `update_state`: how it ends, and the venue it leaves. -/
def updateState : VenueRes Unit × ByrealClmmVenue X := Steps.runSteps (updateSteps accounts) v

end ByrealClmmVenue

end ByrealTitan.Clmm
