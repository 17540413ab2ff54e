import ByrealTitan.Adapter.Venue
import ByrealTitan.Clmm.Reference

/-!
# `Adapter.Sample` — a sample market

One pool over the concrete crates, with the accounts a cache serves for it: two tick arrays around the
current tick, each with one initialised tick, both vaults, both mints and an empty bitmap extension.
-/

namespace ByrealTitan.Adapter.Sample

open LittleEndian Clmm Clmm.Reference

def market : Pubkey := Pubkey.fill 50

/-- A pool at tick 0 with spacing 1, whose bitmap marks the arrays from -60 and from 0. -/
def pool : PoolState where
  ammConfig := Pubkey.fill 20
  tokenMint0 := Pubkey.fill 1
  tokenMint1 := Pubkey.fill 2
  tokenVault0 := Pubkey.fill 21
  tokenVault1 := Pubkey.fill 22
  observationKey := Pubkey.fill 23
  mintDecimals0 := 6
  mintDecimals1 := 6
  tickSpacing := 1
  liquidity := 10000000
  sqrtPriceX64 := 2 ^ 64
  tickCurrent := 0
  tickArrayBitmap := [0, 0, 0, 0, 0, 0, 0, 0x8000000000000000, 1, 0, 0, 0, 0, 0, 0, 0]
  openTime := 0
  token0PythFeedId := ZERO_PUBKEY
  token1PythFeedId := ZERO_PUBKEY
  arbitrageFeeBufferPpm := 0
  tradeSlippageFeeBaseMilliBp := 0
  tradeSlippageFeeTradeSizeThreshold := 0
  imbalanceFeeBaseTenthsOfBp := 0
  imbalanceFeeX := 0
  other := []

/-- The same pool after a swap moved its price up. -/
def movedPool : PoolState :=
  { pool with sqrtPriceX64 := 2 ^ 64 + 2 ^ 55, tickCurrent := 39, liquidity := 30000000 }

/-- The pool before anyone provides liquidity: nothing is marked. -/
def unmarkedPool : PoolState := { pool with tickArrayBitmap := List.replicate 16 0 }

/-- A second market, of the second mint for a third one. -/
def secondMarket : Pubkey := Pubkey.fill 51

def secondPool : PoolState :=
  { pool with
    tokenMint0 := Pubkey.fill 2
    tokenMint1 := Pubkey.fill 3
    tokenVault0 := Pubkey.fill 25
    tokenVault1 := Pubkey.fill 26 }

/-- The accounts of the pools are tagged 1, 2 and 3. -/
abbrev X : Crates := crates [([1], pool), ([2], movedPool), ([3], secondPool)]

/-- The core made from a pool account that decodes to `poolState`. -/
def freshOf (X : Crates) (poolState : PoolState) : CoreByrealClmmVenue X where
  marketId := market
  programId := BYREAL_CLMM_PROGRAM_ID
  reserveMints := (poolState.tokenMint0, poolState.tokenMint1)
  poolState
  ammConfig := none
  bitmapExtension := none
  dynamicTickArrays := []
  token0VaultAmount := 0
  token1VaultAmount := 0
  token0ProgramId := ZERO_PUBKEY
  token1ProgramId := ZERO_PUBKEY
  token0PythOracleData := none
  token1PythOracleData := none
  maxOneSideTickArrays := 6
  currentUnixTimestamp := 0

def fresh (poolState : PoolState) : CoreByrealClmmVenue X := freshOf X poolState

/-- A fixed array with the net liquidity of its initialised ticks. -/
def tickArrayData (start : Int) (net : Int → Option Int) : List UInt8 :=
  let slot := fun i : Nat =>
    let tick := start + i
    let bytes := fun x : Int => leBytes 4 (x % 2 ^ 32).toNat
    match net tick with
    | some n => 1 :: bytes tick ++ bytes n
    | none   => 0 :: bytes tick ++ bytes 0
  [1, 0, 0, 0, 0, 0, 0, 0] ++ List.replicate 32 0 ++ leBytes 4 (start % 2 ^ 32).toNat
    ++ ((List.range tickArraySize).map slot).flatten

def tickArrayAddressOf (market : Pubkey) (start : Int) : Pubkey :=
  address [utf8 "tick_array", market.bytes, i32BeBytes start] BYREAL_CLMM_PROGRAM_ID

def tickArrayAddress (start : Int) : Pubkey := tickArrayAddressOf market start

def extensionAddressOf (market : Pubkey) : Pubkey :=
  address [POOL_TICK_ARRAY_BITMAP_SEED, market.bytes] BYREAL_CLMM_PROGRAM_ID

/-- The accounts of a market, with a pool account of the given tag and the given clock and config. -/
def accountsOf (market : Pubkey) (pool : PoolState) (tag : UInt8) (clock config : List UInt8) :
    AccountMap := fun key =>
  [(market, (⟨0, [tag], BYREAL_CLMM_PROGRAM_ID⟩ : Account)),
    (pool.ammConfig, ⟨0, config, BYREAL_CLMM_PROGRAM_ID⟩),
    (Pubkey.fill 101, ⟨0, clock, ZERO_PUBKEY⟩),
    (pool.tokenVault0, ⟨0, leBytes 8 1000000, Pubkey.fill 102⟩),
    (pool.tokenVault1, ⟨0, leBytes 8 1000000, Pubkey.fill 102⟩),
    (pool.tokenMint0, ⟨0, leBytes 8 6, Pubkey.fill 102⟩),
    (pool.tokenMint1, ⟨0, leBytes 8 6, Pubkey.fill 102⟩),
    (extensionAddressOf market, ⟨0, [], BYREAL_CLMM_PROGRAM_ID⟩),
    (tickArrayAddressOf market 0, ⟨0, tickArrayData 0 fun t => if t = 4 then some (-10000000) else none,
      BYREAL_CLMM_PROGRAM_ID⟩),
    (tickArrayAddressOf market (-60), ⟨0, tickArrayData (-60) fun t => if t = -4 then some 10000000
      else none, BYREAL_CLMM_PROGRAM_ID⟩)].lookup key

def accounts (tag : UInt8) (clock config : List UInt8) :
    AccountMap := accountsOf market pool tag clock config

/-- A cache that serves these accounts. -/
def cacheOf (given : AccountMap) : AccountsCache where
  getAccounts _ keys := .ok (keys.map given)

/-- The venue made from the pool account. -/
def venue : ByrealClmmVenue X where
  core := fresh pool
  tokenInfo := ByrealClmmVenue.baseTokenInfo (fresh pool)
  initialized := false
  currentEpoch := 0
  boundsCache := (none, none)

/-! ## A loaded core -/

/-- A fixed array with the net liquidity of its initialised ticks, one slot a tick. -/
def tickSlots (X : Crates) (start : Int) (net : Int → Option Int) : FixedTickArraySnapshot X where
  startTickIndex := start
  ticks i :=
    { tick := start + i.val
      liquidityNet := (net (start + i.val)).getD 0
      isInitialized := (net (start + i.val)).isSome }

/-- A core with both tick arrays, the fee configuration and the oracle prices loaded. -/
def loadedOf (X : Crates) (poolState : PoolState) : CoreByrealClmmVenue X :=
  { freshOf X poolState with
    ammConfig := some ⟨leBytes 8 2500⟩
    bitmapExtension := some ⟨[]⟩
    dynamicTickArrays := [
      (tickArrayAddress 0, .fixed (tickSlots X 0 fun t => if t = 4 then some (-10000000) else none)),
      (tickArrayAddress (-60), .fixed (tickSlots X (-60) fun t => if t = -4 then some 10000000 else none))]
    token0VaultAmount := 1000000
    token1VaultAmount := 1000000
    token0ProgramId := Pubkey.fill 102
    token1ProgramId := Pubkey.fill 102
    token0PythOracleData := some { price := 5, conf := 0, exponent := 0, publishTime := 100 }
    token1PythOracleData := some { price := 7, conf := 0, exponent := 0, publishTime := 100 }
    currentUnixTimestamp := 100 }

/-- The Titan venue over a core that was refreshed. -/
def venueOver {X : Crates} (core : CoreByrealClmmVenue X) : ByrealClmmVenue X where
  core
  tokenInfo := ByrealClmmVenue.baseTokenInfo core
  initialized := true
  currentEpoch := 0
  boundsCache := (none, none)

/-- A request for an exact input of the first mint, or of the second. -/
def requestOf (poolState : PoolState) (zeroForOne : Bool) (amount : UInt64) : QuoteRequest where
  inputMint := if zeroForOne then poolState.tokenMint0 else poolState.tokenMint1
  outputMint := if zeroForOne then poolState.tokenMint1 else poolState.tokenMint0
  amount
  swapType := .exactIn

/-- The market as it is. -/
def goodCache : AccountsCache := cacheOf (accounts 1 (leBytes 8 100) (leBytes 8 2500))

/-- The venue after one refresh. -/
def refreshed : ByrealClmmVenue X := (venue.updateState 100 goodCache).2

/-- The venue of the second market. -/
def secondVenue : ByrealClmmVenue X where
  core := { fresh secondPool with marketId := secondMarket }
  tokenInfo := ByrealClmmVenue.baseTokenInfo { fresh secondPool with marketId := secondMarket }
  initialized := false
  currentEpoch := 0
  boundsCache := (none, none)

def secondCache : AccountsCache :=
  cacheOf (accountsOf secondMarket secondPool 3 (leBytes 8 100) (leBytes 8 2500))

def secondRefreshed : ByrealClmmVenue X := (secondVenue.updateState 100 secondCache).2

end ByrealTitan.Adapter.Sample
