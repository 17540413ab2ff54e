import ByrealTitan.Base.Account

/-!
# `Clmm.Crates` — what the venue takes from other crates

The pool state, the tick and bitmap utilities, the swap and fee mathematics and the account decoders come
from crates outside the repository (`byreal_clmm`, the Pyth SDK, the SPL and Solana crates). `Crates` is
one record of them; the venue model is written over an arbitrary one, and each theorem names the laws it
needs. A crate function that can fail returns the text of its error.

Unsigned words are `Nat`, ticks, timestamps and net liquidity `Int`; bounds stand where the venue checks
them.
-/

namespace ByrealTitan.Clmm

/-! ## Crate types -/

/-- The fields of `PoolState` the venue reads; `other` keeps the bytes only the crate's methods look at. -/
structure PoolState where
  ammConfig : Pubkey
  tokenMint0 : Pubkey
  tokenMint1 : Pubkey
  tokenVault0 : Pubkey
  tokenVault1 : Pubkey
  observationKey : Pubkey
  mintDecimals0 : UInt8
  mintDecimals1 : UInt8
  tickSpacing : UInt16
  liquidity : Nat
  sqrtPriceX64 : Nat
  tickCurrent : Int
  tickArrayBitmap : List UInt64
  openTime : Nat
  token0PythFeedId : Pubkey
  token1PythFeedId : Pubkey
  arbitrageFeeBufferPpm : Nat
  tradeSlippageFeeBaseMilliBp : Nat
  tradeSlippageFeeTradeSizeThreshold : Nat
  imbalanceFeeBaseTenthsOfBp : Nat
  imbalanceFeeX : Nat
  other : List UInt8
deriving DecidableEq

/-- A crate value the venue stores and hands back, as its bytes. -/
structure AmmConfig where
  bytes : List UInt8
deriving DecidableEq

/-- See `AmmConfig`. -/
structure TickArrayBitmapExtension where
  bytes : List UInt8
deriving DecidableEq

/-- One tick slot. -/
structure TickState where
  tick : Int
  liquidityNet : Int
  isInitialized : Bool
deriving DecidableEq

/-- The header of a dynamic tick array. -/
structure DynTickArrayState where
  startTickIndex : Int
  bytes : List UInt8
deriving DecidableEq

structure Price where
  price : Int
  conf : Nat
  exponent : Int
  publishTime : Int
deriving DecidableEq

structure PriceUpdateV2 where
  bytes : List UInt8
deriving DecidableEq

structure Clock where
  epoch : Nat
  unixTimestamp : Int
deriving DecidableEq

/-- A mint as `StateWithExtensions` unpacks it, with the transfer fee in force at an epoch. -/
structure Mint where
  decimals : UInt8
  epochFee : Nat → Option (UInt16 × UInt64)

structure SwapStep where
  sqrtPriceNextX64 : Nat
  amountIn : Nat
  amountOut : Nat
  feeAmount : Nat
deriving DecidableEq

structure DynamicFeeInputs where
  p0 : Nat
  pIndex : Nat
  tradeSize : Nat
  quoteValueOfBase : Nat
  quoteBalance : Nat
  isBuyingBase : Bool
  feeBase : Nat
  arbitrageFeeBufferPpm : Nat
  tradeSlippageFeeBaseMilliBp : Nat
  tradeSlippageFeeTradeSizeThreshold : Nat
  imbalanceFeeBaseTenthsOfBp : Nat
  imbalanceFeeX : Nat

/-! ## The crates -/

structure Crates where
  -- addresses
  findProgramAddress : (seeds : List (List UInt8)) → (program : Pubkey) → Pubkey
  getAssociatedTokenAddressWithProgramId : (wallet mint tokenProgram : Pubkey) → Pubkey
  CLOCK_ID : Pubkey
  SPL_TOKEN_ID : Pubkey
  SPL_TOKEN_2022_ID : Pubkey
  SPL_MEMO_ID : Pubkey
  PYTH_RECEIVER_PROGRAM_ID : Pubkey
  PYTH_PRICE_FEED_PROGRAM_ID : Pubkey
  TICK_ARRAY_SEED : List UInt8
  -- constants
  TICK_ARRAY_SIZE : Nat
  MIN_TICK : Int
  MAX_TICK : Int
  MIN_SQRT_PRICE_X64 : Nat
  MAX_SQRT_PRICE_X64 : Nat
  FEE_RATE_DENOMINATOR_VALUE : Nat
  Q64 : Nat
  -- account decoding
  decodePoolState : List UInt8 → Except String PoolState
  decodeAmmConfig : List UInt8 → Except String AmmConfig
  decodeBitmapExtension : List UInt8 → Except String TickArrayBitmapExtension
  decodePriceUpdate : List UInt8 → Except String PriceUpdateV2
  getPriceUnchecked : PriceUpdateV2 → (feedId : Pubkey) → Except String Price
  decodeClock : List UInt8 → Except String Clock
  unpackTokenAccount : List UInt8 → Except String Nat
  unpackToken2022Account : List UInt8 → Except String Nat
  unpackMint : List UInt8 → Except String Mint
  DYN_TICK_ARRAY_DISCRIMINATOR : List UInt8
  DYN_TICK_ARRAY_HEADER_LEN : Nat
  readDynTickArray : List UInt8 → DynTickArrayState
  TICK_ARRAY_DISCRIMINATOR : List UInt8
  TICK_STATE_SIZE : Nat
  readTickState : List UInt8 → TickState
  -- methods of `PoolState`
  isSwapDynamicFeeEnabled : PoolState → Bool
  getStatusByBitSwap : PoolState → Bool
  isToken1Quote : PoolState → Bool
  calculateBaseTradeFeeRate : PoolState → AmmConfig → (zeroForOne : Bool) → (timestamp : Nat) →
    Except String Nat
  tickArrayStartIndexRange : PoolState → Int × Int
  isOverflowDefaultTickarrayBitmap : PoolState → List Int → Bool
  getFirstInitializedTickArray : PoolState → Option TickArrayBitmapExtension → (zeroForOne : Bool) →
    Except String (Bool × Int)
  poolNextInitializedTickArrayStartIndex : PoolState → Option TickArrayBitmapExtension →
    (lastStart : Int) → (zeroForOne : Bool) → Except String (Option Int)
  -- ticks and bitmaps
  getArrayStartIndex : (tick : Int) → (spacing : Nat) → Int
  getTickOffsetInTickArray : (start tick : Int) → (spacing : Nat) → Except String Nat
  checkCurrentTickArrayIsInitialized : List UInt64 → (tick : Int) → (spacing : Nat) →
    Except String (Bool × Int)
  nextInitializedTickArrayStartIndex : List UInt64 → (lastStart : Int) → (spacing : Nat) →
    (zeroForOne : Bool) → Bool × Int
  extensionCheckTickArrayIsInitialized : TickArrayBitmapExtension → (start : Int) → (spacing : Nat) →
    Except String (Bool × Int)
  extensionNextInitializedTickArrayFromOneBitmap : TickArrayBitmapExtension → (lastStart : Int) →
    (spacing : Nat) → (zeroForOne : Bool) → Except String (Bool × Int)
  dynNextInitializedTickIndex : DynTickArrayState → List TickState → (tick : Int) → (spacing : Nat) →
    (zeroForOne : Bool) → Except String (Option Nat)
  dynFirstInitializedTickIndex : DynTickArrayState → List TickState → (zeroForOne : Bool) →
    Except String Nat
  dynGetTickIndexInArray : DynTickArrayState → (tick : Int) → (spacing : Nat) → Except String Nat
  -- mathematics
  getSqrtPriceAtTick : Int → Except String Nat
  getTickAtSqrtPrice : Nat → Except String Int
  computeSwapStep : (sqrtPriceCurrent sqrtPriceTarget liquidity amountRemaining feeRate : Nat) →
    (isBaseInput zeroForOne : Bool) → (blockTimestamp : Nat) → Except String SwapStep
  addDelta : (liquidity : Nat) → (delta : Int) → Except String Nat
  priceFromSqrtPriceX64 : Nat → Except String Nat
  quoteAmountFromBase : (baseAmount p0 : Nat) → (token1AsQuote : Bool) → Except String Nat
  normalizeTradeSize : (quoteAmount : Nat) → (quoteDecimals : UInt8) → Except String Nat
  calculatePriceIndex : Price → Price → UInt8 → UInt8 → Except String Nat
  /-- The `total_fee_rate` of `calculate_dynamic_fee_rate`. -/
  calculateDynamicFeeRate : DynamicFeeInputs → Except String Nat
  -- instruction data
  swapV3DynData : (amount otherAmountThreshold : UInt64) → (sqrtPriceLimitX64 : Nat) →
    (isBaseInput : Bool) → List UInt8

end ByrealTitan.Clmm
