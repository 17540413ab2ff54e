import ByrealTitan.Clmm.Refresh

/-!
# `Clmm.Reference` — concrete crates

An executable `Crates`, so that venues can be refreshed and quoted: the price of a tick as a product of
the powers of `1.0001^(-1/2)`, constant-liquidity swap steps with their roundings, the bitmap of 1024
arrays around tick zero, and an empty bitmap extension beyond it. Accounts carry a tag or a few numbers in
place of their full layout, addresses are a hash of their seeds, and the dynamic fee is the base fee.
-/

namespace ByrealTitan.Clmm.Reference

open LittleEndian

/-! ## Prices and ticks -/

/-- `1.0001^(-2^i / 2)` in Q64. -/
def sqrtFactors : List Nat :=
  [0xfffcb933bd6fb800, 0xfff97272373d4000, 0xfff2e50f5f657000, 0xffe5caca7e10f000, 0xffcb9843d60f7000,
    0xff973b41fa98e800, 0xff2ea16466c9b000, 0xfe5dee046a9a3800, 0xfcbe86c7900bb000, 0xf987a7253ac65800,
    0xf3392b0822bb6000, 0xe7159475a2caf000, 0xd097f3bdfd2f2000, 0xa9f746462d9f8000, 0x70d869a156f31c00,
    0x31be135f97ed3200, 0x9aa508b5b85a500, 0x5d6af8dedc582c, 0x2216e584f5fa]

def maxTick : Int := 443636

def getSqrtPriceAtTick (tick : Int) : Except String Nat :=
  if tick < -maxTick ∨ maxTick < tick then .error "tick out of range"
  else
    let ratio := sqrtFactors.zipIdx.foldl
      (fun ratio p => if tick.natAbs.testBit p.2 then ratio * p.1 / 2 ^ 64 else ratio) (2 ^ 64)
    .ok (if 0 < tick then (2 ^ 128 - 1) / ratio else ratio)

def minSqrtPrice : Nat := 4295048016

def maxSqrtPrice : Nat := 79226673521066979257578248091

/-- The greatest tick in `[low, high)` whose price is at most `price`, by halving. -/
def searchTick (price : Nat) : (fuel : Nat) → (low high : Int) → Int
  | 0,        low, _    => low
  | fuel + 1, low, high =>
      if high ≤ low + 1 then low
      else
        let mid := (low + high) / 2
        match getSqrtPriceAtTick mid with
        | .ok p    => if p ≤ price then searchTick price fuel mid high else searchTick price fuel low mid
        | .error _ => low

/-- Prices between those of the ticks -64 and 64 are searched for among these only. -/
def getTickAtSqrtPrice (price : Nat) : Except String Int :=
  if price < minSqrtPrice ∨ maxSqrtPrice ≤ price then .error "price out of range"
  else if (getSqrtPriceAtTick (-64)).toOption.getD 0 ≤ price ∧
      price < (getSqrtPriceAtTick 64).toOption.getD 0 then .ok (searchTick price 8 (-64) 64)
  else .ok (searchTick price 20 (-maxTick) (maxTick + 1))

/-! ## Swap steps -/

def divUp (a b : Nat) : Nat := (a + b - 1) / b

def feeDenominator : Nat := 1000000

/-- The change of token 0 between two prices. -/
def deltaAmount0 (low high liquidity : Nat) (roundUp : Bool) : Nat :=
  let scaled := liquidity * 2 ^ 64 * (high - low)
  if roundUp then divUp (divUp scaled high) low else scaled / high / low

/-- The change of token 1 between two prices. -/
def deltaAmount1 (low high liquidity : Nat) (roundUp : Bool) : Nat :=
  if roundUp then divUp (liquidity * (high - low)) (2 ^ 64) else liquidity * (high - low) / 2 ^ 64

def nextPriceFromInput (price liquidity amount : Nat) (zeroForOne : Bool) : Nat :=
  if zeroForOne then divUp (liquidity * 2 ^ 64 * price) (liquidity * 2 ^ 64 + amount * price)
  else price + amount * 2 ^ 64 / liquidity

/-- An exact-in step. -/
def computeSwapStep (price target liquidity remaining feeRate : Nat) (_isBaseInput zeroForOne : Bool)
    (_blockTimestamp : Nat) : Except String SwapStep :=
  let amountIn := fun next =>
    if zeroForOne then deltaAmount0 next price liquidity true else deltaAmount1 price next liquidity true
  let amountOut := fun next =>
    if zeroForOne then deltaAmount1 next price liquidity false else deltaAmount0 price next liquidity false
  let lessFee := remaining * (feeDenominator - feeRate) / feeDenominator
  let next := if amountIn target ≤ lessFee then target
    else nextPriceFromInput price liquidity lessFee zeroForOne
  .ok {
    sqrtPriceNextX64 := next
    amountIn := amountIn next
    amountOut := amountOut next
    feeAmount := if next = target then divUp (amountIn next * feeRate) (feeDenominator - feeRate)
      else remaining - amountIn next }

def addDelta (liquidity : Nat) (delta : Int) : Except String Nat :=
  if 0 ≤ liquidity + delta then .ok (liquidity + delta).toNat else .error "liquidity underflow"

/-! ## Tick arrays and bitmaps -/

def tickArraySize : Nat := 60

/-- The ticks one array spans. -/
def arrayTicks (spacing : Nat) : Int := tickArraySize * spacing

def getArrayStartIndex (tick : Int) (spacing : Nat) : Int :=
  tick / arrayTicks spacing * arrayTicks spacing

def getTickOffsetInTickArray (start tick : Int) (spacing : Nat) : Except String Nat :=
  .ok ((tick - start) / spacing).toNat

/-- The 1024 bits as a number. -/
def bits (bitmap : List UInt64) : Nat := bitmap.foldr (fun word n => word.toNat + 2 ^ 64 * n) 0

/-- Whether the pool's bitmap marks the array at a position. -/
def marked (bitmap : List UInt64) (position : Int) : Bool :=
  decide (0 ≤ position) && (bits bitmap).testBit position.toNat

def checkCurrentTickArrayIsInitialized (bitmap : List UInt64) (tick : Int) (spacing : Nat) :
    Except String (Bool × Int) :=
  let index := tick / arrayTicks spacing
  .ok (marked bitmap (index + 512), index * arrayTicks spacing)

/-- The first marked array among `count` arrays from `index` on. -/
def searchBitmap (bitmap : List UInt64) (step : Int) : (count : Nat) → (index : Int) → Option Int
  | 0,         _     => none
  | count + 1, index =>
      if marked bitmap (index + 512) then some index else searchBitmap bitmap step count (index + step)

/-- The first marked array from `index` on, where any bit from there on is set. -/
def firstMarked (bitmap : List UInt64) (zeroForOne : Bool) (index : Int) : Option Int :=
  let position := (index + 512).toNat
  if zeroForOne then
    if bits bitmap % 2 ^ (position + 1) = 0 then none else searchBitmap bitmap (-1) (position + 1) index
  else
    if bits bitmap / 2 ^ position = 0 then none else searchBitmap bitmap 1 (1024 - position) index

def nextInitializedTickArrayStartIndex (bitmap : List UInt64) (last : Int) (spacing : Nat)
    (zeroForOne : Bool) : Bool × Int :=
  let index := last / arrayTicks spacing + (if zeroForOne then -1 else 1)
  if index < -512 ∨ 512 ≤ index then (false, last)
  else
    match firstMarked bitmap zeroForOne index with
    | some i => (true, i * arrayTicks spacing)
    | none   => (false, (if zeroForOne then -512 else 511) * arrayTicks spacing)

/-- An extension without marks: the search ends at the edge of the 512 arrays it looked at. -/
def emptyExtensionNext (last : Int) (spacing : Nat) (zeroForOne : Bool) : Bool × Int :=
  let span := 512 * arrayTicks spacing
  if zeroForOne then (false, (last - arrayTicks spacing) / span * span)
  else (false, ((last + arrayTicks spacing) / span + 1) * span - arrayTicks spacing)

/-! ## Accounts and addresses -/

/-- A hash of the seeds into 32 bytes. -/
def address (seeds : List (List UInt8)) (program : Pubkey) : Pubkey :=
  let hash := (seeds.flatten ++ program.bytes).foldl (fun h b => (257 * h + b.toNat + 1) % 2 ^ 256) 7
  ⟨leBytes 32 hash, length_leBytes 32 hash⟩

/-- Decode an account by looking it up. -/
def decodeBy {α : Type} (table : List (List UInt8 × α)) (data : List UInt8) : Except String α :=
  match table.lookup data with
  | some a => .ok a
  | none   => .error "undecodable"

/-- Eight bytes are a number. -/
def decodeNat (data : List UInt8) : Except String Nat :=
  if data.length = 8 then .ok (leNat data) else .error "undecodable"

/-- A tick slot: whether it is initialised, then the tick and its net liquidity as `i32`. -/
def readTickState (bytes : List UInt8) : TickState where
  tick := readI32 ((bytes.drop 1).take 4)
  liquidityNet := readI32 ((bytes.drop 5).take 4)
  isInitialized := decide (bytes.head? = some 1)

/-- The crates over the pool states that their accounts decode to. The dynamic fee is enabled where `other`
    starts with a one. -/
def crates (pools : List (List UInt8 × PoolState)) : Crates where
  findProgramAddress := address
  getAssociatedTokenAddressWithProgramId wallet mint tokenProgram :=
    address [wallet.bytes, tokenProgram.bytes, mint.bytes] (Pubkey.fill 140)
  CLOCK_ID := Pubkey.fill 101
  SPL_TOKEN_ID := Pubkey.fill 102
  SPL_TOKEN_2022_ID := Pubkey.fill 103
  SPL_MEMO_ID := Pubkey.fill 104
  PYTH_RECEIVER_PROGRAM_ID := Pubkey.fill 105
  PYTH_PRICE_FEED_PROGRAM_ID := Pubkey.fill 106
  TICK_ARRAY_SEED := utf8 "tick_array"
  TICK_ARRAY_SIZE := tickArraySize
  MIN_TICK := -maxTick
  MAX_TICK := maxTick
  MIN_SQRT_PRICE_X64 := minSqrtPrice
  MAX_SQRT_PRICE_X64 := maxSqrtPrice
  FEE_RATE_DENOMINATOR_VALUE := feeDenominator
  Q64 := 2 ^ 64
  decodePoolState := decodeBy pools
  decodeAmmConfig data := (decodeNat data).map fun _ => ⟨data⟩
  decodeBitmapExtension data := if data = [] then .ok ⟨[]⟩ else .error "undecodable"
  decodePriceUpdate data := (decodeNat data).map fun _ => ⟨data⟩
  getPriceUnchecked update _ :=
    .ok { price := leNat update.bytes, conf := 0, exponent := 0, publishTime := 0 }
  decodeClock data :=
    (decodeNat data).map fun n => { epoch := n / 432000, unixTimestamp := n }
  unpackTokenAccount := decodeNat
  unpackToken2022Account := decodeNat
  unpackMint data := (decodeNat data).map fun n =>
    { decimals := UInt8.ofNat n, epochFee := fun _ => none }
  DYN_TICK_ARRAY_DISCRIMINATOR := [2, 0, 0, 0, 0, 0, 0, 0]
  DYN_TICK_ARRAY_HEADER_LEN := 12
  readDynTickArray bytes := { startTickIndex := readI32 bytes, bytes }
  TICK_ARRAY_DISCRIMINATOR := [1, 0, 0, 0, 0, 0, 0, 0]
  TICK_STATE_SIZE := 9
  readTickState := readTickState
  isSwapDynamicFeeEnabled pool := decide (pool.other.head? = some 1)
  getStatusByBitSwap _ := true
  isToken1Quote _ := true
  calculateBaseTradeFeeRate _ config _ _ := .ok (leNat config.bytes)
  tickArrayStartIndexRange pool :=
    (-512 * arrayTicks pool.tickSpacing.toNat, 512 * arrayTicks pool.tickSpacing.toNat)
  isOverflowDefaultTickarrayBitmap _ _ := false
  getFirstInitializedTickArray pool _ zeroForOne :=
    let spacing := pool.tickSpacing.toNat
    let index := pool.tickCurrent / arrayTicks spacing
    if marked pool.tickArrayBitmap (index + 512) then .ok (true, index * arrayTicks spacing)
    else
      let next := nextInitializedTickArrayStartIndex pool.tickArrayBitmap (index * arrayTicks spacing)
        spacing zeroForOne
      if next.1 then .ok (false, next.2) else .error "no initialized tick array"
  poolNextInitializedTickArrayStartIndex pool _ last zeroForOne :=
    let next := nextInitializedTickArrayStartIndex pool.tickArrayBitmap last pool.tickSpacing.toNat
      zeroForOne
    .ok (if next.1 then some next.2 else none)
  getArrayStartIndex := getArrayStartIndex
  getTickOffsetInTickArray := getTickOffsetInTickArray
  checkCurrentTickArrayIsInitialized := checkCurrentTickArrayIsInitialized
  nextInitializedTickArrayStartIndex := nextInitializedTickArrayStartIndex
  extensionCheckTickArrayIsInitialized _ start _ := .ok (false, start)
  extensionNextInitializedTickArrayFromOneBitmap _ last spacing zeroForOne :=
    .ok (emptyExtensionNext last spacing zeroForOne)
  dynNextInitializedTickIndex _ _ _ _ _ := .ok none
  dynFirstInitializedTickIndex _ _ _ := .error "no initialized tick"
  dynGetTickIndexInArray _ _ _ := .error "not in this array"
  getSqrtPriceAtTick := getSqrtPriceAtTick
  getTickAtSqrtPrice := getTickAtSqrtPrice
  computeSwapStep := computeSwapStep
  addDelta := addDelta
  priceFromSqrtPriceX64 price := .ok (price * price / 2 ^ 64)
  quoteAmountFromBase base p0 _ := .ok (base * p0 / 2 ^ 64)
  normalizeTradeSize amount _ := .ok amount
  calculatePriceIndex price0 price1 _ _ := .ok (price0.price * 2 ^ 64 / price1.price).toNat
  calculateDynamicFeeRate inputs := .ok inputs.feeBase
  swapV3DynData amount threshold limit isBaseInput :=
    [229, 46, 213, 132, 105, 40, 40, 228] ++ leBytes 8 amount.toNat ++ leBytes 8 threshold.toNat
      ++ leBytes 16 limit ++ [if isBaseInput then 1 else 0]

end ByrealTitan.Clmm.Reference
