import ByrealTitan.Base.Instruction
import ByrealTitan.Clmm.Quote
import ByrealTitan.Clmm.Refresh

/-!
# `Clmm.Instruction` — the swap instruction of the core venue (`src/byreal_clmm/core.rs`)

The writable tick arrays of an instruction are chosen apart from those a refresh loads
(`getAllTickArrayAddresses`) and from those the simulation visits: the arrays the pool's own helper lists
in the direction of the swap, filtered by what is loaded.
-/

namespace ByrealTitan.Clmm

structure SwapBuildRequest where
  userAuthority : Pubkey
  sourceMint : Pubkey
  destinationMint : Pubkey
  sourceTokenAccount : Pubkey
  destinationTokenAccount : Pubkey
  amount : UInt64
  otherAmountThreshold : UInt64

namespace ByrealClmmVenue

variable {X : Crates} (v : ByrealClmmVenue X)

/-- The fallback of `get_swap_tick_arrays`: consecutive arrays from the current one on. -/
def fallbackSwapStarts (zeroForOne : Bool) : List Int :=
  v.currentStartIndex :: v.fallbackOffsets.map fun o =>
    saturateI32 (if zeroForOne then v.currentStartIndex - o else v.currentStartIndex + o)

/-- The start indexes of `get_swap_tick_arrays`. -/
def swapStarts (zeroForOne : Bool) : List Int :=
  match X.getFirstInitializedTickArray v.poolState v.bitmapExtension zeroForOne with
  | .ok (_, firstStart) =>
      firstStart :: v.followTickArrays zeroForOne (v.maxOneSideTickArrays - 1) firstStart
  | .error _ => v.fallbackSwapStarts zeroForOne

def getSwapTickArrays (zeroForOne : Bool) : List Pubkey :=
  (v.swapStarts zeroForOne).map v.getTickArrayAddress

/-- Whether an array with this key is loaded, `dynamic_tick_arrays.contains_key`. -/
def isLoaded (key : Pubkey) : Bool := decide (key ∈ v.dynamicTickArrays.map Prod.fst)

/-- The loop of `live_directional_tick_arrays`: keys that are not loaded are dropped, but the first one
    has to be. -/
def keepLive : (keys live : List Pubkey) → VenueRes (List Pubkey)
  | [],          live => .ok live
  | key :: keys, live =>
      if v.isLoaded key then keepLive keys (live ++ [key])
      else if live.isEmpty then
        Res.fail (.missingState (.string
          ("directional first tick array account missing for swap: " ++ key.toText)))
      else keepLive keys live

def liveDirectionalTickArrays (zeroForOne : Bool) : VenueRes (List Pubkey) := do
  let live ← v.keepLive (v.getSwapTickArrays zeroForOne) []
  Res.require (live.isEmpty = false) (.missingState (.staticStr
    "no directional tick array accounts available; call update_state() with tick arrays"))
  return live

/-- Input vault, output vault, and their mints. -/
def directionalVaults (zeroForOne : Bool) : Pubkey × Pubkey × Pubkey × Pubkey :=
  let ps := v.poolState
  if zeroForOne then (ps.tokenVault0, ps.tokenVault1, ps.tokenMint0, ps.tokenMint1)
  else (ps.tokenVault1, ps.tokenVault0, ps.tokenMint1, ps.tokenMint0)

/-- The accounts before the tick arrays. -/
def leadingAccounts (zeroForOne : Bool) (request : SwapBuildRequest) : List AccountMeta :=
  let (inputVault, outputVault, inputVaultMint, outputVaultMint) := v.directionalVaults zeroForOne
  [.newReadonly request.userAuthority true,
    .newReadonly v.poolState.ammConfig false,
    .new v.marketId false,
    .new request.sourceTokenAccount false,
    .new request.destinationTokenAccount false,
    .new inputVault false,
    .new outputVault false,
    .new v.poolState.observationKey false,
    .newReadonly X.SPL_TOKEN_ID false,
    .newReadonly X.SPL_TOKEN_2022_ID false,
    .newReadonly X.SPL_MEMO_ID false,
    .newReadonly inputVaultMint false,
    .newReadonly outputVaultMint false,
    .newReadonly v.tickArrayBitmapExtensionKey false]

/-- The oracles behind the tick arrays, where the fee is dynamic. -/
def oracleAccounts : VenueRes (List AccountMeta) :=
  if v.isSwapDynamicFeeEnabled then do
    let token0Pyth ← Res.orErr (.missingState (.staticStr "token0 pyth feed id is not configured"))
      v.token0PythOraclePubkey
    let token1Pyth ← Res.orErr (.missingState (.staticStr "token1 pyth feed id is not configured"))
      v.token1PythOraclePubkey
    return [.newReadonly token0Pyth false, .newReadonly token1Pyth false]
  else .ok []

def buildSwapInstruction (request : SwapBuildRequest) : VenueRes Instruction := do
  v.ensureOpen
  let (inputIs0, _) ← v.validateMints request.sourceMint request.destinationMint
  let zeroForOne := inputIs0
  let data := X.swapV3DynData request.amount request.otherAmountThreshold 0 true
  let live ← v.liveDirectionalTickArrays zeroForOne
  let oracles ← v.oracleAccounts
  return {
    programId := v.programId
    accounts := v.leadingAccounts zeroForOne request ++ live.map (fun key => .new key false) ++ oracles
    data }

end ByrealClmmVenue

end ByrealTitan.Clmm
