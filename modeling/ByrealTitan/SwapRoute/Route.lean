import ByrealTitan.Program.Entry
import ByrealTitan.SwapRoute.Leg

/-!
# `SwapRoute.Route` — a whole route instruction (`program/.../tests/common/mod.rs`)

The SDK crate builds the legs of a route and encodes its data; the instruction around them is put
together by the caller. The repository has one such caller, the route tests: one leg, from the payer's
own token account to the payer's own token account, with no ledger and none of the reserved accounts.
-/

namespace ByrealTitan.SwapRoute

open Clmm Adapter

variable {X : Crates}

/-- `token_for_mint`: the tests expect the mint to be one of the venue's. -/
def tokenForMint (venue : Adapter.ByrealClmmVenue X) (mint : Pubkey) : VenueRes TokenInfo :=
  Res.orPanic (venue.getTokenInfo.find? fun token => decide (token.pubkey = mint))

/-- The accounts that `swap_route_v3` declares, in its order, and behind them the ATAs and mints of the
    two-mint route. The program's own address stands for each absent account. -/
def routeAccounts (associatedTokenProgram payer titanPda inputAta outputAta titanInputAta titanOutputAta
    inputMint outputMint splToken splToken2022 : Pubkey) : List AccountMeta :=
  [.new payer true, .new payer true, .new titanPda false, .new inputAta false, .new outputAta false,
    .newReadonly splToken false, .newReadonly splToken2022 false,
    .newReadonly Program.SYSTEM_PROGRAM_ID false, .newReadonly associatedTokenProgram false,
    .newReadonly Program.ID false, .newReadonly Program.ID false, .newReadonly Program.ID false,
    .new titanInputAta false, .new titanOutputAta false, .newReadonly inputMint false,
    .newReadonly outputMint false]

/-- `build_route_instruction`. -/
def buildRouteInstruction (associatedTokenProgram payer titanPda : Pubkey)
    (venue : Adapter.ByrealClmmVenue X) (request : QuoteRequest) : VenueRes Instruction := do
  let inputToken ← tokenForMint venue request.inputMint
  let outputToken ← tokenForMint venue request.outputMint
  let ata := X.getAssociatedTokenAddressWithProgramId
  let inputAta := ata payer request.inputMint (inputToken.getTokenProgram X)
  let outputAta := ata payer request.outputMint (outputToken.getTokenProgram X)
  let titanInputAta := ata titanPda request.inputMint (inputToken.getTokenProgram X)
  let titanOutputAta := ata titanPda request.outputMint (outputToken.getTokenProgram X)
  let accounts := routeAccounts associatedTokenProgram payer titanPda inputAta outputAta titanInputAta
    titanOutputAta request.inputMint request.outputMint X.SPL_TOKEN_ID X.SPL_TOKEN_2022_ID
  let (spec, legAccounts) ← buildSwapLeg venue request titanPda 0 1 ROUTE_WEIGHT_ALL
  return { programId := Program.ID
           accounts := accounts ++ legAccounts
           data := encodeSwapRouteV3Data request.amount 2 [spec] }

end ByrealTitan.SwapRoute
