import ByrealTitan.Adapter.Venue
import ByrealTitan.SwapRoute.Spec

/-!
# `SwapRoute.Leg` — route legs from a venue (`src/swap_route/mod.rs`)

`build_swap_leg` works on any `TradingVenue`; `ByrealClmmVenue` is the one the crate has.
-/

namespace ByrealTitan.SwapRoute

open Clmm Adapter

variable {X : Crates}

/-- The position of a mint among the venue's tokens. -/
def tokenPosition (tokens : List TokenInfo) (mint : Pubkey) : VenueRes Nat :=
  Res.orErr (.invalidMint (.pubkey mint)) (tokens.findIdx? fun token => decide (token.pubkey = mint))

def protocolToVenue (venue : Adapter.ByrealClmmVenue X) (request : QuoteRequest) : VenueRes Venue :=
  match venue.protocol with
  | .byrealClmm => do
      let tokens := venue.getTokenInfo
      let inputIndex ← tokenPosition tokens request.inputMint
      let outputIndex ← tokenPosition tokens request.outputMint
      Res.require (¬ (inputIndex = outputIndex ∨ tokens.length < 2))
        (.invalidMint (.pubkey request.inputMint))
      return .byrealClmm (decide (inputIndex = 0 ∧ outputIndex = 1))

def failClosedForTransferFeeRouteMints (venue : Adapter.ByrealClmmVenue X) (request : QuoteRequest) :
    VenueRes Unit :=
  venue.getTokenInfo.forM fun token =>
    Res.require
      (¬ ((token.pubkey = request.inputMint ∨ token.pubkey = request.outputMint)
        ∧ token.transferFee.isSome))
      (.unsupportedVenue (.staticStr
        "Token-2022 transfer-fee route mints require route-level gross/net accounting"))

/-- One account of a leg: the TitanPDA's signer flag is cleared, since it signs through its seeds. -/
def clearSigner (titanPda : Pubkey) (acc : AccountMeta) : AccountMeta :=
  if acc.pubkey = titanPda then { acc with isSigner := false } else acc

def assembleLegAccounts (swapIx : Instruction) (titanPda venueProgramId : Pubkey) : List AccountMeta :=
  swapIx.accounts.map (clearSigner titanPda) ++ [.newReadonly venueProgramId false]

/-- `dest` is the source's `to`; `accounts.len() as u8` keeps the low byte. -/
def buildSwapLeg (venue : Adapter.ByrealClmmVenue X) (request : QuoteRequest) (titanPda : Pubkey)
    (fromIdx dest : UInt8) (weightNanos : UInt32) : VenueRes (SwapSpecInputV2 × List AccountMeta) := do
  failClosedForTransferFeeRouteMints venue request
  let swapIx ← venue.generateSwapInstruction request titanPda
  let accounts := assembleLegAccounts swapIx titanPda venue.programId
  let v ← protocolToVenue venue request
  return ({ venue := v, fromIdx, toIdx := dest, weightNanos, nAccounts := UInt8.ofNat accounts.length },
    accounts)

end ByrealTitan.SwapRoute
