import ByrealTitan.Base.Errors
import ByrealTitan.Clmm.Crates

/-!
# `TradingVenue.TokenInfo` — mint metadata (`src/trading_venue/token_info.rs`)
-/

namespace ByrealTitan

open Clmm

/-- Metadata of one mint of a venue. -/
structure TokenInfo where
  pubkey : Pubkey
  decimals : Int
  isToken2022 : Bool
  transferFee : Option UInt16
  maximumFee : Option UInt64
deriving DecidableEq

namespace TokenInfo

/-- `TokenInfo::new`: unpack a mint account, with the transfer fee of the epoch. -/
def new (X : Crates) (pubkey : Pubkey) (account : Account) (epoch : Nat) : VenueRes TokenInfo :=
  match X.unpackMint account.data with
  | .error _ => Res.fail (.deserializationFailed (.pubkey pubkey))
  | .ok mint =>
      .ok {
        pubkey
        decimals := mint.decimals.toNat
        isToken2022 := decide (account.owner = X.SPL_TOKEN_2022_ID)
        transferFee := (mint.epochFee epoch).map Prod.fst
        maximumFee := (mint.epochFee epoch).map Prod.snd }

def getTokenProgram (X : Crates) (info : TokenInfo) : Pubkey :=
  if info.isToken2022 then X.SPL_TOKEN_2022_ID else X.SPL_TOKEN_ID

def getAssociatedTokenAddress (X : Crates) (info : TokenInfo) (wallet : Pubkey) : Pubkey :=
  X.getAssociatedTokenAddressWithProgramId wallet info.pubkey (info.getTokenProgram X)

/-- Unpacking keeps the address. -/
theorem new_pubkey {X : Crates} {pubkey : Pubkey} {account : Account} {epoch : Nat} {info : TokenInfo}
    (h : new X pubkey account epoch = .ok info) : info.pubkey = pubkey := by
  unfold new at h
  split at h
  · cases h
  · cases h
    rfl

end TokenInfo

end ByrealTitan
