import ByrealTitan.Base.Account
import ByrealTitan.Lib.Fault

/-!
# `Base.Errors` — requests, results and errors of a trading venue

The error types of `src/trading_venue/error.rs` and `src/account_caching/mod.rs`, with the variants the
venue code raises, and the request and result types of `src/trading_venue/mod.rs`.
-/

namespace ByrealTitan

inductive ErrorInfo where
  | pubkey (k : Pubkey)
  | string (s : String)
  | staticStr (s : String)
deriving DecidableEq

inductive PoolProtocol where
  | byrealClmm
deriving DecidableEq

/-- The canonical label, `From<PoolProtocol> for String`. -/
def PoolProtocol.label : PoolProtocol → String
  | .byrealClmm => "ByrealClmm"

inductive AccountCacheError where
  | failedToFetchAccount (clientError : String)
  | failedToAcquireWriteLock
  | failedToAcquireReadLock
deriving DecidableEq

inductive TradingVenueError where
  | deserializationFailed (info : ErrorInfo)
  | notInitialized (info : ErrorInfo)
  | missingState (info : ErrorInfo)
  | invalidMint (info : ErrorInfo)
  | exactOutNotSupported
  | boundarySearchFailed (info : ErrorInfo)
  | noQuotableValue (info : ErrorInfo)
  | unsupportedVenue (info : ErrorInfo)
  | tokenInfoIndexError (index : Nat)
  | mathError (info : ErrorInfo)
  | inactivePoolError (market : Pubkey) (protocol : PoolProtocol)
  | accountCacheError (e : AccountCacheError)
deriving DecidableEq

inductive SwapType where
  | exactIn
  | exactOut
deriving DecidableEq

structure QuoteRequest where
  inputMint : Pubkey
  outputMint : Pubkey
  amount : UInt64
  swapType : SwapType

structure QuoteResult where
  inputMint : Pubkey
  outputMint : Pubkey
  amount : Nat
  expectedOutput : Nat
  notEnoughLiquidity : Bool
  price : Float

/-- The outcome of venue code: a value, one of its errors, or a panic. -/
abbrev VenueRes (α : Type) := Res TradingVenueError α

end ByrealTitan
