import ByrealTitan.AccountCaching.RpcCache
import ByrealTitan.Base.Errors

/-!
# `AccountCaching.Calls` — one call after another (`src/account_caching/rpc_cache.rs`)

`RpcCache` takes the calls apart into turns, so that any number of them may interleave. Here each call
is the function its caller sees when nothing runs beside it: from the cache and the client's answers to
the cache it leaves, the requests it has sent and its result. `SerialCalls` shows that this is what a
call computes whose turns nobody interrupts.
-/

namespace ByrealTitan

/-- A request that reaches the network. -/
inductive Request where
  | account (pubkey : Pubkey)
  | multipleAccounts (pubkeys : List Pubkey)
deriving DecidableEq

/-- The `RpcClient` during one call: what it would answer to each request, or the `ClientError`. -/
structure RpcClient where
  getAccount : Pubkey → Except String Account
  getMultipleAccounts : List Pubkey → Except String (List (Option Account))

/-- What a call leaves behind. -/
structure Served (α : Type) where
  cache : AccountCache
  requests : List Request
  result : Res AccountCacheError α

namespace AccountCache

variable (cache : AccountCache) (client : RpcClient)

/-- `AccountCache::default()`. -/
def empty : AccountCache := fun _ => none

/-- `get_multiple`: reads the cache and nothing else. -/
def getMultiple (pubkeys : List Pubkey) : List (Option Account) := pubkeys.map fun k => (cache k).getD none

/-- `get_account`. -/
def getAccount (pubkey : Pubkey) : Served (Option Account) :=
  match cache pubkey with
  | some account => ⟨cache, [], .ok account⟩
  | none =>
      match client.getAccount pubkey with
      | .error e     => ⟨cache, [.account pubkey], Res.fail (.failedToFetchAccount e)⟩
      | .ok response => ⟨cache.insert pubkey (some response), [.account pubkey], .ok (some response)⟩

/-- One key of the first loop of `get_accounts`: a hit goes into the
    result map, a miss to the missed keys. -/
def splitHit (split : AccountCache × List Pubkey) (k : Pubkey) : AccountCache × List Pubkey :=
  match cache k with
  | some account => (split.1.insert k account, split.2)
  | none         => (split.1, split.2 ++ [k])

def splitHits (pubkeys : List Pubkey) :
    AccountCache × List Pubkey := pubkeys.foldl cache.splitHit (empty, [])

/-- The second loop, which stores the answered pairs in the result map and in the cache. -/
def insertAll (entries : List (Pubkey × Option Account)) : AccountCache :=
  entries.foldl (fun cache p => cache.insert p.1 p.2) cache

/-- The last loop: the results in the order of the keys, with its `unwrap`. -/
def collect (resultMap : AccountCache) (pubkeys : List Pubkey) :
    Res AccountCacheError (List (Option Account)) :=
  pubkeys.mapM fun k => Res.orPanic (resultMap k)

/-- `get_accounts`. -/
def getAccounts (pubkeys : List Pubkey) : Served (List (Option Account)) :=
  let split := cache.splitHits pubkeys
  if split.2 = [] then ⟨cache, [], split.1.collect pubkeys⟩
  else
    match client.getMultipleAccounts split.2 with
    | .error e => ⟨cache, [.multipleAccounts split.2], Res.fail (.failedToFetchAccount e)⟩
    | .ok response =>
        let entries := split.2.zip response
        ⟨cache.insertAll entries, [.multipleAccounts split.2], (split.1.insertAll entries).collect pubkeys⟩

end AccountCache

/-- A call on the cache. -/
inductive Lookup where
  | getAccount (pubkey : Pubkey)
  | getAccounts (pubkeys : List Pubkey)

/-- The cache that a call leaves. -/
def AccountCache.serve (client : RpcClient) (cache : AccountCache) : Lookup → AccountCache
  | .getAccount k   => (cache.getAccount client k).cache
  | .getAccounts ks => (cache.getAccounts client ks).cache

/-- The cache after calls that ran one after another, each with what its client answered at the time. -/
def AccountCache.after (cache : AccountCache) (history : List (RpcClient × Lookup)) : AccountCache :=
  history.foldl (fun cache call => cache.serve call.1 call.2) cache

end ByrealTitan
