import ByrealTitan.Base.Account

/-!
# `AccountCaching.RpcCache` — the account cache and its calls (`src/account_caching/rpc_cache.rs`)

Any number of `get_account` and `get_accounts` calls run on one cache. Each is a little machine: it
looks its keys up, sends one request for those it missed, waits, stores what it was answered, and
returns. A lookup, an answer and an insert are one turn of the call that makes it; between two turns any
other call may take turns. What the network answers is an input of the turn, so two requests for one key
may be answered differently.
-/

namespace ByrealTitan

/-- `DashMap<Pubkey, Option<Account>>`: an absent key is `none`, a known-missing account `some none`. -/
abbrev AccountCache := Pubkey → Option (Option Account)

/-- `insert`, also of the result map of `get_accounts`. -/
def AccountCache.insert (cache : AccountCache) (key : Pubkey) (value : Option Account) : AccountCache :=
  fun k => if k = key then some value else cache k

/-- Where a call stands. -/
inductive Call where
  /-- `get_account`, before its lookup. -/
  | account (pubkey : Pubkey)
  | accountRequested (pubkey : Pubkey)
  | accountAnswered (pubkey : Pubkey) (response : Account)
  /-- `get_accounts`, with the keys still to look up, the missed ones and the result map. -/
  | accounts (pubkeys rest keys : List Pubkey) (resultMap : AccountCache)
  | accountsRequested (pubkeys keys : List Pubkey) (resultMap : AccountCache)
  | accountsAnswered (pubkeys : List Pubkey) (todo : List (Pubkey × Option Account))
      (resultMap : AccountCache)
  | returned (values : List (Pubkey × Option Account))
  | failed
  /-- The `unwrap` of a key that the result map lacks. -/
  | panicked

/-- What the network answers a waiting call. -/
inductive Reply where
  | failed
  | account (response : Account)
  | accounts (response : List (Option Account))

/-- The results in the order of the keys. -/
def reassemble (pubkeys : List Pubkey) (resultMap : AccountCache) : Call :=
  match pubkeys.mapM fun k => (resultMap k).map fun v => (k, v) with
  | some values => .returned values
  | none        => .panicked

/-- One turn of a call: the cache and the call it leaves. The reply is read by waiting calls only. -/
def Call.turn (cache : AccountCache) (reply : Reply) : Call → Option (AccountCache × Call)
  | .account k =>
      match cache k with
      | some value => some (cache, .returned [(k, value)])
      | none       => some (cache, .accountRequested k)
  | .accountRequested k =>
      match reply with
      | .account response => some (cache, .accountAnswered k response)
      | .failed           => some (cache, .failed)
      | .accounts _       => none
  | .accountAnswered k response => some (cache.insert k (some response), .returned [(k, some response)])
  | .accounts pubkeys (k :: rest) keys resultMap =>
      match cache k with
      | some value => some (cache, .accounts pubkeys rest keys (resultMap.insert k value))
      | none       => some (cache, .accounts pubkeys rest (keys ++ [k]) resultMap)
  | .accounts pubkeys [] keys resultMap =>
      if keys = [] then some (cache, reassemble pubkeys resultMap)
      else some (cache, .accountsRequested pubkeys keys resultMap)
  | .accountsRequested pubkeys keys resultMap =>
      match reply with
      | .accounts response => some (cache, .accountsAnswered pubkeys (keys.zip response) resultMap)
      | .failed            => some (cache, .failed)
      | .account _         => none
  | .accountsAnswered pubkeys ((k, a) :: todo) resultMap =>
      some (cache.insert k a, .accountsAnswered pubkeys todo (resultMap.insert k a))
  | .accountsAnswered pubkeys [] resultMap => some (cache, reassemble pubkeys resultMap)
  | .returned _ | .failed | .panicked => none

/-- The cache and the calls on it, in the order they started. -/
structure RpcClientCache where
  cache : AccountCache
  calls : List Call

/-- What happens next: a call starts, or one takes a turn. -/
inductive Event where
  | getAccount (pubkey : Pubkey)
  | getAccounts (pubkeys : List Pubkey)
  | turn (call : Nat) (reply : Reply)

namespace RpcClientCache

/-- `new`. -/
def new : RpcClientCache := ⟨fun _ => none, []⟩

variable (s : RpcClientCache)

/-- The call takes a turn. -/
def advance (i : Nat) (reply : Reply) : Option RpcClientCache := do
  let call ← s.calls[i]?
  let (cache, call) ← call.turn s.cache reply
  return ⟨cache, s.calls.set i call⟩

def step : Event → Option RpcClientCache
  | .getAccount k      => some ⟨s.cache, s.calls ++ [.account k]⟩
  | .getAccounts ks    => some ⟨s.cache, s.calls ++ [.accounts ks ks [] fun _ => none]⟩
  | .turn i reply => s.advance i reply

/-- A run; `none` where an event cannot happen. -/
def run : List Event → RpcClientCache → Option RpcClientCache
  | [],      s => some s
  | e :: es, s => (s.step e).bind (run es)

/-- The call has returned this value for this key. -/
def Returned (i : Nat) (k : Pubkey) (v : Option Account) : Prop :=
  ∃ values, s.calls[i]? = some (.returned values) ∧ (k, v) ∈ values

end RpcClientCache

end ByrealTitan
