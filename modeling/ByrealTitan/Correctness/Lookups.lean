import Mathlib.Data.List.Induction
import ByrealTitan.AccountCaching.Calls
import ByrealTitan.Correctness.CachedReads

/-!
# `Correctness.Lookups` — what a lookup returns, key by key

`get_accounts` works on lists: it splits its keys into hits and misses, zips the answer to the misses
and puts everything back in order. Read key by key it is one function: the cached value where there is
one, and the network's entry otherwise (`get_accounts_pointwise`). `get_account` follows another rule
for an account that does not exist: it fails where `get_accounts` finds, and keeps, a `None`. So the two
agree, whatever was looked up before, for exactly the accounts that exist (`lookups_agree_iff_exists`).
-/

namespace ByrealTitan

namespace AccountCache

variable {client : RpcClient} {cache : AccountCache} {pubkeys : List Pubkey}

/-- The keys that `get_accounts` asks the network for. -/
def missed (cache : AccountCache) (pubkeys : List Pubkey) : List Pubkey :=
  pubkeys.filter fun k => (cache k).isNone

theorem mem_missed {k : Pubkey} : k ∈ cache.missed pubkeys ↔ k ∈ pubkeys ∧ cache k = none := by
  rw [missed, List.mem_filter, Option.isNone_iff_eq_none]

/-! ## The three loops -/

/-- Storing the entries of a function over some keys changes these keys and no others. -/
theorem insertAll_zip_map (cache : AccountCache) (keys : List Pubkey) (entry : Pubkey → Option Account)
    (k : Pubkey) :
    cache.insertAll (keys.zip (keys.map entry)) k = if k ∈ keys then some (entry k) else cache k := by
  induction keys generalizing cache with
  | nil => rfl
  | cons k₀ keys ih =>
      rw [List.map_cons, List.zip_cons_cons]
      show insertAll (cache.insert k₀ (entry k₀)) _ k = _
      rw [ih]
      by_cases hk : k = k₀
      · subst hk
        simp
      · simp [List.mem_cons, hk, insert_ne hk]

/-- Storing any entries for absent keys keeps what is cached. -/
theorem insertAll_keeps {entries : List (Pubkey × Option Account)} {k : Pubkey}
    (hnew : ∀ p ∈ entries, p.1 ≠ k) : cache.insertAll entries k = cache k := by
  induction entries generalizing cache with
  | nil => rfl
  | cons p entries ih =>
      show insertAll (cache.insert p.1 p.2) entries k = _
      rw [ih fun q hq => hnew q (List.mem_cons_of_mem _ hq)]
      exact insert_ne (hnew p List.mem_cons_self).symm

/-- The split keeps its keys in order: the hits with their values, and the misses. -/
theorem splitHits_eq (cache : AccountCache) (pubkeys : List Pubkey) :
    (cache.splitHits pubkeys).2 = cache.missed pubkeys ∧
      ∀ k, (cache.splitHits pubkeys).1 k = if k ∈ pubkeys then cache k else none := by
  induction pubkeys using List.reverseRecOn with
  | nil => exact ⟨rfl, fun _ => rfl⟩
  | append_singleton ks k₀ ih =>
      obtain ⟨hkeys, hmap⟩ := ih
      unfold splitHits at hkeys hmap ⊢
      rw [List.foldl_append, List.foldl_cons, List.foldl_nil, splitHit]
      cases hk₀ : cache k₀ with
      | some account =>
          refine ⟨?_, fun k => ?_⟩
          · rw [missed, List.filter_append, List.filter_cons_of_neg (by rw [hk₀]; simp), List.filter_nil,
              List.append_nil]
            exact hkeys
          · by_cases hk : k = k₀
            · subst hk
              simp [hk₀]
            · simp [insert_ne hk, hmap, hk]
      | none =>
          refine ⟨?_, fun k => ?_⟩
          · rw [missed, List.filter_append, List.filter_cons_of_pos (by rw [hk₀]; rfl), List.filter_nil]
            exact congrArg (· ++ [k₀]) hkeys
          · by_cases hk : k = k₀
            · subst hk
              simp [hmap, hk₀]
            · simp [hmap, hk]

/-- A result map that holds a value for each key is collected without a panic. -/
theorem collect_map {resultMap : AccountCache} {read : Pubkey → Option Account}
    (h : ∀ k ∈ pubkeys, resultMap k = some (read k)) :
    resultMap.collect pubkeys = .ok (pubkeys.map read) := by
  induction pubkeys with
  | nil => rfl
  | cons k ks ih =>
      have hks := ih fun k' hk' => h k' (List.mem_cons_of_mem _ hk')
      unfold collect at hks ⊢
      rw [List.mapM_cons, hks, h k List.mem_cons_self]
      rfl

/-! ## One call -/

/-- A call without misses asks nothing. -/
theorem getAccounts_of_cached {read : Pubkey → Option Account}
    (h : ∀ k ∈ pubkeys, cache k = some (read k)) :
    cache.getAccounts client pubkeys = ⟨cache, [], .ok (pubkeys.map read)⟩ := by
  obtain ⟨hkeys, hmap⟩ := splitHits_eq cache pubkeys
  have hnone : cache.missed pubkeys = [] := by
    refine List.eq_nil_iff_forall_not_mem.mpr fun k hk => ?_
    obtain ⟨hmem, hmiss⟩ := mem_missed.mp hk
    rw [h k hmem] at hmiss
    cases hmiss
  have hcollect : (cache.splitHits pubkeys).1.collect pubkeys = .ok (pubkeys.map read) :=
    collect_map fun k hk => by rw [hmap, if_pos hk, h k hk]
  simp only [getAccounts, hkeys, hnone, ↓reduceIte, hcollect]

/-- `get_multiple` reads the same values. -/
theorem getMultiple_of_cached {read : Pubkey → Option Account}
    (h : ∀ k ∈ pubkeys, cache k = some (read k)) :
    cache.getMultiple pubkeys = pubkeys.map read :=
  List.map_congr_left fun k hk => by rw [h k hk]; rfl

/-- A failed request leaves the cache as it was. -/
theorem getAccounts_of_error {e : String} (hmiss : cache.missed pubkeys ≠ [])
    (h : client.getMultipleAccounts (cache.missed pubkeys) = .error e) :
    cache.getAccounts client pubkeys =
      ⟨cache, [.multipleAccounts (cache.missed pubkeys)], Res.fail (.failedToFetchAccount e)⟩ := by
  simp only [getAccounts, (splitHits_eq cache pubkeys).1, hmiss, ↓reduceIte, h]

/-- What a call over `pubkeys` reads where the network's entries are those of `entry`. -/
def read (cache : AccountCache) (entry : Pubkey → Option Account) (k : Pubkey) : Option Account :=
  (cache k).getD (entry k)

/-- An answered call reads each key by itself, and adds the missed keys. -/
theorem getAccounts_of_entries {entry : Pubkey → Option Account} (h : cache.missed pubkeys ≠ [] →
      client.getMultipleAccounts (cache.missed pubkeys) = .ok ((cache.missed pubkeys).map entry)) :
    (cache.getAccounts client pubkeys).result = .ok (pubkeys.map (cache.read entry)) ∧
      ∀ k, (cache.getAccounts client pubkeys).cache k =
        if k ∈ cache.missed pubkeys then some (entry k) else cache k := by
  obtain ⟨hkeys, hmap⟩ := splitHits_eq cache pubkeys
  by_cases hmiss : cache.missed pubkeys = []
  · have hcached : ∀ k ∈ pubkeys, cache k = some (cache.read entry k) := by
      intro k hk
      cases hget : cache k with
      | some a => rw [read, hget]; rfl
      | none =>
          have hk' := mem_missed.mpr ⟨hk, hget⟩
          rw [hmiss] at hk'
          exact absurd hk' List.not_mem_nil
    rw [getAccounts_of_cached hcached]
    exact ⟨rfl, fun k => by rw [hmiss, if_neg List.not_mem_nil]⟩
  · have hall : ∀ k ∈ pubkeys, ((cache.splitHits pubkeys).1.insertAll ((cache.missed pubkeys).zip
        ((cache.missed pubkeys).map entry))) k = some (cache.read entry k) := by
      intro k hk
      rw [insertAll_zip_map, hmap, if_pos hk, read]
      cases hget : cache k with
      | none => rw [if_pos (mem_missed.mpr ⟨hk, hget⟩)]; rfl
      | some a => rw [if_neg fun hk' => by rw [(mem_missed.mp hk').2] at hget; cases hget]; rfl
    simp only [getAccounts, hkeys, hmiss, ↓reduceIte, h hmiss]
    exact ⟨collect_map hall, fun k => insertAll_zip_map cache _ entry k⟩

/-! ## Calls one after another -/

/-- No call changes what is cached, whatever it is answered. -/
theorem serve_keeps {lookup : Lookup} {k : Pubkey} {v : Option Account} (hv : cache k = some v) :
    cache.serve client lookup k = some v := by
  cases lookup with
  | getAccount k₀ =>
      simp only [serve, getAccount]
      cases hk₀ : cache k₀ with
      | some a => exact hv
      | none =>
          cases client.getAccount k₀ with
          | error e => exact hv
          | ok response =>
              rw [← hv]
              exact insert_ne fun h => by rw [h, hk₀] at hv; cases hv
  | getAccounts ks =>
      simp only [serve, getAccounts]
      split
      next => exact hv
      next =>
        split
        next => exact hv
        next response hresponse =>
          rw [← hv]
          refine insertAll_keeps fun p hp heq => ?_
          have hmem := (List.of_mem_zip hp).1
          rw [(splitHits_eq cache ks).1, heq] at hmem
          rw [(mem_missed.mp hmem).2] at hv
          cases hv

theorem after_keeps {history : List (RpcClient × Lookup)} {k : Pubkey} {v : Option Account}
    (hv : cache k = some v) : cache.after history k = some v := by
  induction history generalizing cache with
  | nil => exact hv
  | cons call history ih => exact ih (serve_keeps hv)

end AccountCache

/-! ## Batched and pointwise -/

/-- The answer has one entry for each key, and equal entries for equal keys. -/
structure OneEach (keys : List Pubkey) (response : List (Option Account)) : Prop where
  length_eq : response.length = keys.length
  alike : ∀ i j : Nat, i < keys.length → keys[i]? = keys[j]? → response[i]? = response[j]?

theorem OneEach.map (keys : List Pubkey) (entry : Pubkey → Option Account) :
    OneEach keys (keys.map entry) where
  length_eq := List.length_map entry
  alike i j _ h := by rw [List.getElem?_map, List.getElem?_map, h]

/-- Such an answer is a function of the key. -/
theorem OneEach.eq_map {keys : List Pubkey} {response : List (Option Account)}
    (h : OneEach keys response) :
    response = keys.map fun k => (response[keys.idxOf k]?).getD none := by
  refine List.ext_getElem? fun i => ?_
  by_cases hi : i < keys.length
  · have hmem : keys[i] ∈ keys := List.getElem_mem hi
    have hidx := List.idxOf_lt_length_iff.mpr hmem
    have hfirst : keys[i]? = keys[keys.idxOf keys[i]]? := by
      rw [List.getElem?_eq_getElem hi, List.getElem?_eq_getElem hidx, List.getElem_idxOf hidx]
    rw [List.getElem?_map, List.getElem?_eq_getElem hi, h.alike i _ hi hfirst, Option.map_some]
    rw [List.getElem?_eq_getElem (h.length_eq ▸ hidx)]
    rfl
  · rw [List.getElem?_eq_none (by rw [h.length_eq]; omega),
      List.getElem?_eq_none (by rw [List.length_map]; omega)]

namespace AccountCache

/-- **A batched lookup is a pointwise one.** Where the network answers the missed keys, `get_accounts`
    returns for each key the cached value if there was one and the answered entry otherwise; it changes no
    earlier entry and adds the missed keys, found or not. After any further calls, a lookup of any of
    these keys asks nothing and returns the same values, as does `get_multiple`. Where the request fails,
    the cache is as before. -/
theorem get_accounts_pointwise (client : RpcClient) (cache : AccountCache) (pubkeys : List Pubkey) :
    (∀ response : List (Option Account),
      (cache.missed pubkeys ≠ [] → client.getMultipleAccounts (cache.missed pubkeys) = .ok response) →
      OneEach (cache.missed pubkeys) response →
      ∃ read : Pubkey → Option Account,
        (cache.getAccounts client pubkeys).result = .ok (pubkeys.map read) ∧
        (∀ k ∈ pubkeys, ∀ v, cache k = some v → read k = v) ∧
        (∀ (i : Nat) (k : Pubkey), (cache.missed pubkeys)[i]? = some k → response[i]? = some (read k)) ∧
        (∀ k v, cache k = some v → (cache.getAccounts client pubkeys).cache k = some v) ∧
        (∀ k, cache k = none → (cache.getAccounts client pubkeys).cache k =
          if k ∈ pubkeys then some (read k) else none) ∧
        ∀ (between : List (RpcClient × Lookup)) (client' : RpcClient) (ks : List Pubkey),
        (∀ k ∈ ks, k ∈ pubkeys) →
          let cache' := (cache.getAccounts client pubkeys).cache.after between
          cache'.getAccounts client' ks = ⟨cache', [], .ok (ks.map read)⟩ ∧
            cache'.getMultiple ks = ks.map read) ∧
    ∀ e, cache.missed pubkeys ≠ [] → client.getMultipleAccounts (cache.missed pubkeys) = .error e →
      (cache.getAccounts client pubkeys).cache = cache ∧
        (cache.getAccounts client pubkeys).result = Res.fail (.failedToFetchAccount e) := by
  refine ⟨fun response hanswer heach => ?_, fun e hmiss herror => ?_⟩
  · obtain ⟨entry, rfl⟩ : ∃ entry, response = (cache.missed pubkeys).map entry := ⟨_, heach.eq_map⟩
    obtain ⟨hresult, hcache⟩ := getAccounts_of_entries hanswer
    -- only missed keys are written, so a cached one keeps its value
    have hkeep : ∀ k v, cache k = some v → (cache.getAccounts client pubkeys).cache k = some v := by
      intro k v hv
      rw [hcache, if_neg fun hk => by rw [(mem_missed.mp hk).2] at hv; cases hv]
      exact hv
    have hadd : ∀ k ∈ pubkeys, cache k = none → (cache.getAccounts client pubkeys).cache k =
        some (cache.read entry k) := by
      intro k hk hnone
      rw [hcache, if_pos (mem_missed.mpr ⟨hk, hnone⟩), read, hnone]
      rfl
    refine ⟨cache.read entry, hresult, fun k _ v hv => by rw [read, hv]; rfl, fun i k hi => ?_, hkeep,
      fun k hnone => ?_, fun between client' ks hks => ?_⟩
    · have hnone := (mem_missed.mp (List.mem_of_getElem? hi)).2
      rw [List.getElem?_map, hi, read, hnone]
      rfl
    · split
      next hk => exact hadd k hk hnone
      next hk => rw [hcache, if_neg fun h => hk (mem_missed.mp h).1, hnone]
    · -- whatever is called in between, an entry stays and serves the later lookups
      have hcached : ∀ k ∈ ks, (cache.getAccounts client pubkeys).cache.after between k =
          some (cache.read entry k) := by
        intro k hk
        apply after_keeps
        cases hget : cache k with
        | none => exact hadd k (hks k hk) hget
        | some v => rw [read, hget]; exact hkeep k v hget
      exact ⟨getAccounts_of_cached hcached, getMultiple_of_cached hcached⟩
  · rw [getAccounts_of_error hmiss herror]
    exact ⟨rfl, rfl⟩

end AccountCache

/-! ## A chain that does not change -/

/-- The client answers from a fixed chain: `get_multiple_accounts` has a `None` for a missing account, and
    `get_account` fails for it. -/
structure RpcClient.Serves (client : RpcClient) (chain : Pubkey → Option Account) : Prop where
  found : ∀ k a, chain k = some a → client.getAccount k = .ok a
  missing : ∀ k, chain k = none → ∃ e, client.getAccount k = .error e
  multiple : ∀ ks, client.getMultipleAccounts ks = .ok (ks.map chain)

/-- The client that reads its answers off a chain. -/
def RpcClient.ofChain (chain : Pubkey → Option Account) : RpcClient where
  getAccount k := match chain k with
    | some a => .ok a
    | none   => .error "AccountNotFound"
  getMultipleAccounts ks := .ok (ks.map chain)

theorem RpcClient.ofChain_serves (chain : Pubkey → Option Account) : (ofChain chain).Serves chain where
  found k a h := by simp only [ofChain, h]
  missing k h := ⟨"AccountNotFound", by simp only [ofChain, h]⟩
  multiple _ := rfl

namespace AccountCache

variable {client : RpcClient} {chain : Pubkey → Option Account} {cache : AccountCache}
  {history : List Lookup} {k : Pubkey}

/-- The cache after calls that one client has served, from the start. -/
def afterCalls (client : RpcClient) (history : List Lookup) : AccountCache :=
  empty.after (history.map fun lookup => (client, lookup))

/-- `get_account(k)` ends like the entry for `k` in `get_accounts([k])`. -/
def LookupsAgree (client : RpcClient) (cache : AccountCache) (k : Pubkey) : Prop :=
  (cache.getAccounts client [k]).result = (cache.getAccount client k).result >>= fun account =>
    .ok [account]

/-- The cache holds what the chain does. Of the missing accounts, it knows
    those that a `get_accounts` asked for. -/
structure Mirrors (chain : Pubkey → Option Account) (history : List Lookup) (cache : AccountCache) :
    Prop where
  value : ∀ k v, cache k = some v → v = chain k
  missing : ∀ k, chain k = none → (cache k ≠ none ↔ ∃ ks, .getAccounts ks ∈ history ∧ k ∈ ks)

/-- One call keeps the cache a mirror of the chain. -/
theorem Mirrors.serve (hcache : Mirrors chain history cache) (hserves : client.Serves chain)
    (lookup : Lookup) :
    Mirrors chain (history ++ [lookup]) (cache.serve client lookup) := by
  cases lookup with
  | getAccount k₀ =>
      -- a `get_account` asks for no list, so it makes no missing account known
      have hmentions : ∀ k, (∃ ks, .getAccounts ks ∈ history ++ [.getAccount k₀] ∧ k ∈ ks) ↔
          ∃ ks, Lookup.getAccounts ks ∈ history ∧ k ∈ ks := by
        intro k
        simp only [List.mem_append, List.mem_singleton, reduceCtorEq, or_false]
      simp only [AccountCache.serve, getAccount]
      cases hk₀ : cache k₀ with
      | some account => exact ⟨hcache.value, fun k hk => by rw [hmentions, hcache.missing k hk]⟩
      | none =>
          cases hchain : chain k₀ with
          | none =>
              -- the request fails, and nothing is cached
              obtain ⟨e, he⟩ := hserves.missing k₀ hchain
              rw [he]
              exact ⟨hcache.value, fun k hk => by rw [hmentions, hcache.missing k hk]⟩
          | some a =>
              rw [hserves.found k₀ a hchain]
              refine ⟨fun k v hv => ?_, fun k hk => ?_⟩
              · by_cases hkk : k = k₀
                · subst hkk
                  rw [hchain]
                  exact (Option.some.inj ((insert_self cache k _).symm.trans hv)).symm
                · exact hcache.value k v ((insert_ne hkk).symm.trans hv)
              · have hkk : k ≠ k₀ := fun h => by rw [h, hchain] at hk; cases hk
                show cache.insert k₀ (some a) k ≠ none ↔ _
                rw [hmentions, ← hcache.missing k hk, insert_ne hkk]
  | getAccounts ks =>
      obtain ⟨-, hput⟩ := getAccounts_of_entries fun _ => hserves.multiple (cache.missed ks)
      simp only [AccountCache.serve]
      refine ⟨fun k v hv => ?_, fun k hk => ?_⟩
      · rw [hput] at hv
        split at hv
        next => exact (Option.some.inj hv).symm
        next => exact hcache.value k v hv
      · -- a missing account gets known by this call, if it was not known before
        rw [hput]
        simp only [List.mem_append, List.mem_singleton, Lookup.getAccounts.injEq, or_and_right, exists_or,
          exists_eq_left, ← hcache.missing k hk, mem_missed]
        by_cases hknown : cache k = none
        · by_cases hmem : k ∈ ks
          · simp [hknown, hmem]
          · simp [hknown, hmem]
        · simp [hknown]

theorem mirrors_afterCalls (hserves : client.Serves chain) (history : List Lookup) :
    Mirrors chain history (afterCalls client history) := by
  induction history using List.reverseRecOn with
  | nil => exact ⟨nofun, fun k _ => ⟨fun h => absurd rfl h, fun ⟨ks, h, _⟩ => absurd h List.not_mem_nil⟩⟩
  | append_singleton history lookup ih =>
      have hlast := ih.serve hserves lookup
      unfold afterCalls after at hlast ⊢
      rw [List.map_append, List.foldl_append]
      exact hlast

/-- What `get_accounts` has for a key is what the chain has. -/
theorem Mirrors.getAccounts_result (hcache : Mirrors chain history cache)
    (hserves : client.Serves chain) (k : Pubkey) :
    (cache.getAccounts client [k]).result = .ok [chain k] := by
  rw [(getAccounts_of_entries fun _ => hserves.multiple (cache.missed [k])).1, List.map_singleton, read]
  cases hk : cache k with
  | none => rfl
  | some v => rw [hcache.value k v hk]; rfl

/-- `get_account` has the same, unless the account is missing and not known to be. -/
theorem Mirrors.getAccount_result (hcache : Mirrors chain history cache) (hserves : client.Serves chain)
    (k : Pubkey) :
    (chain k ≠ none ∨ cache k ≠ none → (cache.getAccount client k).result = .ok (chain k)) ∧
      (chain k = none → cache k = none → ∃ e, (cache.getAccount client k).result = .error e) := by
  rw [getAccount]
  cases hk : cache k with
  | some v =>
      rw [hcache.value k v hk]
      exact ⟨fun _ => rfl, nofun⟩
  | none =>
      cases hchain : chain k with
      | none =>
          obtain ⟨e, he⟩ := hserves.missing k hchain
          rw [he]
          refine ⟨fun h => ?_, fun _ _ => ⟨_, rfl⟩⟩
          rcases h with h | h
          · exact absurd rfl h
          · exact absurd rfl h
      | some a =>
          rw [hserves.found k a hchain]
          exact ⟨fun _ => rfl, nofun⟩

theorem Mirrors.agree_iff (hcache : Mirrors chain history cache) (hserves : client.Serves chain)
    (k : Pubkey) :
    LookupsAgree client cache k ↔ chain k ≠ none ∨ cache k ≠ none := by
  obtain ⟨hknown, hunknown⟩ := hcache.getAccount_result hserves k
  rw [LookupsAgree, hcache.getAccounts_result hserves]
  constructor
  · intro h
    by_contra hno
    rw [not_or, not_not, not_not] at hno
    obtain ⟨e, he⟩ := hunknown hno.1 hno.2
    rw [he] at h
    cases h
  · intro h
    rw [hknown h]
    rfl

/-- **The lookups agree on the accounts that exist.** After any calls, `get_account` and `get_accounts`
    agree on a key exactly if its account exists or a `get_accounts` has already asked for it; they do so
    after all calls, with one answer whatever the calls were, exactly if it exists. -/
theorem lookups_agree_iff_exists (hserves : client.Serves chain) (k : Pubkey) :
    (∀ history, LookupsAgree client (afterCalls client history) k ↔
      chain k ≠ none ∨ ∃ ks, .getAccounts ks ∈ history ∧ k ∈ ks) ∧
    ((∀ history history', LookupsAgree client (afterCalls client history) k ∧
        ((afterCalls client history).getAccount client k).result =
          ((afterCalls client history').getAccount client k).result) ↔ chain k ≠ none) := by
  have hmirrors := mirrors_afterCalls hserves
  refine ⟨fun history => ?_, fun h hmissing => ?_, fun hexists history history' => ⟨?_, ?_⟩⟩
  · rw [(hmirrors history).agree_iff hserves]
    by_cases hmissing : chain k = none
    · rw [(hmirrors history).missing k hmissing]
    · exact iff_of_true (Or.inl hmissing) (Or.inl hmissing)
  · rcases ((hmirrors []).agree_iff hserves k).mp (h [] []).1 with hfound | hknown
    · exact hfound hmissing
    · exact hknown rfl
  · exact ((hmirrors history).agree_iff hserves k).mpr (Or.inl hexists)
  · rw [((hmirrors history).getAccount_result hserves k).1 (Or.inl hexists),
      ((hmirrors history').getAccount_result hserves k).1 (Or.inl hexists)]

/-! ## Sample lookups -/

section Sample

open RpcClientCache

/-- A chain with one account. -/
def sampleChain : Pubkey → Option Account := fun k => if k = watched then some older else none

/-- The account is cached; a missing one is asked for twice, and then known to be missing. -/
theorem get_accounts_pointwise_sample :
    let cache := empty.insert watched (some newer)
    ∃ read : Pubkey → Option Account,
      (cache.getAccounts (.ofChain sampleChain) [ZERO_PUBKEY, watched, ZERO_PUBKEY]).result =
        .ok ([ZERO_PUBKEY, watched, ZERO_PUBKEY].map read) ∧
      read watched = some newer ∧
      (cache.getAccounts (.ofChain sampleChain) [ZERO_PUBKEY, watched, ZERO_PUBKEY]).cache ZERO_PUBKEY =
        some (read ZERO_PUBKEY) := by
  intro cache
  have hmissed : cache.missed [ZERO_PUBKEY, watched, ZERO_PUBKEY] = [ZERO_PUBKEY, ZERO_PUBKEY] := by decide
  have hpointwise := (get_accounts_pointwise (.ofChain sampleChain) cache [ZERO_PUBKEY, watched,
    ZERO_PUBKEY]).1 [none, none]
  rw [hmissed] at hpointwise
  have heach : OneEach [ZERO_PUBKEY, ZERO_PUBKEY] [none, none] := .map _ fun _ => none
  obtain ⟨read, hresult, hcached, -, -, hadd, -⟩ := hpointwise (fun _ => rfl) heach
  exact ⟨read, hresult, hcached watched (by decide) _ rfl, (hadd ZERO_PUBKEY rfl).trans
    (if_pos (by decide))⟩

/-- The account that exists is looked up alike after any calls. -/
theorem lookups_agree_sample : LookupsAgree (.ofChain sampleChain)
    (afterCalls (.ofChain sampleChain) [.getAccounts [ZERO_PUBKEY], .getAccount watched]) watched :=
  ((lookups_agree_iff_exists (RpcClient.ofChain_serves sampleChain) watched).2.mpr (by decide) _ []).1

/-- **A missing account is looked up in two ways**: `get_account` fails where `get_accounts` finds `None`,
    and once a `get_accounts` has asked for it, `get_account` finds `None` as well. -/
theorem missing_lookups_differ :
    (RpcClient.ofChain sampleChain).Serves sampleChain ∧
    ((afterCalls (.ofChain sampleChain) []).getAccount (.ofChain sampleChain) ZERO_PUBKEY).result =
      Res.fail (.failedToFetchAccount "AccountNotFound") ∧
    ((afterCalls (.ofChain sampleChain) []).getAccounts (.ofChain sampleChain) [ZERO_PUBKEY]).result =
      .ok [none] ∧
    ((afterCalls (.ofChain sampleChain) [.getAccounts [ZERO_PUBKEY]]).getAccount (.ofChain sampleChain)
      ZERO_PUBKEY).result = .ok none ∧
    ¬ LookupsAgree (.ofChain sampleChain) (afterCalls (.ofChain sampleChain) []) ZERO_PUBKEY := by
  refine ⟨RpcClient.ofChain_serves sampleChain, rfl, rfl, rfl, fun h => ?_⟩
  cases h

end Sample

end AccountCache

end ByrealTitan
