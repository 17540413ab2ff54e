import ByrealTitan.AccountCaching.RpcCache

/-!
# `Correctness.CachedReads` — what concurrent calls on one cache agree on

An insert is unconditional, so a request that was under way when another call stored the same key
overwrites what that call has already returned (`reads_drift`). Where no insert meets a different cached
value, a cached value stays for good, and whatever a call has got hold of is what the cache holds
(`Consistent`): all calls then agree on every key, in every interleaving (`cached_reads_stable`).
-/

namespace ByrealTitan

variable {cache cache' : AccountCache} {c c' : Call} {reply : Reply} {s s' : RpcClientCache}

@[simp] theorem AccountCache.insert_self (cache : AccountCache) (k : Pubkey) (v : Option Account) :
    cache.insert k v k = some v := if_pos rfl

theorem AccountCache.insert_ne {k k' : Pubkey} {v : Option Account} (h : k' ≠ k) :
    cache.insert k v k' = cache k' := if_neg h

namespace Call

/-- The call holds, or has returned, this value for this key. -/
def Knows (k : Pubkey) (v : Option Account) : Call → Prop
  | accounts _ _ _ m         => m k = some v
  | accountsRequested _ _ m  => m k = some v
  | accountsAnswered _ _ m   => m k = some v
  | returned values          => (k, v) ∈ values
  | account _                => False
  | accountRequested _       => False
  | accountAnswered _ _      => False
  | failed                   => False
  | panicked                 => False

/-- What the next turn of the call inserts into the cache. -/
def inserting : Call → Option (Pubkey × Option Account)
  | accountAnswered k response         => some (k, some response)
  | accountsAnswered _ ((k, a) :: _) _ => some (k, a)
  | _                                  => none

/-- The next insert of the call meets no other value of its key. -/
def InsertsAlike (cache : AccountCache) (c : Call) : Prop :=
  ∀ k a, c.inserting = some (k, a) → cache k = none ∨ cache k = some a

/-- All the call knows is cached. -/
def Backed (cache : AccountCache) (c : Call) : Prop := ∀ k v, c.Knows k v → cache k = some v

end Call

open Call

/-! ## One turn -/

/-- Inserting a value that meets no other one keeps what is cached. -/
theorem insert_keeps {k : Pubkey} {a : Option Account} (h : cache k = none ∨ cache k = some a)
    {k' : Pubkey} {v : Option Account} (hv : cache k' = some v) : cache.insert k a k' = some v := by
  by_cases hk : k' = k
  · subst hk
    rcases h with hnone | hsome
    · rw [hnone] at hv
      cases hv
    · rw [AccountCache.insert_self, ← hsome, hv]
  · rw [AccountCache.insert_ne hk, hv]

/-- A result map that agrees with the cache goes on agreeing when it takes up a cached value. -/
theorem insert_agrees {k : Pubkey} {a : Option Account} {m : AccountCache} (hcached : cache k = some a)
    (hm : ∀ k' v, m k' = some v → cache k' = some v) :
    ∀ k' v, m.insert k a k' = some v → cache k' = some v := by
  intro k' v h
  by_cases hk : k' = k
  · subst hk
    rw [AccountCache.insert_self] at h
    rw [hcached, h]
  · rw [AccountCache.insert_ne hk] at h
    exact hm k' v h

/-- A pair that is reassembled was in the result map. -/
theorem mem_reassembled {pubkeys : List Pubkey} {resultMap : AccountCache}
    {values : List (Pubkey × Option Account)} {k : Pubkey} {v : Option Account}
    (h : (pubkeys.mapM fun k => (resultMap k).map fun v => (k, v)) = some values) (hkv : (k, v) ∈ values) :
    resultMap k = some v := by
  induction pubkeys generalizing values with
  | nil =>
      cases h
      exact absurd hkv List.not_mem_nil
  | cons k₀ ks ih =>
      rw [List.mapM_cons] at h
      simp only [Option.bind_eq_bind, Option.bind_eq_some_iff, Option.map_eq_some_iff, Option.pure_def,
        Option.some.injEq] at h
      obtain ⟨_, ⟨v₀, hv₀, rfl⟩, rest, hrest, rfl⟩ := h
      rcases List.mem_cons.mp hkv with heq | hkv
      · cases heq
        exact hv₀
      · exact ih hrest hkv

/-- What is reassembled was in the result map. -/
theorem backed_reassemble {pubkeys : List Pubkey} {resultMap : AccountCache}
    (h : ∀ k v, resultMap k = some v → cache k = some v) :
    (reassemble pubkeys resultMap).Backed cache := by
  unfold reassemble
  split
  next values hvalues =>
    intro k v hkv
    exact h k v (mem_reassembled hvalues hkv)
  next => exact fun _ _ h => h.elim

/-- **One turn** keeps what is cached and leaves the call backed by the cache, if its insert is alike. -/
theorem turn_keeps (hturn : c.turn cache reply = some (cache', c')) (hinsert : c.InsertsAlike cache)
    (hbacked : c.Backed cache) :
    (∀ k v, cache k = some v → cache' k = some v) ∧ c'.Backed cache' := by
  cases c with
  | account k =>
      -- a hit returns the entry that is there; a miss writes nothing yet
      simp only [turn] at hturn
      split at hturn
      next value hhit =>
        cases hturn
        refine ⟨fun _ _ h => h, fun k' v h => ?_⟩
        cases List.mem_singleton.mp h
        exact hhit
      next =>
        cases hturn
        exact ⟨fun _ _ h => h, fun _ _ h => h.elim⟩
  | accountRequested k =>
      simp only [turn] at hturn
      cases reply <;> cases hturn <;> exact ⟨fun _ _ h => h, fun _ _ h => h.elim⟩
  | accountAnswered k response =>
      cases hturn
      refine ⟨fun _ _ h => insert_keeps (hinsert _ _ rfl) h, fun k' v h => ?_⟩
      cases List.mem_singleton.mp h
      exact AccountCache.insert_self _ _ _
  | accounts pubkeys rest keys m =>
      cases rest with
      | nil =>
          simp only [turn] at hturn
          split at hturn
          next =>
            cases hturn
            exact ⟨fun _ _ h => h, backed_reassemble hbacked⟩
          next =>
            cases hturn
            exact ⟨fun _ _ h => h, hbacked⟩
      | cons k rest =>
          -- a hit is copied into the result map, and a miss put on the list of keys
          simp only [turn] at hturn
          split at hturn
          next value hhit =>
            cases hturn
            exact ⟨fun _ _ h => h, insert_agrees hhit hbacked⟩
          next =>
            cases hturn
            exact ⟨fun _ _ h => h, hbacked⟩
  | accountsRequested pubkeys keys m =>
      simp only [turn] at hturn
      cases reply with
      | failed =>
          cases hturn
          exact ⟨fun _ _ h => h, fun _ _ h => h.elim⟩
      | account response => cases hturn
      | accounts response =>
          cases hturn
          exact ⟨fun _ _ h => h, hbacked⟩
  | accountsAnswered pubkeys todo m =>
      cases todo with
      | nil =>
          cases hturn
          exact ⟨fun _ _ h => h, backed_reassemble hbacked⟩
      | cons p todo =>
          obtain ⟨k, a⟩ := p
          cases hturn
          -- the answer goes into the cache and into the result map
          have hkeep : ∀ k' v, cache k' = some v → cache.insert k a k' = some v :=
            fun _ _ h => insert_keeps (hinsert _ _ rfl) h
          refine ⟨hkeep, insert_agrees (AccountCache.insert_self cache k a) ?_⟩
          intro k' v h
          exact hkeep k' v (hbacked k' v h)
  | returned values => cases hturn
  | failed => cases hturn
  | panicked => cases hturn

/-! ## Runs -/

namespace RpcClientCache

/-- Every call is backed by the cache. -/
def Consistent (s : RpcClientCache) : Prop := ∀ c ∈ s.calls, c.Backed s.cache

/-- The call that takes its turn, if any, inserts alike. -/
def InsertsAlike (s : RpcClientCache) : Event → Prop
  | .turn i _ => ∀ c, s.calls[i]? = some c → c.InsertsAlike s.cache
  | _         => True

/-- Every insert of the run is alike. -/
def RunInsertsAlike : List Event → RpcClientCache → Prop
  | [],      _ => True
  | e :: es, s => s.InsertsAlike e ∧ ∀ s', s.step e = some s' → RunInsertsAlike es s'

/-- One event keeps what is cached, and consistency. -/
theorem step_keeps {e : Event} (hstep : s.step e = some s') (halike : s.InsertsAlike e)
    (hs : s.Consistent) : (∀ k v, s.cache k = some v → s'.cache k = some v) ∧ s'.Consistent := by
  have hstart : ∀ call : Call, (∀ k v, ¬ call.Knows k v) →
      Consistent ⟨s.cache, s.calls ++ [call]⟩ := by
    intro call hnew c hc k v hk
    rcases List.mem_append.mp hc with hc | hc
    · exact hs c hc k v hk
    · cases List.mem_singleton.mp hc
      exact absurd hk (hnew k v)
  cases e with
  | getAccount k =>
      cases hstep
      exact ⟨fun _ _ h => h, hstart _ fun _ _ h => h⟩
  | getAccounts ks =>
      cases hstep
      exact ⟨fun _ _ h => h, hstart _ fun _ _ h => by cases h⟩
  | turn i reply =>
      simp only [step, advance, Option.bind_eq_bind, Option.bind_eq_some_iff] at hstep
      obtain ⟨c, hc, ⟨cache', c'⟩, hturn, heq⟩ := hstep
      cases heq
      obtain ⟨hkeep, hbacked⟩ := turn_keeps hturn (halike c hc) (hs c (List.mem_of_getElem? hc))
      refine ⟨hkeep, fun d hd k v hk => ?_⟩
      rcases List.mem_or_eq_of_mem_set hd with hd | rfl
      · exact hkeep k v (hs d hd k v hk)
      · exact hbacked k v hk

/-- A run of alike inserts keeps what is cached, and consistency. -/
theorem run_keeps {es : List Event} (hrun : run es s = some s') (halike : RunInsertsAlike es s)
    (hs : s.Consistent) : (∀ k v, s.cache k = some v → s'.cache k = some v) ∧ s'.Consistent := by
  induction es generalizing s with
  | nil =>
      cases hrun
      exact ⟨fun _ _ h => h, hs⟩
  | cons e es ih =>
      rw [run, Option.bind_eq_some_iff] at hrun
      obtain ⟨s₁, hstep, hrun⟩ := hrun
      obtain ⟨hkeep, hs₁⟩ := step_keeps hstep halike.1 hs
      obtain ⟨hkeep', hs'⟩ := ih hrun (halike.2 s₁ hstep) hs₁
      exact ⟨fun k v h => hkeep' k v (hkeep k v h), hs'⟩

theorem runInsertsAlike_cons {e : Event} {es : List Event} (halike : s.InsertsAlike e)
    (hstep : s.step e = some s') (hrest : RunInsertsAlike es s') : RunInsertsAlike (e :: es) s := by
  refine ⟨halike, fun s₂ hs₂ => ?_⟩
  obtain rfl := Option.some.inj (hstep.symm.trans hs₂)
  exact hrest

theorem runInsertsAlike_append {pre post : List Event} (h : RunInsertsAlike (pre ++ post) s)
    (hrun : run pre s = some s') : RunInsertsAlike pre s ∧ RunInsertsAlike post s' := by
  induction pre generalizing s with
  | nil =>
      cases hrun
      exact ⟨trivial, h⟩
  | cons e es ih =>
      rw [run, Option.bind_eq_some_iff] at hrun
      obtain ⟨s₁, hstep, hrun⟩ := hrun
      refine ⟨⟨h.1, fun s₂ hs₂ => ?_⟩, (ih (h.2 s₁ hstep) hrun).2⟩
      obtain rfl := Option.some.inj (hstep.symm.trans hs₂)
      exact (ih (h.2 s₁ hstep) hrun).1

/-- What a call has returned is cached. -/
theorem Consistent.returned (hs : s.Consistent) {i : Nat} {k : Pubkey} {v : Option Account}
    (h : s.Returned i k v) : s.cache k = some v := by
  obtain ⟨values, hcall, hmem⟩ := h
  exact hs _ (List.mem_of_getElem? hcall) k v hmem

variable {pre post : List Event} {i j : Nat} {k : Pubkey} {v w : Option Account}

/-- **Reads are stable where inserts are alike**: once a call has returned a value for a key, every call
    that returns a value for the key later in the run returns this one. Calls and turns interleave freely,
    and the network may answer every request differently. -/
theorem cached_reads_stable (hpre : run pre new = some s) (hpost : run post s = some s')
    (halike : RunInsertsAlike (pre ++ post) new) (hfirst : s.Returned i k v)
    (hsecond : s'.Returned j k w) : w = v := by
  have hnew : new.Consistent := nofun
  obtain ⟨halike₁, halike₂⟩ := runInsertsAlike_append halike hpre
  obtain ⟨-, hs⟩ := run_keeps hpre halike₁ hnew
  obtain ⟨hkeep, hs'⟩ := run_keeps hpost halike₂ hs
  have hv := hkeep k v (hs.returned hfirst)
  rw [hs'.returned hsecond] at hv
  exact Option.some.inj hv

/-! ## Sample runs -/

section Sample

/-- Two states of one account. -/
def older : Account := ⟨1, [], ZERO_PUBKEY⟩

def newer : Account := ⟨2, [], ZERO_PUBKEY⟩

def watched : Pubkey := Pubkey.fill 7

/-- Two calls request the account before either has stored it; the
    first one stores its answer and returns. -/
def sharedReads : List Event :=
  [.getAccount watched, .getAccount watched, .turn 0 .failed, .turn 1 .failed, .turn 0 (.account older),
    .turn 0 .failed]

/-- Then the second one is answered too, with the same state, which it stores again. -/
def secondAnswer : List Event := [.turn 1 (.account older), .turn 1 .failed]

/-- The first insert of the two calls meets an empty cache, and the
    second one the value that it inserts. -/
theorem sharedReads_insertAlike : RunInsertsAlike (sharedReads ++ secondAnswer) new := by
  have hlook : ∀ {c : Call} {cache : AccountCache}, c.inserting = none → c.InsertsAlike cache := by
    intro c cache hnone k a hsome
    rw [hnone] at hsome
    cases hsome
  refine runInsertsAlike_cons trivial rfl (runInsertsAlike_cons trivial rfl ?_)
  refine runInsertsAlike_cons (fun c hc => ?_) rfl (runInsertsAlike_cons (fun c hc => ?_) rfl ?_)
  · cases hc
    exact hlook rfl
  · cases hc
    exact hlook rfl
  refine runInsertsAlike_cons (fun c hc => ?_) rfl (runInsertsAlike_cons (fun c hc => ?_) rfl ?_)
  · cases hc
    exact hlook rfl
  · cases hc
    exact fun k a hk => Or.inl rfl
  refine runInsertsAlike_cons (fun c hc => ?_) rfl (runInsertsAlike_cons (fun c hc => ?_) rfl trivial)
  · cases hc
    exact hlook rfl
  · cases hc
    intro k a hk
    cases hk
    exact Or.inr rfl

/-- The second call requested the account before the first one had
    cached it, and returns the same state. -/
theorem cached_reads_stable_sample :
    ∃ s s', run sharedReads new = some s ∧ run secondAnswer s = some s' ∧
      s.Returned 0 watched (some older) ∧ s'.Returned 1 watched (some older) ∧
      ∀ w, s'.Returned 1 watched w → w = some older := by
  obtain ⟨s, hpre⟩ : ∃ s, run sharedReads new = some s := ⟨_, rfl⟩
  obtain ⟨s', hpost⟩ : ∃ s', run secondAnswer s = some s' := by
    cases hpre
    exact ⟨_, rfl⟩
  have hfirst : s.Returned 0 watched (some older) := by
    cases hpre
    exact ⟨_, rfl, List.mem_singleton.mpr rfl⟩
  have hsecond : s'.Returned 1 watched (some older) := by
    cases hpre
    cases hpost
    exact ⟨_, rfl, List.mem_singleton.mpr rfl⟩
  refine ⟨s, s', hpre, hpost, hfirst, hsecond, fun w hw => ?_⟩
  exact cached_reads_stable hpre hpost sharedReads_insertAlike hfirst hw

/-- Two calls request the account before either has stored it; the second one is answered later, with a
    newer state, and stores it after the first call has returned. -/
def overlappingReads : List Event :=
  [.getAccount watched, .getAccount watched, .turn 0 .failed, .turn 1 .failed, .turn 0 (.account older),
    .turn 0 .failed, .turn 1 (.account newer)]

/-- The second call stores its answer; then a third call looks the account up. -/
def laterRead : List Event := [.turn 1 .failed, .getAccount watched, .turn 2 .failed]

/-- **Overlapping requests drift**: the first call has returned the older state, and a call that starts
    afterwards returns the newer one. -/
theorem reads_drift :
    ∃ s s', run overlappingReads new = some s ∧ run laterRead s = some s' ∧ s.calls.length ≤ 2 ∧
      s.Returned 0 watched (some older) ∧ s'.Returned 2 watched (some newer) ∧
      some newer ≠ some older := by
  refine ⟨_, _, rfl, rfl, Nat.le_refl 2, ⟨_, rfl, List.mem_singleton.mpr rfl⟩,
    ⟨_, rfl, List.mem_singleton.mpr rfl⟩, by decide⟩

end Sample

end RpcClientCache

end ByrealTitan
