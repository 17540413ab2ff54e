import ByrealTitan.Correctness.CachedReads
import ByrealTitan.Lib.Interleaving

/-!
# `Correctness.ConcurrentCalls` — what concurrent calls may return

`CachedReads` says when two calls agree. Here no insert is restricted: requests for one key may overlap
and be answered differently. Still no call returns anything but answers of the network for the keys it
was asked for, in their order (`concurrent_reads_answered`). The cache with its calls is a pool of
processes that take turns on one memory; each turn is looked at once, and `Lib.Interleaving` carries it
over all interleavings.
-/

namespace ByrealTitan

variable {cache cache' : AccountCache} {c c' : Call} {reply : Reply} {s s' : RpcClientCache}

namespace Call

/-! ## One turn -/

/-- What a reply answers to the call that waits for it. -/
def answered : Reply → Call → List (Pubkey × Option Account)
  | .account response,  .accountRequested k           => [(k, some response)]
  | .accounts response, .accountsRequested _ keys _   => keys.zip response
  | _,                  _                             => []

/-- A list of accounts has one entry for each key it was asked for. -/
def CompleteAnswer : Reply → Call → Prop
  | .accounts response, .accountsRequested _ keys _ => response.length = keys.length
  | _,                  _                           => True

instance : ∀ (reply : Reply) (c : Call), Decidable (CompleteAnswer reply c)
  | .accounts response, .accountsRequested _ keys _ =>
    inferInstanceAs (Decidable (response.length = keys.length))
  | .failed,     _                       => .isTrue trivial
  | .account _,  _                       => .isTrue trivial
  | .accounts _, .account _              => .isTrue trivial
  | .accounts _, .accountRequested _     => .isTrue trivial
  | .accounts _, .accountAnswered _ _    => .isTrue trivial
  | .accounts _, .accounts _ _ _ _       => .isTrue trivial
  | .accounts _, .accountsAnswered _ _ _ => .isTrue trivial
  | .accounts _, .returned _             => .isTrue trivial
  | .accounts _, .failed                 => .isTrue trivial
  | .accounts _, .panicked               => .isTrue trivial

/-- The keys the caller named. -/
def keysOf : Call → List Pubkey
  | account k                    => [k]
  | accountRequested k           => [k]
  | accountAnswered k _          => [k]
  | accounts pubkeys _ _ _       => pubkeys
  | accountsRequested pubkeys _ _ => pubkeys
  | accountsAnswered pubkeys _ _ => pubkeys
  | returned values              => values.map Prod.fst
  | failed                       => []
  | panicked                     => []

/-- The call works on these keys, and loses none of them. -/
def WorksOn (ks : List Pubkey) : Call → Prop
  | account k                       => ks = [k]
  | accountRequested k              => ks = [k]
  | accountAnswered k _             => ks = [k]
  | accounts pubkeys rest keys m    => ks = pubkeys ∧ ∀ k ∈ pubkeys, k ∈ rest ∨ k ∈ keys ∨ m k ≠ none
  | accountsRequested pubkeys keys m => ks = pubkeys ∧ ∀ k ∈ pubkeys, k ∈ keys ∨ m k ≠ none
  | accountsAnswered pubkeys todo m => ks = pubkeys ∧ ∀ k ∈ pubkeys, k ∈ todo.map Prod.fst ∨ m k ≠ none
  | returned values                 => ks = values.map Prod.fst
  | failed                          => True
  | panicked                        => False

/-- The call has, or is about to store, this value for this key. -/
def Carries (p : Pubkey × Option Account) : Call → Prop
  | accounts _ _ _ m           => m p.1 = some p.2
  | accountsRequested _ _ m    => m p.1 = some p.2
  | accountsAnswered _ todo m  => p ∈ todo ∨ m p.1 = some p.2
  | accountAnswered k response => p = (k, some response)
  | returned values            => p ∈ values
  | account _                  => False
  | accountRequested _         => False
  | failed                     => False
  | panicked                   => False

/-- The turns there are. -/
inductive TurnTo (cache : AccountCache) : Reply → Call → AccountCache → Call → Prop where
  | hit {reply k value} : cache k = some value → TurnTo cache reply (account k) cache
      (returned [(k, value)])
  | miss {reply k} : TurnTo cache reply (account k) cache (accountRequested k)
  | accountFailed {k} : TurnTo cache .failed (accountRequested k) cache failed
  | accountReply {k response} : TurnTo cache (.account response) (accountRequested k) cache
      (accountAnswered k response)
  | accountStored {reply k response} :
      TurnTo cache reply (accountAnswered k response) (cache.insert k (some response))
      (returned [(k, some response)])
  | keyHit {reply pubkeys k rest keys m value} : cache k = some value →
      TurnTo cache reply (accounts pubkeys (k :: rest) keys m) cache
      (accounts pubkeys rest keys (m.insert k value))
  | keyMiss {reply pubkeys k rest keys m} :
      TurnTo cache reply (accounts pubkeys (k :: rest) keys m) cache
      (accounts pubkeys rest (keys ++ [k]) m)
  | allHit {reply pubkeys m} : TurnTo cache reply (accounts pubkeys [] [] m) cache (reassemble pubkeys m)
  | requested {reply pubkeys keys m} :
      TurnTo cache reply (accounts pubkeys [] keys m) cache (accountsRequested pubkeys keys m)
  | accountsFailed {pubkeys keys m} : TurnTo cache .failed (accountsRequested pubkeys keys m) cache failed
  | accountsReply {pubkeys keys m response} :
      TurnTo cache (.accounts response) (accountsRequested pubkeys keys m) cache
      (accountsAnswered pubkeys (keys.zip response) m)
  | entryStored {reply pubkeys k a todo m} :
      TurnTo cache reply (accountsAnswered pubkeys ((k, a) :: todo) m)
      (cache.insert k a) (accountsAnswered pubkeys todo (m.insert k a))
  | allStored {reply pubkeys m} : TurnTo cache reply (accountsAnswered pubkeys [] m) cache
      (reassemble pubkeys m)

theorem turn_cases (hturn : c.turn cache reply = some (cache', c')) : TurnTo cache reply c cache' c' := by
  cases c with
  | account k =>
      simp only [turn] at hturn
      split at hturn
      next value hhit =>
        cases hturn
        exact .hit hhit
      next =>
        cases hturn
        exact .miss
  | accountRequested k =>
      simp only [turn] at hturn
      cases reply with
      | failed =>
          cases hturn
          exact .accountFailed
      | account response =>
          cases hturn
          exact .accountReply
      | accounts response => cases hturn
  | accountAnswered k response =>
      cases hturn
      exact .accountStored
  | accounts pubkeys rest keys m =>
      cases rest with
      | nil =>
          simp only [turn] at hturn
          split at hturn
          next hnone =>
            cases hturn
            rw [hnone]
            exact .allHit
          next =>
            cases hturn
            exact .requested
      | cons k rest =>
          simp only [turn] at hturn
          split at hturn
          next value hhit =>
            cases hturn
            exact .keyHit hhit
          next =>
            cases hturn
            exact .keyMiss
  | accountsRequested pubkeys keys m =>
      simp only [turn] at hturn
      cases reply with
      | failed =>
          cases hturn
          exact .accountsFailed
      | account response => cases hturn
      | accounts response =>
          cases hturn
          exact .accountsReply
  | accountsAnswered pubkeys todo m =>
      cases todo with
      | nil =>
          cases hturn
          exact .allStored
      | cons p todo =>
          cases hturn
          exact .entryStored
  | returned values => cases hturn
  | failed => cases hturn
  | panicked => cases hturn

/-! ## What one turn does -/

theorem insert_eq_some {m : AccountCache} {k k' : Pubkey} {v w : Option Account}
    (h : m.insert k v k' = some w) :
    (k', w) = (k, v) ∨ m k' = some w := by
  by_cases hk : k' = k
  · subst hk
    rw [AccountCache.insert_self] at h
    cases h
    exact Or.inl rfl
  · rw [AccountCache.insert_ne hk] at h
    exact Or.inr h

/-- Taking up a key loses none. -/
theorem insert_ne_none {m : AccountCache} {k k' : Pubkey} {v : Option Account} (h : k' = k ∨ m k' ≠ none) :
    m.insert k v k' ≠ none := by
  unfold AccountCache.insert
  split
  next => exact Option.some_ne_none v
  next hne => exact h.resolve_left hne

/-- All keys are reassembled where the result map has them. -/
theorem reassemble_worksOn {pubkeys : List Pubkey} {m : AccountCache} (h : ∀ k ∈ pubkeys, m k ≠ none) :
    (reassemble pubkeys m).WorksOn pubkeys := by
  have hvalues : ∀ ks : List Pubkey, (∀ k ∈ ks, m k ≠ none) →
      ∃ values, (ks.mapM fun k => (m k).map fun v => (k, v)) = some values ∧ ks = values.map Prod.fst := by
    intro ks hks
    induction ks with
    | nil => exact ⟨[], rfl, rfl⟩
    | cons k ks ih =>
        obtain ⟨v, hv⟩ := Option.ne_none_iff_exists'.mp (hks k List.mem_cons_self)
        obtain ⟨values, hmap, hfst⟩ := ih fun k' hk' => hks k' (List.mem_cons_of_mem k hk')
        refine ⟨(k, v) :: values, ?_, by rw [List.map_cons, ← hfst]⟩
        rw [List.mapM_cons, hv, hmap]
        rfl
  obtain ⟨values, hmap, hfst⟩ := hvalues pubkeys h
  rw [reassemble, hmap]
  exact hfst

/-- **One turn** of a call that is answered completely loses no key. -/
theorem turn_worksOn {ks : List Pubkey} (hworks : c.WorksOn ks) (hcomplete : CompleteAnswer reply c)
    (hturn : c.turn cache reply = some (cache', c')) : c'.WorksOn ks := by
  cases turn_cases hturn with
  | hit _ => exact hworks
  | miss => exact hworks
  | accountFailed => trivial
  | accountReply => exact hworks
  | accountStored => exact hworks
  | keyHit _ =>
      obtain ⟨rfl, hkeys⟩ := hworks
      refine ⟨rfl, fun k' hk' => ?_⟩
      rcases hkeys k' hk' with hrest | hmiss | hhit
      · rcases List.mem_cons.mp hrest with hk | hrest
        · exact Or.inr (Or.inr (insert_ne_none (Or.inl hk)))
        · exact Or.inl hrest
      · exact Or.inr (Or.inl hmiss)
      · exact Or.inr (Or.inr (insert_ne_none (Or.inr hhit)))
  | keyMiss =>
      obtain ⟨rfl, hkeys⟩ := hworks
      refine ⟨rfl, fun k' hk' => ?_⟩
      rcases hkeys k' hk' with hrest | hmiss | hhit
      · rcases List.mem_cons.mp hrest with rfl | hrest
        · exact Or.inr (Or.inl (List.mem_append_right _ List.mem_cons_self))
        · exact Or.inl hrest
      · exact Or.inr (Or.inl (List.mem_append_left _ hmiss))
      · exact Or.inr (Or.inr hhit)
  | allHit =>
      obtain ⟨rfl, hkeys⟩ := hworks
      apply reassemble_worksOn
      intro k hk
      simpa using hkeys k hk
  | requested =>
      obtain ⟨rfl, hkeys⟩ := hworks
      refine ⟨rfl, fun k hk => ?_⟩
      simpa using hkeys k hk
  | accountsFailed => trivial
  | @accountsReply pubkeys keys m response =>
      -- with an entry for each key, no key is lost by the zip
      obtain ⟨rfl, hkeys⟩ := hworks
      refine ⟨rfl, fun k hk => ?_⟩
      have hlen : response.length = keys.length := hcomplete
      rw [List.map_fst_zip (by omega)]
      exact hkeys k hk
  | entryStored =>
      obtain ⟨rfl, hkeys⟩ := hworks
      refine ⟨rfl, fun k' hk' => ?_⟩
      rcases hkeys k' hk' with htodo | hhit
      · rcases List.mem_cons.mp htodo with hk | htodo
        · exact Or.inr (insert_ne_none (Or.inl hk))
        · exact Or.inl htodo
      · exact Or.inr (insert_ne_none (Or.inr hhit))
  | allStored =>
      obtain ⟨rfl, hkeys⟩ := hworks
      apply reassemble_worksOn
      intro k hk
      simpa using hkeys k hk

/-- A reassembled call carries what the result map has. -/
theorem reassemble_carries {pubkeys : List Pubkey} {m : AccountCache} {p : Pubkey × Option Account}
    (h : (reassemble pubkeys m).Carries p) : m p.1 = some p.2 := by
  unfold reassemble at h
  split at h
  next values hvalues => exact mem_reassembled hvalues h
  next => exact h.elim

/-- **One turn** makes nothing known but what was cached, what the
    call carried and what it was answered. -/
theorem turn_known {p : Pubkey × Option Account} (hturn : c.turn cache reply = some (cache', c'))
    (hp : cache' p.1 = some p.2 ∨ c'.Carries p) :
    cache p.1 = some p.2 ∨ c.Carries p ∨ p ∈ c.answered reply := by
  cases turn_cases hturn with
  | hit hhit =>
      rcases hp with hp | hp
      · exact Or.inl hp
      · cases List.mem_singleton.mp hp
        exact Or.inl hhit
  | miss => exact hp.elim Or.inl False.elim
  | accountFailed => exact hp.elim Or.inl False.elim
  | accountReply =>
      rcases hp with hp | hp
      · exact Or.inl hp
      · exact Or.inr (Or.inr (List.mem_singleton.mpr hp))
  | accountStored =>
      rcases hp with hp | hp
      · rcases insert_eq_some hp with heq | hp
        · exact Or.inr (Or.inl heq)
        · exact Or.inl hp
      · exact Or.inr (Or.inl (List.mem_singleton.mp hp))
  | keyHit hhit =>
      rcases hp with hp | hp
      · exact Or.inl hp
      · rcases insert_eq_some hp with heq | hp
        · cases heq
          exact Or.inl hhit
        · exact Or.inr (Or.inl hp)
  | keyMiss => exact hp.elim Or.inl fun hp => Or.inr (Or.inl hp)
  | allHit => exact hp.elim Or.inl fun hp => Or.inr (Or.inl (reassemble_carries hp))
  | requested => exact hp.elim Or.inl fun hp => Or.inr (Or.inl hp)
  | accountsFailed => exact hp.elim Or.inl False.elim
  | accountsReply =>
      rcases hp with hp | hp | hp
      · exact Or.inl hp
      · exact Or.inr (Or.inr hp)
      · exact Or.inr (Or.inl hp)
  | @entryStored reply pubkeys k a todo m =>
      -- the entry that is stored was carried already
      have hentry : ∀ {n : AccountCache}, n.insert k a p.1 = some p.2 → p ∈ (k, a) :: todo ∨
          n p.1 = some p.2 := by
        intro n hn
        rcases insert_eq_some hn with heq | hn
        · exact Or.inl (List.mem_cons.mpr (Or.inl heq))
        · exact Or.inr hn
      rcases hp with hp | hp | hp
      · rcases hentry hp with hp | hp
        · exact Or.inr (Or.inl (Or.inl hp))
        · exact Or.inl hp
      · exact Or.inr (Or.inl (Or.inl (List.mem_cons_of_mem _ hp)))
      · exact Or.inr (Or.inl (hentry hp))
  | allStored => exact hp.elim Or.inl fun hp => Or.inr (Or.inl (Or.inr (reassemble_carries hp)))

end Call

namespace RpcClientCache

open Interleaving (Pool Along Logged received started run_kept run_known forall₂_get)

/-! ## The calls as processes -/

/-- The cache is the memory, and the calls are the processes. -/
def pool (s : RpcClientCache) : Pool AccountCache Call := ⟨s.cache, s.calls⟩

def callTurn (cache : AccountCache) (reply : Reply) (c : Call) :
    Option (AccountCache × Call) := c.turn cache reply

def inPool : Event → Interleaving.Event Call Reply
  | .getAccount k   => .start (.account k)
  | .getAccounts ks => .start (.accounts ks ks [] fun _ => none)
  | .turn i reply   => .turn i reply

theorem step_pool (s : RpcClientCache) (e : Event) :
    Interleaving.step callTurn s.pool (inPool e) = (s.step e).map pool := by
  cases e with
  | getAccount k => rfl
  | getAccounts ks => rfl
  | turn i reply =>
      simp only [inPool, Interleaving.step, pool, RpcClientCache.step, advance, callTurn]
      cases s.calls[i]? with
      | none => rfl
      | some c =>
          simp only [Option.bind_eq_bind, Option.bind_some]
          cases c.turn s.cache reply with
          | none => rfl
          | some next => rfl

/-- A run of the cache is a run of the pool. -/
theorem run_pool {es : List Event} (hrun : run es s = some s') :
    Interleaving.run callTurn (es.map inPool) s.pool = some s'.pool := by
  induction es generalizing s with
  | nil =>
      cases hrun
      rfl
  | cons e es ih =>
      rw [run, Option.bind_eq_some_iff] at hrun
      obtain ⟨s₁, hstep, hrun⟩ := hrun
      rw [List.map_cons, Interleaving.run, step_pool, hstep]
      exact ih hrun

/-! ## Calls and answers of a run -/

/-- The keys of each call, in the order the calls started. -/
def asked : List Event → List (List Pubkey)
  | []                    => []
  | .getAccount k :: es   => [k] :: asked es
  | .getAccounts ks :: es => ks :: asked es
  | .turn _ _ :: es       => asked es

/-- What the network has answered, entry by entry. -/
def answers (es : List Event) : List (Pubkey × Option Account) :=
  received callTurn (fun reply c => c.answered reply) (es.map inPool) new.pool

/-- The network answers with one entry for each key, where it answers with a list. -/
def AnswersComplete (es : List Event) : Prop :=
  Along callTurn Call.CompleteAnswer (es.map inPool) new.pool

instance (es : List Event) : Decidable (AnswersComplete es) :=
  inferInstanceAs (Decidable (Along callTurn Call.CompleteAnswer (es.map inPool) new.pool))

/-- The calls as they start. -/
theorem started_asked (es : List Event) : (started (es.map inPool)).map Call.keysOf = asked es := by
  induction es with
  | nil => rfl
  | cons e es ih =>
      cases e with
      | turn i reply => exact ih
      | _ => exact congrArg₂ List.cons rfl ih

/-- A call starts with all of its keys to look up, and nothing known. -/
theorem started_fresh {es : List Event} {c : Call} (hc : c ∈ started (es.map inPool)) :
    c.WorksOn c.keysOf ∧ ∀ p, ¬ c.Carries p := by
  induction es with
  | nil => exact absurd hc List.not_mem_nil
  | cons e es ih =>
      cases e with
      | turn i reply => exact ih hc
      | getAccount k =>
          rcases List.mem_cons.mp hc with rfl | hc
          · exact ⟨rfl, fun _ h => h⟩
          · exact ih hc
      | getAccounts ks =>
          rcases List.mem_cons.mp hc with rfl | hc
          · refine ⟨⟨rfl, fun k hk => Or.inl hk⟩, fun p hp => ?_⟩
            cases hp
          · exact ih hc

variable {es : List Event}

/-- Every call still works on its keys. -/
theorem run_worksOn (hrun : run es new = some s) (hcomplete : AnswersComplete es) :
    List.Forall₂ (fun ks c => c.WorksOn ks) (asked es) s.calls := by
  have hnew : List.Forall₂ (fun start c : Call => c.WorksOn start.keysOf) [] new.pool.procs := .nil
  have hkept := run_kept
    (fun c hc => (started_fresh hc).1)
    (fun start c m reply m' c' hworks hcomplete hturn => Call.turn_worksOn hworks hcomplete hturn)
    (run_pool hrun) hcomplete hnew
  rw [← started_asked, List.forall₂_map_left_iff]
  exact hkept

/-- All that is cached, and all that a call carries, was answered. -/
theorem run_answered (hrun : run es new = some s) :
    Logged (fun cache p => cache p.1 = some p.2) (fun c p => c.Carries p) (answers es) s.pool := by
  have hnew : Logged (fun cache p => cache p.1 = some p.2) (fun c p => Call.Carries p c) [] new.pool := by
    refine ⟨fun p hp => ?_, fun c hc => ?_⟩
    · cases hp
    · cases hc
  show Logged _ _
    ([] ++ received callTurn (fun reply c => c.answered reply) (es.map inPool) new.pool) s.pool
  exact run_known
    (fun m reply c m' c' p hturn hp => Call.turn_known hturn hp)
    (fun c hc => (started_fresh hc).2) (run_pool hrun) hnew

/-- **Concurrent reads are answers.** In every run in which the network answers lists of keys with one
    entry for each, however calls and turns interleave and whatever the answers are, no call panics; what
    a call returns is one value for each of its keys, in their order; and each of these values, like each
    one that is cached, is an answer the network gave for this key. So against a chain that does not
    change a call returns what the chain has. -/
theorem concurrent_reads_answered (hrun : run es new = some s) (hcomplete : AnswersComplete es) :
    (∀ c ∈ s.calls, c ≠ .panicked) ∧
    (∀ (i : Nat) values, s.calls[i]? = some (.returned values) →
      (asked es)[i]? = some (values.map Prod.fst)) ∧
    (∀ (i : Nat) k v, s.Returned i k v → (k, v) ∈ answers es) ∧
    (∀ k v, s.cache k = some v → (k, v) ∈ answers es) ∧
    ∀ chain : Pubkey → Option Account, (∀ p ∈ answers es, p.2 = chain p.1) →
      ∀ (i : Nat) values, s.calls[i]? = some (.returned values) →
        ∃ ks, (asked es)[i]? = some ks ∧ values = ks.map fun k => (k, chain k) := by
  have hworks := run_worksOn hrun hcomplete
  have hlogged := run_answered hrun
  have hinOrder : ∀ (i : Nat) values, s.calls[i]? = some (.returned values) →
      (asked es)[i]? = some (values.map Prod.fst) := by
    intro i values hcall
    obtain ⟨ks, hks, hon⟩ := forall₂_get hworks hcall
    rw [hks]
    exact congrArg some hon
  have hanswered : ∀ i k v, s.Returned i k v → (k, v) ∈ answers es := by
    rintro i k v ⟨values, hcall, hmem⟩
    exact hlogged.procs _ (List.mem_of_getElem? hcall) (k, v) hmem
  refine ⟨?_, hinOrder, hanswered, fun k v hv => hlogged.memory (k, v) hv, ?_⟩
  · intro c hc hpanic
    obtain ⟨i, hi⟩ := List.mem_iff_getElem?.mp hc
    obtain ⟨ks, -, hon⟩ := forall₂_get hworks hi
    rw [hpanic] at hon
    exact hon
  · intro chain hchain i values hcall
    refine ⟨values.map Prod.fst, hinOrder i values hcall, ?_⟩
    have hvalues : values.map (fun p => (p.1, chain p.1)) = values.map id :=
      List.map_congr_left fun p hp => Prod.ext rfl
        (hchain p (hanswered i p.1 p.2 ⟨values, hcall, hp⟩)).symm
    rw [List.map_map]
    exact (hvalues.trans (List.map_id values)).symm

/-! ## Sample runs -/

section Sample

/-- A `get_accounts` whose request overlaps with the `get_account` of
    another call, answered differently. -/
def overlappingLists : List Event :=
  [.getAccounts [watched, ZERO_PUBKEY], .getAccount watched, .turn 0 .failed, .turn 1 .failed,
    .turn 0 .failed, .turn 0 .failed, .turn 1 (.account older), .turn 1 .failed,
    .turn 0 (.accounts [some newer, none]), .turn 0 .failed, .turn 0 .failed, .turn 0 .failed]

/-- Both calls return what they were answered; the later answer stays in the cache. -/
theorem concurrent_reads_answered_sample :
    ∃ s, run overlappingLists new = some s ∧ s.Returned 0 watched (some newer) ∧
    s.Returned 1 watched (some older) ∧
      (∀ c ∈ s.calls, c ≠ .panicked) ∧
      (∀ (i : Nat) values, s.calls[i]? = some (.returned values) →
        (asked overlappingLists)[i]? = some (values.map Prod.fst)) ∧
      (∀ k v, s.cache k = some v → (k, v) ∈ answers overlappingLists) := by
  obtain ⟨s, hrun⟩ : ∃ s, run overlappingLists new = some s := ⟨_, rfl⟩
  obtain ⟨hpanic, hinOrder, -, hcached, -⟩ := concurrent_reads_answered hrun (by decide)
  refine ⟨s, hrun, ?_, ?_, hpanic, hinOrder, hcached⟩
  · cases hrun
    exact ⟨_, rfl, List.mem_cons_self⟩
  · cases hrun
    exact ⟨_, rfl, List.mem_cons_self⟩

end Sample

end RpcClientCache

end ByrealTitan
