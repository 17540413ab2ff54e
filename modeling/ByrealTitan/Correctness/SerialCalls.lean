import Mathlib.Logic.Relation
import ByrealTitan.Correctness.Lookups

/-!
# `Correctness.SerialCalls` — calls that do not overlap are functions of the cache

`RpcCache` lets calls interleave turn by turn, and `Calls` has each call as one function. Here the two
levels meet. The turns of a call that nobody interrupts compute its function (`turns_getAccount`,
`turns_getAccounts`). In a serial run, in which a call starts only when the calls before it have ended,
the latest call is therefore always on its way to what its function computes, and where all have ended
the run has done the functions one after another (`serial_calls_as_functions`). What the client would
answer is not fixed in advance: it becomes known with the one reply that the call is given (`Underway`).
-/

namespace ByrealTitan

namespace Call

variable {cache : AccountCache} {client : RpcClient} {reply : Reply} {p q r e : AccountCache × Call}

/-! ## The turns of one call -/

/-- What a client answers the call that waits for it. -/
def replyOf (client : RpcClient) : Call → Reply
  | accountRequested k =>
      match client.getAccount k with
      | .ok response => .account response
      | .error _     => .failed
  | accountsRequested _ keys _ =>
      match client.getMultipleAccounts keys with
      | .ok response => .accounts response
      | .error _     => .failed
  | _ => .failed

/-- One turn of a call that this client answers. -/
def Turn (client : RpcClient) (p q : AccountCache × Call) :
    Prop := p.2.turn p.1 (p.2.replyOf client) = some q

/-- The turns of a call that nobody interrupts. -/
abbrev Turns (client : RpcClient) : AccountCache × Call → AccountCache × Call →
    Prop := Relation.ReflTransGen (Turn client)

/-- The caller has its result. -/
def Ended : Call → Prop
  | returned _ => True
  | failed     => True
  | panicked   => True
  | _          => False

theorem Ended.no_turn {c : Call} (h : c.Ended) : c.turn cache reply = none := by
  cases c with
  | returned values => rfl
  | failed => rfl
  | panicked => rfl
  | _ => exact h.elim

/-- A turn of a call that will end is on the way to its end. -/
theorem Turns.peel (hend : e.2.Ended) (h : Turns client p e) (hturn : Turn client p q) :
    Turns client q e := by
  rcases h.cases_head with rfl | ⟨r, hfirst, hrest⟩
  · rw [Turn, hend.no_turn] at hturn
    cases hturn
  · obtain rfl := Option.some.inj (hfirst.symm.trans hturn)
    exact hrest

/-! ## What a call that runs alone computes -/

/-- How a call ends. -/
def ofResult (pubkeys : List Pubkey) : Res AccountCacheError (List (Option Account)) → Call
  | .ok values     => .returned (pubkeys.zip values)
  | .error .panic  => .panicked
  | .error _       => .failed

theorem reassemble_eq (pubkeys : List Pubkey) (resultMap : AccountCache) :
    reassemble pubkeys resultMap = ofResult pubkeys (resultMap.collect pubkeys) := by
  have hzip : ∀ ks : List Pubkey, (ks.mapM fun k => (resultMap k).map fun v => (k, v)) =
      (match resultMap.collect ks with
        | .ok values => some (ks.zip values)
        | .error _ => none) ∧ ∀ fault, resultMap.collect ks = .error fault → fault = .panic := by
    intro ks
    induction ks with
    | nil => exact ⟨rfl, fun fault h => by cases h⟩
    | cons k ks ih =>
        obtain ⟨hmap, hpanic⟩ := ih
        unfold AccountCache.collect at hmap hpanic ⊢
        rw [List.mapM_cons, List.mapM_cons, hmap]
        cases resultMap k with
        | none => exact ⟨rfl, fun fault h => by cases h; rfl⟩
        | some v =>
            cases hks : ks.mapM fun k => Res.orPanic (ε := AccountCacheError) (resultMap k) with
            | ok values => exact ⟨rfl, fun fault h => by cases h⟩
            | error f =>
                obtain rfl := hpanic f hks
                exact ⟨rfl, fun fault h => by cases h; rfl⟩
  obtain ⟨hmap, hpanic⟩ := hzip pubkeys
  rw [reassemble, hmap]
  cases hcollect : resultMap.collect pubkeys with
  | ok values => rfl
  | error fault =>
      obtain rfl := hpanic fault hcollect
      rfl

/-- The call with which a lookup starts. -/
def ofLookup : Lookup → Call
  | .getAccount k   => .account k
  | .getAccounts ks => .accounts ks ks [] .empty

/-- How a lookup ends where nothing runs beside it. -/
def outcome (client : RpcClient) (cache : AccountCache) : Lookup → Call
  | .getAccount k   => ofResult [k] ((cache.getAccount client k).result >>= fun account => .ok [account])
  | .getAccounts ks => ofResult ks (cache.getAccounts client ks).result

/-- The cache and the call that a lookup leaves. -/
def done (client : RpcClient) (cache : AccountCache) (lookup : Lookup) : AccountCache × Call :=
  (cache.serve client lookup, outcome client cache lookup)

theorem ofResult_ended (pubkeys : List Pubkey) (res : Res AccountCacheError (List (Option Account))) :
    (ofResult pubkeys res).Ended := by
  unfold ofResult
  split
  · trivial
  · trivial
  · trivial

theorem outcome_ended (client : RpcClient) (cache : AccountCache) (lookup : Lookup) :
    (outcome client cache lookup).Ended := by
  cases lookup with
  | getAccount k => exact ofResult_ended _ _
  | getAccounts ks => exact ofResult_ended _ _

/-- The first loop, turn by turn. -/
theorem turns_split (pubkeys rest : List Pubkey) (split : AccountCache × List Pubkey) :
    Turns client (cache, .accounts pubkeys rest split.2 split.1)
      (cache, .accounts pubkeys [] (rest.foldl cache.splitHit split).2
        (rest.foldl cache.splitHit split).1) := by
  induction rest generalizing split with
  | nil => exact .refl
  | cons k rest ih =>
      have hturn : Turn client (cache, .accounts pubkeys (k :: rest) split.2 split.1)
          (cache, .accounts pubkeys rest (cache.splitHit split k).2 (cache.splitHit split k).1) := by
        simp only [Turn, turn, AccountCache.splitHit]
        cases cache k with
        | none => rfl
        | some account => rfl
      exact .head hturn (ih (cache.splitHit split k))

/-- The second loop. -/
theorem turns_store (pubkeys : List Pubkey) (todo : List (Pubkey × Option Account))
    (cache resultMap : AccountCache) :
    Turns client (cache, .accountsAnswered pubkeys todo resultMap)
      (cache.insertAll todo, .accountsAnswered pubkeys [] (resultMap.insertAll todo)) := by
  induction todo generalizing cache resultMap with
  | nil => exact .refl
  | cons p todo ih =>
      have hturn : Turn client (cache, .accountsAnswered pubkeys (p :: todo) resultMap)
          (cache.insert p.1 p.2, .accountsAnswered pubkeys todo (resultMap.insert p.1 p.2)) := rfl
      exact .head hturn (ih (cache.insert p.1 p.2) (resultMap.insert p.1 p.2))

/-- The turns of a `get_accounts` that runs alone compute `getAccounts`. -/
theorem turns_getAccounts (client : RpcClient) (cache : AccountCache) (pubkeys : List Pubkey) :
    Turns client (cache, .accounts pubkeys pubkeys [] .empty)
      (done client cache (.getAccounts pubkeys)) := by
  refine (turns_split pubkeys pubkeys (.empty, [])).trans ?_
  show Turns client (cache, .accounts pubkeys [] (cache.splitHits pubkeys).2 (cache.splitHits pubkeys).1)
    ((cache.getAccounts client pubkeys).cache, ofResult pubkeys (cache.getAccounts client pubkeys).result)
  simp only [AccountCache.getAccounts]
  split
  next hnone =>
    refine .single ?_
    rw [Turn, turn, if_pos hnone, reassemble_eq]
  next hmiss =>
    refine .head (if_neg hmiss) ?_
    cases hanswer : client.getMultipleAccounts (cache.splitHits pubkeys).2 with
    | error e =>
        refine .single ?_
        simp only [Turn, replyOf, hanswer]
        rfl
    | ok response =>
        have hreply : Turn client
            (cache, .accountsRequested pubkeys (cache.splitHits pubkeys).2 (cache.splitHits pubkeys).1)
            (cache, .accountsAnswered pubkeys ((cache.splitHits pubkeys).2.zip response)
              (cache.splitHits pubkeys).1) := by
          simp only [Turn, replyOf, hanswer]
          rfl
        refine .head hreply ((turns_store _ _ _ _).tail ?_)
        rw [Turn, turn, reassemble_eq]

/-- The turns of a `get_account` that runs alone compute `getAccount`. -/
theorem turns_getAccount (client : RpcClient) (cache : AccountCache) (k : Pubkey) :
    Turns client (cache, .account k) (done client cache (.getAccount k)) := by
  show Turns client (cache, .account k) ((cache.getAccount client k).cache,
    ofResult [k] ((cache.getAccount client k).result >>= fun account => .ok [account]))
  rw [AccountCache.getAccount]
  cases hk : cache k with
  | some account =>
      refine .single ?_
      simp only [Turn, turn, hk]
      rfl
  | none =>
      have hmiss : Turn client (cache, .account k) (cache, .accountRequested k) := by
        simp only [Turn, turn, hk]
      refine .head hmiss ?_
      cases hanswer : client.getAccount k with
      | error e =>
          refine .single ?_
          simp only [Turn, replyOf, hanswer]
          rfl
      | ok response =>
          have hreply : Turn client (cache, .accountRequested k) (cache, .accountAnswered k response) := by
            simp only [Turn, replyOf, hanswer]
            rfl
          exact .head hreply (.single rfl)

theorem turns_done (client : RpcClient) (cache : AccountCache) (lookup : Lookup) :
    Turns client (cache, ofLookup lookup) (done client cache lookup) := by
  cases lookup with
  | getAccount k => exact turns_getAccount client cache k
  | getAccounts ks => exact turns_getAccounts client cache ks

/-! ## A call on its way -/

/-- The call waits for the network. -/
def Waits : Call → Prop
  | accountRequested _      => True
  | accountsRequested _ _ _ => True
  | _                       => False

/-- The call needs no answer any more. -/
def Late : Call → Prop
  | accountAnswered _ _    => True
  | accountsAnswered _ _ _ => True
  | returned _             => True
  | failed                 => True
  | panicked               => True
  | _                      => False

/-- The call is on its way to what its function computes: with whatever client, as long as it may still
    ask one, and afterwards with the client that has answered it. -/
def Underway (cache : AccountCache) (lookup : Lookup) (p : AccountCache × Call) : Prop :=
  (∀ client, Turns client p (done client cache lookup)) ∨
    (p.2.Late ∧ ∃ client, Turns client p (done client cache lookup))

theorem reassemble_ended (pubkeys : List Pubkey) (resultMap : AccountCache) :
    (reassemble pubkeys resultMap).Ended := by
  rw [reassemble_eq]
  exact ofResult_ended _ _

theorem Ended.late {c : Call} (h : c.Ended) : c.Late := by
  cases c with
  | returned values => trivial
  | failed => trivial
  | panicked => trivial
  | _ => exact h.elim

/-- A call that does not wait reads no reply. -/
theorem turn_of_not_waits {c : Call} (h : ¬ c.Waits) (cache : AccountCache) (reply reply' : Reply) :
    c.turn cache reply = c.turn cache reply' := by
  cases c with
  | accountRequested k => exact absurd trivial h
  | accountsRequested pubkeys keys m => exact absurd trivial h
  | accounts pubkeys rest keys m =>
      cases rest with
      | nil => rfl
      | cons k rest => rfl
  | accountsAnswered pubkeys todo m =>
      cases todo with
      | nil => rfl
      | cons p todo => rfl
  | _ => rfl

/-- Some client gives the reply with which a waiting call went on, and the call asks no other. -/
theorem turn_of_waits {c : Call} (h : c.Waits) (hturn : c.turn cache reply = some q) :
    (∃ client, Turn client (cache, c) q) ∧ q.2.Late := by
  cases c with
  | accountRequested k =>
      cases reply with
      | account response =>
          cases hturn
          exact ⟨⟨⟨fun _ => .ok response, fun _ => .error ""⟩, rfl⟩, trivial⟩
      | failed =>
          cases hturn
          exact ⟨⟨⟨fun _ => .error "", fun _ => .error ""⟩, rfl⟩, trivial⟩
      | accounts response => cases hturn
  | accountsRequested pubkeys keys m =>
      cases reply with
      | accounts response =>
          cases hturn
          exact ⟨⟨⟨fun _ => .error "", fun _ => .ok response⟩, rfl⟩, trivial⟩
      | failed =>
          cases hturn
          exact ⟨⟨⟨fun _ => .error "", fun _ => .error ""⟩, rfl⟩, trivial⟩
      | account response => cases hturn
  | _ => exact h.elim

theorem Late.not_waits {c : Call} (h : c.Late) : ¬ c.Waits := by
  cases c with
  | accountRequested k => exact h.elim
  | accountsRequested pubkeys keys m => exact h.elim
  | _ => exact fun hwaits => hwaits

theorem Late.turn {c : Call} (h : c.Late) (hturn : c.turn cache reply = some q) : q.2.Late := by
  cases c with
  | accountAnswered k response =>
      cases hturn
      trivial
  | accountsAnswered pubkeys todo m =>
      cases todo with
      | nil =>
          cases hturn
          exact (reassemble_ended pubkeys m).late
      | cons p todo =>
          cases hturn
          trivial
  | returned values => cases hturn
  | failed => cases hturn
  | panicked => cases hturn
  | _ => exact h.elim

variable {cache₀ : AccountCache} {lookup : Lookup} {c : Call}

/-- **One turn** keeps a call on its way, whatever it is answered. -/
theorem Underway.turn (hway : Underway cache₀ lookup (cache, c)) (hturn : c.turn cache reply = some q) :
    Underway cache₀ lookup q := by
  by_cases hwaits : c.Waits
  · -- the reply settles which client this was
    rcases hway with hany | ⟨hlate, -⟩
    · obtain ⟨⟨client, hclient⟩, hlate⟩ := turn_of_waits hwaits hturn
      exact Or.inr ⟨hlate, client, Turns.peel (outcome_ended client cache₀ lookup) (hany client) hclient⟩
    · exact absurd hwaits hlate.not_waits
  · -- with any other client this turn would have been the same
    have hsame : ∀ client, Turn client (cache, c) q := fun client =>
      (turn_of_not_waits hwaits cache (c.replyOf client) reply).trans hturn
    rcases hway with hany | ⟨hlate, client, hone⟩
    · exact Or.inl fun client => Turns.peel (outcome_ended client cache₀ lookup) (hany client)
        (hsame client)
    · exact Or.inr ⟨hlate.turn hturn, client, Turns.peel (outcome_ended client cache₀ lookup) hone
        (hsame client)⟩

/-- A call that has ended on its way has done what its function computes. -/
theorem Underway.done_of_ended (hway : Underway cache₀ lookup p) (hended : p.2.Ended) :
    ∃ client, p = done client cache₀ lookup := by
  have hstop : ∀ client, Turns client p (done client cache₀ lookup) → p = done client cache₀ lookup := by
    intro client hturns
    rcases hturns.cases_head with heq | ⟨q, hturn, -⟩
    · exact heq
    · rw [Turn, hended.no_turn] at hturn
      cases hturn
  rcases hway with hany | ⟨-, client, hone⟩
  · let client : RpcClient := ⟨fun _ => .error "", fun _ => .error ""⟩
    exact ⟨client, hstop client (hany client)⟩
  · exact ⟨client, hstop client hone⟩

end Call

open Call

/-! ## Calls one after another -/

namespace AccountCache

variable {cache : AccountCache} {client : RpcClient}

/-- A result map that agrees with the cache does so after both have stored the same entries. -/
theorem insertAll_agrees {entries : List (Pubkey × Option Account)} {m : AccountCache}
    (h : ∀ k v, m k = some v → cache k = some v) :
    ∀ k v, m.insertAll entries k = some v → cache.insertAll entries k = some v := by
  induction entries generalizing m cache with
  | nil => exact h
  | cons p entries ih =>
      have hinsert : ∀ k v, m.insert p.1 p.2 k = some v → cache.insert p.1 p.2 k = some v := by
        intro k v hv
        by_cases hk : k = p.1
        · subst hk
          rw [insert_self] at hv ⊢
          exact hv
        · rw [insert_ne hk] at hv ⊢
          exact h k v hv
      exact ih hinsert

/-- What a lookup returns is cached when it has ended. -/
theorem outcome_backed (client : RpcClient) (cache : AccountCache) (lookup : Lookup) :
    (outcome client cache lookup).Backed (cache.serve client lookup) := by
  cases lookup with
  | getAccount k =>
      simp only [outcome, serve, getAccount]
      cases hk : cache k with
      | some account =>
          intro k' v hv
          cases List.mem_singleton.mp hv
          exact hk
      | none =>
          cases client.getAccount k with
          | error e => exact fun _ _ hv => hv.elim
          | ok response =>
              intro k' v hv
              cases List.mem_singleton.mp hv
              exact insert_self cache k (some response)
  | getAccounts ks =>
      -- the hits of the result map were cached before, and the answers go into both maps
      have hhits : ∀ k v, (cache.splitHits ks).1 k = some v → cache k = some v := by
        intro k v hv
        rw [(splitHits_eq cache ks).2] at hv
        split at hv
        next => exact hv
        next => cases hv
      simp only [outcome, serve, getAccounts]
      split
      next =>
        rw [← reassemble_eq]
        exact backed_reassemble hhits
      next =>
        split
        next => exact fun _ _ hv => hv.elim
        next response _ =>
          rw [← reassemble_eq]
          exact backed_reassemble (insertAll_agrees hhits)

/-- How the lookups end, each with what its client answers at the time. -/
def outcomes (cache : AccountCache) : List (RpcClient × Lookup) → List Call
  | []                        => []
  | (client, lookup) :: later => outcome client cache lookup :: outcomes (cache.serve client lookup) later

theorem outcomes_concat (cache : AccountCache) (history : List (RpcClient × Lookup)) (client : RpcClient)
    (lookup : Lookup) :
    cache.outcomes (history ++ [(client, lookup)]) =
      cache.outcomes history ++ [outcome client (cache.after history) lookup] := by
  induction history generalizing cache with
  | nil => rfl
  | cons call history ih =>
    exact congrArg (outcome call.1 cache call.2 :: ·) (ih (cache.serve call.1 call.2))

theorem outcomes_ended {cache : AccountCache} {history : List (RpcClient × Lookup)} {c : Call}
    (hc : c ∈ cache.outcomes history) : c.Ended := by
  induction history generalizing cache with
  | nil => cases hc
  | cons call history ih =>
      rcases List.mem_cons.mp hc with rfl | hc
      · exact outcome_ended call.1 cache call.2
      · exact ih hc

/-- What any of the lookups has returned stays cached. -/
theorem outcomes_backed {cache : AccountCache} {history : List (RpcClient × Lookup)} {c : Call}
    (hc : c ∈ cache.outcomes history) : c.Backed (cache.after history) := by
  induction history generalizing cache with
  | nil => cases hc
  | cons call history ih =>
      rcases List.mem_cons.mp hc with rfl | hc
      · intro k v hv
        show (cache.serve call.1 call.2).after history k = some v
        exact after_keeps (outcome_backed call.1 cache call.2 k v hv)
      · exact ih hc

end AccountCache

namespace RpcClientCache

variable {s s' : RpcClientCache} {e : Event} {es : List Event} {history : List (RpcClient × Lookup)}
  {lookup : Lookup}

/-- What is left of calls that were served one after another, each as its function. -/
def afterHistory (history : List (RpcClient × Lookup)) : RpcClientCache :=
  ⟨AccountCache.empty.after history, AccountCache.empty.outcomes history⟩

/-- All calls have ended. -/
def Idle (s : RpcClientCache) : Prop := ∀ c ∈ s.calls, c.Ended

/-- A call starts only when no other is running. -/
def StartsIdle (s : RpcClientCache) : Event → Prop
  | .turn _ _ => True
  | _         => s.Idle

/-- No two calls of the run overlap. -/
def Serial : List Event → RpcClientCache → Prop
  | [],      _ => True
  | e :: es, s => s.StartsIdle e ∧ ∀ s', s.step e = some s' → Serial es s'

/-- The lookups that a run makes. -/
def lookupsOf : List Event → List Lookup
  | []                    => []
  | .getAccount k :: es   => .getAccount k :: lookupsOf es
  | .getAccounts ks :: es => .getAccounts ks :: lookupsOf es
  | .turn _ _ :: es       => lookupsOf es

theorem lookupsOf_append (pre post : List Event) :
    lookupsOf (pre ++ post) = lookupsOf pre ++ lookupsOf post := by
  induction pre with
  | nil => rfl
  | cons e pre ih =>
      cases e with
      | turn i reply => exact ih
      | _ => exact congrArg (List.cons _) ih

theorem lookupsOf_turns (i : Nat) (replies : List Reply) : lookupsOf (replies.map (.turn i)) = [] := by
  induction replies with
  | nil => rfl
  | cons reply replies ih => exact ih

/-- The event that starts a lookup. -/
def startOf : Lookup → Event
  | .getAccount k   => .getAccount k
  | .getAccounts ks => .getAccounts ks

theorem lookupsOf_startOf (lookup : Lookup) (es : List Event) :
    lookupsOf (startOf lookup :: es) = lookup :: lookupsOf es := by
  cases lookup with
  | getAccount k => rfl
  | getAccounts ks => rfl

theorem step_startOf (s : RpcClientCache) (lookup : Lookup) :
    s.step (startOf lookup) = some ⟨s.cache, s.calls ++ [ofLookup lookup]⟩ := by
  cases lookup with
  | getAccount k => rfl
  | getAccounts ks => rfl

/-- An event is a start or a turn. -/
theorem event_cases (e : Event) : (∃ lookup, e = startOf lookup) ∨ ∃ i reply, e = .turn i reply := by
  cases e with
  | getAccount k => exact Or.inl ⟨.getAccount k, rfl⟩
  | getAccounts ks => exact Or.inl ⟨.getAccounts ks, rfl⟩
  | turn i reply => exact Or.inr ⟨i, reply, rfl⟩

theorem startsIdle_startOf (h : s.StartsIdle (startOf lookup)) : s.Idle := by
  cases lookup with
  | getAccount k => exact h
  | getAccounts ks => exact h

theorem afterHistory_idle (history : List (RpcClient × Lookup)) : (afterHistory history).Idle :=
  fun _ hc => AccountCache.outcomes_ended hc

theorem afterHistory_consistent (history : List (RpcClient × Lookup)) :
    (afterHistory history).Consistent :=
  fun _ hc => AccountCache.outcomes_backed hc

theorem afterHistory_concat (history : List (RpcClient × Lookup)) (client : RpcClient) (lookup : Lookup) :
    afterHistory (history ++ [(client, lookup)]) =
      ⟨(done client (afterHistory history).cache lookup).1,
        (afterHistory history).calls ++ [(done client (afterHistory history).cache lookup).2]⟩ := by
  rw [afterHistory, AccountCache.outcomes_concat, AccountCache.after, List.foldl_append]
  rfl

/-! ## Serial runs -/

/-- The lookup is on its way, after those of the history. -/
def Within (history : List (RpcClient × Lookup)) (lookup : Lookup) (s : RpcClientCache) : Prop :=
  ∃ c, s.calls = (afterHistory history).calls ++ [c] ∧
  Underway (afterHistory history).cache lookup (s.cache, c)

/-- At every moment of a serial run, its lookups are done, or all but the latest, which is on its way. -/
def InOrder (asked : List Lookup) (s : RpcClientCache) : Prop :=
  ∃ history, (s = afterHistory history ∧ asked = history.map Prod.snd) ∨
    ∃ lookup, Within history lookup s ∧ asked = history.map Prod.snd ++ [lookup]

variable {asked : List Lookup}

/-- When the lookup has ended, it has joined the history. -/
theorem Within.join (hs : Within history lookup s) (hidle : s.Idle) :
    ∃ client, s = afterHistory (history ++ [(client, lookup)]) := by
  obtain ⟨c, hcalls, hway⟩ := hs
  have hended : c.Ended := by
    apply hidle
    rw [hcalls]
    exact List.mem_append_right _ List.mem_cons_self
  obtain ⟨client, heq⟩ := hway.done_of_ended hended
  refine ⟨client, ?_⟩
  rw [afterHistory_concat, ← heq, ← hcalls]

theorem InOrder.of_idle (hs : InOrder asked s) (hidle : s.Idle) :
    ∃ history, s = afterHistory history ∧ asked = history.map Prod.snd := by
  obtain ⟨history, hdone | ⟨lookup, hwithin, hasked⟩⟩ := hs
  · exact ⟨history, hdone⟩
  · obtain ⟨client, heq⟩ := hwithin.join hidle
    refine ⟨_, heq, ?_⟩
    rw [hasked, List.map_append]
    rfl

/-- A call that has ended takes no turn. -/
theorem turn_of_idle {i : Nat} {reply : Reply} (hidle : s.Idle) : s.step (.turn i reply) = none := by
  simp only [step, advance, Option.bind_eq_bind]
  cases hcall : s.calls[i]? with
  | none => rfl
  | some c =>
      rw [Option.bind_some, (hidle c (List.mem_of_getElem? hcall)).no_turn]
      rfl

/-- A turn is one of the lookup that is on its way, and keeps it there. -/
theorem Within.turn {i : Nat} {reply : Reply} (hs : Within history lookup s)
    (hstep : s.step (.turn i reply) = some s') : Within history lookup s' := by
  obtain ⟨c, hcalls, hway⟩ := hs
  simp only [step, advance, Option.bind_eq_bind, Option.bind_eq_some_iff] at hstep
  obtain ⟨c', hc', ⟨cache', next⟩, hturn, heq⟩ := hstep
  cases heq
  rw [hcalls] at hc'
  by_cases hi : i < (afterHistory history).calls.length
  · -- the calls of the history have ended
    rw [List.getElem?_append_left hi] at hc'
    rw [(afterHistory_idle history c' (List.mem_of_getElem? hc')).no_turn] at hturn
    cases hturn
  · have hlast : i = (afterHistory history).calls.length := by
      have hbound := (List.getElem?_eq_some_iff.mp hc').1
      rw [List.length_append, List.length_singleton] at hbound
      omega
    subst hlast
    rw [List.getElem?_concat_length] at hc'
    cases hc'
    refine ⟨next, ?_, hway.turn hturn⟩
    rw [hcalls, List.set_append_right _ _ (Nat.le_refl _), Nat.sub_self]
    rfl

/-- **One event** of a serial run keeps the lookups in order. -/
theorem InOrder.step (hs : InOrder asked s) (hserial : s.StartsIdle e) (hstep : s.step e = some s') :
    InOrder (asked ++ lookupsOf [e]) s' := by
  rcases event_cases e with ⟨lookup, rfl⟩ | ⟨i, reply, rfl⟩
  · obtain ⟨history, rfl, hasked⟩ := hs.of_idle (startsIdle_startOf hserial)
    rw [step_startOf] at hstep
    cases hstep
    rw [lookupsOf_startOf, hasked]
    exact ⟨history, Or.inr ⟨lookup, ⟨ofLookup lookup, rfl, Or.inl fun client =>
      turns_done client _ lookup⟩, rfl⟩⟩
  · rw [lookupsOf, lookupsOf, List.append_nil]
    obtain ⟨history, ⟨rfl, -⟩ | ⟨lookup, hwithin, hasked⟩⟩ := hs
    · rw [turn_of_idle (afterHistory_idle history)] at hstep
      cases hstep
    · exact ⟨history, Or.inr ⟨lookup, hwithin.turn hstep, hasked⟩⟩

theorem InOrder.run (hs : InOrder asked s) (hserial : Serial es s) (hrun : run es s = some s') :
    InOrder (asked ++ lookupsOf es) s' := by
  induction es generalizing s asked with
  | nil =>
      cases hrun
      rw [lookupsOf, List.append_nil]
      exact hs
  | cons e es ih =>
      rw [RpcClientCache.run, Option.bind_eq_some_iff] at hrun
      obtain ⟨s₁, hstep, hrun⟩ := hrun
      have hrest := ih (hs.step hserial.1 hstep) (hserial.2 s₁ hstep) hrun
      rw [List.append_assoc, ← lookupsOf_append] at hrest
      exact hrest

/-! ## Histories as runs -/

theorem run_append {pre post : List Event} (hpre : run pre s = some s') :
    run (pre ++ post) s = run post s' := by
  induction pre generalizing s with
  | nil =>
      cases hpre
      rfl
  | cons e pre ih =>
      rw [run, Option.bind_eq_some_iff] at hpre
      obtain ⟨s₁, hstep, hpre⟩ := hpre
      rw [List.cons_append, run, hstep]
      exact ih hpre

theorem serial_append {pre post : List Event} (hpre : Serial pre s) (hrun : run pre s = some s')
    (hpost : Serial post s') : Serial (pre ++ post) s := by
  induction pre generalizing s with
  | nil =>
      cases hrun
      exact hpost
  | cons e pre ih =>
      rw [run, Option.bind_eq_some_iff] at hrun
      obtain ⟨s₁, hstep, hrun⟩ := hrun
      refine ⟨hpre.1, fun s₂ hs₂ => ?_⟩
      obtain rfl := Option.some.inj (hstep.symm.trans hs₂)
      exact ih (hpre.2 s₁ hstep) hrun

/-- Turns start no call. -/
theorem serial_turns (i : Nat) (replies : List Reply) (s : RpcClientCache) :
    Serial (replies.map (.turn i)) s := by
  induction replies generalizing s with
  | nil => trivial
  | cons reply replies ih => exact ⟨trivial, fun s' _ => ih s'⟩

/-- A call that starts when no other is running, and its turns. -/
theorem serial_lookup (lookup : Lookup) (i : Nat) (replies : List Reply) (hidle : s.Idle) :
    Serial (startOf lookup :: replies.map (.turn i)) s := by
  refine ⟨?_, fun s' _ => serial_turns i replies s'⟩
  cases lookup with
  | getAccount k => exact hidle
  | getAccounts ks => exact hidle

/-- The turns of the latest call are a run. -/
theorem run_of_turns {client : RpcClient} {p q : AccountCache × Call} (h : Turns client p q)
    (calls : List Call) :
    ∃ replies : List Reply, run (replies.map (.turn calls.length)) ⟨p.1, calls ++ [p.2]⟩ = some ⟨q.1,
      calls ++ [q.2]⟩ := by
  induction h using Relation.ReflTransGen.head_induction_on with
  | refl => exact ⟨[], rfl⟩
  | @head p r hturn _ ih =>
      obtain ⟨replies, hrun⟩ := ih
      refine ⟨p.2.replyOf client :: replies, ?_⟩
      rw [List.map_cons, run, step, advance, List.getElem?_concat_length]
      simp only [Option.bind_eq_bind, Option.bind_some]
      rw [hturn, Option.bind_some, List.set_append_right _ _ (Nat.le_refl _), Nat.sub_self]
      exact hrun

/-- Every history of functions is a serial run. -/
theorem run_of_history (history : List (RpcClient × Lookup)) :
    ∃ es, Serial es new ∧ run es new = some (afterHistory history) ∧
    lookupsOf es = history.map Prod.snd := by
  induction history using List.reverseRecOn with
  | nil => exact ⟨[], trivial, rfl, rfl⟩
  | append_singleton history call ih =>
      obtain ⟨client, lookup⟩ := call
      obtain ⟨pre, hpre, hrun, hasked⟩ := ih
      obtain ⟨replies, hend⟩ :=
        run_of_turns (turns_done client (afterHistory history).cache lookup) (afterHistory history).calls
      refine ⟨pre ++ startOf lookup :: replies.map (.turn (afterHistory history).calls.length), ?_, ?_, ?_⟩
      · exact serial_append hpre hrun (serial_lookup lookup _ replies (afterHistory_idle history))
      · rw [run_append hrun, run, step_startOf, Option.bind_some, afterHistory_concat]
        exact hend
      · rw [lookupsOf_append, hasked, lookupsOf_startOf, lookupsOf_turns, List.map_append]
        rfl

/-- **Calls that do not overlap are functions of the cache.** A run in which each call starts
    after the calls before it have ended leaves, when all have ended, what the functions of its
    lookups leave one after another, each with some client, and all calls that return a value
    for a key return the same one. Conversely every history of lookups, with any client for
    each, is what such a run of these lookups leaves. -/
theorem serial_calls_as_functions :
    (∀ es s, run es new = some s → Serial es new → s.Idle →
      ∃ history, s = afterHistory history ∧ history.map Prod.snd = lookupsOf es ∧
        ∀ i j k v w, s.Returned i k v → s.Returned j k w → v = w) ∧
    ∀ history, ∃ es, Serial es new ∧ run es new = some (afterHistory history) ∧
      lookupsOf es = history.map Prod.snd := by
  refine ⟨fun es s hrun hserial hidle => ?_, run_of_history⟩
  have hnew : InOrder [] new := ⟨[], Or.inl ⟨rfl, rfl⟩⟩
  obtain ⟨history, rfl, hasked⟩ := (hnew.run hserial hrun).of_idle hidle
  refine ⟨history, rfl, hasked.symm, fun i j k v w hv hw => ?_⟩
  have hcached := (afterHistory_consistent history).returned hv
  rw [(afterHistory_consistent history).returned hw] at hcached
  exact (Option.some.inj hcached).symm

/-! ## A sample run -/

section Sample

/-- An account is fetched, then found beside one that is missing, which is then found to be missing. -/
def threeReads : List Event :=
  startOf (.getAccount watched) :: [.failed, .account older, .failed].map (.turn 0) ++
    startOf (.getAccounts [watched, ZERO_PUBKEY]) ::
      [.failed, .failed, .failed, .accounts [none], .failed, .failed].map (.turn 1) ++
    startOf (.getAccount ZERO_PUBKEY) :: [.failed].map (.turn 2)

theorem serial_calls_as_functions_sample :
    ∃ s history, run threeReads new = some s ∧ s = afterHistory history ∧
      history.map Prod.snd = [.getAccount watched, .getAccounts [watched, ZERO_PUBKEY],
        .getAccount ZERO_PUBKEY] ∧
      s.Returned 0 watched (some older) ∧ s.Returned 1 watched (some older) ∧
      s.Returned 2 ZERO_PUBKEY none := by
  obtain ⟨s, hrun⟩ : ∃ s, run threeReads new = some s := ⟨_, rfl⟩
  have hserial : Serial threeReads new := by
    refine serial_append (serial_append (serial_lookup _ _ _ ?_) rfl (serial_lookup _ _ _ ?_)) rfl
      (serial_lookup _ _ _ ?_)
    · exact fun c hc => absurd hc List.not_mem_nil
    · intro c hc
      rcases List.mem_singleton.mp hc with rfl
      trivial
    · intro c hc
      rcases List.mem_cons.mp hc with rfl | hc
      · trivial
      · rcases List.mem_singleton.mp hc with rfl
        trivial
  have hidle : s.Idle := by
    cases hrun
    intro c hc
    rcases List.mem_cons.mp hc with rfl | hc
    · trivial
    · rcases List.mem_cons.mp hc with rfl | hc
      · trivial
      · rcases List.mem_singleton.mp hc with rfl
        trivial
  obtain ⟨history, heq, hasked, -⟩ := serial_calls_as_functions.1 threeReads s hrun hserial hidle
  refine ⟨s, history, hrun, heq, hasked, ?_, ?_, ?_⟩
  · cases hrun
    exact ⟨_, rfl, List.mem_singleton.mpr rfl⟩
  · cases hrun
    exact ⟨_, rfl, List.mem_cons_self⟩
  · cases hrun
    exact ⟨_, rfl, List.mem_singleton.mpr rfl⟩

end Sample

end RpcClientCache

end ByrealTitan
