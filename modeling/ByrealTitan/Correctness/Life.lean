import ByrealTitan.Correctness.FailedRefresh
import ByrealTitan.TradingVenue.Contract

/-!
# `Correctness.Life` — a venue over its whole life

A venue is made from its pool account and then refreshed whenever the host likes, from whatever the
cache gives it. `updateState_life` says what one refresh does to the flag, the bounds and the identity
of the venue, whether it succeeds or fails; `venue_life` what the host may rely on after any number of
them.
-/

namespace ByrealTitan.Adapter.ByrealClmmVenue

open Clmm Clmm.ByrealClmmVenue

variable {X : Crates}

/-- The venue as the host sees it, with the turns its loops are given. -/
def asTradingVenue (v : ByrealClmmVenue X) (fuel : Nat) : TradingVenue where
  tokenInfo := v.getTokenInfo
  protocol := v.protocol
  quote := v.quote fuel

/-! ## One refresh -/

/-- Both bounds are cached, or neither is; and the flag tells which. -/
def BoundsFollow (v : ByrealClmmVenue X) : Prop :=
  (v.initialized = true ∧ ∃ bounds0 bounds1, v.boundsCache = (some bounds0, some bounds1)) ∨
    (v.initialized = false ∧ v.boundsCache = (none, none))

/-- The identity of a venue: no refresh writes it. -/
theorem updateState_identity (v : ByrealClmmVenue X) (fuel : Nat) (cache : AccountsCache) :
    (v.updateState fuel cache).2.core.keys = v.core.keys := by
  refine updateState_keeps (I := fun w => w.core.keys = v.core.keys) ?_ ?_ rfl fuel cache
  · intro w accounts hw
    exact (updateState_keys accounts w.core).trans hw
  · intro fuel w accounts hw
    refine Steps.runSteps_inv (I := fun u : ByrealClmmVenue X => u.core.keys = v.core.keys) ?_ hw
    intro step hmem u u' hu hstep
    simp only [finishSteps, List.mem_cons, List.not_mem_nil, or_false] at hmem
    rcases hmem with rfl | rfl | rfl | rfl
    · obtain ⟨clock, -, hv⟩ := Except.bind_eq_ok.mp hstep
      cases hv
      exact hu
    · obtain ⟨clock, -, hstep⟩ := Except.bind_eq_ok.mp hstep
      obtain ⟨info, -, hv⟩ := Except.bind_eq_ok.mp hstep
      cases hv
      exact hu
    · obtain ⟨bounds0, -, hstep⟩ := Except.bind_eq_ok.mp hstep
      obtain ⟨bounds1, -, hv⟩ := Except.bind_eq_ok.mp hstep
      cases hv
      exact hu
    · cases hstep
      exact hu

/-- **What a refresh does to the flag**: a success sets it with both
    bounds, a failure leaves it as it was. -/
theorem updateState_life {v : ByrealClmmVenue X} (h : BoundsFollow v) (fuel : Nat)
    (cache : AccountsCache) :
    BoundsFollow (v.updateState fuel cache).2 ∧
      ((v.updateState fuel cache).2.initialized = true ↔
        v.initialized = true ∨ (v.updateState fuel cache).1 = .ok ()) := by
  by_cases hok : (v.updateState fuel cache).1 = .ok ()
  · obtain ⟨w, hw⟩ : ∃ w, v.updateState fuel cache = (.ok (), w) := ⟨_, Prod.ext hok rfl⟩
    rw [hw]
    -- the last two steps of a refresh that succeeds
    have hend : w.initialized = true ∧ ∃ bounds0 bounds1, w.boundsCache =
        (some bounds0, some bounds1) := by
      unfold updateState at hw
      split at hw
      next => cases hw
      next accounts _ =>
        rw [Steps.andThen_ok] at hw
        obtain ⟨-, hw⟩ := hw
        unfold updateRest at hw
        split at hw
        next => cases hw
        next accounts' _ =>
          rw [Steps.andThen_ok] at hw
          obtain ⟨-, hinit, -, bounds0, bounds1, hcache, -, -⟩ := finish_ok hw.2
          exact ⟨hinit, bounds0, bounds1, hcache⟩
    exact ⟨.inl hend, ⟨fun _ => .inr rfl, fun _ => hend.1⟩⟩
  · obtain ⟨core, epoch, info, heq, -, -⟩ := updateState_failed hok
    rw [heq]
    refine ⟨h, ⟨fun hinit => .inl hinit, fun hinit => ?_⟩⟩
    rcases hinit with hinit | hinit
    · exact hinit
    · exact absurd hinit hok

/-! ## Any number of refreshes -/

/-- Some refresh of the run succeeded. -/
def SomeSucceeded (fuel : Nat) (caches : List AccountsCache) (v : ByrealClmmVenue X) : Prop :=
  ∃ earlier cache later, caches = earlier ++ cache :: later ∧
    ((refreshes fuel earlier v).updateState fuel cache).1 = .ok ()

theorem someSucceeded_cons {fuel : Nat} {v : ByrealClmmVenue X} {cache : AccountsCache}
    {caches : List AccountsCache} :
    SomeSucceeded fuel (cache :: caches) v ↔ (v.updateState fuel cache).1 = .ok () ∨
      SomeSucceeded fuel caches (v.updateState fuel cache).2 := by
  constructor
  · rintro ⟨earlier, cache', later, heq, hok⟩
    cases earlier with
    | nil =>
        cases heq
        exact Or.inl hok
    | cons first earlier =>
        rw [List.cons_append, List.cons.injEq] at heq
        obtain ⟨rfl, rfl⟩ := heq
        exact Or.inr ⟨earlier, cache', later, rfl, hok⟩
  · rintro (hok | ⟨earlier, cache', later, rfl, hok⟩)
    · exact ⟨[], cache, caches, rfl, hok⟩
    · exact ⟨cache :: earlier, cache', later, rfl, hok⟩

theorem refreshes_life (fuel : Nat) {v : ByrealClmmVenue X} (h : BoundsFollow v) (hwf : WellFormed v)
    (caches : List AccountsCache) :
    BoundsFollow (refreshes fuel caches v) ∧ WellFormed (refreshes fuel caches v) ∧
      (refreshes fuel caches v).core.keys = v.core.keys ∧
      ((refreshes fuel caches v).initialized = true ↔ v.initialized = true ∨
        SomeSucceeded fuel caches v) := by
  induction caches generalizing v with
  | nil =>
      refine ⟨h, hwf, rfl, ⟨Or.inl, ?_⟩⟩
      rintro (hinit | ⟨earlier, cache, later, heq, -⟩)
      · exact hinit
      · simp at heq
  | cons cache caches ih =>
      obtain ⟨hfollow, hflag⟩ := updateState_life h fuel cache
      have hkeeps : WellFormed (v.updateState fuel cache).2 :=
        updateState_keeps (I := fun w => WellFormed w) (fun _ accounts h => h.refreshCore accounts)
          (fun fuel _ accounts h => h.finish fuel accounts) hwf fuel cache
      obtain ⟨hfollow', hwf', hkeys, hiff⟩ := ih hfollow hkeeps
      refine ⟨hfollow', hwf', hkeys.trans (updateState_identity v fuel cache), ?_⟩
      rw [someSucceeded_cons, ← or_assoc, ← hflag]
      exact hiff

/-! ## Answers -/

/-- The two directions of two tokens. -/
theorem two_directions {i j : UInt8} :
    (i ≠ j ∧ i.toNat < 2 ∧ j.toNat < 2) ↔ (i = 0 ∧ j = 1) ∨ (i = 1 ∧ j = 0) := by
  have h0 : ∀ k : UInt8, k = 0 ↔ k.toNat = 0 := fun k => UInt8.toNat_inj.symm
  have h1 : ∀ k : UInt8, k = 1 ↔ k.toNat = 1 := fun k => UInt8.toNat_inj.symm
  have hne : i ≠ j ↔ i.toNat ≠ j.toNat := not_congr UInt8.toNat_inj.symm
  rw [h0, h1, h0, h1, hne]
  omega

theorem cachedBounds_answered {cached : Option (Nat × Nat)} :
    (∃ found, cachedBounds cached = .ok found) ↔ cached.isSome = true := by
  cases cached with
  | none => simp [cachedBounds, Res.orErr, Res.fail]
  | some found => simp [cachedBounds, Res.orErr]

/-- Each of the bounds is there where the venue is initialised. -/
theorem BoundsFollow.isSome {v : ByrealClmmVenue X} (h : BoundsFollow v) :
    (v.boundsCache.1.isSome = true ↔ v.initialized = true) ∧
      (v.boundsCache.2.isSome = true ↔ v.initialized = true) := by
  rcases h with ⟨hinit, bounds0, bounds1, hcache⟩ | ⟨hinit, hcache⟩
  · simp [hinit, hcache]
  · simp [hinit, hcache]

/-- Bounds are answered for the directions of a venue that has them. -/
theorem bounds_answered {v : ByrealClmmVenue X} (h : BoundsFollow v) (hwf : WellFormed v) (fuel : Nat)
    (i j : UInt8) :
    (∃ found, v.bounds i j = .ok found) ↔ v.initialized = true ∧
    (i, j) ∈ (v.asTradingVenue fuel).directionsNum := by
  obtain ⟨hfirst, hsecond⟩ := h.isSome
  have hlen : (v.asTradingVenue fuel).tokenInfo.length = 2 := hwf.tokens
  rw [TradingVenue.mem_directionsNum, hlen, two_directions]
  unfold bounds
  split
  next hij =>
    rw [cachedBounds_answered, hfirst]
    exact ⟨fun hinit => ⟨hinit, Or.inl hij⟩, And.left⟩
  next hij =>
    split
    next hji =>
      rw [cachedBounds_answered, hsecond]
      exact ⟨fun hinit => ⟨hinit, Or.inr hji⟩, And.left⟩
    next hji =>
      constructor
      · rintro ⟨found, hfound⟩
        obtain ⟨_, -, hfound⟩ := Except.bind_eq_ok.mp hfound
        obtain ⟨_, -, hfound⟩ := Except.bind_eq_ok.mp hfound
        cases hfound
      · rintro ⟨-, hpair⟩
        exact absurd hpair (not_or.mpr ⟨hij, hji⟩)

/-- **A venue over its life.** Made from a pool account and refreshed any number of times, from
    anything the cache may answer, it stays the venue of that pool and of that program; it is
    initialised once some refresh succeeded, and from then on; until then every quote and every
    instruction is refused, and no bounds are answered; and after it, the directions that
    bounds are answered for are the ones that are listed. -/
theorem venue_life {pubkey : Pubkey} {account : Account} {made : ByrealClmmVenue X}
    (h : fromAccount X pubkey account = .ok made) (fuel : Nat) (caches : List AccountsCache) :
    (refreshes fuel caches made).marketId = pubkey ∧
    (refreshes fuel caches made).programId = BYREAL_CLMM_PROGRAM_ID ∧
    ((refreshes fuel caches made).initialized = true ↔ SomeSucceeded fuel caches made) ∧
    (∀ i j, (∃ found, (refreshes fuel caches made).bounds i j = .ok found) ↔
      SomeSucceeded fuel caches made ∧ (i, j) ∈ ((refreshes fuel caches made).asTradingVenue
        fuel).directionsNum) ∧
    (¬ SomeSucceeded fuel caches made → ∀ fuel' request user,
      (refreshes fuel caches made).quote fuel' request = .error (.err (.notInitialized (.pubkey pubkey))) ∧
        (refreshes fuel caches made).generateSwapInstruction request user =
          .error (.err (.notInitialized (.pubkey pubkey)))) := by
  have hwf := (Built.fromAccount h).wellFormed
  obtain ⟨⟨⟩, howner, h⟩ := Except.bind_eq_ok.mp h
  rw [Res.require_eq_ok] at howner
  obtain ⟨core, hcore, hmade⟩ := Except.bind_eq_ok.mp h
  obtain ⟨pool, -, hcore⟩ := Except.bind_eq_ok.mp hcore
  cases hcore
  cases hmade
  obtain ⟨hfollow, hwf', hkeys, hflag⟩ := refreshes_life fuel (Or.inr ⟨rfl, rfl⟩) hwf caches
  have hmarket : (refreshes fuel caches _).marketId = pubkey := congrArg Prod.fst hkeys
  have hprogram : (refreshes fuel caches _).programId = account.owner := congrArg (fun k => k.2.1) hkeys
  simp only [Bool.false_eq_true, false_or] at hflag
  refine ⟨hmarket, hprogram.trans howner, hflag, fun i j => ?_, fun hnone fuel' request user => ?_⟩
  · rw [← hflag]
    exact bounds_answered hfollow hwf' fuel i j
  · have hinit := fun hinit => hnone (hflag.mp hinit)
    unfold quote generateSwapInstruction Res.require
    rw [if_neg hinit, hmarket]
    exact ⟨rfl, rfl⟩

/-! ## The sample venue -/

section Sample

/-- The sample pool, refreshed from an empty cache and then from the market. -/
theorem venue_life_sample :
    let caches := [Sample.cacheOf fun _ => none, Sample.goodCache]
    let v := refreshes 100 caches Sample.venue
    v.marketId = Sample.market ∧ v.programId = BYREAL_CLMM_PROGRAM_ID ∧
    (v.initialized = true ↔ SomeSucceeded 100 caches Sample.venue) ∧
    (∀ i j, (∃ found, v.bounds i j = .ok found) ↔
      SomeSucceeded 100 caches Sample.venue ∧ (i, j) ∈ (v.asTradingVenue 100).directionsNum) ∧
    (¬ SomeSucceeded 100 caches Sample.venue → ∀ fuel request user,
      v.quote fuel request = .error (.err (.notInitialized (.pubkey Sample.market))) ∧
        v.generateSwapInstruction request user = .error (.err
          (.notInitialized (.pubkey Sample.market)))) :=
  @venue_life Sample.X Sample.market ⟨0, [1], BYREAL_CLMM_PROGRAM_ID⟩ Sample.venue rfl 100 _

end Sample

end ByrealTitan.Adapter.ByrealClmmVenue
