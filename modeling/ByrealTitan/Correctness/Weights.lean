import ByrealTitan.Correctness.Prepared

/-!
# `Correctness.Weights` — what the weighted legs of a mint spend

A leg asks for its weight of what its account holds above the reserve, rounded down. So the legs of one
mint take shares of what the legs before them left (`Reserve.shares`): together never more than there
was, and all of it only if some leg asks for everything (`weighted_legs`).
-/

namespace ByrealTitan.Program

open Reserve

variable {R : Runtime} {ctx : Ctx} {reserved : Vector UInt64 MAX_MINTS} {swaps : List SwapSpecInputV2}
  {i : UInt8} {account : AccountInfo} {r : UInt64} {st st' : RouteState}

/-- The weights of the legs from mint `i`, as the legs cap them. -/
def cappedWeights (i : UInt8) (swaps : List SwapSpecInputV2) : List Nat :=
  (swaps.filter fun swap => swap.fromIdx = i).map fun swap => min swap.weightNanos.toNat 1000000000

/-- The input amounts of the legs from mint `i`, along a run of the leg loop. -/
def inputAmounts (R : Runtime) (ctx : Ctx) (reserved : Vector UInt64 MAX_MINTS) (i : UInt8) :
    List SwapSpecInputV2 → RouteState → List Nat
  | [], _ => []
  | swap :: swaps, st =>
      match legInputAmount ctx reserved st.bank swap, legStep R ctx reserved st swap with
      | .ok n, .ok st' =>
          if swap.fromIdx = i then n.toNat :: inputAmounts R ctx reserved i swaps st'
          else inputAmounts R ctx reserved i swaps st'
      | _, _ => []

/-- In this run of the leg loop, the CPIs of the legs from mint `i` debit its account by exactly their
    amount, and those of the other legs leave its balance as it is. -/
def ExactDebits (R : Runtime) (ctx : Ctx) (reserved : Vector UInt64 MAX_MINTS) (i : UInt8) (key : Pubkey)
    (swaps : List SwapSpecInputV2) (st : RouteState) : Prop :=
  ∀ pre swap post st₁ n bank', swaps = pre ++ swap :: post →
    pre.foldlM (legStep R ctx reserved) st = .ok st₁ → legInputAmount ctx reserved st₁.bank swap = .ok n →
    legCpi R ctx n swap st₁.remainingAccountIndex swap.nAccounts.toNat st₁.bank = .ok bank' →
      balances bank' key + (if swap.fromIdx = i then n.toNat else 0) = balances st₁.bank key

namespace ExactDebits

variable {key : Pubkey} {swap : SwapSpecInputV2} {swaps' : List SwapSpecInputV2}

/-- What holds of the run holds behind its first leg. -/
theorem tail (h : ExactDebits R ctx reserved i key (swap :: swaps) st)
    (hstep : legStep R ctx reserved st swap = .ok st') : ExactDebits R ctx reserved i key swaps st' := by
  intro pre s post st₁ n bank' hswaps hreach hn hcpi
  refine h (swap :: pre) s post st₁ n bank' (by rw [hswaps, List.cons_append]) ?_ hn hcpi
  rw [List.foldlM_cons, hstep]
  exact hreach

/-- And up to any leg. -/
theorem init (h : ExactDebits R ctx reserved i key (swaps ++ swaps') st) :
    ExactDebits R ctx reserved i key swaps st := by
  intro pre s post st₁ n bank' hswaps
  exact h pre s (post ++ swaps') st₁ n bank' (by rw [hswaps, List.append_assoc, List.cons_append])

end ExactDebits

theorem cappedWeights_le : ∀ w ∈ cappedWeights i swaps, w ≤ 1000000000 := by
  intro w hw
  obtain ⟨swap, -, rfl⟩ := List.mem_map.mp hw
  exact Nat.min_le_right _ _

/-- Some leg from the mint asks for everything. -/
theorem mem_cappedWeights_iff :
    1000000000 ∈ cappedWeights i swaps ↔ ∃ swap ∈ swaps, swap.fromIdx = i ∧
    1000000000 ≤ swap.weightNanos.toNat := by
  simp only [cappedWeights, List.mem_map, List.mem_filter, decide_eq_true_eq, and_assoc,
    min_eq_right_iff]

/-! ## The loop -/

/-- A run of the loop takes the shares of the weights, and leaves the rest above the reserve. -/
theorem legSteps_shares {a : Nat} (hdebits : ExactDebits R ctx reserved i account.key swaps st)
    (haccount : ctx.remainingAccounts[i.toNat]? = some account) (hreserved : reserved[i.toNat]? = some r)
    (hstart : balances st.bank account.key = a + r.toNat)
    (hrun : swaps.foldlM (legStep R ctx reserved) st = .ok st') :
    inputAmounts R ctx reserved i swaps st = shares 1000000000 a (cappedWeights i swaps) ∧
      balances st'.bank account.key + (shares 1000000000 a (cappedWeights i swaps)).sum = a + r.toNat := by
  induction swaps generalizing st a with
  | nil =>
      cases hrun
      exact ⟨rfl, hstart⟩
  | cons swap swaps ih =>
      rw [List.foldlM_cons, Except.bind_eq_ok] at hrun
      obtain ⟨st₁, hleg, hrun⟩ := hrun
      obtain ⟨-, -, n, hn, hcpi⟩ := legStep_cases hleg
      have hrest := hdebits.tail hleg
      have hexact := hdebits [] swap swaps st n st₁.bank rfl rfl hn hcpi
      by_cases hfrom : swap.fromIdx = i
      · -- a leg from the mint takes its share of what is left
        have hdebit : balances st₁.bank account.key + n.toNat = balances st.bank account.key := by
          rwa [if_pos hfrom] at hexact
        subst hfrom
        have hshare := legInputAmount_eq haccount hreserved hn
        rw [hstart, Nat.add_sub_cancel] at hshare
        have hle : n.toNat ≤ a := by
          rw [hshare]
          exact share_le (Nat.min_le_right _ _)
        obtain ⟨hamounts, hleft⟩ := ih hrest (a := a - n.toNat) (by omega) hrun
        rw [cappedWeights, List.filter_cons_of_pos (by simp), List.map_cons, shares, ← hshare,
          inputAmounts, hn, hleg]
        refine ⟨?_, ?_⟩
        · simp only [↓reduceIte]
          exact congrArg (n.toNat :: ·) hamounts
        · rw [List.sum_cons]
          have : balances st'.bank account.key +
            (shares 1000000000 (a - n.toNat) (cappedWeights swap.fromIdx swaps)).sum = a - n.toNat +
              r.toNat := hleft
          rw [cappedWeights] at this
          omega
      · -- the other legs change nothing here
        have hkeep : balances st₁.bank account.key = balances st.bank account.key := by
          rwa [if_neg hfrom] at hexact
        obtain ⟨hamounts, hleft⟩ := ih hrest (hkeep.trans hstart) hrun
        rw [cappedWeights, List.filter_cons_of_neg (by simpa using hfrom), inputAmounts, hn, hleg]
        simp only [hfrom, ↓reduceIte]
        exact ⟨hamounts, hleft⟩

/-- **Weighted legs spend what they should.** Let the account of a mint hold `A` above its
    reserve, and let the CPIs debit exactly. Each leg from the mint then asks for its weight
    of what is left, rounded down, without saturation and without loss in the cast; the
    balance never falls below the reserve, and all legs together spend at most `A`: all of it
    exactly if `A` is zero or some leg asks for everything. -/
theorem weighted_legs {A : UInt64} (hdebits : ExactDebits R ctx reserved i account.key swaps st)
    (haccount : ctx.remainingAccounts[i.toNat]? = some account) (hreserved : reserved[i.toNat]? = some r)
    (hstart : balances st.bank account.key = A.toNat + r.toNat)
    (hrun : swaps.foldlM (legStep R ctx reserved) st = .ok st') :
    (∀ pre swap post, swaps = pre ++ swap :: post → ∃ st₁,
      pre.foldlM (legStep R ctx reserved) st = .ok st₁ ∧ r.toNat ≤ balances st₁.bank account.key ∧
      (swap.fromIdx = i → ∃ available n : UInt64,
        balances st₁.bank account.key = available.toNat + r.toNat ∧ available ≤ A ∧
        legInputAmount ctx reserved st₁.bank swap = .ok n ∧
        available.toNat * min swap.weightNanos.toNat 1000000000 < 2 ^ 128 ∧
        n.toNat = available.toNat * min swap.weightNanos.toNat 1000000000 / 1000000000)) ∧
    inputAmounts R ctx reserved i swaps st = shares 1000000000 A.toNat (cappedWeights i swaps) ∧
    r.toNat ≤ balances st'.bank account.key ∧
    balances st'.bank account.key + (inputAmounts R ctx reserved i swaps st).sum = A.toNat + r.toNat ∧
    (inputAmounts R ctx reserved i swaps st).sum ≤ A.toNat ∧
    ((inputAmounts R ctx reserved i swaps st).sum = A.toNat ↔
      A = 0 ∨ ∃ swap ∈ swaps, swap.fromIdx = i ∧ 1000000000 ≤ swap.weightNanos.toNat) := by
  obtain ⟨hamounts, hleft⟩ := legSteps_shares hdebits haccount hreserved hstart hrun
  have htotal : (shares 1000000000 A.toNat (cappedWeights i swaps)).sum ≤ A.toNat :=
    sum_shares_le cappedWeights_le
  refine ⟨fun pre swap post hswaps => ?_, hamounts, by omega, by rw [hamounts]; exact hleft,
    by rw [hamounts]; exact htotal, ?_⟩
  · subst hswaps
    rw [List.foldlM_append, Except.bind_eq_ok] at hrun
    obtain ⟨st₁, hpre, hrun⟩ := hrun
    rw [List.foldlM_cons, Except.bind_eq_ok] at hrun
    obtain ⟨_, hleg, -⟩ := hrun
    obtain ⟨-, -, n, hn, -⟩ := legStep_cases hleg
    -- what the legs in front have left
    obtain ⟨-, hleft₁⟩ := legSteps_shares hdebits.init haccount hreserved hstart hpre
    have hspent : (shares 1000000000 A.toNat (cappedWeights i pre)).sum ≤ A.toNat :=
      sum_shares_le cappedWeights_le
    refine ⟨st₁, hpre, by omega, fun hfrom => ?_⟩
    subst hfrom
    -- the balance is a word, so what is above the reserve is one too
    have havailable : (UInt64.ofNat (balances st₁.bank account.key - r.toNat)).toNat =
        balances st₁.bank account.key - r.toNat :=
      UInt64.toNat_ofNat_of_lt' (Nat.lt_of_le_of_lt (Nat.sub_le _ _) (tokenBalance_lt _))
    refine ⟨UInt64.ofNat (balances st₁.bank account.key - r.toNat), n, by omega,
      UInt64.le_iff_toNat_le.mpr (by omega), hn, ?_, ?_⟩
    · have hword := (UInt64.ofNat (balances st₁.bank account.key - r.toNat)).toNat_lt
      exact Nat.lt_of_le_of_lt (Nat.mul_le_mul (Nat.le_of_lt hword) (Nat.min_le_right _ _)) (by decide)
    · rw [havailable]
      exact legInputAmount_eq haccount hreserved hn
  · rw [hamounts, sum_shares_eq_iff (by decide) cappedWeights_le, mem_cappedWeights_iff,
      ← UInt64.toNat_inj]
    rfl

/-! ## The sample route -/

section Sample

open Reference

/-- What the sample keeps of the 70 tokens on its first ATA. -/
def keptBack : Vector UInt64 MAX_MINTS := (Vector.replicate MAX_MINTS 0).set 0 20

/-- The dealer takes exactly the amount of a leg, and brings nothing to the first ATA. -/
theorem dealer_debits :
    ExactDebits (runtime Sample.titanPda Sample.dealer) Sample.longCtx keptBack 0 Sample.titanA
    Sample.longSwaps ⟨6, Sample.longBank⟩ := by
  intro pre swap post st₁ n bank' hswaps hreach _ hcpi
  rcases longLeg_moves hswaps hreach hcpi with ⟨-, hfrom, -, b₁, hin, hout⟩ | ⟨-, hfrom, -, b₁, hin, hout⟩
  · have htake := hin.source_eq (by decide)
    have henough := hin.enough
    rw [if_pos hfrom, hout.frame Sample.titanA (by decide) (by decide), htake]
    omega
  · rw [if_neg (by rw [hfrom]; decide), hout.frame Sample.titanA (by decide) (by decide),
      hin.frame Sample.titanA (by decide) (by decide), Nat.add_zero]

/-- Of the 70 tokens 20 are kept back. Between two legs of another mint, the leg that asks for half spends
    25, the one that asks for everything the other 25, and no less than the 20 are left. -/
theorem weighted_legs_sample :
    ∃ st', Sample.longSwaps.foldlM (legStep (runtime Sample.titanPda Sample.dealer)
      Sample.longCtx keptBack) ⟨6, Sample.longBank⟩ = .ok st' ∧
      inputAmounts (runtime Sample.titanPda Sample.dealer) Sample.longCtx keptBack 0 Sample.longSwaps
        ⟨6, Sample.longBank⟩ = [25, 25] ∧
      balances st'.bank Sample.titanA = 20 := by
  obtain ⟨st', hrun⟩ :=
    Except.exists_of_failure? (show (Sample.longSwaps.foldlM (legStep (runtime Sample.titanPda
      Sample.dealer) Sample.longCtx keptBack) ⟨6, Sample.longBank⟩).failure? = none by decide +kernel)
  have hstart : balances (RouteState.mk 6 Sample.longBank).bank Sample.titanA =
      (50 : UInt64).toNat + (20 : UInt64).toNat := by
    decide +kernel
  have hshares : shares 1000000000 (50 : UInt64).toNat (cappedWeights 0 Sample.longSwaps) = [25, 25] := by
    decide +kernel
  have haccount : Sample.longCtx.remainingAccounts[(0 : UInt8).toNat]? =
      some (Sample.writable Sample.titanA) := rfl
  have hreserved : keptBack[(0 : UInt8).toNat]? = some 20 := by
    decide +kernel
  obtain ⟨-, hamounts, -, hleft, -⟩ := weighted_legs (A := 50) dealer_debits haccount hreserved hstart hrun
  rw [hamounts, hshares] at hleft
  exact ⟨st', hrun, hamounts.trans hshares, Nat.add_right_cancel (hleft.trans (Nat.add_comm 50 20))⟩

end Sample

end ByrealTitan.Program
