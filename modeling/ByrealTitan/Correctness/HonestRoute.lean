import ByrealTitan.Correctness.NoPanic
import ByrealTitan.Program.Reference

/-!
# `Correctness.HonestRoute` — honest venues never trip the reserve check

The invariant of a route is `Covered`: every recorded TitanPDA account holds at least the balance recorded
for it. The deposit takes from no recorded account, an honest leg spends only what lies above the reserve
of its input account, the payout sends the gain of the output account, and the closing pass closes empty
accounts. So the final check finds nothing to complain about, and no earlier stage reports the error on
its own (`quiet_prepare`, `quiet_trade`). Of a transfer only the debit is asked to be exact.
-/

namespace ByrealTitan.Program

open Reserve

variable {R : Runtime} {ctx : Ctx} {amount : UInt64} {mints : UInt8} {swaps : List SwapSpecInputV2}
  {bank bank' : Bank} {p : Prepared}

/-! ## Every stage keeps the reserves -/

/-- Each CPI of the route takes from the account it was asked to spend from at most its input amount, and
    otherwise only credits the recorded TitanPDA accounts. -/
def HonestVenues (R : Runtime) (ctx : Ctx) (p : Prepared) (swaps : List SwapSpecInputV2) : Prop :=
  ∀ pre swap post bank₀ st n bank' source, swaps = pre ++ swap :: post →
    deposit R ctx p = .ok bank₀ → runLegs R ctx p pre bank₀ = .ok st →
    ctx.remainingAccounts[swap.fromIdx.toNat]? = some source →
    legInputAmount ctx p.snapshot.reserved st.bank swap = .ok n →
    legCpi R ctx n swap st.remainingAccountIndex swap.nAccounts.toNat st.bank = .ok bank' →
      SpendsAtMost (recordedKeys R ctx p.bank) source.key n.toNat (balances st.bank) (balances bank')

/-- The recorded accounts hold what was recorded for them. -/
def Kept (R : Runtime) (ctx : Ctx) (p : Prepared) (bank : Bank) : Prop :=
  Covered (recordedKeys R ctx p.bank) (balances p.bank) (balances bank)

/-- One leg: what an honest CPI spends lies above the reserve of its input account. -/
theorem legStep_kept (hp : PreparedSpec R ctx mints swaps bank p) (honest : HonestVenues R ctx p swaps)
    {pre post : List SwapSpecInputV2} {swap : SwapSpecInputV2} {bank₀ : Bank} {st st' : RouteState}
    (hswaps : swaps = pre ++ swap :: post) (hdeposit : deposit R ctx p = .ok bank₀)
    (hreach : runLegs R ctx p pre bank₀ = .ok st) (hkept : Kept R ctx p st.bank)
    (h : legStep R ctx p.snapshot.reserved st swap = .ok st') : Kept R ctx p st'.bank := by
  obtain ⟨-, -, n, hn, hcpi⟩ := legStep_cases h
  have hfrom := (hp.legs swap (by simp [hswaps])).1
  have hrem := hp.remaining
  obtain ⟨source, hsource⟩ : ∃ a, ctx.remainingAccounts[swap.fromIdx.toNat]? = some a :=
    ⟨_, List.getElem?_eq_getElem (by omega)⟩
  have hle := legInputAmount_le hsource (hp.reserved_eq hfrom hsource).1 hn
  exact hkept.spend (honest pre swap post bank₀ st n _ source hswaps hdeposit hreach hsource hn hcpi) hle

/-- All legs. -/
theorem runLegs_kept (hp : PreparedSpec R ctx mints swaps bank p) (honest : HonestVenues R ctx p swaps)
    {bank₀ : Bank} (hdeposit : deposit R ctx p = .ok bank₀) (hkept : Kept R ctx p bank₀)
    {pre post : List SwapSpecInputV2} (hswaps : swaps = pre ++ post) {st : RouteState}
    (h : runLegs R ctx p pre bank₀ = .ok st) : Kept R ctx p st.bank := by
  have hrun : Yields (runLegs R ctx p pre bank₀) (fun st => Kept R ctx p st.bank) (fun _ => True) := by
    refine Yields.foldlM (I := fun _ (st : RouteState) => Kept R ctx p st.bank) hkept ?_
    intro pre' swap post' s hpre hreach hs
    have hsplit : swaps = pre' ++ swap :: (post' ++ post) := by simp [hswaps, hpre]
    refine Yields.intro (fun s' hs' => ?_) (fun _ _ => trivial)
    exact legStep_kept hp honest hsplit hdeposit hreach hs hs'
  exact hrun.of_ok h

section Stages

variable (laws : TokenLaws R)

include laws

/-- The deposit takes from the user's input account only. When that is itself a recorded account, it is
    the first ATA, which exists by then and receives what it sends. -/
theorem deposit_kept (hp : PreparedSpec R ctx mints swaps bank p)
    (hinput : ctx.inputTokenAccount.key ∈ recordedKeys R ctx p.bank →
      ctx.remainingAccounts[0]?.map (·.key) = some ctx.inputTokenAccount.key)
    (h : deposit R ctx p = .ok bank') : Kept R ctx p bank' := by
  obtain ⟨first, created, b₁, b₂, hfirst, hsetup, htransfer, hclose⟩ := deposit_cases h
  have hpos : 0 < p.mintsCount := Nat.lt_of_succ_lt hp.mints_pos
  have hexists : accountExists (p.bank first.key) = true :=
    (createAtas_spec laws hp.created).exist 0 (List.mem_range.mpr hpos) first hfirst
  have hsetup' : (∀ k, balances p.bank k ≤ balances b₁ k) ∧
      (created = true → accountExists (p.bank ctx.inputTokenAccount.key) = false) := by
    rcases setupInput_cases hsetup with ⟨-, rfl, rfl⟩ | ⟨-, hwrapped⟩
    · exact ⟨fun k => Nat.le_refl _, by simp⟩
    · exact setupWsolInputAccount_spec laws hwrapped
  have hdebits := transferTokens_spends laws htransfer
  have hkept₂ : Kept R ctx p b₂ := by
    have hkept₁ : Kept R ctx p b₁ := Covered.refl.noLoss (NoLoss.of_forall hsetup'.1)
    by_cases hmem : ctx.inputTokenAccount.key ∈ recordedKeys R ctx p.bank
    · have hkey : first.key = ctx.inputTokenAccount.key := by
        simpa [hfirst] using hinput hmem
      rw [← hkey] at hdebits
      exact hkept₁.noLoss hdebits.noLoss_self
    · exact hkept₁.noLoss (hdebits.spendsAtMost.noLoss hmem)
  rcases hclose with ⟨-, rfl⟩ | ⟨hcreated, hclose⟩
  · exact hkept₂
  · -- the closed account did not exist before, so it is not a recorded one
    have hnot : ctx.inputTokenAccount.key ∉ recordedKeys R ctx p.bank := by
      intro hmem
      have hkey : first.key = ctx.inputTokenAccount.key := by
        simpa [hfirst] using hinput hmem
      have hno := hsetup'.2 hcreated
      rw [← hkey, hexists] at hno
      exact absurd hno (by simp)
    have hother := (laws.closeAccount hclose).2
    intro k hk
    rw [hother k (fun heq => hnot (heq ▸ hk))]
    exact hkept₂ k hk

/-- The payout sends what the output account holds above its reserve. -/
theorem payout_kept (hp : PreparedSpec R ctx mints swaps bank p) {b : Bank} (hkept : Kept R ctx p b)
    (h : payout R ctx p b = .ok bank') : Kept R ctx p bank' := by
  obtain ⟨out, raw, res, b₁, hout, hraw, hres, hopen, htransfer⟩ := payout_cases h
  have hopen' : ∀ k, balances b k ≤ balances b₁ k := by
    rcases openOutput_cases hopen with rfl | hcreate
    · exact fun k => Nat.le_refl _
    · exact (laws.createAta (invoked_eq_ok.mp hcreate)).2.2
  rw [(hp.reserved_eq hp.output hout).1] at hres
  obtain rfl := Option.some.inj hres
  refine (hkept.noLoss (NoLoss.of_forall hopen')).spend
    (transferTokens_spends laws htransfer).spendsAtMost ?_
  have hb : tokenBalance (b out.key) ≤ tokenBalance (b₁ out.key) := hopen' out.key
  rw [saturatingSub_toNat, ← tokenBalance_of_extract hraw]
  exact Nat.sub_le_sub_right hb _

/-- Only empty accounts are closed. -/
theorem closeStep_kept {b : Bank} {i : Nat} (hkept : Kept R ctx p b)
    (h : closeStep R ctx p b i = .ok bank') : Kept R ctx p bank' := by
  obtain ⟨-, ⟨-, rfl⟩ | ⟨-, ata, -, ⟨-, rfl⟩ | ⟨hzero, program, hclose⟩⟩⟩ := closeStep_cases h
  · exact hkept
  · exact hkept
  · obtain ⟨-, hother⟩ := laws.closeAccount hclose
    intro k hk
    by_cases hka : k = ata.key
    · have hreserve := hkept k hk
      have hbalance : balances b ata.key = 0 := hzero
      rw [hka, hbalance] at hreserve
      rw [hka]
      omega
    · rw [hother k hka]
      exact hkept k hk

theorem closeCreatedAtas_kept {b : Bank} (hkept : Kept R ctx p b)
    (h : closeCreatedAtas R ctx p b = .ok bank') : Kept R ctx p bank' := by
  have hrun : Yields (closeCreatedAtas R ctx p b) (Kept R ctx p) (fun _ => True) := by
    refine Yields.foldlM (I := fun _ => Kept R ctx p) hkept ?_
    intro _ i _ s _ _ hs
    exact Yields.intro (fun s' hs' => closeStep_kept laws hs hs') (fun _ _ => trivial)
  exact hrun.of_ok h

/-- From the snapshot to the final check. -/
theorem trade_kept (hp : PreparedSpec R ctx mints swaps bank p) (honest : HonestVenues R ctx p swaps)
    (hinput : ctx.inputTokenAccount.key ∈ recordedKeys R ctx p.bank →
      ctx.remainingAccounts[0]?.map (·.key) = some ctx.inputTokenAccount.key)
    (h : trade R ctx p swaps = .ok bank') : Kept R ctx p bank' := by
  obtain ⟨b₀, st, b₂, h₀, h₁, h₂, h₃⟩ := trade_cases h
  have hkept₀ := deposit_kept laws hp hinput h₀
  have hkept₁ := runLegs_kept hp honest h₀ hkept₀ (List.append_nil swaps).symm h₁
  exact closeCreatedAtas_kept laws (payout_kept laws hp hkept₁ h₂) h₃

end Stages

/-! ## The route -/

/-- **An honest route never trips the reserve check.** Let every venue take at most its input amount from
    the account it was asked to spend from and otherwise only credit TitanPDA accounts, and let the user's
    input account be none of the recorded TitanPDA accounts (or the first ATA itself). Then every leg
    spends at most what its account holds above the reserved balance, every recorded account still holds
    its recorded balance after the payout and the closing pass, and the route never ends in
    `ReservedBalanceViolation`. -/
theorem honest_route_keeps_reserves (laws : TokenLaws R)
    (hinput : ∀ p, prepare R ctx amount mints swaps bank = .ok p →
      ctx.inputTokenAccount.key ∈ recordedKeys R ctx p.bank →
        ctx.remainingAccounts[0]?.map (·.key) = some ctx.inputTokenAccount.key)
    (honest : ∀ p, prepare R ctx amount mints swaps bank = .ok p → HonestVenues R ctx p swaps) :
    (∀ p bank₀ pre swap post st n source reserved, prepare R ctx amount mints swaps bank = .ok p →
      deposit R ctx p = .ok bank₀ → swaps = pre ++ swap :: post →
      runLegs R ctx p pre bank₀ = .ok st →
      ctx.remainingAccounts[swap.fromIdx.toNat]? = some source →
      p.snapshot.reserved[swap.fromIdx.toNat]? = some reserved →
      legInputAmount ctx p.snapshot.reserved st.bank swap = .ok n →
        n.toNat + reserved.toNat ≤ tokenBalance (st.bank source.key)) ∧
    (∀ p bank', prepare R ctx amount mints swaps bank = .ok p → trade R ctx p swaps = .ok bank' →
      ∀ a ∈ ctx.remainingAccounts, recorded R ctx p.bank a = true →
        tokenBalance (p.bank a.key) ≤ tokenBalance (bank' a.key)) ∧
    execute R ctx amount mints swaps bank ≠ .error (.err (.route .reservedBalanceViolation)) := by
  refine ⟨?_, ?_, ?_⟩
  · intro p bank₀ pre swap post st n source reserved hprep hdeposit hswaps hreach hsource hres hn
    have hp := prepare_spec hprep
    have hfrom := (hp.legs swap (by simp [hswaps])).1
    obtain ⟨hres', hmem⟩ := hp.reserved_eq hfrom hsource
    have hkept₀ := deposit_kept laws hp (hinput p hprep) hdeposit
    have hkept := runLegs_kept hp (honest p hprep) hdeposit hkept₀ hswaps hreach
    have hcovered : tokenBalance (p.bank source.key) ≤ tokenBalance (st.bank source.key) :=
      hkept source.key hmem
    have hle := legInputAmount_le hsource hres hn
    rw [hres'] at hres
    obtain rfl := Option.some.inj hres
    have : tokenBalance (p.bank source.key) = (tokenAmountOrZero (p.bank source.key)).toNat := rfl
    omega
  · intro p bank' hprep htrade a ha hrec
    exact trade_kept laws (prepare_spec hprep) (honest p hprep) (hinput p hprep) htrade a.key
      ⟨a, ha, rfl, hrec⟩
  · -- no stage has this error but the final check, and that only on an account that fell
    intro h
    unfold execute at h
    rcases Except.bind_eq_error.mp h with h | ⟨p, hprep, h⟩
    · obtain ⟨e, heq, he⟩ := quiet_prepare _ h
      exact he (Fault.err.inj heq).symm
    · have hp := prepare_spec hprep
      rcases Except.bind_eq_error.mp h with h | ⟨bank', htrade, h⟩
      · obtain ⟨e, heq, he⟩ := quiet_trade hp _ h
        exact he (Fault.err.inj heq).symm
      · have hkept := trade_kept laws hp (honest p hprep) (hinput p hprep) htrade
        rcases Except.bind_eq_error.mp h with h | ⟨_, -, h⟩
        · obtain ⟨-, a, ha, hrec, hbelow⟩ := (finalCheck_yields hp.snapshot).of_error h
          exact Nat.not_le_of_lt hbelow (hkept a.key ⟨a, ha, rfl, hrec⟩)
        · exact absurd h (by simp [pure, Except.pure])

/-! ## The sample route -/

section Sample

open Reference

/-- The sample venue is honest: it takes its input amount from the input ATA, and the account it pays from
    is not the TitanPDA's. -/
theorem exchange_honest {input : Pubkey} {p : Prepared}
    (hprep : prepare (runtime Sample.titanPda Sample.exchange) (Sample.ctx input) amount 2 Sample.swaps
      Sample.bank = .ok p) :
    HonestVenues (runtime Sample.titanPda Sample.exchange) (Sample.ctx input) p Sample.swaps := by
  intro pre swap post bank₀ st n bank' source hswaps _ _ hsource _ hcpi
  obtain ⟨rfl, rfl, rfl⟩ : pre = [] ∧ swap = ⟨.byrealClmm true, 0, 1, 1000000000, 8⟩ ∧ post = [] := by
    cases pre with
    | nil =>
        obtain ⟨h1, h2⟩ := List.cons.inj hswaps
        exact ⟨rfl, h1.symm, h2.symm⟩
    | cons x xs => exact absurd (congrArg List.length hswaps) (by simp [Sample.swaps])
  obtain rfl : Sample.writable Sample.titanA = source := Option.some.inj hsource
  have hbank := sample_prepared_bank hprep
  have hvault : Sample.vaultB ∉ recordedKeys (runtime Sample.titanPda Sample.exchange)
      (Sample.ctx input) p.bank := by
    have hpool : isTitanPdaTokenAccount (runtime Sample.titanPda Sample.exchange)
        (Sample.bank Sample.vaultB) Sample.titanPda = false := by decide +kernel
    rintro ⟨a, -, ha, hrec⟩
    rw [recorded, ha, hbank] at hrec
    exact absurd (hpool.symm.trans hrec) (by simp)
  rcases legCpi_spec hcpi with ⟨-, rfl⟩ | ⟨venueProgram, -, ix, hix, hinvoke⟩
  · exact fun k _ => ⟨Nat.le_add_right _ _, fun _ => Nat.le_refl _⟩
  · simp only [runtime, Sample.exchange, Sample.amountOf_swapV3Dyn _ _ _ ix hix, List.foldlM_cons,
      List.foldlM_nil, Except.bind_eq_ok, Except.pure_eq_ok, token] at hinvoke
    obtain ⟨b₁, hin, _, hout, rfl⟩ := hinvoke
    exact (moveTokens_moves hin).debits.spendsAtMost.trans_noLoss
      ((moveTokens_moves hout).debits.spendsAtMost.noLoss hvault)

/-- The sample route, spending from the user's own account. -/
theorem honest_route_sample :
    execute (runtime Sample.titanPda Sample.exchange) (Sample.ctx Sample.userA) 1000 2 Sample.swaps
      Sample.bank ≠ .error (.err (.route .reservedBalanceViolation)) := by
  refine (honest_route_keeps_reserves (tokenLaws _ _) ?_ fun p => exchange_honest).2.2
  rintro p - ⟨a, ha, hkey, -⟩
  have hnot : ∀ a ∈ (Sample.ctx Sample.userA).remainingAccounts, a.key ≠ Sample.userA := by decide
  exact absurd hkey (hnot a ha)

/-- **Without the condition on the input account an honest route can trip the check**: the user is a
    delegate of a recorded TitanPDA account and deposits from it. -/
theorem honest_route_from_reserve :
    ¬ ∀ (R : Runtime) (ctx : Ctx) (amount : UInt64) (mints : UInt8) (swaps : List SwapSpecInputV2)
      (bank : Bank), TokenLaws R →
      (∀ p, prepare R ctx amount mints swaps bank = .ok p → HonestVenues R ctx p swaps) →
      execute R ctx amount mints swaps bank ≠ .error (.err (.route .reservedBalanceViolation)) := by
  intro hclaim
  refine hclaim (runtime Sample.titanPda Sample.exchange) (Sample.ctx Sample.keptA) 1000 2 Sample.swaps
    Sample.bank (tokenLaws _ _) (fun p => exchange_honest) (Except.failure?_eq_some.mp ?_)
  decide +kernel

end Sample

end ByrealTitan.Program
