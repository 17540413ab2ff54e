import ByrealTitan.Correctness.Snapshot
import ByrealTitan.Program.Reference

/-!
# `Correctness.Prepared` — what a route knows before it trades

`prepare_spec` collects what a successful validation and snapshot guarantee to the later stages: every leg
names route mints, the snapshot holds the balance of every recorded account, and the ATAs were created
before it was taken. With it the amount a leg spends is bounded by what lies above the recorded balance
(`legInputAmount_le`).
-/

namespace ByrealTitan.Program

variable {R : Runtime} {ctx : Ctx} {amount : UInt64} {mints : UInt8} {swaps : List SwapSpecInputV2}
  {bank : Bank} {p : Prepared}

/-- What the stages behind `prepare` may rely on. -/
structure PreparedSpec (R : Runtime) (ctx : Ctx) (mints : UInt8) (swaps : List SwapSpecInputV2)
    (bank : Bank) (p : Prepared) : Prop where
  mints_eq : p.mintsCount = mints.toNat
  mints_le : p.mintsCount ≤ MAX_MINTS
  mints_pos : 1 < p.mintsCount
  remaining : 2 * p.mintsCount ≤ ctx.remainingAccounts.length
  legs : ∀ s ∈ swaps, s.fromIdx.toNat < p.mintsCount ∧ s.toIdx.toNat < p.mintsCount
  output : p.outputAtaIndex < p.mintsCount
  created : createAtas R ctx p.mintsCount bank = .ok (p.createdAtas, p.bank)
  snapshot : SnapshotSpec R ctx p.mintsCount p.bank ctx.remainingAccounts.zipIdx p.snapshot

theorem prepare_spec (h : prepare R ctx amount mints swaps bank = .ok p) :
    PreparedSpec R ctx mints swaps bank p := by
  have hprep := prepare_ok h
  obtain ⟨hpos, -, hle, hremaining, hlegs⟩ := validate_ok hprep.valid
  obtain ⟨last, hlast, houtput⟩ := hprep.output
  rw [← hprep.mints] at hpos hle hremaining hlegs
  exact {
    mints_eq := hprep.mints
    mints_le := hle
    mints_pos := hpos
    remaining := hremaining
    legs := hlegs
    output := by
      rw [houtput]
      exact (hlegs last (List.mem_of_getLast? hlast)).2
    created := hprep.created
    snapshot := takeSnapshot_spec hprep.snapshot }

namespace PreparedSpec

/-- The reserved balance of an ATA is the one its account had when it was recorded. -/
theorem reserved_eq (hp : PreparedSpec R ctx mints swaps bank p) {i : Nat} (hi : i < p.mintsCount)
    {a : AccountInfo} (ha : ctx.remainingAccounts[i]? = some a) :
    p.snapshot.reserved[i]? = some (tokenAmountOrZero (p.bank a.key)) ∧
      a.key ∈ recordedKeys R ctx p.bank := by
  obtain ⟨hrec, hres⟩ :=
    hp.snapshot.reserved (a, i) (List.mk_mem_zipIdx_iff_getElem?.mpr ha) hi
  exact ⟨hres, a, List.mem_of_getElem? ha, rfl, hrec⟩

end PreparedSpec

/-! ## The amount a leg spends -/

theorem saturatingSub_toNat (a b : UInt64) : (saturatingSub a b).toNat = a.toNat - b.toNat := by
  unfold saturatingSub
  split
  next h => rw [UInt64.toNat_sub_of_le _ _ h]
  next h =>
    have : a.toNat < b.toNat := Nat.lt_of_not_le fun hle => h (UInt64.le_iff_toNat_le.mpr hle)
    show 0 = _
    omega

/-- The weighted share, with no saturation in the product and no loss in the cast. -/
theorem weightedAmount_toNat (available : UInt64) (weightNanos : UInt32) :
    (weightedAmount available weightNanos).toNat
      = available.toNat * min weightNanos.toNat 1000000000 / 1000000000 := by
  have hshare : available.toNat * min weightNanos.toNat 1000000000 / 1000000000 ≤ available.toNat :=
    Reserve.share_le (Nat.min_le_right _ _)
  have hprod : available.toNat * min weightNanos.toNat 1000000000 ≤ 2 ^ 64 * 1000000000 :=
    Nat.mul_le_mul (Nat.le_of_lt available.toNat_lt) (Nat.min_le_right _ _)
  unfold weightedAmount
  simp only
  rw [Nat.min_eq_left (Nat.le_trans hprod (by decide)), UInt64.toNat_ofNat_of_lt']
  exact Nat.lt_of_le_of_lt hshare available.toNat_lt

/-- **The amount of a leg** is its weight of what lies above the reserve of its input account. -/
theorem legInputAmount_eq {reserved : Vector UInt64 MAX_MINTS} {swap : SwapSpecInputV2} {n : UInt64}
    {source : AccountInfo} (hsource : ctx.remainingAccounts[swap.fromIdx.toNat]? = some source)
    {res : UInt64} (hres : reserved[swap.fromIdx.toNat]? = some res)
    (h : legInputAmount ctx reserved bank swap = .ok n) :
    n.toNat = (balances bank source.key - res.toNat) * min swap.weightNanos.toNat 1000000000 /
      1000000000 := by
  unfold legInputAmount at h
  simp only [Except.bind_eq_ok, Except.pure_eq_ok, remainingAccount, Res.orErr_eq_ok,
    Res.orPanic_eq_ok, hsource, hres, Option.some.injEq, exists_eq_left'] at h
  obtain ⟨balance, hbalance, rfl⟩ := h
  rw [weightedAmount_toNat, saturatingSub_toNat, balances, tokenBalance_of_extract hbalance]

/-- It is at most what lies there. -/
theorem legInputAmount_le {reserved : Vector UInt64 MAX_MINTS} {swap : SwapSpecInputV2} {n : UInt64}
    {source : AccountInfo} (hsource : ctx.remainingAccounts[swap.fromIdx.toNat]? = some source)
    {res : UInt64} (hres : reserved[swap.fromIdx.toNat]? = some res)
    (h : legInputAmount ctx reserved bank swap = .ok n) :
    n.toNat ≤ tokenBalance (bank source.key) - res.toNat := by
  rw [legInputAmount_eq hsource hres h]
  exact Reserve.share_le (Nat.min_le_right _ _)

/-! ## The CPI of a leg -/

/-- The accounts a leg cuts out of the remaining accounts. -/
def legAccounts (ctx : Ctx) (start accountIncrement : Nat) : List AccountInfo :=
  (ctx.remainingAccounts.drop start).take accountIncrement

/-- **The CPI of a leg**: without an amount nothing happens; otherwise the program named last is invoked
    once, with the accounts in front of it. -/
theorem legCpi_spec {n : UInt64} {swap : SwapSpecInputV2} {start accountIncrement : Nat} {bank' : Bank}
    (h : legCpi R ctx n swap start accountIncrement bank = .ok bank') :
    (n = 0 ∧ bank' = bank) ∨
      ∃ venueProgram, (legAccounts ctx start accountIncrement).getLast? = some venueProgram ∧
        ∃ ix ∈ swapV3Dyn venueProgram.key n
            (((legAccounts ctx start accountIncrement).take (accountIncrement - 1)).map
              (legAccountMeta ctx)),
          R.invokeSigned ix (legAccounts ctx start accountIncrement) (signerSeeds ctx) bank
            = .ok bank' := by
  unfold legCpi at h
  split at h
  · simp only [Except.bind_eq_ok, Res.checkedAdd_eq_ok, Res.slice_eq_ok, Res.checkedSub_eq_ok] at h
    obtain ⟨_, ⟨-, rfl⟩, _, ⟨-, rfl⟩, _, ⟨-, rfl⟩, _, ⟨-, rfl⟩, h⟩ := h
    rw [Nat.add_sub_cancel_left, List.drop_zero, Nat.sub_zero] at h
    simp only [performCpiSwap, Except.bind_eq_ok, Res.orErr_eq_ok] at h
    obtain ⟨venueProgram, hlast, h⟩ := h
    refine Or.inr ⟨venueProgram, hlast, _, List.mem_singleton.mpr rfl, ?_⟩
    simp only [swapV3Dyn, List.foldlM_cons, List.foldlM_nil, bind_pure, invoked_eq_ok] at h
    exact h
  next hn =>
    refine Or.inl ⟨?_, (Except.ok.inj h).symm⟩
    have : n.toNat = 0 := Nat.eq_zero_of_not_pos fun hpos => hn (UInt64.lt_iff_toNat_lt.mpr hpos)
    exact UInt64.toNat_inj.mp this

/-- A leg moves the index by its count. -/
theorem legStep_index {reserved : Vector UInt64 MAX_MINTS} {st st' : RouteState}
    {swap : SwapSpecInputV2} (h : legStep R ctx reserved st swap = .ok st') :
    st'.remainingAccountIndex = st.remainingAccountIndex + swap.nAccounts.toNat := by
  simp only [legStep, Except.bind_eq_ok, Except.pure_eq_ok, Res.checkedAdd_eq_ok] at h
  obtain ⟨-, -, stop, ⟨-, hstop⟩, -, -, n, -, bank, -, rfl⟩ := h
  exact hstop.symm

/-- Legs move the index by the sum of their counts. -/
theorem legSteps_index {reserved : Vector UInt64 MAX_MINTS} {swaps : List SwapSpecInputV2}
    {st st' : RouteState} (h : swaps.foldlM (legStep R ctx reserved) st = .ok st') :
    st'.remainingAccountIndex =
      st.remainingAccountIndex + (swaps.map fun swap => swap.nAccounts.toNat).sum := by
  induction swaps generalizing st with
  | nil =>
      cases h
      simp
  | cons swap swaps ih =>
      rw [List.foldlM_cons, Except.bind_eq_ok] at h
      obtain ⟨st₁, hfirst, hrest⟩ := h
      rw [ih hrest, legStep_index hfirst, List.map_cons, List.sum_cons, Nat.add_assoc]

/-! ## Accounts that were there before -/

/-- ATAs that are there are not opened. -/
theorem PreparedSpec.bank_eq (hp : PreparedSpec R ctx mints swaps bank p)
    (hopen : ∀ i < mints.toNat, ∀ ata ∈ ctx.remainingAccounts[i]?, accountExists (bank ata.key) = true) :
    p.bank = bank := by
  have hyields : Yields (createAtas R ctx p.mintsCount bank) (fun st : BitVec 16 × Bank => st.2 = bank)
      (fun _ => True) := by
    refine Yields.foldlM (I := fun _ (st : BitVec 16 × Bank) => st.2 = bank) rfl ?_
    intro pre i post st hsplit _ hst
    refine Yields.intro (fun st' hst' => ?_) (fun _ _ => trivial)
    obtain ⟨ata, hata, ⟨-, rfl⟩ | ⟨hmissing, -⟩⟩ := createAtaStep_cases hst'
    · exact hst
    · have hi : i < p.mintsCount := by
        apply List.mem_range.mp
        rw [hsplit]
        exact List.mem_append_right _ List.mem_cons_self
      rw [hp.mints_eq] at hi
      rw [hst, hopen i hi ata hata] at hmissing
      cases hmissing
  exact hyields.of_ok hp.created

/-- What does not belong to the TitanPDA is not recorded. -/
theorem not_recorded {k : Pubkey} (hk : isTitanPdaTokenAccount R (bank k) ctx.titanPda.key = false) :
    k ∉ recordedKeys R ctx bank := by
  rintro ⟨a, -, rfl, hrecorded⟩
  rw [recorded, hk] at hrecorded
  cases hrecorded

section Sample

open Reference Reserve

/-- The ATAs of the sample route exist, so its balances are recorded in the bank it starts from. -/
theorem sample_prepared_bank {venue : VenueProgram} {input : Pubkey}
    (h : prepare (runtime Sample.titanPda venue) (Sample.ctx input) amount 2 swaps Sample.bank = .ok p) :
    p.bank = Sample.bank := by
  refine (prepare_spec h).bank_eq ?_
  show ∀ i < 2, ∀ ata ∈ (Sample.ctx Sample.userA).remainingAccounts[i]?, accountExists
      (Sample.bank ata.key) = true
  decide +kernel

/-- And so do those of the longer one. -/
theorem longRoute_prepared_bank {venue : VenueProgram}
    (h : prepare (runtime Sample.titanPda venue) Sample.longCtx amount 3 swaps Sample.longBank = .ok p) :
    p.bank = Sample.longBank := by
  refine (prepare_spec h).bank_eq ?_
  show ∀ i < 3, ∀ ata ∈ Sample.longCtx.remainingAccounts[i]?, accountExists
      (Sample.longBank ata.key) = true
  decide +kernel

theorem paid_le {dest : Pubkey} {n : UInt64} : (Sample.paid dest n).toNat ≤ n.toNat := by
  unfold Sample.paid
  split
  · rw [UInt64.toNat_div]
    exact Nat.div_le_self _ _
  · rw [UInt64.toNat_sub_of_le _ _ (UInt64.le_iff_toNat_le.mpr
      (by rw [UInt64.toNat_div]; exact Nat.div_le_self _ _))]
    exact Nat.sub_le _ _

/-- The dealer takes the amount of a leg from its source, and pays for it into its destination. -/
theorem dealer_moves (source sourceVault destVault dest : Pubkey) {start : Nat} {n : UInt64}
    {swap : SwapSpecInputV2} {b b' : Bank}
    (hleg : legAccounts ctx start 7 = Sample.legOf source sourceVault destVault dest)
    (h : legCpi (runtime Sample.titanPda Sample.dealer) ctx n swap start 7 b = .ok b') :
    ∃ b₁, Moves source sourceVault n.toNat (balances b) (balances b₁) ∧
      Moves destVault dest (Sample.paid dest n).toNat (balances b₁) (balances b') := by
  rcases legCpi_spec h with ⟨rfl, rfl⟩ | ⟨venueProgram, -, ix, hix, hinvoke⟩
  · have hnothing : (Sample.paid dest 0).toNat = 0 := Nat.le_zero.mp paid_le
    rw [hnothing]
    exact ⟨b', Moves.zero _ _ _, Moves.zero _ _ _⟩
  · have hamount := Sample.amountOf_swapV3Dyn _ _ _ ix hix
    have haccounts : ix.accounts.map AccountMeta.pubkey =
        [Sample.titanPda, source, sourceVault, destVault, dest, Sample.pool] := by
      rw [List.mem_singleton.mp hix, hleg]
      rfl
    simp only [runtime, Sample.dealer, haccounts, hamount, List.foldlM_cons, List.foldlM_nil,
      Except.bind_eq_ok, Except.pure_eq_ok, token] at hinvoke
    obtain ⟨b₁, hin, _, hout, rfl⟩ := hinvoke
    exact ⟨b₁, moveTokens_moves hin, moveTokens_moves hout⟩

/-- The legs of the longer route trade from `A` to `B` and from `B` to `C` in turns. -/
theorem longLeg_moves {reserved : Vector UInt64 MAX_MINTS} {pre post : List SwapSpecInputV2}
    {swap : SwapSpecInputV2} {n : UInt64} {b₀ b' : Bank} {st : RouteState}
    (hswaps : Sample.longSwaps = pre ++ swap :: post)
    (hreach : pre.foldlM (legStep (runtime Sample.titanPda Sample.dealer) Sample.longCtx reserved)
      ⟨6, b₀⟩ = .ok st)
    (hcpi : legCpi (runtime Sample.titanPda Sample.dealer) Sample.longCtx n swap st.remainingAccountIndex
      swap.nAccounts.toNat st.bank = .ok b') :
    (pre.length % 2 = 0 ∧ swap.fromIdx = 0 ∧ swap.toIdx = 1 ∧
      ∃ b₁, Moves Sample.titanA Sample.vaultA n.toNat (balances st.bank) (balances b₁) ∧
        Moves Sample.vaultB Sample.titanB (n.toNat / 2) (balances b₁) (balances b')) ∨
    (pre.length % 2 = 1 ∧ swap.fromIdx = 1 ∧ swap.toIdx = 2 ∧
      ∃ b₁, Moves Sample.titanB Sample.vaultB n.toNat (balances st.bank) (balances b₁) ∧
        Moves Sample.vaultC Sample.titanC (n.toNat - n.toNat / 10) (balances b₁) (balances b')) := by
  have hhalf : (Sample.paid Sample.titanB n).toNat = n.toNat / 2 := by
    simp [Sample.paid]
  have htenth : (Sample.paid Sample.titanC n).toNat = n.toNat - n.toNat / 10 := by
    have hle : n / 10 ≤ n := UInt64.le_iff_toNat_le.mpr (by simpa using Nat.div_le_self _ _)
    rw [Sample.paid, if_neg (by decide), UInt64.toNat_sub_of_le _ _ hle, UInt64.toNat_div]
    rfl
  rw [legSteps_index hreach] at hcpi
  rcases pre with _ | ⟨_, _ | ⟨_, _ | ⟨_, _ | ⟨_, pre⟩⟩⟩⟩
  all_goals
    simp only [Sample.longSwaps, List.nil_append, List.cons_append, List.cons.injEq, List.nil_eq,
      List.append_eq_nil_iff, reduceCtorEq, and_false] at hswaps
  · obtain ⟨rfl, -⟩ := hswaps
    have hmoves := dealer_moves Sample.titanA Sample.vaultA Sample.vaultB Sample.titanB rfl hcpi
    rw [hhalf] at hmoves
    exact Or.inl ⟨rfl, rfl, rfl, hmoves⟩
  · obtain ⟨rfl, rfl, -⟩ := hswaps
    have hmoves := dealer_moves Sample.titanB Sample.vaultB Sample.vaultC Sample.titanC rfl hcpi
    rw [htenth] at hmoves
    exact Or.inr ⟨rfl, rfl, rfl, hmoves⟩
  · obtain ⟨rfl, rfl, rfl, -⟩ := hswaps
    have hmoves := dealer_moves Sample.titanA Sample.vaultA Sample.vaultB Sample.titanB rfl hcpi
    rw [hhalf] at hmoves
    exact Or.inl ⟨rfl, rfl, rfl, hmoves⟩
  · obtain ⟨rfl, rfl, rfl, rfl, -⟩ := hswaps
    have hmoves := dealer_moves Sample.titanB Sample.vaultB Sample.vaultC Sample.titanC rfl hcpi
    rw [htenth] at hmoves
    exact Or.inr ⟨rfl, rfl, rfl, hmoves⟩

end Sample

end ByrealTitan.Program
