import ByrealTitan.Correctness.Lifecycle

/-!
# `Correctness.Deployment` — from raw instructions to the history of the TitanPDA's accounts

`Correctness.Histories` speaks of routes of one TitanPDA. What the chain sees is lower: instructions
with any data and any accounts, entered through `process`. `entries_refine_history` is the step between
the two levels: from `initialize` on, whatever is sent to the program is a history of the one canonical
TitanPDA, because no route is accepted with another one (`Correctness.Lifecycle`), and what is no route
touches no token account. So the results on histories hold of raw instructions.
-/

namespace ByrealTitan.Program

variable {P : Platform} {b₀ b b' : Bank} {pda k : Pubkey} {sovereign : Set Pubkey} {bump : UInt8}

/-- The token programs are neither the system program nor this one. -/
structure TokenProgramsApart (R : Runtime) : Prop where
  splToken : R.SPL_TOKEN_ID ≠ SYSTEM_PROGRAM_ID ∧ R.SPL_TOKEN_ID ≠ ID
  token2022 : R.TOKEN_PROGRAM_2022_ID ≠ SYSTEM_PROGRAM_ID ∧ R.TOKEN_PROGRAM_2022_ID ≠ ID

/-- What is asked of a call of the program, should it be accepted as a route: nobody signs as the
    TitanPDA, and no venue takes custody of a recorded account or sets a close authority on it. -/
def Honest (P : Platform) (accounts : Accounts) (b : Bank) : Prop :=
  ∀ ctx amount mints swaps p, SwapRouteV3.Accepts P accounts b ctx →
    prepare P.toRuntime ctx amount mints swaps b = .ok p →
      ctx.user.key ≠ ctx.titanPda.key ∧ VenuesSpare Disturbs P.toRuntime ctx p swaps

/-- One thing that happens on the chain: an instruction of the program, with any data, from accounts that
    the runtime lets stand; an instruction of a token program that the TitanPDA has not signed; or what
    other programs do to the accounts they own. -/
inductive EntryStep (P : Platform) (pda : Pubkey) : Bank → Bank → Prop where
  | called {accounts : Accounts} {data : List UInt8} {b b' : Bank} (hfunded : Funded b)
      (hhonest : Honest P accounts b) (h : process P accounts data b = .ok b') : EntryStep P pda b b'
  | token {program : Pubkey} {ix : TokenInstruction} {infos : List AccountInfo} {b b' : Bank}
      (hsigners : ∀ a ∈ infos, a.isSigner = true → a.key ≠ pda)
      (h : P.invokeToken program ix infos [] b = .ok b') : EntryStep P pda b b'
  | own {b b' : Bank} (howner : OwnerRule ID b b')
      (h : ∀ k, TokenAccount P.toRuntime (b k) → (b' k).data = (b k).data ∧ (b' k).owner = (b k).owner) :
      EntryStep P pda b b'

def EntryRun (P : Platform) (pda : Pubkey) : Bank → Bank → Prop := Relation.ReflTransGen (EntryStep P pda)

theorem EntryStep.chainStep (laws : PlatformLaws P) (h : EntryStep P pda b b') : ChainStep P b b' := by
  cases h with
  | called _ _ h => exact .called h
  | token _ h => exact .foreign (laws.invokeToken h)
  | own howner _ => exact .foreign howner

theorem EntryRun.chainRun (laws : PlatformLaws P) (h : EntryRun P pda b b') : ChainRun P b b' := by
  induction h with
  | refl => exact .refl
  | tail _ hstep ih => exact ih.tail (hstep.chainStep laws)

/-! ## What is no route touches no token account -/

theorem OpensTitan.tokenAccount (hopens : OpensTitan P pda bump b b')
    (hk : TokenAccount P.toRuntime (b k)) :
    (b' k).data = (b k).data ∧ (b' k).owner = (b k).owner := by
  have hne : k ≠ pda := by
    rintro rfl
    exact hk.data_ne_nil hopens.absent.2
  obtain ⟨howner, hdata⟩ := hopens.others k hne
  exact ⟨hdata, howner⟩

/-- A token account belongs to neither the system program nor this one. -/
theorem TokenAccount.apart (hapart : TokenProgramsApart P.toRuntime) {a : Account}
    (ha : TokenAccount P.toRuntime a) :
    a.owner ≠ SYSTEM_PROGRAM_ID ∧ a.owner ≠ ID := by
  rcases ha.program with howner | howner
  · rw [howner]
    exact hapart.splToken
  · rw [howner]
    exact hapart.token2022

theorem idlDispatch_tokenAccount (laws : PlatformLaws P) (hapart : TokenProgramsApart P.toRuntime)
    {accounts : Accounts} {data : List UInt8} (h : P.idlDispatch accounts data b = .ok b')
    (hk : TokenAccount P.toRuntime (b k)) : (b' k).data = (b k).data ∧ (b' k).owner = (b k).owner := by
  rcases laws.idlDispatch h k with ⟨howner, hdata⟩ | ⟨hidl, -⟩
  · exact ⟨hdata, howner⟩
  · obtain ⟨hsystem, hid⟩ := hk.apart hapart
    rcases hidl with howner | ⟨howner, -⟩
    · exact absurd howner hsystem
    · exact absurd howner hid

/-- An initialised TitanPDA is an account of this program. -/
theorem Initialized.noMultisig (hapart : TokenProgramsApart P.toRuntime)
    (hlive : Initialized P pda bump b) :
    NoMultisig P.toRuntime (b pda) := by
  rw [NoMultisig, hlive.owner]
  exact ⟨Ne.symm hapart.splToken.2, Ne.symm hapart.token2022.2⟩

/-- **One step of the chain is one event of the history.** -/
theorem EntryStep.event (laws : PlatformLaws P) (hapart : TokenProgramsApart P.toRuntime)
    (hcanonical : Canonical P b)
    (hlive : Initialized P pda bump b) (h : EntryStep P pda b b') : Event P.toRuntime pda b b' := by
  cases h with
  | called hfunded hhonest h =>
      rcases process_cases h with ⟨-, hinit⟩ | ⟨-, ctx, amount, mints, swaps, haccepts, hroute⟩ | ⟨-, hidl⟩
      · obtain ⟨_, _, hopens⟩ := initialize_opens laws hinit
        exact .own fun k hk => hopens.tokenAccount hk
      · -- the TitanPDA it was given is the canonical one
        obtain ⟨_, hfound, -⟩ := hcanonical _ haccepts.stored.isTitanPda
        obtain ⟨hkey, -⟩ := Prod.mk.inj (Option.some.inj (hfound.symm.trans hlive.found))
        obtain ⟨p, _, hprep, -, -⟩ := execute_cases hroute
        obtain ⟨huser, hvenues⟩ := hhonest ctx amount mints swaps p haccepts hprep
        rw [hkey] at huser
        exact .route hfunded hkey huser hprep hvenues hroute
      · exact .own fun k hk => idlDispatch_tokenAccount laws hapart hidl hk
  | token hsigners h => exact .token hsigners (hlive.noMultisig hapart) h
  | own _ h => exact .own h

theorem EntryRun.history (laws : PlatformLaws P) (hapart : TokenProgramsApart P.toRuntime)
    (hcanonical : Canonical P b)
    (hlive : Initialized P pda bump b) (h : EntryRun P pda b b') : History P.toRuntime pda b b' := by
  induction h with
  | refl => exact .refl
  | tail hrun hstep ih =>
      have hsofar := EntryRun.chainRun laws hrun
      exact ih.tail (hstep.event laws hapart (canonical_run laws hcanonical hsofar)
        (hlive.run laws hsofar))

/-- **Once initialised, raw instructions make a history of one TitanPDA.** Whatever is sent to the
    program, with whatever data and accounts, in whatever order among token instructions without the
    TitanPDA's signature and anything other programs do: what happens after the program's `initialize` is
    a history of the canonical TitanPDA, and every vault of it is kept with its balance. Asked for is that
    an accepted route has honest venues and is not signed by the TitanPDA as its user. -/
theorem entries_refine_history (laws : PlatformLaws P) (hapart : TokenProgramsApart P.toRuntime)
    (tokens : TokenLaws P.toRuntime) (custody : CustodyLaws P.toRuntime)
    (signing : SigningLaws P.toRuntime sovereign pda) (hnew : ∀ k, ¬ IsTitanPda (b₀ k))
    (hbefore : EntryRun P pda b₀ b) (hlive : IsTitanPda (b pda)) (hrun : EntryRun P pda b b') :
    History P.toRuntime pda b b' ∧
      ∀ k, Vault P.toRuntime sovereign pda (b k) →
        Vault P.toRuntime sovereign pda (b' k) ∧ tokenBalance (b k) ≤ tokenBalance (b' k) := by
  have hcanonical : Canonical P b := canonical_run laws (fun k ht => absurd ht (hnew k))
    (hbefore.chainRun laws)
  obtain ⟨bump, hfound, hdata⟩ := hcanonical pda hlive
  have hhistory : History P.toRuntime pda b b' :=
    hrun.history laws hapart hcanonical ⟨hfound, hlive.1, hdata⟩
  refine ⟨hhistory, fun k hv => ?_⟩
  have hkeeps : Keeps (b k) (b' k) := hhistory.keeps tokens custody signing hv
  exact ⟨hv.keeps hkeeps, hkeeps.balance⟩

/-! ## The sample deployment -/

section Sample

open Reference

theorem platform_invokeToken {venue : VenueProgram} {program : Pubkey} {ix : TokenInstruction}
    {infos : List AccountInfo} {seeds : SignerSeeds}
    (h : (platform venue).invokeToken program ix infos seeds b = .ok b') :
    (guarded canonicalPda venue).invokeToken program ix infos seeds b = .ok b' := by
  simp only [platform] at h
  split at h
  next => exact h
  next => cases h

theorem platform_createAta {venue : VenueProgram}
    {payer owner mint ata tokenProgram systemProgram : AccountInfo}
    (h : (platform venue).createAssociatedTokenAccountIdempotent payer owner mint ata tokenProgram
      systemProgram b = .ok b') :
    (guarded canonicalPda venue).createAssociatedTokenAccountIdempotent payer owner mint ata
      tokenProgram systemProgram b = .ok b' := by
  simp only [platform] at h
  split at h
  next => exact h
  next => cases h

theorem platform_invokeSigned {venue : VenueProgram} {ix : Instruction} {infos : List AccountInfo}
    {seeds : SignerSeeds} (h : (platform venue).invokeSigned ix infos seeds b = .ok b') :
    (guarded canonicalPda venue).invokeSigned ix infos seeds b = .ok b' := by
  simp only [platform] at h
  split at h
  next => cases h
  next => exact h

theorem platform_tokenLaws (venue : VenueProgram) : TokenLaws (platform venue).toRuntime where
  transfer h := (guarded_tokenLaws canonicalPda venue).transfer (platform_invokeToken h)
  transferChecked h := (guarded_tokenLaws canonicalPda venue).transferChecked (platform_invokeToken h)
  closeAccount h := (guarded_tokenLaws canonicalPda venue).closeAccount (platform_invokeToken h)
  syncNative h := (guarded_tokenLaws canonicalPda venue).syncNative (platform_invokeToken h)
  createAta h := (guarded_tokenLaws canonicalPda venue).createAta (platform_createAta h)
  systemTransfer := @(guarded_tokenLaws canonicalPda venue).systemTransfer

/-- The platform has the token accounts and vaults of its runtime. -/
theorem tokenAccount_platform {venue : VenueProgram} {a : Account} :
    TokenAccount (platform venue).toRuntime a ↔ TokenAccount (guarded canonicalPda venue) a :=
  ⟨fun h => ⟨h.program, h.initialised⟩, fun h => ⟨h.program, h.initialised⟩⟩

theorem Vault.guarded {venue : VenueProgram} {a : Account}
    (hv : Vault (platform venue).toRuntime sovereign pda a) :
    Vault (guarded canonicalPda venue) sovereign pda a :=
  ⟨tokenAccount_platform.mp hv.token, hv.held, hv.undelegated, hv.unclosable, hv.mint⟩

theorem platform_custodyLaws (venue : VenueProgram) : CustodyLaws (platform venue).toRuntime where
  token h k hk hno :=
    (guarded_custodyLaws canonicalPda venue).token (platform_invokeToken h) k
      (tokenAccount_platform.mp hk) hno
  closed h := (guarded_custodyLaws canonicalPda venue).closed (platform_invokeToken h)
  createAta h := (guarded_custodyLaws canonicalPda venue).createAta (platform_createAta h)
  systemTransfer := @(guarded_custodyLaws canonicalPda venue).systemTransfer

theorem platform_signingLaws (sovereign : Set Pubkey) (venue : VenueProgram) :
    SigningLaws (platform venue).toRuntime sovereign canonicalPda where
  transfer h hv := (signingLaws sovereign canonicalPda venue).transfer (platform_invokeToken h) hv.guarded
  transferChecked h hv := (signingLaws sovereign canonicalPda venue).transferChecked
    (platform_invokeToken h) hv.guarded
  closer h k hk hno :=
    (signingLaws sovereign canonicalPda venue).closer (platform_invokeToken h) k
      (tokenAccount_platform.mp hk) hno
  unsigned h hsigners hplain k hv :=
    (signingLaws sovereign canonicalPda venue).unsigned (platform_invokeToken h) hsigners
      hplain k hv.guarded
  invokeSigned h := (signingLaws sovereign canonicalPda venue).invokeSigned (platform_invokeSigned h)

theorem platform_apart (venue : VenueProgram) : TokenProgramsApart (platform venue).toRuntime where
  splToken := show SPL_TOKEN_ID ≠ SYSTEM_PROGRAM_ID ∧ SPL_TOKEN_ID ≠ ID by decide
  token2022 := show TOKEN_PROGRAM_2022_ID ≠ SYSTEM_PROGRAM_ID ∧ TOKEN_PROGRAM_2022_ID ≠ ID by decide

theorem deployed_funded : Funded deployed := by
  intro x hdata
  have hpos : ∀ mint owner amount delegate, 0 < (Sample.tokenAccount mint owner amount
      delegate).lamports :=
    fun _ _ _ _ => Nat.succ_pos _
  unfold deployed at hdata ⊢
  split at hdata
  · exact absurd rfl hdata
  next hne =>
    rw [if_neg hne]
    split
    · exact hpos _ _ _ _
    · split
      · exact hpos _ _ _ _
      · exact sample_funded x (by simp_all)

theorem started_funded : Funded started :=
  ((deployed_funded.update fun h => absurd rfl h).update fun _ => Nat.succ_pos _).update fun _ =>
    Nat.succ_pos _

/-- Instructions carried out one after the other by the token program are a run of it. -/
theorem venueRun_of_foldlM {R : Runtime} {f : Bank → TokenInstruction → Except UInt64 Bank}
    {program : Pubkey} {infos : List AccountInfo} {seeds : SignerSeeds} {ixs : List TokenInstruction}
    (hf : ∀ c i, f c i = R.invokeToken program i infos seeds c) (h : ixs.foldlM f b = .ok b') :
    VenueRun R ixs b b' := by
  induction ixs generalizing b with
  | nil =>
      obtain rfl := Except.pure_eq_ok.mp h
      exact VenueRun.done b
  | cons i is ih =>
      rw [List.foldlM_cons, Except.bind_eq_ok] at h
      obtain ⟨b₁, hi, hrest⟩ := h
      exact VenueRun.token ((hf b i).symm.trans hi) (ih hrest)

/-- The pool only moves tokens. -/
theorem pool_spares {ctx : Ctx} {p : Prepared} {swaps : List SwapSpecInputV2} :
    VenuesSpare Disturbs (platform pool).toRuntime ctx p swaps := by
  intro pre swap post bank₀ st n bank' _ _ _ _ hcpi
  rcases legCpi_spec hcpi with ⟨-, rfl⟩ | ⟨_, -, ix, -, hinvoke⟩
  · exact ⟨[], .done _, by simp⟩
  · have hrun := platform_invokeSigned hinvoke
    simp only [guarded] at hrun
    split at hrun
    next =>
      -- the venue's signers, as accounts of the token instruction
      have hsigns : ∀ (c : Bank) (i : TokenInstruction), token SPL_TOKEN_ID (pool.signs ix) c i =
          (platform pool).invokeToken SPL_TOKEN_ID i
            (ix.accounts.map (fun m => ⟨m.pubkey, m.isSigner, m.isWritable⟩) ++
              [⟨pool.authority, true, false⟩]) [] c := by
        intro c i
        show _ = (runtime canonicalPda pool).invokeToken SPL_TOKEN_ID i _ [] c
        simp only [runtime]
        congr 1
        funext k
        simp [VenueProgram.signs, List.any_map, Function.comp_def, eq_comm]
      refine ⟨_, venueRun_of_foldlM hsigns hrun, fun i hi k _ => ?_⟩
      simp only [pool, List.mem_cons, List.not_mem_nil, or_false] at hi
      rcases hi with rfl | rfl
      · simp [Disturbs, TakesCustody, SetsCloser]
      · simp [Disturbs, TakesCustody, SetsCloser]
    next => cases hrun

theorem honest_initialize : Honest (platform pool) initializeAccounts deployed := by
  intro ctx _ _ _ _ haccepts
  obtain ⟨_, _, _, _, hlayout, -⟩ := haccepts.layout
  have hlen := congrArg List.length hlayout
  simp only [initializeAccounts, List.length_cons, List.length_nil] at hlen
  omega

theorem honest_route : Honest (platform pool) swapAccounts started := by
  intro ctx _ _ _ _ haccepts _
  obtain ⟨_, _, _, _, hlayout, -⟩ := haccepts.layout
  have huser : some Sample.user = some ctx.user.key :=
    congrArg (fun l => l.tail.head?.map AccountInfo.key) hlayout
  have htitan : some canonicalPda = some ctx.titanPda.key :=
    congrArg (fun l => l.tail.tail.head?.map AccountInfo.key) hlayout
  rw [← Option.some.inj huser, ← Option.some.inj htitan]
  exact ⟨by decide, pool_spares⟩

theorem deployed_new : ∀ k, ¬ IsTitanPda (deployed k) := by
  rintro k ⟨howner, -⟩
  unfold deployed Sample.bank at howner
  repeat' split at howner
  all_goals exact absurd howner (by decide)

/-- The ATA that the sample route deposits on is a vault. -/
theorem started_vault :
    Vault (platform pool).toRuntime {Sample.mintA} canonicalPda (started Sample.titanA) where
  token := ⟨Or.inl rfl, by decide +kernel, Or.inl (by decide +kernel), Or.inl (by decide +kernel)⟩
  held := by decide +kernel
  undelegated := by decide +kernel
  unclosable := by decide +kernel
  mint := ⟨Sample.mintA, rfl, by decide +kernel⟩

/-- After `initialize`, a route of 1000 and a transfer of the user's, the ATA the route deposits on is
    still a vault of the canonical TitanPDA, and holds its 70 tokens. -/
theorem entries_refine_history_sample :
    ∃ b₁ b₂, process (platform pool) swapAccounts swapData started = .ok b₁ ∧
      (platform pool).invokeToken SPL_TOKEN_ID (.transfer Sample.userA Sample.vaultA Sample.user 30)
        [Sample.signer Sample.user] [] b₁ = .ok b₂ ∧
      Vault (platform pool).toRuntime {Sample.mintA} canonicalPda (b₂ Sample.titanA) ∧
      70 ≤ tokenBalance (b₂ Sample.titanA) := by
  obtain ⟨b₁, hroute, htransfer⟩ :=
    Except.okAnd_eq_true.mp (show (process (platform pool) swapAccounts swapData
      started).okAnd (fun b => ((platform pool).invokeToken SPL_TOKEN_ID
        (.transfer Sample.userA Sample.vaultA Sample.user 30) [Sample.signer Sample.user]
        [] b).okAnd fun _ => true) = true by decide +kernel)
  obtain ⟨b₂, hmoved, -⟩ := Except.okAnd_eq_true.mp htransfer
  have hinit : EntryRun (platform pool) canonicalPda deployed started :=
    .single (.called deployed_funded honest_initialize process_deployed)
  have hrun : EntryRun (platform pool) canonicalPda started b₂ :=
    .tail (.single (.called started_funded honest_route hroute)) (.token (by decide) hmoved)
  have hbalance : tokenBalance (started Sample.titanA) = 70 := by decide +kernel
  obtain ⟨-, hkept⟩ := entries_refine_history (platformLaws pool) (platform_apart pool)
    (platform_tokenLaws pool) (platform_custodyLaws pool) (platform_signingLaws _ pool) deployed_new
    hinit ⟨by decide +kernel, by decide +kernel⟩ hrun
  obtain ⟨hafter, hle⟩ := hkept Sample.titanA started_vault
  rw [hbalance] at hle
  exact ⟨b₁, b₂, hroute, hmoved, hafter, hle⟩

end Sample

end ByrealTitan.Program
