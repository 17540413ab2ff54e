import ByrealTitan.Correctness.Custody
import Mathlib.Logic.Relation

/-!
# `Correctness.Histories` — the TitanPDA's accounts over any sequence of events

The route program is called by anyone, with accounts and venue programs of the caller's choice. What
must hold is therefore about histories: routes of different callers, in any order, between token
instructions of other programs. A `Vault` is a token account of the TitanPDA that nobody else may act
on. One route keeps every vault and its balance (`route_keeps`): a vault it was passed by the snapshot
and the final check, one it was not passed because no call of the route can take from it. An instruction
that the TitanPDA has not signed keeps it because the token programs ask for that signature. So every
vault survives every history whose venues leave the recorded accounts in the TitanPDA's hands alone
(`vaults_survive`).
-/

namespace ByrealTitan.Program

open Reserve

variable {R : Runtime} {ctx : Ctx} {amount : UInt64} {mints : UInt8} {swaps : List SwapSpecInputV2}
  {bank bank' : Bank} {p : Prepared} {titan k : Pubkey} {sovereign : Set Pubkey}

/-! ## Vaults -/

/-- The close authority of an SPL token account, an optional key behind a four-byte tag. -/
def closeAuthority (a : Account) : Option Pubkey :=
  if bytesAt a.data 129 133 = some [1, 0, 0, 0] then (bytesAt a.data 133 165).bind Pubkey.ofSlice else none

/-- A token account of the TitanPDA without a delegate and a close authority. `sovereign` are the mints
    that have no permanent delegate and never get one, so nobody else may act on it. -/
structure Vault (R : Runtime) (sovereign : Set Pubkey) (titan : Pubkey) (a : Account) : Prop where
  token : TokenAccount R a
  held : isTitanPdaTokenAccount R a titan = true
  undelegated : tokenDelegate a = none
  unclosable : closeAuthority a = none
  mint : ∃ mint ∈ sovereign, bytesAt a.data 0 32 = some mint.bytes

/-- The instruction sets a close authority on this account. -/
def SetsCloser : TokenInstruction → Pubkey → Prop
  | .setAuthority account _ .closeAccount _, k => account = k
  | _, _                                       => False

/-- It takes custody of the account, or prepares for it. -/
def Disturbs (ix : TokenInstruction) (k : Pubkey) : Prop := TakesCustody ix k ∨ SetsCloser ix k

/-- The same holder, and nobody new who may delegate or close. -/
structure Undisturbed (a a' : Account) : Prop where
  alike : HeldAlike a a'
  closer : closeAuthority a' = closeAuthority a ∨ closeAuthority a' = none

theorem Undisturbed.of_eq {a a' : Account} (hdata : a'.data = a.data) (howner : a'.owner = a.owner) :
    Undisturbed a a' := by
  refine ⟨HeldAlike.of_eq hdata howner, Or.inl ?_⟩
  simp only [closeAuthority, hdata]

theorem Undisturbed.trans {a b c : Account} (h : Undisturbed a b) (h' : Undisturbed b c) :
    Undisturbed a c := by
  refine ⟨h.alike.trans h'.alike, ?_⟩
  rcases h'.closer with hsame | hnone
  · rw [hsame]
    exact h.closer
  · exact Or.inr hnone

/-- Undisturbed, and no less tokens. -/
structure Keeps (a a' : Account) : Prop where
  undisturbed : Undisturbed a a'
  balance : tokenBalance a ≤ tokenBalance a'

theorem Keeps.trans {a b c : Account} (h : Keeps a b) (h' : Keeps b c) : Keeps a c :=
  ⟨h.undisturbed.trans h'.undisturbed, Nat.le_trans h.balance h'.balance⟩

/-- What an account holds is in its data. -/
theorem Keeps.of_eq {a a' : Account} (hdata : a'.data = a.data) (howner : a'.owner = a.owner) :
    Keeps a a' := by
  refine ⟨Undisturbed.of_eq hdata howner, Nat.le_of_eq ?_⟩
  simp only [tokenBalance, tokenAmountOrZero, extractTokenAmount, hdata]

theorem Keeps.refl {a : Account} : Keeps a a := Keeps.of_eq rfl rfl

namespace Vault

theorem keeps {a a' : Account} (hv : Vault R sovereign titan a) (h : Keeps a a') :
    Vault R sovereign titan a' := by
  obtain ⟨⟨halike, hcloser⟩, -⟩ := h
  obtain ⟨mint, hmint, hbytes⟩ := hv.mint
  refine ⟨halike.tokenAccount hv.token, halike.recognised hv.token hv.held, ?_, ?_,
    mint, hmint, halike.mint.trans hbytes⟩
  · rcases halike.delegate with hsame | hnone
    · rw [hsame, hv.undelegated]
    · exact hnone
  · rcases hcloser with hsame | hnone
    · rw [hsame, hv.unclosable]
    · exact hnone

theorem holder {a : Account} (hv : Vault R sovereign titan a) : bytesAt a.data 32 64 = some titan.bytes :=
  (isTitanPdaTokenAccount_iff.mp hv.held).2

/-- A vault exists. -/
theorem exists_of_funded (hv : Vault R sovereign titan (bank k)) (hfunded : Funded bank) :
    accountExists (bank k) = true :=
  hv.token.exists_of_pos (hfunded k hv.token.data_ne_nil)

end Vault

/-- The account is no multisig of a token program, so whoever signs for it signs as it. -/
def NoMultisig (R : Runtime) (a : Account) :
    Prop := a.owner ≠ R.SPL_TOKEN_ID ∧ a.owner ≠ R.TOKEN_PROGRAM_2022_ID

/-- Whose signature the programs ask for. -/
structure SigningLaws (R : Runtime) (sovereign : Set Pubkey) (titan : Pubkey) : Prop where
  /-- Only a transfer under the TitanPDA's authority takes from a vault. -/
  transfer : ∀ {program source dest authority amount infos seeds b b'},
    R.invokeToken program (.transfer source dest authority amount) infos seeds b = .ok b' →
      Vault R sovereign titan (b source) → authority = titan
  transferChecked : ∀ {program source mint dest authority amount decimals infos seeds b b'},
    R.invokeToken program (.transferChecked source mint dest authority amount decimals) infos seeds b =
      .ok b' →
      Vault R sovereign titan (b source) → authority = titan
  /-- Only `set_authority` names a close authority. -/
  closer : ∀ {program ix infos seeds b b'}, R.invokeToken program ix infos seeds b = .ok b' →
    ∀ k, TokenAccount R (b k) → ¬ Disturbs ix k →
      closeAuthority (b' k) = closeAuthority (b k) ∨ closeAuthority (b' k) = none
  /-- Nothing happens to a vault without the TitanPDA's signature. -/
  unsigned : ∀ {program ix infos b b'}, R.invokeToken program ix infos [] b = .ok b' →
    (∀ a ∈ infos, a.isSigner = true → a.key ≠ titan) → NoMultisig R (b titan) →
      ∀ k, Vault R sovereign titan (b k) → Keeps (b k) (b' k)
  /-- A program writes only to accounts it is passed. -/
  invokeSigned : ∀ {ix infos seeds b b'}, R.invokeSigned ix infos seeds b = .ok b' →
    ∀ k, (∀ a ∈ infos, a.key ≠ k) → (b' k).data = (b k).data ∧ (b' k).owner = (b k).owner

theorem CustodyLaws.undisturbed (custody : CustodyLaws R) (signing : SigningLaws R sovereign titan) :
    Guards R Undisturbed Disturbs where
  of_eq := Undisturbed.of_eq
  trans := Undisturbed.trans
  tokenAccount h := h.alike.tokenAccount
  token h k hk hno := ⟨custody.token h k hk fun htakes => hno (Or.inl htakes), signing.closer h k hk hno⟩
  transfer := by simp [Disturbs, TakesCustody, SetsCloser]
  transferChecked := by simp [Disturbs, TakesCustody, SetsCloser]
  syncNative := by simp [Disturbs, TakesCustody, SetsCloser]

/-! ## A vault the route is not passed -/

/-- The account is not among the remaining accounts of the route. -/
def NotPassed (ctx : Ctx) (k : Pubkey) : Prop := ∀ a ∈ ctx.remainingAccounts, a.key ≠ k

theorem NotPassed.ne {i : Nat} {a : AccountInfo} (hk : NotPassed ctx k)
    (ha : ctx.remainingAccounts[i]? = some a) :
    a.key ≠ k := hk a (List.mem_of_getElem? ha)

section Laws

variable (laws : TokenLaws R) (custody : CustodyLaws R) (signing : SigningLaws R sovereign titan)

include custody

theorem createUserAta_keeps {mint ata tokenProgram : AccountInfo} (hv : Vault R sovereign titan (bank k))
    (h : createUserAta R ctx mint ata tokenProgram bank = .ok bank') : Keeps (bank k) (bank' k) := by
  obtain ⟨hdata, howner⟩ := (custody.createAta (invoked_eq_ok.mp h)).2 k hv.token.data_ne_nil
  exact Keeps.of_eq hdata howner

/-- The creation loop leaves every account alone that holds data. -/
theorem createAtas_keeps {m : Nat} {st : BitVec 16 × Bank} (hv : Vault R sovereign titan (bank k))
    (h : createAtas R ctx m bank = .ok st) : Keeps (bank k) (st.2 k) := by
  have hrun : Yields (createAtas R ctx m bank) (fun st => Keeps (bank k) (st.2 k)) (fun _ => True) := by
    refine Yields.foldlM (I := fun _ (st : BitVec 16 × Bank) => Keeps (bank k) (st.2 k)) Keeps.refl ?_
    intro _ i _ st _ _ hst
    refine Yields.intro (fun st' hstep => ?_) (fun _ _ => trivial)
    obtain ⟨ata, -, ⟨-, rfl⟩ | ⟨-, -, -, mint, hcreate⟩⟩ := createAtaStep_cases hstep
    · exact hst
    · obtain ⟨hdata, howner⟩ := (custody.createAta hcreate).2 k (hv.keeps hst).token.data_ne_nil
      exact hst.trans (Keeps.of_eq hdata howner)
  exact hrun.of_ok h

include laws signing

theorem transferSolAndSync_keeps {source wsolAta tokenProgram : AccountInfo} {n : UInt64}
    (hv : Vault R sovereign titan (bank k))
    (h : transferSolAndSync R source wsolAta tokenProgram n bank = .ok bank') :
    Keeps (bank k) (bank' k) := by
  rcases transferSolAndSync_cases h with ⟨-, rfl⟩ | ⟨b₁, hpay, hsync⟩
  · exact Keeps.refl
  · obtain ⟨hdata, howner⟩ := custody.systemTransfer hpay k
    have hpaid : Keeps (bank k) (b₁ k) := Keeps.of_eq hdata howner
    have guards := custody.undisturbed signing
    have hrecounted : Keeps (b₁ k) (bank' k) :=
      ⟨guards.token hsync k (hv.keeps hpaid).token guards.syncNative, laws.syncNative hsync k⟩
    exact hpaid.trans hrecounted

/-- Setting up the input account takes nothing from a vault, and reports a
    creation only of an account that did not exist. -/
theorem setupInput_keeps {tokenProgram : AccountInfo} {created : Bool}
    (hv : Vault R sovereign titan (p.bank k))
    (h : setupInput R ctx p tokenProgram = .ok (created, bank')) :
    Keeps (p.bank k) (bank' k) ∧ (created = true →
      accountExists (p.bank ctx.inputTokenAccount.key) = false) := by
  refine ⟨?_, (setupInput_held custody.guards custody.toAccountLaws h).2⟩
  rcases setupInput_cases h with ⟨-, -, rfl⟩ | ⟨-, hwrapped⟩
  · exact Keeps.refl
  · rcases setupWsolInputAccount_cases hwrapped with ⟨-, -, current, -, hfund⟩ | ⟨-, -, b₁, hcreate, hfund⟩
    · exact transferSolAndSync_keeps laws custody signing hv hfund
    · have hcreated := createUserAta_keeps custody hv hcreate
      exact hcreated.trans (transferSolAndSync_keeps laws custody signing (hv.keeps hcreated) hfund)

/-- A transfer from another account takes nothing from a vault. -/
theorem transferTokens_keeps_of_ne {tokenProgram source dest authority : AccountInfo}
    {mint : Option AccountInfo}
    {n : UInt64} {decimals : UInt8} {seeds : SignerSeeds} (hv : Vault R sovereign titan (bank k))
    (hne : source.key ≠ k)
    (h : transferTokens R tokenProgram source dest authority mint n decimals seeds bank = .ok bank') :
    Keeps (bank k) (bank' k) := by
  have hbalance : balances bank k ≤ balances bank' k :=
    (transferTokens_spends laws h).le_of_ne (Ne.symm hne)
  have guards := custody.undisturbed signing
  rcases transferTokens_cases h with ⟨-, rfl⟩ | ⟨m, -, hchecked⟩ | hplain
  · exact Keeps.refl
  · exact ⟨guards.token hchecked k hv.token guards.transferChecked, hbalance⟩
  · exact ⟨guards.token hplain k hv.token guards.transfer, hbalance⟩

/-- Nobody but the TitanPDA moves tokens out of a vault. -/
theorem transferTokens_keeps {tokenProgram source dest authority : AccountInfo} {mint : Option AccountInfo}
    {n : UInt64} {decimals : UInt8} {seeds : SignerSeeds} (hv : Vault R sovereign titan (bank k))
    (hauthority : authority.key ≠ titan)
    (h : transferTokens R tokenProgram source dest authority mint n decimals seeds bank = .ok bank') :
    Keeps (bank k) (bank' k) := by
  by_cases hsource : source.key = k
  · subst hsource
    rcases transferTokens_cases h with ⟨-, rfl⟩ | ⟨m, -, hchecked⟩ | hplain
    · exact Keeps.refl
    · exact absurd (signing.transferChecked hchecked hv) hauthority
    · exact absurd (signing.transfer hplain hv) hauthority
  · exact transferTokens_keeps_of_ne laws custody signing hv hsource h

/-- The deposit takes from the user's account, and closes it only if it is new. -/
theorem deposit_keeps (hv : Vault R sovereign titan (p.bank k)) (hfunded : Funded p.bank)
    (huser : ctx.user.key ≠ titan) (h : deposit R ctx p = .ok bank') : Keeps (p.bank k) (bank' k) := by
  obtain ⟨first, created, b₁, b₂, -, hsetup, htransfer, hclose⟩ := deposit_cases h
  obtain ⟨hset, hnew⟩ := setupInput_keeps laws custody signing hv hsetup
  have hmoved := hset.trans (transferTokens_keeps laws custody signing (hv.keeps hset) huser htransfer)
  rcases hclose with ⟨-, rfl⟩ | ⟨hcreated, hclose⟩
  · exact hmoved
  · have hne : k ≠ ctx.inputTokenAccount.key := by
      rintro rfl
      have hexists := hv.exists_of_funded hfunded
      rw [hnew hcreated] at hexists
      cases hexists
    obtain ⟨hdata, howner⟩ := (custody.closed hclose).2 k hne
    exact hmoved.trans (Keeps.of_eq hdata howner)

omit laws custody in
/-- A CPI is passed remaining accounts only. -/
theorem legCpi_keeps (hk : NotPassed ctx k) {n : UInt64} {swap : SwapSpecInputV2} {start increment : Nat}
    (h : legCpi R ctx n swap start increment bank = .ok bank') : Keeps (bank k) (bank' k) := by
  rcases legCpi_spec h with ⟨-, rfl⟩ | ⟨_, -, ix, -, hinvoke⟩
  · exact Keeps.refl
  · have hout : ∀ a ∈ legAccounts ctx start increment, a.key ≠ k := by
      intro a ha
      exact hk a (List.mem_of_mem_drop (List.mem_of_mem_take ha))
    obtain ⟨hdata, howner⟩ := signing.invokeSigned hinvoke k hout
    exact Keeps.of_eq hdata howner

omit laws custody in
theorem runLegs_keeps (hk : NotPassed ctx k) {st : RouteState} (h : runLegs R ctx p swaps bank = .ok st) :
    Keeps (bank k) (st.bank k) := by
  have hrun : Yields (runLegs R ctx p swaps bank) (fun st => Keeps (bank k) (st.bank k))
      (fun _ => True) := by
    refine Yields.foldlM (I := fun _ (st : RouteState) => Keeps (bank k) (st.bank k)) Keeps.refl ?_
    intro _ swap _ st _ _ hst
    refine Yields.intro (fun st' hstep => ?_) (fun _ _ => trivial)
    obtain ⟨-, -, n, -, hcpi⟩ := legStep_cases hstep
    exact hst.trans (legCpi_keeps signing hk hcpi)
  exact hrun.of_ok h

/-- The payout takes from an ATA of the route. -/
theorem payout_keeps (hk : NotPassed ctx k) (hv : Vault R sovereign titan (bank k))
    (h : payout R ctx p bank = .ok bank') : Keeps (bank k) (bank' k) := by
  obtain ⟨out, raw, r, b₁, hout, -, -, hopen, htransfer⟩ := payout_cases h
  have hopened : Keeps (bank k) (b₁ k) := by
    rcases openOutput_cases hopen with rfl | hcreate
    · exact Keeps.refl
    · exact createUserAta_keeps custody hv hcreate
  exact hopened.trans (transferTokens_keeps_of_ne laws custody signing (hv.keeps hopened)
    (hk.ne hout) htransfer)

omit laws signing in
/-- The closing pass closes ATAs of the route. -/
theorem closeCreatedAtas_keeps (hk : NotPassed ctx k) (h : closeCreatedAtas R ctx p bank = .ok bank') :
    Keeps (bank k) (bank' k) := by
  have hrun : Yields (closeCreatedAtas R ctx p bank) (fun b => Keeps (bank k) (b k)) (fun _ => True) := by
    refine Yields.foldlM (I := fun _ (b : Bank) => Keeps (bank k) (b k)) Keeps.refl ?_
    intro _ i _ b _ _ hb
    refine Yields.intro (fun b' hstep => ?_) (fun _ _ => trivial)
    obtain ⟨-, ⟨-, rfl⟩ | ⟨-, ata, hata, ⟨-, rfl⟩ | ⟨-, program, hclose⟩⟩⟩ := closeStep_cases hstep
    · exact hb
    · exact hb
    · obtain ⟨hdata, howner⟩ := (custody.closed hclose).2 k (Ne.symm (hk.ne hata))
      exact hb.trans (Keeps.of_eq hdata howner)
  exact hrun.of_ok h

/-! ## One route -/

/-- **A route keeps every vault**, whether it was passed or not. -/
theorem route_keeps (hfunded : Funded bank) (htitan : ctx.titanPda.key = titan)
    (huser : ctx.user.key ≠ titan)
    (hprep : prepare R ctx amount mints swaps bank = .ok p) (hvenues : VenuesSpare Disturbs R ctx p swaps)
    (h : execute R ctx amount mints swaps bank = .ok bank') (hv : Vault R sovereign titan (bank k)) :
    Keeps (bank k) (bank' k) := by
  have hp := prepare_spec hprep
  have hcreated := createAtas_keeps custody hv hp.created
  by_cases hpassed : ∃ a ∈ ctx.remainingAccounts, a.key = k
  · -- it is recorded, and the route has not created it
    obtain ⟨a, ha, rfl⟩ := hpassed
    obtain ⟨hheld, hbalance⟩ :=
      execute_held (custody.undisturbed signing) custody.toAccountLaws hfunded hprep hvenues h
    have hvault := hv.keeps hcreated
    have hrec : a.key ∈ recordedKeys R ctx p.bank := by
      refine ⟨a, ha, rfl, ?_⟩
      rw [recorded, htitan]
      exact hvault.held
    rcases hheld a.key ⟨hrec, hvault.token⟩ with hundisturbed | ⟨-, hnew, -⟩
    · exact hcreated.trans ⟨hundisturbed, hbalance a.key hrec⟩
    · have hexists := hv.exists_of_funded hfunded
      rw [hnew] at hexists
      cases hexists
  · have hk : NotPassed ctx k := fun a ha heq => hpassed ⟨a, ha, heq⟩
    obtain ⟨p', -, hprep', htrade, -⟩ := execute_cases h
    obtain rfl : p' = p := Except.ok.inj (hprep'.symm.trans hprep)
    obtain ⟨b₀, st, b₂, hdeposit, hlegs, hpayout, hclose⟩ := trade_cases htrade
    have hfunded' := (createAtas_created custody.toAccountLaws hp.created).funded hfunded
    have hkept₀ := hcreated.trans (deposit_keeps laws custody signing (hv.keeps hcreated) hfunded'
      huser hdeposit)
    have hkept₁ := hkept₀.trans (runLegs_keeps signing hk hlegs)
    have hkept₂ := hkept₁.trans (payout_keeps laws custody signing hk (hv.keeps hkept₁) hpayout)
    exact hkept₂.trans (closeCreatedAtas_keeps custody hk hclose)

end Laws

/-! ## Histories -/

/-- One thing that happens to the accounts: a route of the TitanPDA, called by somebody else, whose venues
    do not disturb the recorded token accounts; a token instruction that the TitanPDA has not signed; or
    anything that other programs do, which cannot write to token accounts. -/
inductive Event (R : Runtime) (titan : Pubkey) : Bank → Bank → Prop where
  | route {ctx : Ctx} {amount : UInt64} {mints : UInt8} {swaps : List SwapSpecInputV2} {p : Prepared}
      {b b' : Bank} (hfunded : Funded b) (htitan : ctx.titanPda.key = titan) (huser : ctx.user.key ≠ titan)
      (hprep : prepare R ctx amount mints swaps b = .ok p) (hvenues : VenuesSpare Disturbs R ctx p swaps)
      (h : execute R ctx amount mints swaps b = .ok b') : Event R titan b b'
  | token {program : Pubkey} {ix : TokenInstruction} {infos : List AccountInfo} {b b' : Bank}
      (hsigners : ∀ a ∈ infos, a.isSigner = true → a.key ≠ titan) (hplain : NoMultisig R (b titan))
      (h : R.invokeToken program ix infos [] b = .ok b') : Event R titan b b'
  | own {b b' : Bank} (h : ∀ k, TokenAccount R (b k) → (b' k).data = (b k).data ∧
      (b' k).owner = (b k).owner) :
      Event R titan b b'

/-- Events, one after the other. -/
def History (R : Runtime) (titan : Pubkey) : Bank → Bank → Prop := Relation.ReflTransGen (Event R titan)

theorem Event.keeps (laws : TokenLaws R) (custody : CustodyLaws R)
    (signing : SigningLaws R sovereign titan)
    (hevent : Event R titan bank bank') (hv : Vault R sovereign titan (bank k)) : Keeps (bank k)
    (bank' k) := by
  cases hevent with
  | route hfunded htitan huser hprep hvenues h =>
      exact route_keeps laws custody signing hfunded htitan huser hprep hvenues h hv
  | token hsigners hplain h => exact signing.unsigned h hsigners hplain k hv
  | own h =>
      obtain ⟨hdata, howner⟩ := h k hv.token
      exact Keeps.of_eq hdata howner

/-- A history keeps every vault. -/
theorem History.keeps (laws : TokenLaws R) (custody : CustodyLaws R)
    (signing : SigningLaws R sovereign titan)
    (hhistory : History R titan bank bank') (hv : Vault R sovereign titan (bank k)) : Keeps (bank k)
    (bank' k) := by
  induction hhistory with
  | refl => exact Keeps.refl
  | tail _ hevent ih => exact ih.trans (hevent.keeps laws custody signing (hv.keeps ih))

/-- **Every vault survives every history.** However many routes, by whomever and with whatever accounts,
    run in whatever order among token instructions that the TitanPDA has not signed and among anything
    other programs do: as long as no venue takes custody of a recorded token account or sets a close
    authority on it, a token account of the TitanPDA that nobody else may act on stays one, and never
    holds less than it held. -/
theorem vaults_survive (laws : TokenLaws R) (custody : CustodyLaws R)
    (signing : SigningLaws R sovereign titan)
    (hhistory : History R titan bank bank') (hv : Vault R sovereign titan (bank k)) :
    Vault R sovereign titan (bank' k) ∧ tokenBalance (bank k) ≤ tokenBalance (bank' k) := by
  have hkeeps : Keeps (bank k) (bank' k) := hhistory.keeps laws custody signing hv
  exact ⟨hv.keeps hkeeps, hkeeps.balance⟩

/-! ## The sample history -/

section Sample

open Reference

variable {program : Pubkey} {signs : Pubkey → Bool} {venue : VenueProgram}

/-- The accounts that an instruction of the reference token program writes. -/
def writes : TokenInstruction → List Pubkey
  | .transfer source dest _ _            => [source, dest]
  | .transferChecked source _ dest _ _ _ => [source, dest]
  | .closeAccount account destination _  => [account, destination]
  | .setAuthority account _ _ _          => [account]
  | _                                    => []

/-- The reference runtime, where a venue program writes only to accounts it was passed. -/
def guarded (titanPda : Pubkey) (venue : VenueProgram) : Runtime :=
  { runtime titanPda venue with
    invokeSigned := fun ix infos seeds b =>
      if ∀ i ∈ venue.respond ix, ∀ k ∈ writes i, ∃ a ∈ infos, a.key = k then
        (runtime titanPda venue).invokeSigned ix infos seeds b
      else .error 13 }

theorem moveTokens_frame {source dest authority : Pubkey} {n : Nat} {b b' : Bank}
    (h : moveTokens program source dest authority n signs b = .ok b') (hs : k ≠ source) (hd : k ≠ dest) :
    b' k = b k := by
  unfold moveTokens at h
  simp only [Except.bind_eq_ok, ensure_eq_ok] at h
  obtain ⟨_, -, _, -, _, -, _, -, h⟩ := h
  split at h
  · obtain rfl := Except.pure_eq_ok.mp h
    rfl
  · simp only [Except.bind_eq_ok, ensure_eq_ok, Except.pure_eq_ok] at h
    obtain ⟨_, -, rfl⟩ := h
    rw [movedBank, Function.update_of_ne hd, Function.update_of_ne hs]

/-- An instruction changes what it writes. -/
theorem token_frame {ix : TokenInstruction} {b b' : Bank} (h : token program signs b ix = .ok b')
    (hk : k ∉ writes ix) : (b' k).data = (b k).data ∧ (b' k).owner = (b k).owner := by
  unfold token at h
  split at h
  · simp only [writes, List.mem_cons, List.not_mem_nil, or_false, not_or] at hk
    rw [moveTokens_frame h hk.1 hk.2]
    exact ⟨rfl, rfl⟩
  · simp only [writes, List.mem_cons, List.not_mem_nil, or_false, not_or] at hk
    rw [moveTokens_frame h hk.1 hk.2]
    exact ⟨rfl, rfl⟩
  · simp only [writes, List.mem_cons, List.not_mem_nil, or_false, not_or] at hk
    exact (closeToken_frame h).2 k hk.1
  · simp only [writes, List.mem_cons, List.not_mem_nil, or_false] at hk
    rw [setOwner_frame h k hk]
    exact ⟨rfl, rfl⟩
  · exact absurd h (by simp)

theorem foldlM_token_frame {ixs : List TokenInstruction} {b b' : Bank}
    (h : ixs.foldlM (token program signs) b = .ok b') (hk : ∀ i ∈ ixs, k ∉ writes i) :
    (b' k).data = (b k).data ∧ (b' k).owner = (b k).owner := by
  induction ixs generalizing b with
  | nil =>
      obtain rfl := Except.pure_eq_ok.mp h
      exact ⟨rfl, rfl⟩
  | cons i ixs ih =>
      rw [List.foldlM_cons, Except.bind_eq_ok] at h
      obtain ⟨b₁, hi, hrest⟩ := h
      obtain ⟨hdata, howner⟩ := token_frame hi (hk i List.mem_cons_self)
      obtain ⟨hdata', howner'⟩ := ih hrest fun j hj => hk j (List.mem_cons_of_mem _ hj)
      exact ⟨hdata'.trans hdata, howner'.trans howner⟩

/-- Moving tokens takes the holder's signature or a delegate's. -/
theorem moveTokens_authorised {source dest authority : Pubkey} {n : Nat} {b b' : Bank}
    (h : moveTokens program source dest authority n signs b = .ok b') :
    (ownerIs (b source) authority = true ∨ tokenDelegate (b source) = some authority) ∧
    signs authority = true := by
  unfold moveTokens at h
  simp only [Except.bind_eq_ok, ensure_eq_ok] at h
  obtain ⟨_, -, _, -, _, -, _, ⟨hmay, hsigned⟩, -⟩ := h
  refine ⟨?_, hsigned⟩
  unfold mayMove at hmay
  split at hmay
  next hdelegate => exact Or.inr hdelegate
  next => exact Or.inl hmay

/-- Whoever may act on a vault is the TitanPDA. -/
theorem Vault.actor {a : Account} {authority : Pubkey} (hv : Vault R sovereign titan a)
    (hmay : ownerIs a authority = true ∨ tokenDelegate a = some authority) : authority = titan := by
  rcases hmay with howner | hdelegate
  · have hbytes : some authority.bytes = some titan.bytes :=
      (of_decide_eq_true howner).symm.trans hv.holder
    exact Pubkey.eq_of_bytes (Option.some.inj hbytes)
  · rw [hv.undelegated] at hdelegate
    cases hdelegate

theorem Rewritten.closeAuthority {a a' : Account} (h : Rewritten a a') :
    closeAuthority a' = closeAuthority a := by
  simp only [Program.closeAuthority, h.bytes 129 133 (by decide), h.bytes 133 165 (by decide)]

theorem closeAuthority_congr {a a' : Account} (h : a'.data = a.data) :
    closeAuthority a' = closeAuthority a := by
  simp only [closeAuthority, h]

/-- The reference token program sets no close authority. -/
theorem token_closeAuthority {ix : TokenInstruction} {b b' : Bank} (h : token program signs b ix = .ok b')
    (hk : ¬ Disturbs ix k) : closeAuthority (b' k) = closeAuthority (b k) := by
  have htakes : ¬ TakesCustody ix k := fun htakes => hk (Or.inl htakes)
  unfold token at h
  split at h
  · exact (moveTokens_rewritten h k).closeAuthority
  · exact (moveTokens_rewritten h k).closeAuthority
  · exact closeAuthority_congr ((closeToken_frame h).2 k (Ne.symm htakes)).1
  · rw [setOwner_frame h k (Ne.symm htakes)]
  · exact absurd h (by simp)

/-- Without the TitanPDA's signature the reference token program takes nothing from a vault. -/
theorem token_keeps {ix : TokenInstruction} {b b' : Bank} (h : token program signs b ix = .ok b')
    (hsigns : signs titan ≠ true) (hv : Vault R sovereign titan (b k)) : Keeps (b k) (b' k) := by
  have hmoved : ∀ {source dest authority n}, moveTokens program source dest authority n signs b = .ok b' →
      Keeps (b k) (b' k) := by
    intro source dest authority n hmove
    have hrewritten := moveTokens_rewritten hmove k
    obtain ⟨hmay, hsigned⟩ := moveTokens_authorised hmove
    have hne : k ≠ source := by
      rintro rfl
      rw [hv.actor hmay] at hsigned
      exact hsigns hsigned
    exact ⟨⟨hrewritten.heldAlike, Or.inl hrewritten.closeAuthority⟩,
      (moveTokens_moves hmove).debits.le_of_ne hne⟩
  -- the other two check the holder
  have hother : ∀ {account authority}, ownerIs (b account) authority = true ∧ signs authority = true →
      k ≠ account := by
    rintro account authority ⟨howner, hsigned⟩ rfl
    rw [hv.actor (Or.inl howner)] at hsigned
    exact hsigns hsigned
  unfold token at h
  split at h
  · exact hmoved h
  · exact hmoved h
  next account destination authority =>
    have hframe := (closeToken_frame h).2
    simp only [closeToken, Except.bind_eq_ok, ensure_eq_ok] at h
    obtain ⟨_, -, _, -, _, -, _, hauth, -⟩ := h
    obtain ⟨hdata, howner⟩ := hframe k (hother hauth)
    exact Keeps.of_eq hdata howner
  next account authority newOwner =>
    have hframe := setOwner_frame h
    simp only [setOwner, Except.bind_eq_ok, ensure_eq_ok] at h
    obtain ⟨_, -, _, hauth, -⟩ := h
    rw [hframe k (hother hauth)]
    exact Keeps.refl
  · exact absurd h (by simp)

/-- **The guarded runtime asks for the signatures** that a vault relies on. -/
theorem signingLaws (sovereign : Set Pubkey) (titanPda : Pubkey) (venue : VenueProgram) :
    SigningLaws (guarded titanPda venue) sovereign titanPda where
  transfer h hv := by
    simp only [guarded, runtime, token] at h
    exact hv.actor (moveTokens_authorised h).1
  transferChecked h hv := by
    simp only [guarded, runtime, token] at h
    exact hv.actor (moveTokens_authorised h).1
  closer h k _ hno := Or.inl (token_closeAuthority h hno)
  unsigned {program ix infos b b'} h hsigners _ k hv := by
    simp only [guarded, runtime] at h
    refine token_keeps h (fun hsigned => ?_) hv
    simp only [List.isEmpty_nil, Bool.not_true, Bool.false_and, Bool.or_false, List.any_eq_true,
      Bool.and_eq_true, decide_eq_true_eq] at hsigned
    obtain ⟨a, ha, hkey, hsigner⟩ := hsigned
    exact hsigners a ha hsigner hkey
  invokeSigned {ix infos seeds b b'} h k hk := by
    simp only [guarded] at h
    split at h
    next hguard =>
      refine foldlM_token_frame h fun i hi hmem => ?_
      obtain ⟨a, ha, hkey⟩ := hguard i hi k hmem
      exact hk a ha hkey
    next => exact absurd h (by simp)

theorem guarded_tokenLaws (titanPda : Pubkey) (venue : VenueProgram) :
    TokenLaws (guarded titanPda venue) where
  transfer := @(tokenLaws titanPda venue).transfer
  transferChecked := @(tokenLaws titanPda venue).transferChecked
  closeAccount := @(tokenLaws titanPda venue).closeAccount
  syncNative := @(tokenLaws titanPda venue).syncNative
  createAta := @(tokenLaws titanPda venue).createAta
  systemTransfer := @(tokenLaws titanPda venue).systemTransfer

/-- The two runtimes have the same token programs, so the same token accounts. -/
theorem tokenAccount_guarded {titanPda : Pubkey} {a : Account} :
    TokenAccount (guarded titanPda venue) a ↔ TokenAccount (runtime titanPda venue) a :=
  ⟨fun h => ⟨h.program, h.initialised⟩, fun h => ⟨h.program, h.initialised⟩⟩

theorem guarded_custodyLaws (titanPda : Pubkey) (venue : VenueProgram) :
    CustodyLaws (guarded titanPda venue) where
  token h k hk hno := (custodyLaws titanPda venue).token h k (tokenAccount_guarded.mp hk) hno
  closed := @(custodyLaws titanPda venue).closed
  createAta := @(custodyLaws titanPda venue).createAta
  systemTransfer := @(custodyLaws titanPda venue).systemTransfer

/-- And the same runs of token instructions. -/
theorem VenueRun.guarded {titanPda : Pubkey} {ixs : List TokenInstruction} {b b' : Bank}
    (h : VenueRun (runtime titanPda venue) ixs b b') :
    VenueRun (Program.guarded titanPda venue) ixs b b' := by
  induction h with
  | done b => exact .done b
  | token hix _ ih => exact .token hix ih
  | own hown _ ih => exact .own (fun k hk => hown k (tokenAccount_guarded.mp hk)) ih

/-- The venue of the sample only moves tokens. -/
theorem exchange_spares {p : Prepared} :
    VenuesSpare Disturbs (guarded Sample.titanPda Sample.exchange) (Sample.ctx Sample.userA)
      p Sample.swaps := by
  intro pre swap post bank₀ st n bank' _ _ _ _ hcpi
  rcases legCpi_spec hcpi with ⟨-, rfl⟩ | ⟨_, -, ix, -, hinvoke⟩
  · exact ⟨[], .done _, by simp⟩
  · simp only [guarded] at hinvoke
    split at hinvoke
    next =>
      refine ⟨_, (venueRun_of_invokeSigned hinvoke).guarded, fun i hi k _ => ?_⟩
      simp only [Sample.exchange, List.mem_cons, List.not_mem_nil, or_false] at hi
      rcases hi with rfl | rfl
      · simp [Disturbs, TakesCustody, SetsCloser]
      · simp [Disturbs, TakesCustody, SetsCloser]
    next => exact absurd hinvoke (by simp)

/-- The ATA that the sample route deposits on is a vault. -/
theorem titanA_vault : Vault (guarded Sample.titanPda Sample.exchange) {Sample.mintA} Sample.titanPda
    (Sample.bank Sample.titanA) where
  token := ⟨Or.inl rfl, by decide +kernel, Or.inl (by decide +kernel), Or.inl (by decide +kernel)⟩
  held := by decide +kernel
  undelegated := by decide +kernel
  unclosable := by decide +kernel
  mint := ⟨Sample.mintA, rfl, by decide +kernel⟩

/-- The sample route, and then a transfer of the user's: the ATA of the route is
    still a vault, and holds its 70 tokens. -/
theorem vaults_survive_sample :
    ∃ bank₁ bank₂, execute (guarded Sample.titanPda Sample.exchange) (Sample.ctx Sample.userA)
      1000 2 Sample.swaps Sample.bank = .ok bank₁ ∧
      (guarded Sample.titanPda Sample.exchange).invokeToken SPL_TOKEN_ID
        (.transfer Sample.userA Sample.vaultA Sample.user 30) [Sample.signer Sample.user]
        [] bank₁ = .ok bank₂ ∧
      Vault (guarded Sample.titanPda Sample.exchange) {Sample.mintA} Sample.titanPda
        (bank₂ Sample.titanA) ∧
      70 ≤ tokenBalance (bank₂ Sample.titanA) := by
  obtain ⟨bank₁, hrun, hafter⟩ :=
    Except.okAnd_eq_true.mp (show (execute (guarded Sample.titanPda Sample.exchange)
      (Sample.ctx Sample.userA) 1000 2 Sample.swaps Sample.bank).okAnd (fun b =>
        decide ((b Sample.titanPda).owner = ZERO_PUBKEY) &&
          ((guarded Sample.titanPda Sample.exchange).invokeToken SPL_TOKEN_ID
            (.transfer Sample.userA Sample.vaultA Sample.user 30) [Sample.signer Sample.user] [] b).okAnd
              (fun _ => true)) = true by decide +kernel)
  obtain ⟨howner, htransfer⟩ := Bool.and_eq_true_iff.mp hafter
  obtain ⟨bank₂, hmoved, -⟩ := Except.okAnd_eq_true.mp htransfer
  obtain ⟨p, -, hprep, -⟩ := execute_cases hrun
  have hroute : Event (guarded Sample.titanPda Sample.exchange) Sample.titanPda Sample.bank bank₁ :=
    .route sample_funded rfl (by decide) hprep exchange_spares hrun
  have hplain : NoMultisig (guarded Sample.titanPda Sample.exchange) (bank₁ Sample.titanPda) := by
    rw [NoMultisig, of_decide_eq_true howner]
    decide
  have htoken : Event (guarded Sample.titanPda Sample.exchange) Sample.titanPda bank₁ bank₂ :=
    .token (by decide) hplain hmoved
  have hbalance : tokenBalance (Sample.bank Sample.titanA) = 70 := by decide +kernel
  obtain ⟨hkept, hle⟩ := vaults_survive (guarded_tokenLaws _ _) (guarded_custodyLaws _ _)
    (signingLaws _ _ _) (.tail (.single hroute) htoken) titanA_vault
  rw [hbalance] at hle
  exact ⟨bank₁, bank₂, hrun, hmoved, hkept, hle⟩

end Sample

end ByrealTitan.Program
