import ByrealTitan.Correctness.Effects
import ByrealTitan.Correctness.Histories
import ByrealTitan.Program.Entry

/-!
# `Correctness.Lifecycle` — the TitanPDA account over the life of the program

Every route signs with the bump that its TitanPDA account stores, and the account is the caller's
choice: the program asks for an account of its own with the discriminator of a `TitanPda`, and derives
the address from the bump it finds there. That this is the canonical TitanPDA is a fact about the
program's whole life. Only `initialize` writes such an account, at the canonical address and with the
canonical bump; a route writes to none itself, what it calls cannot write to the program's accounts
(`OwnerRule`), and a call back into the program has the data of a leg, which no instruction of the
program starts with.

`chainStep_cases` says once what anything that happens on the chain can do to these accounts. From it
follow the invariant (`canonical_run`) and the two results: whatever is accepted as TitanPDA is the
canonical one (`accepted_titan_canonical`), and once it is initialised it stays so, is never initialised
again, and every route with the privileges the declaration asks for is accepted
(`initialized_for_good`).
-/

namespace ByrealTitan.Program

variable {P : Platform} {bank bank' b₀ b₁ b b' : Bank} {k : Pubkey}

/-! ## What the runtime promises -/

/-- What code of other programs can do to the accounts of one program: it does not write them, and an
    account that it hands over has zeroes for data. -/
structure OwnerRule (program : Pubkey) (b b' : Bank) : Prop where
  kept : ∀ k, (b k).owner = program → (b k).data ≠ [] → (b' k).owner = program ∧ (b' k).data = (b k).data
  received : ∀ k, (b' k).owner = program →
    ((b k).owner = program ∧ (b' k).data = (b k).data) ∨ ∀ x ∈ (b' k).data, x = 0

/-- What Anchor puts in front of the data of an IDL account. -/
def IDL_ACCOUNT_DISCRIMINATOR : List UInt8 := [24, 70, 98, 191, 58, 144, 123, 158]

/-- An account that the IDL instructions may write, or leave behind: one of the system program, or one of
    this program that is blank or an IDL account. -/
def IdlAccount (a : Account) : Prop :=
  a.owner = SYSTEM_PROGRAM_ID ∨
    (a.owner = ID ∧ ((∀ x ∈ a.data.take 8, x = 0) ∨ a.data.take 8 = IDL_ACCOUNT_DISCRIMINATOR))

/-- The documented behaviour of what the entry point calls. -/
structure PlatformLaws (P : Platform) : Prop where
  invokeToken : ∀ {program ix infos seeds b b'}, P.invokeToken program ix infos seeds b = .ok b' →
    OwnerRule ID b b'
  createAta : ∀ {payer owner mint ata tokenProgram systemProgram b b'},
    P.createAssociatedTokenAccountIdempotent payer owner mint ata tokenProgram systemProgram b = .ok b' →
      OwnerRule ID b b'
  systemTransfer : ∀ {source dest n b b'}, P.systemTransfer source dest n b = .ok b' → OwnerRule ID b b'
  /-- Another program cannot call back into this one. -/
  invokeOther : ∀ {ix infos seeds b b'}, ix.programId ≠ ID → P.invokeSigned ix infos seeds b = .ok b' →
    OwnerRule ID b b'
  /-- A program may call itself, and is entered like by anyone else. -/
  invokeSelf : ∀ {ix infos seeds b b'}, ix.programId = ID → P.invokeSigned ix infos seeds b = .ok b' →
    ∃ accounts, process P accounts ix.data b = .ok b'
  /-- Only an account without data that the system program owns can be opened. -/
  createAccount : ∀ {payer newAccount space owner seeds b b'},
    P.createAccount payer newAccount space owner seeds b = .ok b' →
      (b newAccount.key).owner = SYSTEM_PROGRAM_ID ∧ (b newAccount.key).data = [] ∧
      (b' newAccount.key).owner = owner ∧ (b' newAccount.key).data = List.replicate space 0 ∧
      ∀ k, k ≠ newAccount.key → (b' k).owner = (b k).owner ∧ (b' k).data = (b k).data
  idlDispatch : ∀ {accounts data b b'}, P.idlDispatch accounts data b = .ok b' →
    ∀ k, ((b' k).owner = (b k).owner ∧ (b' k).data = (b k).data) ∨ (IdlAccount (b k) ∧ IdlAccount (b' k))

/-! ## Accounts that pass for a TitanPDA -/

/-- An account of the program with the discriminator of a `TitanPda`. -/
def IsTitanPda (a : Account) : Prop := a.owner = ID ∧ a.data.take 8 = TitanPda.DISCRIMINATOR

theorem TitanPda.Stored.isTitanPda {a : Account} {bump : UInt8} (h : TitanPda.Stored a bump) :
    IsTitanPda a :=
  ⟨h.owner, h.discriminator⟩

theorem not_isTitanPda_of_zero {a : Account} (h : ∀ x ∈ a.data.take 8, x = 0) : ¬ IsTitanPda a := by
  rintro ⟨-, hdisc⟩
  rw [hdisc] at h
  exact absurd (h 251 (by decide)) (by decide)

theorem IdlAccount.not_isTitanPda {a : Account} (h : IdlAccount a) : ¬ IsTitanPda a := by
  intro htitan
  rcases h with howner | ⟨-, hzero | hidl⟩
  · exact absurd (htitan.1.symm.trans howner) (by decide)
  · exact not_isTitanPda_of_zero hzero htitan
  · exact absurd (hidl.symm.trans htitan.2) (by decide)

/-- Every account that is a TitanPDA before or after is the same before and after. -/
def SparesTitan (b b' : Bank) : Prop :=
  ∀ k, IsTitanPda (b k) ∨ IsTitanPda (b' k) → (b' k).owner = (b k).owner ∧ (b' k).data = (b k).data

namespace SparesTitan

theorem refl (b : Bank) : SparesTitan b b := fun _ _ => ⟨rfl, rfl⟩

theorem isTitanPda (h : SparesTitan b b') (ht : IsTitanPda (b k) ∨ IsTitanPda (b' k)) :
    IsTitanPda (b k) ∧ IsTitanPda (b' k) := by
  obtain ⟨howner, hdata⟩ := h k ht
  rcases ht with ht | ht
  · refine ⟨ht, ?_⟩
    rw [IsTitanPda, howner, hdata]
    exact ht
  · refine ⟨?_, ht⟩
    rw [IsTitanPda, ← howner, ← hdata]
    exact ht

theorem trans {b₁ b₂ b₃ : Bank} (h : SparesTitan b₁ b₂) (h' : SparesTitan b₂ b₃) : SparesTitan b₁ b₃ := by
  intro k ht
  have hmid : IsTitanPda (b₂ k) := by
    rcases ht with ht | ht
    · exact (h.isTitanPda (Or.inl ht)).2
    · exact (h'.isTitanPda (Or.inr ht)).1
  obtain ⟨howner, hdata⟩ := h k (Or.inr hmid)
  obtain ⟨howner', hdata'⟩ := h' k (Or.inl hmid)
  exact ⟨howner'.trans howner, hdata'.trans hdata⟩

end SparesTitan

/-- Other programs neither change a TitanPDA nor make one. -/
theorem OwnerRule.sparesTitan (h : OwnerRule ID b b') : SparesTitan b b' := by
  have hkept : ∀ k, IsTitanPda (b k) → (b' k).owner = (b k).owner ∧ (b' k).data = (b k).data := by
    intro k ht
    have hne : (b k).data ≠ [] := by
      intro hnil
      have hdisc := ht.2
      rw [hnil] at hdisc
      exact absurd hdisc (by decide)
    obtain ⟨howner, hdata⟩ := h.kept k ht.1 hne
    exact ⟨howner.trans ht.1.symm, hdata⟩
  intro k ht
  rcases ht with ht | ht
  · exact hkept k ht
  · rcases h.received k ht.1 with ⟨howner, hdata⟩ | hzero
    · exact ⟨ht.1.trans howner.symm, hdata⟩
    · exact absurd ht (not_isTitanPda_of_zero fun x hx => hzero x (List.mem_of_mem_take hx))

/-! ## What can happen -/

/-- No instruction of the program starts with the data of a leg. -/
theorem leg_data_refused {accounts : Accounts} {data : List UInt8}
    (hdata : SWAP_V3_DYN_DISCRIMINATOR <+: data) :
    process P accounts data bank = Res.fail .instructionFallbackNotFound := by
  obtain ⟨rest, rfl⟩ := hdata
  rfl

/-- A route leaves every TitanPDA as it is, whatever the programs it calls. -/
theorem route_sparesTitan (laws : PlatformLaws P) : CallsKeep P.toRuntime SparesTitan where
  refl := SparesTitan.refl
  trans := SparesTitan.trans
  invokeToken h := (laws.invokeToken h).sparesTitan
  createAta h := (laws.createAta h).sparesTitan
  systemTransfer h := (laws.systemTransfer h).sparesTitan
  invokeSigned {ix infos seeds b b'} hdata h := by
    by_cases hself : ix.programId = ID
    · obtain ⟨accounts, hprocess⟩ := laws.invokeSelf hself h
      rw [leg_data_refused hdata] at hprocess
      cases hprocess
    · exact (laws.invokeOther hself h).sparesTitan

/-- The account at `pda` becomes the TitanPDA with this bump, and no other one changes. -/
structure OpensTitan (P : Platform) (pda : Pubkey) (bump : UInt8) (b b' : Bank) : Prop where
  found : findProgramAddress P [TitanPda.SEED] ID = some (pda, bump)
  absent : (b pda).owner = SYSTEM_PROGRAM_ID ∧ (b pda).data = []
  opened : (b' pda).owner = ID ∧ (b' pda).data = TitanPda.serialize bump
  others : ∀ k, k ≠ pda → (b' k).owner = (b k).owner ∧ (b' k).data = (b k).data

theorem initialize_opens (laws : PlatformLaws P) {accounts : Accounts}
    (h : Initialize.process P accounts bank = .ok bank') :
    ∃ pda bump, OpensTitan P pda bump bank bank' := by
  obtain ⟨payer, titanPda, bump, b₁, hfound, hcreate, rfl⟩ := Initialize.process_cases h
  obtain ⟨howner, hdata, howner', hdata', hothers⟩ := laws.createAccount hcreate
  refine ⟨titanPda.key, bump, hfound, ⟨howner, hdata⟩, ⟨?_, ?_⟩, ?_⟩
  · rw [Function.update_self]
    exact howner'
  · rw [Function.update_self, hdata', List.drop_replicate]
    rfl
  · intro k hk
    rw [Function.update_of_ne hk]
    exact hothers k hk

/-- One thing that happens on the chain: a call of the program by anyone, with any accounts and data, or
    whatever other programs do. -/
inductive ChainStep (P : Platform) : Bank → Bank → Prop where
  | called {accounts : Accounts} {data : List UInt8} {b b' : Bank}
      (h : process P accounts data b = .ok b') :
      ChainStep P b b'
  | foreign {b b' : Bank} (h : OwnerRule ID b b') : ChainStep P b b'

/-- The chain, one step after the other. -/
def ChainRun (P : Platform) : Bank → Bank → Prop := Relation.ReflTransGen (ChainStep P)

/-- **Whatever happens spares every TitanPDA or opens the canonical one.** -/
theorem chainStep_cases (laws : PlatformLaws P) (h : ChainStep P b b') :
    SparesTitan b b' ∨ ∃ pda bump, OpensTitan P pda bump b b' := by
  cases h with
  | called h =>
      rcases process_cases h with ⟨-, hinit⟩ | ⟨-, ctx, amount, mints, swaps, -, hroute⟩ | ⟨-, hidl⟩
      · exact Or.inr (initialize_opens laws hinit)
      · exact Or.inl ((route_sparesTitan laws).execute hroute)
      · refine Or.inl fun k ht => ?_
        rcases laws.idlDispatch hidl k with hsame | ⟨hbefore, hafter⟩
        · exact hsame
        · rcases ht with ht | ht
          · exact absurd ht hbefore.not_isTitanPda
          · exact absurd ht hafter.not_isTitanPda
  | foreign h => exact Or.inl h.sparesTitan

/-! ## The invariant -/

/-- Whatever passes for a TitanPDA is the canonical one, with the canonical bump. -/
def Canonical (P : Platform) (b : Bank) : Prop :=
  ∀ k, IsTitanPda (b k) →
    ∃ bump, findProgramAddress P [TitanPda.SEED] ID = some (k, bump) ∧ (b k).data = TitanPda.serialize bump

theorem Canonical.step (laws : PlatformLaws P) (hb : Canonical P b) (h : ChainStep P b b') :
    Canonical P b' := by
  intro k ht
  rcases chainStep_cases laws h with hspares | ⟨pda, bump, hopens⟩
  · obtain ⟨-, hdata⟩ := hspares k (Or.inr ht)
    obtain ⟨bump, hfound, hbump⟩ := hb k (hspares.isTitanPda (Or.inr ht)).1
    exact ⟨bump, hfound, hdata.trans hbump⟩
  · by_cases hk : k = pda
    · subst hk
      exact ⟨bump, hopens.found, hopens.opened.2⟩
    · obtain ⟨howner, hdata⟩ := hopens.others k hk
      have ht' : IsTitanPda (b k) := by
        rw [IsTitanPda, ← howner, ← hdata]
        exact ht
      obtain ⟨bump', hfound, hbump⟩ := hb k ht'
      exact ⟨bump', hfound, hdata.trans hbump⟩

theorem canonical_run (laws : PlatformLaws P) (hb : Canonical P b) (hrun : ChainRun P b b') :
    Canonical P b' := by
  induction hrun with
  | refl => exact hb
  | tail _ hstep ih => exact ih.step laws hstep

/-- **Whatever a route is given as TitanPDA is the canonical one.** The program starts without TitanPDA
    accounts. After any sequence of calls of the program, by anyone and with any accounts and data, among
    anything that other programs do, the account checks of `swap_route_v3` pass for the canonical address
    only; the bump the route signs with is the canonical bump, and derives that address. -/
theorem accepted_titan_canonical (laws : PlatformLaws P) (hnew : ∀ k, ¬ IsTitanPda (b₀ k))
    (hrun : ChainRun P b₀ b) {accounts : Accounts} {ctx : Ctx}
    (h : SwapRouteV3.tryAccounts P accounts b = .ok ctx) :
    findProgramAddress P [TitanPda.SEED] ID = some (ctx.titanPda.key, ctx.bump) ∧
      P.createProgramAddress (signerSeeds ctx) ID = some ctx.titanPda.key := by
  have haccepts := SwapRouteV3.tryAccounts_eq_ok.mp h
  have hcanonical : Canonical P b := canonical_run laws (fun k ht => absurd ht (hnew k)) hrun
  obtain ⟨bump, hfound, hdata⟩ := hcanonical _ haccepts.stored.isTitanPda
  have hbump : some bump = some ctx.bump := by
    have hstored := haccepts.stored.bump
    rw [hdata] at hstored
    exact hstored
  obtain rfl := Option.some.inj hbump
  exact ⟨hfound, haccepts.derived⟩

/-! ## Initialised for good -/

/-- The TitanPDA is there, with its bump. -/
structure Initialized (P : Platform) (pda : Pubkey) (bump : UInt8) (b : Bank) : Prop where
  found : findProgramAddress P [TitanPda.SEED] ID = some (pda, bump)
  owner : (b pda).owner = ID
  data : (b pda).data = TitanPda.serialize bump

namespace Initialized

variable {pda : Pubkey} {bump : UInt8}

theorem isTitanPda (h : Initialized P pda bump b) : IsTitanPda (b pda) := by
  refine ⟨h.owner, ?_⟩
  rw [h.data]
  rfl

theorem stored (h : Initialized P pda bump b) : TitanPda.Stored (b pda) bump := by
  refine ⟨h.owner, h.isTitanPda.2, ?_⟩
  rw [h.data]
  rfl

/-- There is no second `initialize`: the account is no longer the system program's. -/
theorem not_opens {pda' : Pubkey} {bump' : UInt8} (h : Initialized P pda bump b) :
    ¬ OpensTitan P pda' bump' b b' := by
  intro hopens
  obtain ⟨rfl, rfl⟩ := Prod.mk.inj (Option.some.inj (h.found.symm.trans hopens.found))
  exact absurd (h.owner.symm.trans hopens.absent.1) (by decide)

theorem step (laws : PlatformLaws P) (h : Initialized P pda bump b) (hstep : ChainStep P b b') :
    Initialized P pda bump b' := by
  rcases chainStep_cases laws hstep with hspares | ⟨pda', bump', hopens⟩
  · obtain ⟨howner, hdata⟩ := hspares pda (Or.inl h.isTitanPda)
    exact ⟨h.found, howner.trans h.owner, hdata.trans h.data⟩
  · exact absurd hopens h.not_opens

theorem run (laws : PlatformLaws P) (h : Initialized P pda bump b) (hrun : ChainRun P b b') :
    Initialized P pda bump b' := by
  induction hrun with
  | refl => exact h
  | tail _ hstep ih => exact ih.step laws hstep

end Initialized

/-- What `swap_route_v3` asks of the accounts besides the TitanPDA's content. -/
structure Privileged (accounts : Accounts) (pda : Pubkey) : Prop where
  layout : ∃ payer user titanPda input output tokenProgram token2022Program systemProgram
    associatedTokenProgram ledger reserved0 reserved1 remaining,
    accounts.1 = payer :: user :: titanPda :: input :: output :: tokenProgram :: token2022Program ::
      systemProgram :: associatedTokenProgram :: ledger :: reserved0 :: reserved1 :: remaining ∧
    (payer.isSigner = true ∧ payer.isWritable = true) ∧ (user.isSigner = true ∧ user.isWritable = true) ∧
    titanPda.key = pda ∧ input.isWritable = true ∧ output.isWritable = true ∧
    systemProgram.key = SYSTEM_PROGRAM_ID

/-- Data behind the discriminator of `initialize` goes to `initialize`. -/
theorem process_initialize_eq {accounts : Accounts} {data : List UInt8}
    (h : Initialize.DISCRIMINATOR <+: data) :
    process P accounts data bank = Initialize.process P accounts bank := if_pos h

/-- **Once initialised, always initialised.** After a successful `initialize`, and whatever
    happens then: the canonical TitanPDA keeps its owner and its data, no further
    `initialize` succeeds, and every list of accounts that names the TitanPDA and carries the
    privileges of the declaration is accepted for a route. -/
theorem initialized_for_good (laws : PlatformLaws P) {accounts : Accounts} {data : List UInt8}
    (hdata : Initialize.DISCRIMINATOR <+: data) (hinit : process P accounts data b₀ = .ok b₁)
    (hrun : ChainRun P b₁ b) :
    ∃ pda bump, findProgramAddress P [TitanPda.SEED] ID = some (pda, bump) ∧
      ((b pda).owner = ID ∧ (b pda).data = TitanPda.serialize bump) ∧
      (∀ accounts data b', Initialize.DISCRIMINATOR <+: data → process P accounts data b ≠ .ok b') ∧
      ∀ accounts, Privileged accounts pda →
        ∃ ctx, SwapRouteV3.tryAccounts P accounts b = .ok ctx ∧ ctx.titanPda.key = pda ∧
        ctx.bump = bump := by
  rw [process_initialize_eq hdata] at hinit
  obtain ⟨pda, bump, hopens⟩ := initialize_opens laws hinit
  have hlive : Initialized P pda bump b :=
    Initialized.run laws ⟨hopens.found, hopens.opened.1, hopens.opened.2⟩ hrun
  refine ⟨pda, bump, hlive.found, ⟨hlive.owner, hlive.data⟩, ?_, ?_⟩
  · intro accounts data b' hdata h
    rw [process_initialize_eq hdata] at h
    obtain ⟨_, _, hagain⟩ := initialize_opens laws h
    exact hlive.not_opens hagain
  · rintro ⟨infos, hle⟩ ⟨payer, user, titanPda, input, output, tokenProgram, token2022Program,
      systemProgram, ata, ledger, reserved0, reserved1, remaining, hlayout, hpayer, huser, rfl, hinput,
      houtput, hsystem⟩
    obtain rfl := hlayout
    have hremaining : remaining.length ≤ 255 := by
      simp only [List.length_cons] at hle
      omega
    refine ⟨⟨payer, user, titanPda, bump, input, output, tokenProgram, token2022Program, systemProgram,
      ledger.optional, remaining, hremaining⟩, SwapRouteV3.tryAccounts_eq_ok.mpr ?_, rfl, rfl⟩
    exact ⟨⟨ata, ledger, reserved0, reserved1, rfl, rfl⟩, ⟨hpayer.1, huser.1⟩, ⟨hpayer.2, huser.2⟩,
      ⟨hinput, houtput⟩, hsystem, hlive.stored, findProgramAddress_derives hlive.found⟩

/-! ## The sample life -/

section Sample

open Reference

variable {program : Pubkey} {signs : Pubkey → Bool}

/-- The accounts an instruction changes belong to the token program, and go to nobody else. -/
def TokenTouches (program : Pubkey) (b b' : Bank) : Prop :=
  ∀ k, ((b' k).owner = (b k).owner ∧ (b' k).data = (b k).data) ∨
    ((b k).owner = program ∧ ((b' k).owner = program ∨ (b' k).owner = ZERO_PUBKEY))

theorem TokenTouches.ownerRule (h : TokenTouches program b b') (hprogram : program ≠ ID) :
    OwnerRule ID b b' where
  kept k howner _ := by
    rcases h k with ⟨howner', hdata⟩ | ⟨htoken, -⟩
    · exact ⟨howner'.trans howner, hdata⟩
    · exact absurd (htoken.symm.trans howner) hprogram
  received k howner := by
    rcases h k with ⟨howner', hdata⟩ | ⟨-, htoken | hclosed⟩
    · exact Or.inl ⟨howner'.symm.trans howner, hdata⟩
    · exact absurd (htoken.symm.trans howner) hprogram
    · exact absurd (hclosed.symm.trans howner) (by decide)

theorem setAmount_owner {a : Account} {n : Nat} : (setAmount a n).owner = a.owner := rfl

theorem spendDelegation_owner {a : Account} {authority : Pubkey} {n : Nat} :
    (spendDelegation a authority n).owner = a.owner := by
  unfold spendDelegation
  split
  · rfl
  · split
    · rfl
    · rfl

theorem moveTokens_touches {source dest authority : Pubkey} {n : Nat}
    (h : moveTokens program source dest authority n signs b = .ok b') : TokenTouches program b b' := by
  intro k
  unfold moveTokens at h
  simp only [Except.bind_eq_ok, ensure_eq_ok, isToken, Bool.and_eq_true, decide_eq_true_eq] at h
  obtain ⟨_, ⟨⟨hsource, -⟩, hdest, -⟩, _, -, _, -, _, -, h⟩ := h
  split at h
  next =>
    obtain rfl := Except.pure_eq_ok.mp h
    exact Or.inl ⟨rfl, rfl⟩
  next =>
    simp only [Except.bind_eq_ok, ensure_eq_ok, Except.pure_eq_ok] at h
    obtain ⟨_, -, rfl⟩ := h
    by_cases hd : k = dest
    · refine Or.inr ⟨hd ▸ hdest, Or.inl ?_⟩
      rw [hd, movedBank, Function.update_self, setAmount_owner]
      exact hdest
    by_cases hs : k = source
    · refine Or.inr ⟨hs ▸ hsource, Or.inl ?_⟩
      rw [movedBank, Function.update_of_ne hd, hs, Function.update_self, setAmount_owner,
        spendDelegation_owner]
      exact hsource
    · refine Or.inl ?_
      rw [movedBank, Function.update_of_ne hd, Function.update_of_ne hs]
      exact ⟨rfl, rfl⟩

theorem closeToken_touches {account destination authority : Pubkey}
    (h : closeToken program account destination authority signs b = .ok b') :
    TokenTouches program b b' := by
  intro k
  by_cases hk : k = account
  · subst hk
    unfold closeToken at h
    simp only [Except.bind_eq_ok, ensure_eq_ok, Except.pure_eq_ok, isToken, Bool.and_eq_true,
      decide_eq_true_eq] at h
    obtain ⟨_, ⟨htoken, -⟩, _, -, _, -, _, -, rfl⟩ := h
    refine Or.inr ⟨htoken, Or.inr ?_⟩
    rw [closedBank, Function.update_self]
  · obtain ⟨hdata, howner⟩ := (closeToken_frame h).2 k hk
    exact Or.inl ⟨howner, hdata⟩

theorem setOwner_touches {account authority newOwner : Pubkey}
    (h : setOwner program account authority newOwner signs b = .ok b') : TokenTouches program b b' := by
  intro k
  by_cases hk : k = account
  · subst hk
    unfold setOwner at h
    simp only [Except.bind_eq_ok, ensure_eq_ok, Except.pure_eq_ok, isToken, Bool.and_eq_true,
      decide_eq_true_eq] at h
    obtain ⟨_, ⟨htoken, -⟩, _, -, rfl⟩ := h
    refine Or.inr ⟨htoken, Or.inl ?_⟩
    rw [Function.update_self]
    exact htoken
  · rw [setOwner_frame h k hk]
    exact Or.inl ⟨rfl, rfl⟩

theorem token_touches {ix : TokenInstruction} (h : token program signs b ix = .ok b') :
    TokenTouches program b b' := by
  unfold token at h
  split at h
  · exact moveTokens_touches h
  · exact moveTokens_touches h
  · exact closeToken_touches h
  · exact setOwner_touches h
  · exact absurd h (by simp)

theorem OwnerRule.refl (b : Bank) : OwnerRule ID b b where
  kept _ howner _ := ⟨howner, rfl⟩
  received _ howner := Or.inl ⟨howner, rfl⟩

theorem OwnerRule.of_same (h : ∀ k, (b' k).data = (b k).data ∧ (b' k).owner = (b k).owner) :
    OwnerRule ID b b' where
  kept k howner _ := ⟨(h k).2.trans howner, (h k).1⟩
  received k howner := Or.inl ⟨(h k).2.symm.trans howner, (h k).1⟩

theorem OwnerRule.trans {b₁ b₂ b₃ : Bank} (h : OwnerRule ID b₁ b₂) (h' : OwnerRule ID b₂ b₃) :
    OwnerRule ID b₁ b₃ where
  kept k howner hne := by
    obtain ⟨howner₂, hdata₂⟩ := h.kept k howner hne
    obtain ⟨howner₃, hdata₃⟩ := h'.kept k howner₂ (by rwa [hdata₂])
    exact ⟨howner₃, hdata₃.trans hdata₂⟩
  received k howner := by
    rcases h'.received k howner with ⟨howner₂, hdata₃⟩ | hzero
    · rcases h.received k howner₂ with ⟨howner₁, hdata₂⟩ | hzero
      · exact Or.inl ⟨howner₁, hdata₃.trans hdata₂⟩
      · exact Or.inr (by rwa [hdata₃])
    · exact Or.inr hzero

theorem foldlM_token_ownerRule {ixs : List TokenInstruction}
    (h : ixs.foldlM (token program signs) b = .ok b')
    (hprogram : program ≠ ID) : OwnerRule ID b b' := by
  induction ixs generalizing b with
  | nil =>
      obtain rfl := Except.pure_eq_ok.mp h
      exact OwnerRule.refl b
  | cons ix ixs ih =>
      rw [List.foldlM_cons, Except.bind_eq_ok] at h
      obtain ⟨b₁, hix, hrest⟩ := h
      exact ((token_touches hix).ownerRule hprogram).trans (ih hrest)

theorem createAta_ownerRule {owner mint ata : Pubkey} (h : createAta program owner mint ata b = .ok b')
    (hprogram : program ≠ ID) : OwnerRule ID b b' := by
  unfold createAta at h
  split at h
  next =>
    simp only [Except.bind_eq_ok, ensure_eq_ok, Except.pure_eq_ok] at h
    obtain ⟨_, -, rfl⟩ := h
    exact OwnerRule.refl b
  next =>
    simp only [Except.bind_eq_ok, ensure_eq_ok, Except.pure_eq_ok] at h
    obtain ⟨_, hempty, rfl⟩ := h
    constructor
    · intro k howner hne
      have hk : k ≠ ata := fun heq => hne (heq ▸ hempty)
      rw [Function.update_of_ne hk]
      exact ⟨howner, rfl⟩
    · intro k howner
      by_cases hk : k = ata
      · rw [hk, Function.update_self] at howner
        exact absurd howner hprogram
      · rw [Function.update_of_ne hk] at howner ⊢
        exact Or.inl ⟨howner, rfl⟩

/-- The TitanPDA that the program's id and the bump 255 derive. -/
def canonicalPda : Pubkey :=
  ⟨[197, 248, 30, 241, 231, 214, 240, 152, 178, 20, 146, 125, 242, 48, 179, 10, 134, 26, 113, 210, 27,
    109, 213, 175, 171, 99, 168, 173, 154, 34, 177, 89], rfl⟩

/-- `create_account`, which the payer funds. -/
def openAccount (payer newAccount : Pubkey) (space : Nat) (owner : Pubkey) (b : Bank) :
    Except UInt64 Bank := do
  let rent := (128 + space) * 6960
  ensure ((b newAccount).owner = SYSTEM_PROGRAM_ID ∧ (b newAccount).data = [] ∧
    (b newAccount).lamports = 0) 0
  ensure (rent ≤ (b payer).lamports) 1
  let b₁ := Function.update b payer { b payer with lamports := (b payer).lamports - rent }
  return Function.update b₁ newAccount ⟨rent, List.replicate space 0, owner⟩

def isTokenProgram (program : Pubkey) :
    Bool := decide (program = SPL_TOKEN_ID ∨ program = TOKEN_PROGRAM_2022_ID)

theorem ne_ID_of_isTokenProgram (h : isTokenProgram program = true) : program ≠ ID := by
  rintro rfl
  revert h
  decide

/-- The reference runtime behind the entry point: only the token programs are invoked as such, and a venue
    program never answers at the address of the route program. -/
def platform (venue : VenueProgram) : Platform where
  toRuntime := { guarded canonicalPda venue with
    invokeToken := fun program ix infos seeds b =>
      if isTokenProgram program then (guarded canonicalPda venue).invokeToken program ix infos seeds b
        else .error 1
    createAssociatedTokenAccountIdempotent := fun payer owner mint ata tokenProgram systemProgram b =>
      if isTokenProgram tokenProgram.key then
        (guarded canonicalPda venue).createAssociatedTokenAccountIdempotent payer owner mint ata
          tokenProgram systemProgram b
      else .error 1
    invokeSigned := fun ix infos seeds b =>
      if ix.programId = ID then .error 101 else (guarded canonicalPda venue).invokeSigned ix
        infos seeds b }
  createProgramAddress seeds program :=
    if seeds = [TitanPda.SEED, [255]] ∧ program = ID then some canonicalPda else none
  createAccount payer newAccount space owner _ b := openAccount payer.key newAccount.key space owner b
  idlDispatch _ _ _ := .error 3000

theorem platformLaws (venue : VenueProgram) : PlatformLaws (platform venue) where
  invokeToken {program ix infos seeds b b'} h := by
    simp only [platform] at h
    split at h
    next hprogram => exact (token_touches h).ownerRule (ne_ID_of_isTokenProgram hprogram)
    next => cases h
  createAta {payer owner mint ata tokenProgram systemProgram b b'} h := by
    simp only [platform] at h
    split at h
    next hprogram => exact createAta_ownerRule h (ne_ID_of_isTokenProgram hprogram)
    next => cases h
  systemTransfer h := OwnerRule.of_same (moveLamports_frame h)
  invokeOther {ix infos seeds b b'} hother h := by
    simp only [platform, if_neg hother, guarded] at h
    split at h
    next => exact foldlM_token_ownerRule h (by decide)
    next => cases h
  invokeSelf {ix infos seeds b b'} hself h := by
    simp only [platform, if_pos hself] at h
    cases h
  createAccount {payer newAccount space owner seeds b b'} h := by
    simp only [platform, openAccount, Except.bind_eq_ok, ensure_eq_ok, Except.pure_eq_ok] at h
    obtain ⟨_, ⟨howner, hdata, -⟩, _, -, rfl⟩ := h
    refine ⟨howner, hdata, by rw [Function.update_self], by rw [Function.update_self], fun k hk => ?_⟩
    rw [Function.update_of_ne hk]
    obtain ⟨hdata', howner'⟩ := update_lamports_frame b payer.key _ k
    exact ⟨howner', hdata'⟩
  idlDispatch h := by cases h

/-- Before the program is used: a payer with lamports, and nothing else. -/
def emptyBank : Bank := fun k => if k = Sample.payer then ⟨1000000000, [], ZERO_PUBKEY⟩
    else ⟨0, [], ZERO_PUBKEY⟩

theorem emptyBank_owner (k : Pubkey) : (emptyBank k).owner = ZERO_PUBKEY := by
  unfold emptyBank
  split
  · rfl
  · rfl

/-- The accounts of `initialize`. -/
def initializeAccounts : Accounts :=
  ⟨[Sample.signer Sample.payer, Sample.writable canonicalPda, Sample.readonly SYSTEM_PROGRAM_ID],
    by decide⟩

/-- The accounts of a route without optional accounts, up to its remaining ones. -/
def routeAccounts : Accounts :=
  ⟨[Sample.signer Sample.payer, Sample.signer Sample.user, Sample.readonly canonicalPda,
    Sample.writable Sample.userA, Sample.writable Sample.userB, Sample.readonly SPL_TOKEN_ID,
    Sample.readonly TOKEN_PROGRAM_2022_ID, Sample.readonly SYSTEM_PROGRAM_ID,
    Sample.readonly Sample.stranger,
    Sample.readonly ID, Sample.readonly ID, Sample.readonly ID], by decide⟩

theorem sample_initialize :
    ∃ b₁, process (platform Sample.exchange) initializeAccounts Initialize.DISCRIMINATOR
    emptyBank = .ok b₁ :=
  Except.exists_of_failure? (by decide +kernel)

/-- After `initialize`, a route is accepted with the TitanPDA of bump 255. -/
theorem accepted_titan_canonical_sample :
    ∃ b₁ ctx, process (platform Sample.exchange) initializeAccounts Initialize.DISCRIMINATOR emptyBank =
      .ok b₁ ∧
      SwapRouteV3.tryAccounts (platform Sample.exchange) routeAccounts b₁ = .ok ctx ∧
      findProgramAddress (platform Sample.exchange)
        [TitanPda.SEED] ID = some (ctx.titanPda.key, ctx.bump) := by
  obtain ⟨b₁, hinit⟩ := sample_initialize
  have hchecks : ((process (platform Sample.exchange) initializeAccounts Initialize.DISCRIMINATOR
      emptyBank) >>= fun b =>
      SwapRouteV3.tryAccounts (platform Sample.exchange) routeAccounts b).failure? = none := by
    decide +kernel
  obtain ⟨ctx, hctx⟩ := Except.exists_of_failure? hchecks
  rw [hinit, Except.ok_bind] at hctx
  have hnew : ∀ k, ¬ IsTitanPda (emptyBank k) := by
    rintro k ⟨howner, -⟩
    exact absurd ((emptyBank_owner k).symm.trans howner) (by decide)
  exact ⟨b₁, ctx, hinit, hctx,
    (accepted_titan_canonical (platformLaws Sample.exchange) hnew (.single (.called hinit)) hctx).1⟩

/-- A pool like that of the sample route, for the canonical TitanPDA. -/
def pool : VenueProgram where
  respond ix :=
    [.transfer Sample.titanA Sample.vaultA canonicalPda (Sample.amountOf ix),
      .transfer Sample.vaultB Sample.titanB Sample.pool (Sample.amountOf ix)]
  authority := Sample.pool

/-- The accounts of the sample route, held by the canonical TitanPDA, which is not there yet. -/
def deployed : Bank := fun k =>
  if k = canonicalPda then ⟨0, [], ZERO_PUBKEY⟩
  else if k = Sample.titanA then Sample.tokenAccount Sample.mintA canonicalPda 70 none
  else if k = Sample.titanB then Sample.tokenAccount Sample.mintB canonicalPda 0 none
  else Sample.bank k

/-- The accounts of a route of one leg. -/
def swapAccounts : Accounts :=
  ⟨routeAccounts.1 ++ [Sample.writable Sample.titanA, Sample.writable Sample.titanB,
    Sample.readonly Sample.mintA, Sample.readonly Sample.mintB, Sample.readonly canonicalPda,
    Sample.writable Sample.titanA, Sample.writable Sample.vaultA, Sample.writable Sample.vaultB,
    Sample.writable Sample.titanB, Sample.readonly Sample.pool, Sample.writable Sample.keptA,
    Sample.readonly Sample.venueProgram], by decide⟩

/-- `swap_route_v3` with amount 1000, two mints and the sample leg. -/
def swapData : List UInt8 := SwapRouteV3.DISCRIMINATOR ++ swapRouteV3Args.encode (1000, 2, Sample.swaps)

/-- The bank after `initialize`. -/
def started : Bank :=
  let paid := Function.update deployed Sample.payer ⟨46480, [], ZERO_PUBKEY⟩
  let opened := Function.update paid canonicalPda ⟨953520, List.replicate 9 0, ID⟩
  Function.update opened canonicalPda ⟨953520, TitanPda.serialize 255, ID⟩

theorem process_deployed :
    process (platform pool) initializeAccounts Initialize.DISCRIMINATOR deployed = .ok started := by
  rfl

theorem sample_route : ∃ b', process (platform pool) swapAccounts swapData started = .ok b' :=
  Except.exists_of_failure? (by decide +kernel)

theorem swapAccounts_privileged : Privileged swapAccounts canonicalPda :=
  ⟨_, _, _, _, _, _, _, _, _, _, _, _, _, rfl, ⟨rfl, rfl⟩, ⟨rfl, rfl⟩, rfl, rfl, rfl, rfl⟩

/-- After `initialize` and a route the TitanPDA is as it was opened, with the bump 255; it cannot be
    initialised again, and the route can be repeated. -/
theorem initialized_for_good_sample :
    ∃ b', process (platform pool) swapAccounts swapData started = .ok b' ∧
      ((b' canonicalPda).owner = ID ∧ (b' canonicalPda).data = TitanPda.serialize 255) ∧
      (∀ accounts data b'', Initialize.DISCRIMINATOR <+: data →
        process (platform pool) accounts data b' ≠ .ok b'') ∧
      ∃ ctx, SwapRouteV3.tryAccounts (platform pool) swapAccounts b' = .ok ctx ∧
        ctx.titanPda.key = canonicalPda ∧ ctx.bump = 255 := by
  obtain ⟨b', hroute⟩ := sample_route
  obtain ⟨pda, bump, hfound, hlive, honce, haccepted⟩ :=
    initialized_for_good (platformLaws pool) (List.prefix_refl _) process_deployed
      (.single (.called hroute))
  have hcanonical : findProgramAddress (platform pool) [TitanPda.SEED] ID = some (canonicalPda, 255) := by
    decide +kernel
  obtain ⟨rfl, rfl⟩ := Prod.mk.inj (Option.some.inj (hfound.symm.trans hcanonical))
  exact ⟨b', hroute, hlive, honce, haccepted swapAccounts swapAccounts_privileged⟩

end Sample

end ByrealTitan.Program
