import ByrealTitan.Program.Execute

/-!
# `Program.Entry` — the program's entry point (`program/.../src/lib.rs`, `instructions/initialize.rs`)

The repository declares its instructions and their accounts, and Anchor generates what runs before a
handler: the instruction is selected by the discriminator its data starts with, the arguments are
decoded, the accounts are taken off the list field by field and checked, and the constraints are
compared last. `process` is that entry for the two instructions of the program, with the checks and
errors the declarations stand for.

What Anchor's code calls in turn is a parameter (`Platform`): the derivation of program addresses, the
system program's instructions that open an account, and the IDL instructions that Anchor adds to every
program.
-/

namespace ByrealTitan.Program

/-- `declare_id!`. -/
def ID : Pubkey :=
  ⟨[6, 169, 156, 110, 18, 231, 14, 187, 53, 24, 92, 20, 76, 75, 144, 110, 24, 255, 176, 10, 71, 116, 47,
    42, 94, 4, 17, 11, 105, 136, 201, 212], rfl⟩

example : ID.toText = "T1TANpTeScyeqVzzgNViGDNrkQ6qHz9KrSBS4aNXvGT" := by decide +kernel

/-- The address of the system program, which owns every account that no program has been given. -/
def SYSTEM_PROGRAM_ID : Pubkey := ZERO_PUBKEY

/-! ## The TitanPDA account -/

namespace TitanPda

def SIZE : Nat := 1

/-- What `#[account]` puts in front of the data of a `TitanPda`. -/
def DISCRIMINATOR : List UInt8 := [251, 8, 48, 12, 67, 185, 133, 113]

/-- `try_serialize`. -/
def serialize (bump : UInt8) : List UInt8 := DISCRIMINATOR ++ [bump]

end TitanPda

/-- The discriminator that `#[program]` derives for `initialize`. -/
def Initialize.DISCRIMINATOR : List UInt8 := [175, 175, 109, 31, 13, 152, 155, 237]

/-- `#[instruction(discriminator = [42])]`. -/
def SwapRouteV3.DISCRIMINATOR : List UInt8 := [42]

/-- The tag of the IDL instructions that Anchor adds. -/
def IDL_IX_TAG_LE : List UInt8 := [64, 244, 188, 120, 167, 233, 105, 10]

/-- The tag of the event instructions, which the program does not enable. -/
def EVENT_IX_TAG_LE : List UInt8 := [228, 69, 165, 46, 81, 203, 154, 29]

/-- The errors of the generated code, and those of the handler behind it. -/
inductive EntryError where
  | instructionFallbackNotFound
  | instructionDidNotDeserialize
  | eventInstructionStub
  | constraintMut
  | constraintSeeds
  | accountDiscriminatorNotFound
  | accountDiscriminatorMismatch
  | accountDidNotDeserialize
  | accountNotEnoughKeys
  | accountOwnedByWrongProgram
  | invalidProgramId
  | accountNotSigner
  | accountNotInitialized
  | program (e : ProgramError)
deriving DecidableEq

abbrev Entry (α : Type) := Res EntryError α

/-- An error of the handler, as the entry point returns it. -/
def entered {α : Type} (r : Exec α) : Entry α :=
  match r with
  | .ok a           => .ok a
  | .error (.err e) => Res.fail (.program e)
  | .error .panic   => Res.panic
  | .error .diverge => .error .diverge

@[simp] theorem entered_eq_ok {α : Type} {r : Exec α} {a : α} : entered r = .ok a ↔ r = .ok a := by
  rcases r with (_ | _ | _) | _ <;> simp [entered, Res.fail, Res.panic]

/-- The accounts of an instruction, which names them with one byte each. -/
abbrev Accounts := { infos : List AccountInfo // infos.length ≤ 255 }

/-- What the generated code calls, besides the programs a route calls. -/
structure Platform extends Runtime where
  /-- `Pubkey::create_program_address`; there is none for seeds that hash onto the curve. -/
  createProgramAddress : (seeds : List (List UInt8)) → (program : Pubkey) → Option Pubkey
  /-- The system program's calls for `init`: `create_account`, or `transfer`, `allocate` and `assign`
      where the address holds lamports already. -/
  createAccount : (payer newAccount : AccountInfo) → (space : Nat) → (owner : Pubkey) → SignerSeeds →
    Bank → Except UInt64 Bank
  /-- The IDL instructions. -/
  idlDispatch : Accounts → (data : List UInt8) → Bank → Except UInt64 Bank

variable (P : Platform)

/-- `Pubkey::find_program_address`: the first bump that derives an address, from 255 down to 1. -/
def findProgramAddress (seeds : List (List UInt8)) (program : Pubkey) : Option (Pubkey × UInt8) :=
  (List.range 255).findSome? fun i =>
    let bump := UInt8.ofNat (255 - i)
    (P.createProgramAddress (seeds ++ [[bump]]) program).map fun key => (key, bump)

/-! ## Taking accounts off the list -/

def nextAccount : Accounts → Entry (AccountInfo × Accounts)
  | ⟨[], _⟩           => Res.fail .accountNotEnoughKeys
  | ⟨info :: rest, h⟩ => .ok (info, ⟨rest, Nat.le_of_succ_le h⟩)

/-- `Signer`. -/
def nextSigner (accounts : Accounts) : Entry (AccountInfo × Accounts) := do
  let (info, accounts) ← nextAccount accounts
  Res.require (info.isSigner = true) .accountNotSigner
  return (info, accounts)

/-- `Program<'info, System>`. -/
def nextSystemProgram (accounts : Accounts) : Entry (AccountInfo × Accounts) := do
  let (info, accounts) ← nextAccount accounts
  Res.require (info.key = SYSTEM_PROGRAM_ID) .invalidProgramId
  return (info, accounts)

/-- The program's own address stands for an absent account. -/
def AccountInfo.optional (info : AccountInfo) :
    Option AccountInfo := if info.key = ID then none else some info

/-- `Option<AccountInfo>`. -/
def nextOption (accounts : Accounts) : Entry (Option AccountInfo × Accounts) := do
  let (info, accounts) ← nextAccount accounts
  return (info.optional, accounts)

namespace TitanPda

/-- The `bump` behind the discriminator, `try_deserialize_unchecked`. -/
def deserializeUnchecked (data : List UInt8) : Entry UInt8 := do
  let fields ← Res.slice data 8 data.length
  Res.orErr .accountDidNotDeserialize fields.head?

def checkOwner (a : Account) : Entry Unit := do
  Res.require (¬ (a.owner = SYSTEM_PROGRAM_ID ∧ a.lamports = 0)) .accountNotInitialized
  Res.require (a.owner = ID) .accountOwnedByWrongProgram

/-- `Account::try_from_unchecked`, on an account that was just opened. -/
def loadUnchecked (a : Account) : Entry UInt8 := do
  checkOwner a
  deserializeUnchecked a.data

/-- `Account<'info, TitanPda>`: an account of the program with the discriminator of a `TitanPda`. -/
def load (a : Account) : Entry UInt8 := do
  checkOwner a
  Res.require (8 ≤ a.data.length) .accountDiscriminatorNotFound
  Res.require (a.data.take 8 = DISCRIMINATOR) .accountDiscriminatorMismatch
  deserializeUnchecked a.data

end TitanPda

/-! ## `initialize` -/

/-- The account that `#[account(init, seeds = [TitanPda::SEED], bump,
    payer = payer)]` opens, and its bump. -/
def Initialize.initTitanPda (payer titanPda : AccountInfo) (bank : Bank) : Entry (UInt8 × Bank) := do
  let (pda, bump) ← Res.orPanic (findProgramAddress P [TitanPda.SEED] ID)
  Res.require (titanPda.key = pda) .constraintSeeds
  let bank ← entered (invoked
    (P.createAccount payer titanPda (8 + TitanPda.SIZE) ID [TitanPda.SEED, [bump]] bank))
  let _ ← TitanPda.loadUnchecked (bank titanPda.key)
  return (bump, bank)

/-- `initialize`: the accounts are checked, the TitanPDA is opened, and the handler's `bump` is written
    back with the discriminator in front. -/
def Initialize.process (accounts : Accounts) (bank : Bank) : Entry Bank := do
  let (payer, accounts) ← nextSigner accounts
  let (titanPda, accounts) ← nextAccount accounts
  let _ ← nextSystemProgram accounts
  let (bump, bank) ← Initialize.initTitanPda P payer titanPda bank
  Res.require (payer.isWritable = true) .constraintMut
  Res.require (titanPda.isWritable = true) .constraintMut
  let account := bank titanPda.key
  let data := TitanPda.serialize bump ++ account.data.drop (8 + TitanPda.SIZE)
  return Function.update bank titanPda.key { account with data := data }

/-! ## `swap_route_v3` -/

/-- The accounts of a route: the fields in the order of their declaration, then the constraints. -/
def SwapRouteV3.tryAccounts (accounts : Accounts) (bank : Bank) : Entry Ctx := do
  let (payer, accounts) ← nextSigner accounts
  let (user, accounts) ← nextSigner accounts
  let (titanPda, accounts) ← nextAccount accounts
  let bump ← TitanPda.load (bank titanPda.key)
  let (inputTokenAccount, accounts) ← nextAccount accounts
  let (outputTokenAccount, accounts) ← nextAccount accounts
  let (tokenProgram, accounts) ← nextAccount accounts
  let (token2022Program, accounts) ← nextAccount accounts
  let (systemProgram, accounts) ← nextSystemProgram accounts
  let (_associatedTokenProgram, accounts) ← nextAccount accounts
  let (tokenLedger, accounts) ← nextOption accounts
  let (_reserved0, accounts) ← nextOption accounts
  let (_reserved1, accounts) ← nextOption accounts
  Res.require (payer.isWritable = true) .constraintMut
  Res.require (user.isWritable = true) .constraintMut
  Res.require (P.createProgramAddress [TitanPda.SEED, [bump]] ID = some titanPda.key) .constraintSeeds
  Res.require (inputTokenAccount.isWritable = true) .constraintMut
  Res.require (outputTokenAccount.isWritable = true) .constraintMut
  return { payer, user, titanPda, bump, inputTokenAccount, outputTokenAccount, tokenProgram,
           token2022Program, systemProgram, tokenLedger, remainingAccounts := accounts.1,
           remaining_le := accounts.2 }

/-- `swap_route_v3`: bytes behind the arguments are not read, and no
    account of the declaration is written back. -/
def SwapRouteV3.process (accounts : Accounts) (args : List UInt8) (bank : Bank) : Entry Bank := do
  let ((amount, mints, swaps), _) ← Res.orErr .instructionDidNotDeserialize (swapRouteV3Args.decode args)
  let ctx ← SwapRouteV3.tryAccounts P accounts bank
  entered (execute P.toRuntime ctx amount mints swaps bank)

/-! ## The entry point -/

/-- **The program's entry**: the instruction whose discriminator the data starts with. -/
def process (accounts : Accounts) (data : List UInt8) (bank : Bank) : Entry Bank :=
  if Initialize.DISCRIMINATOR <+: data then Initialize.process P accounts bank
  else if SwapRouteV3.DISCRIMINATOR <+: data then
    SwapRouteV3.process P accounts (data.drop SwapRouteV3.DISCRIMINATOR.length) bank
  else if IDL_IX_TAG_LE <+: data then
    entered (invoked (P.idlDispatch accounts (data.drop IDL_IX_TAG_LE.length) bank))
  else if EVENT_IX_TAG_LE <+: data then Res.fail .eventInstructionStub
  else Res.fail .instructionFallbackNotFound

/-! ## What the checks let pass -/

section Checks

variable {P} {accounts rest : Accounts} {info : AccountInfo} {bank bank' : Bank} {ctx : Ctx}

@[simp] theorem nextAccount_eq_ok : nextAccount accounts = .ok (info, rest) ↔
    accounts.1 = info :: rest.1 := by
  obtain ⟨infos, h⟩ := accounts
  obtain ⟨infos', h'⟩ := rest
  cases infos with
  | nil => simp [nextAccount, Res.fail]
  | cons i is => simp [nextAccount]

@[simp] theorem nextSigner_eq_ok :
    nextSigner accounts = .ok (info, rest) ↔ accounts.1 = info :: rest.1 ∧ info.isSigner = true := by
  simp only [nextSigner, Except.bind_eq_ok, Res.require_eq_ok, Except.pure_eq_ok]
  constructor
  · rintro ⟨⟨_, _⟩, htake, _, hsigner, hpair⟩
    cases hpair
    exact ⟨nextAccount_eq_ok.mp htake, hsigner⟩
  · rintro ⟨htake, hsigner⟩
    exact ⟨(info, rest), nextAccount_eq_ok.mpr htake, (), hsigner, rfl⟩

@[simp] theorem nextSystemProgram_eq_ok :
    nextSystemProgram accounts = .ok (info, rest) ↔
      accounts.1 = info :: rest.1 ∧ info.key = SYSTEM_PROGRAM_ID := by
  simp only [nextSystemProgram, Except.bind_eq_ok, Res.require_eq_ok, Except.pure_eq_ok]
  constructor
  · rintro ⟨⟨_, _⟩, htake, _, hkey, hpair⟩
    cases hpair
    exact ⟨nextAccount_eq_ok.mp htake, hkey⟩
  · rintro ⟨htake, hkey⟩
    exact ⟨(info, rest), nextAccount_eq_ok.mpr htake, (), hkey, rfl⟩

@[simp] theorem nextOption_eq_ok {o : Option AccountInfo} :
    nextOption accounts = .ok (o, rest) ↔ ∃ info, accounts.1 = info :: rest.1 ∧ o = info.optional := by
  simp only [nextOption, Except.bind_eq_ok, Except.pure_eq_ok]
  constructor
  · rintro ⟨⟨info, _⟩, htake, hpair⟩
    cases hpair
    exact ⟨info, nextAccount_eq_ok.mp htake, rfl⟩
  · rintro ⟨info, htake, rfl⟩
    exact ⟨(info, rest), nextAccount_eq_ok.mpr htake, rfl⟩

/-- What passes for a TitanPDA: an account of the program with the discriminator and a bump behind it. -/
structure TitanPda.Stored (a : Account) (bump : UInt8) : Prop where
  owner : a.owner = ID
  discriminator : a.data.take 8 = TitanPda.DISCRIMINATOR
  bump : a.data[8]? = some bump

theorem TitanPda.load_eq_ok {a : Account} {bump : UInt8} :
    TitanPda.load a = .ok bump ↔ TitanPda.Stored a bump := by
  have hne : ID ≠ SYSTEM_PROGRAM_ID := by decide
  simp only [TitanPda.load, TitanPda.checkOwner, TitanPda.deserializeUnchecked, Except.bind_eq_ok,
    Res.require_eq_ok, Res.slice_eq_ok, Res.orErr_eq_ok]
  constructor
  · rintro ⟨_, ⟨_, -, howner⟩, _, -, _, hdisc, fields, ⟨-, rfl⟩, hbump⟩
    refine ⟨howner, hdisc, ?_⟩
    have hlen : (a.data.drop 8).length = a.data.length - 8 := List.length_drop
    rwa [← hlen, List.take_length, List.head?_drop] at hbump
  · rintro ⟨howner, hdisc, hbump⟩
    have hlen : 8 < a.data.length := (List.getElem?_eq_some_iff.mp hbump).1
    refine ⟨(), ⟨(), ?_, howner⟩, (), Nat.le_of_lt hlen, (), hdisc, _,
      ⟨⟨Nat.le_of_lt hlen, le_rfl⟩, rfl⟩, ?_⟩
    · rintro ⟨hsystem, -⟩
      exact hne (howner.symm.trans hsystem)
    · have hlen' : (a.data.drop 8).length = a.data.length - 8 := List.length_drop
      rwa [← hlen', List.take_length, List.head?_drop]

/-- The accounts that `swap_route_v3` accepts, and the context it makes of them. -/
structure SwapRouteV3.Accepts (P : Platform) (accounts : Accounts) (bank : Bank) (ctx : Ctx) : Prop where
  layout : ∃ associatedTokenProgram ledger reserved0 reserved1,
    accounts.1 = ctx.payer :: ctx.user :: ctx.titanPda :: ctx.inputTokenAccount ::
      ctx.outputTokenAccount :: ctx.tokenProgram :: ctx.token2022Program :: ctx.systemProgram ::
        associatedTokenProgram :: ledger ::
      reserved0 :: reserved1 :: ctx.remainingAccounts ∧ ctx.tokenLedger = ledger.optional
  signers : ctx.payer.isSigner = true ∧ ctx.user.isSigner = true
  payers : ctx.payer.isWritable = true ∧ ctx.user.isWritable = true
  tokenAccounts : ctx.inputTokenAccount.isWritable = true ∧ ctx.outputTokenAccount.isWritable = true
  systemProgram : ctx.systemProgram.key = SYSTEM_PROGRAM_ID
  stored : TitanPda.Stored (bank ctx.titanPda.key) ctx.bump
  derived : P.createProgramAddress (signerSeeds ctx) ID = some ctx.titanPda.key

/-- The generated checks accept exactly these. -/
theorem SwapRouteV3.tryAccounts_eq_ok :
    SwapRouteV3.tryAccounts P accounts bank = .ok ctx ↔ SwapRouteV3.Accepts P accounts bank ctx := by
  constructor
  · intro h
    simp only [SwapRouteV3.tryAccounts, Except.bind_eq_ok, Res.require_eq_ok, Except.pure_eq_ok,
      Prod.exists, nextSigner_eq_ok, nextAccount_eq_ok, nextSystemProgram_eq_ok, nextOption_eq_ok,
      TitanPda.load_eq_ok] at h
    obtain ⟨payer, a₁, ⟨h₁, hpayer⟩, user, a₂, ⟨h₂, huser⟩, titanPda, a₃, h₃, bump, hstored, input, a₄,
      h₄, output, a₅, h₅, tokenProgram, a₆, h₆, token2022, a₇, h₇, system, a₈, ⟨h₈, hsystem⟩, ata, a₉,
      h₉, ledger, a₁₀, ⟨l, h₁₀, rfl⟩, _, a₁₁, ⟨r₀, h₁₁, rfl⟩, _, a₁₂, ⟨r₁, h₁₂, rfl⟩, _, hpayerMut, _,
      huserMut, _, hderived, _, hinput, _, houtput, rfl⟩ := h
    refine ⟨⟨ata, l, r₀, r₁, ?_, rfl⟩, ⟨hpayer, huser⟩, ⟨hpayerMut, huserMut⟩, ⟨hinput, houtput⟩,
      hsystem, hstored, hderived⟩
    rw [h₁, h₂, h₃, h₄, h₅, h₆, h₇, h₈, h₉, h₁₀, h₁₁, h₁₂]
  · rintro ⟨⟨ata, l, r₀, r₁, hlist, hledger⟩, ⟨hpayer, huser⟩, ⟨hpayerMut, huserMut⟩, ⟨hinput, houtput⟩,
      hsystem, hstored, hderived⟩
    obtain ⟨infos, hle⟩ := accounts
    obtain rfl := hlist
    have hload := TitanPda.load_eq_ok.mpr hstored
    -- the checks are run on the list as it stands
    simp only [SwapRouteV3.tryAccounts, nextSigner, nextAccount, nextSystemProgram, nextOption,
      Except.ok_bind, hload, Res.require, hpayer, huser, hsystem, hpayerMut, huserMut, hinput, houtput,
      ← hledger, if_true, pure, Except.pure]
    rw [if_pos (show P.createProgramAddress [TitanPda.SEED, [ctx.bump]] ID =
      some ctx.titanPda.key from hderived)]
    rfl

/-- The bump that is found derives the address that is found. -/
theorem findProgramAddress_derives {seeds : List (List UInt8)} {program key : Pubkey} {bump : UInt8}
    (h : findProgramAddress P seeds program = some (key, bump)) :
    P.createProgramAddress (seeds ++ [[bump]]) program = some key := by
  unfold findProgramAddress at h
  obtain ⟨i, -, hi⟩ := List.exists_of_findSome?_eq_some h
  obtain ⟨key', hkey, hpair⟩ := Option.map_eq_some_iff.mp hi
  obtain ⟨rfl, rfl⟩ := Prod.mk.inj hpair
  exact hkey

/-- What a successful `initialize` does: it opens the account of the
    canonical address, and writes its bump. -/
theorem Initialize.process_cases (h : Initialize.process P accounts bank = .ok bank') :
    ∃ payer titanPda bump b₁, findProgramAddress P [TitanPda.SEED] ID = some (titanPda.key, bump) ∧
      P.createAccount payer titanPda (8 + TitanPda.SIZE) ID [TitanPda.SEED, [bump]] bank = .ok b₁ ∧
      bank' = Function.update b₁ titanPda.key { b₁ titanPda.key with
        data := TitanPda.serialize bump ++ (b₁ titanPda.key).data.drop (8 + TitanPda.SIZE) } := by
  simp only [Initialize.process, Initialize.initTitanPda, Except.bind_eq_ok, Res.require_eq_ok,
    Res.orPanic_eq_ok, Except.pure_eq_ok, Prod.exists, entered_eq_ok, invoked_eq_ok, Prod.mk.injEq] at h
  obtain ⟨payer, _, -, titanPda, _, -, _, _, -, bump, b₁, ⟨pda, _, hfind, _, rfl, _, hcreate, _, -, rfl,
    rfl⟩, _, -, _, -, rfl⟩ := h
  exact ⟨payer, titanPda, _, _, hfind, hcreate, rfl⟩

/-- **What the program can do**: initialise, run a route whose accounts it accepted, or carry out an IDL
    instruction. -/
theorem process_cases {data : List UInt8} (h : process P accounts data bank = .ok bank') :
    (Initialize.DISCRIMINATOR <+: data ∧ Initialize.process P accounts bank = .ok bank') ∨
    (SwapRouteV3.DISCRIMINATOR <+: data ∧ ∃ ctx amount mints swaps,
      SwapRouteV3.Accepts P accounts bank ctx ∧
      execute P.toRuntime ctx amount mints swaps bank = .ok bank') ∨
    (IDL_IX_TAG_LE <+: data ∧
      P.idlDispatch accounts (data.drop IDL_IX_TAG_LE.length) bank = .ok bank') := by
  unfold process at h
  split at h
  next hinit => exact Or.inl ⟨hinit, h⟩
  split at h
  next hroute =>
    simp only [SwapRouteV3.process, Except.bind_eq_ok, entered_eq_ok, Prod.exists,
      SwapRouteV3.tryAccounts_eq_ok] at h
    obtain ⟨amount, mints, swaps, _, -, ctx, haccepts, hrun⟩ := h
    exact Or.inr (Or.inl ⟨hroute, ctx, amount, mints, swaps, haccepts, hrun⟩)
  split at h
  next hidl =>
    rw [entered_eq_ok, invoked_eq_ok] at h
    exact Or.inr (Or.inr ⟨hidl, h⟩)
  split at h
  · cases h
  · cases h

end Checks

end ByrealTitan.Program
