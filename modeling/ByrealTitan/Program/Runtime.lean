import ByrealTitan.Base.Instruction
import ByrealTitan.Lib.Fault
import ByrealTitan.Lib.LittleEndian
import ByrealTitan.Program.State

/-!
# `Program.Runtime` — what the route program runs on

The program moves tokens only through other programs. `Bank` is the state it reads, and `Runtime` gathers
the calls it makes: the SPL token programs (one `TokenInstruction` a call), the associated-token and
system programs, and `invoke_signed` for the venue programs. None of these is part of the repository, so
they are parameters; a call takes the bank it starts from and returns the bank it leaves, or the error it
fails with. A failing call aborts the transaction, so no state survives an error.
-/

namespace ByrealTitan.Program

open LittleEndian

/-- The accounts of the transaction, by address. -/
abbrev Bank := Pubkey → Account

/-- An account as the transaction passes it: the privileges are the transaction's, the content is read
    from the bank. -/
structure AccountInfo where
  key : Pubkey
  isSigner : Bool
  isWritable : Bool
deriving DecidableEq

/-- `RouteError`. -/
inductive RouteError where
  | invalidSwapInput
  | missingRemainingAccount
  | invalidAccountData
  | reservedBalanceViolation
deriving DecidableEq

/-- An error of the route program, or the code an invoked program failed with. -/
inductive ProgramError where
  | route (e : RouteError)
  | invoked (code : UInt64)
deriving DecidableEq

abbrev Exec (α : Type) := Res ProgramError α

/-- The seeds that let the program sign for the TitanPDA. -/
abbrev SignerSeeds := List (List UInt8)

/-- The authorities `set_authority` can replace. -/
inductive AuthorityType where
  | mintTokens
  | freezeAccount
  | accountOwner
  | closeAccount
deriving DecidableEq

/-- The instructions of the SPL token programs; `other` stands for those that neither move tokens nor
    touch the authorities of an initialised account. -/
inductive TokenInstruction where
  | transfer (source dest authority : Pubkey) (amount : UInt64)
  | transferChecked (source mint dest authority : Pubkey) (amount : UInt64) (decimals : UInt8)
  | approve (account delegate authority : Pubkey) (amount : UInt64)
  | revoke (account authority : Pubkey)
  | setAuthority (account authority : Pubkey) (authorityType : AuthorityType)
      (newAuthority : Option Pubkey)
  | mintTo (mint account authority : Pubkey) (amount : UInt64)
  | burn (account mint authority : Pubkey) (amount : UInt64)
  | closeAccount (account destination authority : Pubkey)
  | syncNative (account : Pubkey)
  | other (accounts : List Pubkey) (data : List UInt8)
deriving DecidableEq

/-- The programs a route calls. -/
structure Runtime where
  /-- `spl_token::ID`. -/
  SPL_TOKEN_ID : Pubkey
  /-- `anchor_spl::token_2022::ID`. -/
  TOKEN_PROGRAM_2022_ID : Pubkey
  /-- `spl_token::native_mint::ID`. -/
  NATIVE_MINT_ID : Pubkey
  /-- A token instruction, invoked on a token program with these accounts and seeds. -/
  invokeToken : (tokenProgram : Pubkey) → TokenInstruction → List AccountInfo → SignerSeeds →
    Bank → Except UInt64 Bank
  /-- `create_associated_token_account_idempotent`, invoked with `ata` among its accounts. -/
  createAssociatedTokenAccountIdempotent :
    (payer owner mint ata tokenProgram systemProgram : AccountInfo) → Bank → Except UInt64 Bank
  /-- `system_instruction::transfer`. -/
  systemTransfer : (source dest : AccountInfo) → (amount : UInt64) → Bank → Except UInt64 Bank
  /-- `invoke_signed` of any other program. -/
  invokeSigned : Instruction → List AccountInfo → SignerSeeds → Bank → Except UInt64 Bank

/-- A cross-program invocation: its error becomes the route's error. -/
def invoked {α : Type} (r : Except UInt64 α) : Exec α :=
  match r with
  | .ok a       => .ok a
  | .error code => .error (.err (.invoked code))

@[simp] theorem invoked_eq_ok {α : Type} {r : Except UInt64 α} {a : α} :
    invoked r = .ok a ↔ r = .ok a := by
  cases r with
  | error code => simp [invoked]
  | ok b => simp [invoked]

/-- The accounts of one `swap_route_v3` instruction. The two reserved optional accounts and the
    associated token program are never read. -/
structure Ctx where
  payer : AccountInfo
  user : AccountInfo
  titanPda : AccountInfo
  /-- The `bump` stored in the TitanPDA account. -/
  bump : UInt8
  inputTokenAccount : AccountInfo
  outputTokenAccount : AccountInfo
  tokenProgram : AccountInfo
  token2022Program : AccountInfo
  systemProgram : AccountInfo
  tokenLedger : Option AccountInfo
  remainingAccounts : List AccountInfo
  /-- An instruction names its accounts with one byte each. -/
  remaining_le : remainingAccounts.length ≤ 255

/-! ## Reading token accounts -/

/-- `account.lamports() > 0 && account.data_len() > 0`. -/
def accountExists (a : Account) : Bool := decide (0 < a.lamports) && decide (0 < a.data.length)

/-- `data.get(a..b)`. -/
def bytesAt (data : List UInt8) (a b : Nat) : Option (List UInt8) :=
  if b ≤ data.length then some ((data.drop a).take (b - a)) else none

/-- `extract_token_amount`. -/
def extractTokenAmount (a : Account) : Exec UInt64 := do
  let slice ← Res.orErr (.route .invalidAccountData) (bytesAt a.data 64 72)
  return UInt64.ofNat (leNat slice)

/-- `extract_token_owner`. -/
def extractTokenOwner (a : Account) : Exec Pubkey := do
  let slice ← Res.orErr (.route .invalidAccountData) (bytesAt a.data 32 64)
  Res.orErr (.route .invalidAccountData) (Pubkey.ofSlice slice)

/-- `extract_mint_decimals`. -/
def extractMintDecimals (a : Account) : Exec UInt8 :=
  Res.orErr (.route .invalidAccountData) a.data[44]?

/-- `is_titan_pda_token_account`. -/
def isTitanPdaTokenAccount (R : Runtime) (a : Account) (expectedAuthority : Pubkey) : Bool :=
  if a.owner ≠ R.SPL_TOKEN_ID ∧ a.owner ≠ R.TOKEN_PROGRAM_2022_ID then false
  else if a.data.length < 165 then false
  else
    match extractTokenOwner a with
    | .ok owner => decide (owner = expectedAuthority)
    | .error _  => false

/-- `extract_token_amount(..).unwrap_or(0)`. -/
def tokenAmountOrZero (a : Account) : UInt64 :=
  match extractTokenAmount a with
  | .ok amount => amount
  | .error _   => 0

/-- The same as a number, the way balances are compared and added. -/
def tokenBalance (a : Account) : Nat := (tokenAmountOrZero a).toNat

theorem tokenBalance_of_extract {a : Account} {n : UInt64} (h : extractTokenAmount a = .ok n) :
    tokenBalance a = n.toNat := by
  simp only [tokenBalance, tokenAmountOrZero, h]

/-- An account without data reads as zero. -/
theorem tokenAmountOrZero_of_nil {a : Account} (h : a.data = []) : tokenAmountOrZero a = 0 := by
  simp only [tokenAmountOrZero, extractTokenAmount, h]
  rfl

theorem tokenBalance_of_nil {a : Account} (h : a.data = []) : tokenBalance a = 0 := by
  rw [tokenBalance, tokenAmountOrZero_of_nil h]
  rfl

theorem tokenBalance_lt (a : Account) : tokenBalance a < 2 ^ 64 := (tokenAmountOrZero a).toNat_lt

end ByrealTitan.Program
