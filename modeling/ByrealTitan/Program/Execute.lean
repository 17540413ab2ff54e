import ByrealTitan.Program.Runtime

/-!
# `Program.Execute` — `SwapRouteV3::execute` (`program/.../src/instructions/swap_route_v3.rs`)

The route runs in the order of the source: validation, ledger, ATA creation and the snapshot of every
TitanPDA balance (`prepare`), then the deposit, the legs, the payout and the closing of created ATAs
(`trade`), and last the comparison of every recorded balance (`finalCheck`). Each stage takes the bank it
finds and returns the bank it leaves. `usize` sums that a loop accumulates are checked additions; the
other sums are of two byte-sized numbers.
-/

namespace ByrealTitan.Program

open LittleEndian

variable (R : Runtime) (ctx : Ctx)

/-! ## Helpers of the source -/

/-- `ctx.remaining_accounts.get(i).ok_or(MissingRemainingAccount)?`. -/
def remainingAccount (i : Nat) : Exec AccountInfo :=
  Res.orErr (.route .missingRemainingAccount) ctx.remainingAccounts[i]?

/-- The program's seeds, `[SEED, &[bump]]`. -/
def signerSeeds : SignerSeeds := [TitanPda.SEED, [ctx.bump]]

def readTokenLedger (bank : Bank) : Exec (Option UInt64) :=
  match ctx.tokenLedger with
  | none => .ok none
  | some ledgerAccount => do
      let data := (bank ledgerAccount.key).data
      Res.require (48 ≤ data.length) (.route .invalidAccountData)
      let tokenAccountSlice ← Res.orErr (.route .invalidAccountData) (bytesAt data 8 40)
      let tokenAccount ← Res.orErr (.route .invalidAccountData) (Pubkey.ofSlice tokenAccountSlice)
      Res.require (tokenAccount = ctx.inputTokenAccount.key) (.route .invalidAccountData)
      let amountSlice ← Res.orErr (.route .invalidAccountData) (bytesAt data 40 48)
      return some (UInt64.ofNat (leNat amountSlice))

def getTokenProgramForMint (bank : Bank) (mint : AccountInfo) : AccountInfo :=
  if (bank mint.key).owner = R.TOKEN_PROGRAM_2022_ID then ctx.token2022Program else ctx.tokenProgram

def transferTokens (tokenProgram source dest authority : AccountInfo) (mint : Option AccountInfo)
    (amount : UInt64) (decimals : UInt8) (seeds : SignerSeeds) (bank : Bank) : Exec Bank :=
  if amount = 0 then .ok bank
  else if tokenProgram.key = R.TOKEN_PROGRAM_2022_ID then do
    let mint ← Res.orErr (.route .missingRemainingAccount) mint
    let ix := .transferChecked source.key mint.key dest.key authority.key amount decimals
    invoked (R.invokeToken tokenProgram.key ix [source, mint, dest, authority] seeds bank)
  else
    -- `anchor_spl::token::transfer` always names `spl_token::ID`
    let ix := .transfer source.key dest.key authority.key amount
    invoked (R.invokeToken R.SPL_TOKEN_ID ix [source, dest, authority] seeds bank)

def createTitanPdaAta (mint ata tokenProgram : AccountInfo) (bank : Bank) : Exec Bank :=
  invoked (R.createAssociatedTokenAccountIdempotent ctx.payer ctx.titanPda mint ata tokenProgram
    ctx.systemProgram bank)

def createUserAta (mint ata tokenProgram : AccountInfo) (bank : Bank) : Exec Bank :=
  invoked (R.createAssociatedTokenAccountIdempotent ctx.payer ctx.user mint ata tokenProgram
    ctx.systemProgram bank)

def closeTitanPdaAta (ata tokenProgram : AccountInfo) (bank : Bank) : Exec Bank :=
  let ix := .closeAccount ata.key ctx.payer.key ctx.titanPda.key
  invoked (R.invokeToken tokenProgram.key ix [ata, ctx.payer, ctx.titanPda] (signerSeeds ctx) bank)

/-- `close_token_account`, as the deposit calls it: on the user's input account, without seeds. -/
def closeTokenAccount (tokenProgram : AccountInfo) (bank : Bank) : Exec Bank :=
  let ix := .closeAccount ctx.inputTokenAccount.key ctx.payer.key ctx.user.key
  invoked (R.invokeToken tokenProgram.key ix [ctx.inputTokenAccount, ctx.payer, ctx.user] [] bank)

def transferSolAndSync (source wsolAta tokenProgram : AccountInfo) (amount : UInt64) (bank : Bank) :
    Exec Bank :=
  if amount = 0 then .ok bank
  else do
    let bank ← invoked (R.systemTransfer source wsolAta amount bank)
    invoked (R.invokeToken tokenProgram.key (.syncNative wsolAta.key) [wsolAta] [] bank)

/-- Whether the call created the wrapped-SOL input account, and the bank after funding it. -/
def setupWsolInputAccount (mint tokenProgram : AccountInfo) (amount : UInt64) (bank : Bank) :
    Exec (Bool × Bank) :=
  let wsolAta := ctx.inputTokenAccount
  if accountExists (bank wsolAta.key) then do
    let currentBalance ← extractTokenAmount (bank wsolAta.key)
    if currentBalance < amount then
      let deficit ← Res.checkedSub amount.toNat currentBalance.toNat
      let bank ← transferSolAndSync R ctx.user wsolAta tokenProgram (UInt64.ofNat deficit) bank
      return (false, bank)
    else
      return (false, bank)
  else do
    let bank ← createUserAta R ctx mint wsolAta tokenProgram bank
    let bank ← transferSolAndSync R ctx.user wsolAta tokenProgram amount bank
    return (true, bank)

def isNativeMint (mint : AccountInfo) : Bool := decide (mint.key = R.NATIVE_MINT_ID)

/-- `u64::saturating_sub`. -/
def saturatingSub (a b : UInt64) : UInt64 := if b ≤ a then a - b else 0

/-! ## The TitanPDA bitmap -/

structure TitanPdaBitmap where
  bits : Vector (BitVec 64) 4

namespace TitanPdaBitmap

def new : TitanPdaBitmap := ⟨Vector.replicate 4 0⟩

def set (b : TitanPdaBitmap) (index : Nat) : TitanPdaBitmap :=
  if h : index < 256 then
    ⟨b.bits.set (index / 64) (b.bits[index / 64] ||| 1#64 <<< (index % 64))⟩
  else b

def isSet (b : TitanPdaBitmap) (index : Nat) : Bool :=
  if h : index < 256 then decide (b.bits[index / 64] &&& 1#64 <<< (index % 64) ≠ 0#64) else false

end TitanPdaBitmap

/-! ## Validation, ATA creation and the snapshot -/

def validate (mints : UInt8) (swaps : List SwapSpecInputV2) : Exec Unit := do
  Res.require (1 < mints ∧ swaps ≠ []) (.route .invalidSwapInput)
  Res.require (swaps.length ≤ MAX_SWAPS) (.route .invalidSwapInput)
  Res.require (mints.toNat ≤ MAX_MINTS) (.route .invalidSwapInput)
  Res.require (2 * mints.toNat ≤ ctx.remainingAccounts.length) (.route .missingRemainingAccount)
  let first ← Res.orPanic swaps[0]?
  Res.require (first.fromIdx = 0) (.route .invalidSwapInput)
  swaps.forM fun swap =>
    Res.require (swap.fromIdx < mints ∧ swap.toIdx < mints) (.route .invalidSwapInput)

/-- `1 << i` on a `u16`, which panics from 16 on. -/
def shl16 (i : Nat) : Exec (BitVec 16) := if i < 16 then .ok (1#16 <<< i) else Res.panic

/-- One turn of the creation loop; the mask remembers which ATAs the route created. -/
def createAtaStep (mintsCount : Nat) (st : BitVec 16 × Bank) (i : Nat) : Exec (BitVec 16 × Bank) := do
  let ata ← remainingAccount ctx i
  if accountExists (st.2 ata.key) then return st
  else
    let mintAccount ← remainingAccount ctx (mintsCount + i)
    let tokenProgram := getTokenProgramForMint R ctx st.2 mintAccount
    let bank ← createTitanPdaAta R ctx mintAccount ata tokenProgram st.2
    let bit ← shl16 i
    return (st.1 ||| bit, bank)

def createAtas (mintsCount : Nat) (bank : Bank) : Exec (BitVec 16 × Bank) :=
  (List.range mintsCount).foldlM (createAtaStep R ctx mintsCount) (0#16, bank)

/-- What the route remembers of the TitanPDA balances before it touches any of them. -/
structure Snapshot where
  bitmap : TitanPdaBitmap
  balances : List UInt64
  reserved : Vector UInt64 MAX_MINTS

def Snapshot.empty : Snapshot := ⟨TitanPdaBitmap.new, [], Vector.replicate MAX_MINTS 0⟩

/-- `reserved_balances[i] = balance`. -/
def setReserved (reserved : Vector UInt64 MAX_MINTS) (i : Nat) (balance : UInt64) :
    Exec (Vector UInt64 MAX_MINTS) :=
  if h : i < MAX_MINTS then .ok (reserved.set i balance) else Res.panic

def snapshotStep (mintsCount : Nat) (bank : Bank) (snap : Snapshot) (entry : AccountInfo × Nat) :
    Exec Snapshot := do
  let (account, i) := entry
  if i < mintsCount then
    Res.require (isTitanPdaTokenAccount R (bank account.key) ctx.titanPda.key)
      (.route .invalidAccountData)
    let balance ← extractTokenAmount (bank account.key)
    let reserved ← setReserved snap.reserved i balance
    return ⟨snap.bitmap.set i, snap.balances ++ [balance], reserved⟩
  else if isTitanPdaTokenAccount R (bank account.key) ctx.titanPda.key then
    let balance ← extractTokenAmount (bank account.key)
    return { snap with bitmap := snap.bitmap.set i, balances := snap.balances ++ [balance] }
  else
    return snap

def takeSnapshot (mintsCount : Nat) (bank : Bank) : Exec Snapshot :=
  ctx.remainingAccounts.zipIdx.foldlM (snapshotStep R ctx mintsCount bank) Snapshot.empty

/-- The amount to deposit: what the user's account gained over the ledger, or the argument. -/
def depositAmount (bank : Bank) (ledgerAmount : Option UInt64) (amount : UInt64) : Exec UInt64 :=
  match ledgerAmount with
  | some stored => do
      let current ← extractTokenAmount (bank ctx.inputTokenAccount.key)
      Res.require (stored ≤ current) (.route .invalidAccountData)
      let delta := current - stored
      Res.require (0 < delta) (.route .invalidAccountData)
      return delta
  | none => .ok amount

/-- What the route knows once its balances are recorded; `bank` is the state they were read from. -/
structure Prepared where
  mintsCount : Nat
  ledgerAmount : Option UInt64
  inputMint : AccountInfo
  inputMintDecimals : UInt8
  outputAtaIndex : Nat
  outputMint : AccountInfo
  outputMintDecimals : UInt8
  createdAtas : BitVec 16
  snapshot : Snapshot
  effectiveAmount : UInt64
  bank : Bank

def prepare (amount : UInt64) (mints : UInt8) (swaps : List SwapSpecInputV2) (bank : Bank) :
    Exec Prepared := do
  validate ctx mints swaps
  let mintsCount := mints.toNat
  let ledgerAmount ← readTokenLedger ctx bank
  let inputMint ← remainingAccount ctx mintsCount
  let last ← Res.orPanic swaps[swaps.length - 1]?
  let outputAtaIndex := last.toIdx.toNat
  let outputMint ← remainingAccount ctx (mintsCount + outputAtaIndex)
  let inputMintDecimals ← extractMintDecimals (bank inputMint.key)
  let outputMintDecimals ← extractMintDecimals (bank outputMint.key)
  let (createdAtas, bank) ← createAtas R ctx mintsCount bank
  let snapshot ← takeSnapshot R ctx mintsCount bank
  let effectiveAmount ← depositAmount ctx bank ledgerAmount amount
  return { mintsCount, ledgerAmount, inputMint, inputMintDecimals, outputAtaIndex, outputMint,
           outputMintDecimals, createdAtas, snapshot, effectiveAmount, bank }

/-! ## Deposit -/

/-- `created_wsol_input` and its assignment: only a native input without a ledger is set up. -/
def setupInput (p : Prepared) (tokenProgram : AccountInfo) : Exec (Bool × Bank) :=
  if p.ledgerAmount.isNone && isNativeMint R p.inputMint then
    setupWsolInputAccount R ctx p.inputMint tokenProgram p.effectiveAmount p.bank
  else .ok (false, p.bank)

def deposit (p : Prepared) : Exec Bank := do
  let firstTitanPdaAta ← remainingAccount ctx 0
  let tokenProgram := getTokenProgramForMint R ctx p.bank p.inputMint
  let (createdWsolInput, bank) ← setupInput R ctx p tokenProgram
  let bank ← transferTokens R tokenProgram ctx.inputTokenAccount firstTitanPdaAta ctx.user
    (some p.inputMint) p.effectiveAmount p.inputMintDecimals [] bank
  if createdWsolInput then closeTokenAccount R ctx tokenProgram bank else .ok bank

/-! ## Legs -/

/-- `SWAP_V3_DYN_DISCRIMINATOR`. -/
def SWAP_V3_DYN_DISCRIMINATOR : List UInt8 := [229, 46, 213, 132, 105, 40, 40, 228]

/-- `swap_v3_dyn`: the amount, no threshold, no price limit, exact input. -/
def swapV3Dyn (venueProgramId : Pubkey) (amountIn : UInt64) (accountMetas : List AccountMeta) :
    List Instruction :=
  [{ programId := venueProgramId
     accounts := accountMetas
     data := SWAP_V3_DYN_DISCRIMINATOR ++ leBytes 8 amountIn.toNat ++ leBytes 8 0 ++ leBytes 16 0
               ++ [1] }]

def performCpiSwap (amount : UInt64) (swap : SwapSpecInputV2) (accountMetas : List AccountMeta)
    (accountInfos : List AccountInfo) (bank : Bank) : Exec Bank := do
  let venueProgram ← Res.orErr (.route .missingRemainingAccount) accountInfos.getLast?
  let instructions := match swap.venue with
    | .byrealClmm _ => swapV3Dyn venueProgram.key amount accountMetas
  instructions.foldlM
    (fun bank instruction => invoked (R.invokeSigned instruction accountInfos (signerSeeds ctx) bank))
    bank

/-- The share of the available balance a leg spends. The product saturates at `u128`, and the quotient
    is cut to `u64`. -/
def weightedAmount (availableBalance : UInt64) (weightNanos : UInt32) : UInt64 :=
  let weight := min weightNanos.toNat 1000000000
  UInt64.ofNat (min (availableBalance.toNat * weight) (2 ^ 128 - 1) / 1000000000)

/-- The `input_amount` of a leg. -/
def legInputAmount (reserved : Vector UInt64 MAX_MINTS) (bank : Bank) (swap : SwapSpecInputV2) :
    Exec UInt64 := do
  let inputTokenAccount ← remainingAccount ctx swap.fromIdx.toNat
  let inputTokenBalance ← extractTokenAmount (bank inputTokenAccount.key)
  let reservedBalance ← Res.orPanic reserved[swap.fromIdx.toNat]?
  return weightedAmount (saturatingSub inputTokenBalance reservedBalance) swap.weightNanos

/-- The account of a leg as the CPI asks for it: the TitanPDA signs. -/
def legAccountMeta (account : AccountInfo) : AccountMeta :=
  { pubkey := account.key
    isSigner := decide (account.key = ctx.titanPda.key) || account.isSigner
    isWritable := account.isWritable }

/-- The `accountIncrement` accounts of a leg from `start` on, handed to the venue program named last. -/
def legCpi (inputAmount : UInt64) (swap : SwapSpecInputV2) (start accountIncrement : Nat)
    (bank : Bank) : Exec Bank :=
  if 0 < inputAmount then do
    let stop ← Res.checkedAdd 64 start accountIncrement
    let legAccounts ← Res.slice ctx.remainingAccounts start stop
    let metaCount ← Res.checkedSub accountIncrement 1
    let metaAccounts ← Res.slice legAccounts 0 metaCount
    performCpiSwap R ctx inputAmount swap (metaAccounts.map (legAccountMeta ctx)) legAccounts bank
  else .ok bank

structure RouteState where
  remainingAccountIndex : Nat
  bank : Bank

def legStep (reserved : Vector UInt64 MAX_MINTS) (st : RouteState) (swap : SwapSpecInputV2) :
    Exec RouteState := do
  let accountIncrement := swap.nAccounts.toNat
  Res.require (0 < accountIncrement) (.route .invalidSwapInput)
  let stop ← Res.checkedAdd 64 st.remainingAccountIndex accountIncrement
  Res.require (stop ≤ ctx.remainingAccounts.length) (.route .missingRemainingAccount)
  let inputAmount ← legInputAmount ctx reserved st.bank swap
  let bank ← legCpi R ctx inputAmount swap st.remainingAccountIndex accountIncrement st.bank
  return ⟨stop, bank⟩

/-- The leg loop, from the first account behind the ATAs and mints. -/
def runLegs (p : Prepared) (swaps : List SwapSpecInputV2) (bank : Bank) : Exec RouteState :=
  swaps.foldlM (legStep R ctx p.snapshot.reserved) ⟨2 * p.mintsCount, bank⟩

/-! ## Payout, closing and the final check -/

/-- The user's output account is created where it does not exist. -/
def openOutput (p : Prepared) (tokenProgram : AccountInfo) (bank : Bank) : Exec Bank :=
  if accountExists (bank ctx.outputTokenAccount.key) then .ok bank
  else createUserAta R ctx p.outputMint ctx.outputTokenAccount tokenProgram bank

def payout (p : Prepared) (bank : Bank) : Exec Bank := do
  let titanPdaOutputTokenAccount ← remainingAccount ctx p.outputAtaIndex
  let rawOutputBalance ← extractTokenAmount (bank titanPdaOutputTokenAccount.key)
  let reservedBalance ← Res.orPanic p.snapshot.reserved[p.outputAtaIndex]?
  let userOutput := saturatingSub rawOutputBalance reservedBalance
  let tokenProgram := getTokenProgramForMint R ctx bank p.outputMint
  let bank ← openOutput R ctx p tokenProgram bank
  transferTokens R tokenProgram titanPdaOutputTokenAccount ctx.outputTokenAccount ctx.titanPda
    (some p.outputMint) userOutput p.outputMintDecimals (signerSeeds ctx) bank

def closeStep (p : Prepared) (bank : Bank) (ataIndex : Nat) : Exec Bank := do
  let bit ← shl16 ataIndex
  if p.createdAtas &&& bit = 0#16 then return bank
  else
    let ata ← remainingAccount ctx ataIndex
    if 0 < tokenAmountOrZero (bank ata.key) then return bank
    else
      let mint ← remainingAccount ctx (p.mintsCount + ataIndex)
      let tokenProgram := getTokenProgramForMint R ctx bank mint
      closeTitanPdaAta R ctx ata tokenProgram bank

def closeCreatedAtas (p : Prepared) (bank : Bank) : Exec Bank :=
  (List.range p.mintsCount).foldlM (closeStep R ctx p) bank

/-- One turn of the last loop; the state is the running index into the recorded balances. -/
def finalCheckStep (snap : Snapshot) (bank : Bank) (balanceIdx : Nat) (entry : AccountInfo × Nat) :
    Exec Nat := do
  let (account, i) := entry
  if snap.bitmap.isSet i then
    let finalBalance := tokenAmountOrZero (bank account.key)
    let recorded ← Res.orPanic snap.balances[balanceIdx]?
    Res.require (recorded ≤ finalBalance) (.route .reservedBalanceViolation)
    Res.checkedAdd 64 balanceIdx 1
  else
    return balanceIdx

def finalCheck (snap : Snapshot) (bank : Bank) : Exec Nat :=
  ctx.remainingAccounts.zipIdx.foldlM (finalCheckStep snap bank) 0

/-- Everything between the snapshot and the final check. -/
def trade (p : Prepared) (swaps : List SwapSpecInputV2) : Exec Bank := do
  let bank ← deposit R ctx p
  let st ← runLegs R ctx p swaps bank
  let bank ← payout R ctx p st.bank
  closeCreatedAtas R ctx p bank

/-- **`SwapRouteV3::execute`**, from the bank before the instruction to the bank after it. -/
def execute (amount : UInt64) (mints : UInt8) (swaps : List SwapSpecInputV2) (bank : Bank) :
    Exec Bank := do
  let p ← prepare R ctx amount mints swaps bank
  let bank ← trade R ctx p swaps
  let _ ← finalCheck ctx p.snapshot bank
  return bank

end ByrealTitan.Program
