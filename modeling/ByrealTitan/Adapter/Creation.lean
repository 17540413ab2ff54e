import ByrealTitan.Adapter.Venue

/-!
# `Adapter.Creation` — pools found in transactions (`src/byreal_clmm/mod.rs`)

Titan follows new pools by handing the instructions of confirmed transactions, flattened with the inner
ones, to `parse_pool_creations`. The parser indexes the accounts of an instruction; `Creates` says what
it looks for, and `pool_creations_found` that it finds that and nothing else, each creation once and in
order, and never panics.
-/

namespace ByrealTitan.Adapter

/-! ## The parser -/

/-- One instruction of a confirmed transaction, its accounts resolved. -/
structure ParsedInstruction where
  programId : Pubkey
  accounts : List Pubkey
  data : List UInt8
deriving DecidableEq

structure PoolCreation where
  protocol : PoolProtocol
  pool : Pubkey
  mints : List Pubkey
deriving DecidableEq

def CREATE_POOL_DISCRIMINATOR : List UInt8 := [233, 146, 209, 142, 207, 104, 64, 188]

def CREATE_POOL_DECAY_FEE_DISCRIMINATOR : List UInt8 := [252, 154, 210, 191, 22, 217, 136, 252]

def CREATE_POOL_POOL_INDEX : Nat := 4

def CREATE_POOL_TOKEN_MINT_0_INDEX : Nat := 6

def CREATE_POOL_TOKEN_MINT_1_INDEX : Nat := 7

def startsWithDiscriminator (data discriminator : List UInt8) : Bool :=
  decide (discriminator.length ≤ data.length ∧ data.take discriminator.length = discriminator)

/-- The closure of `parse_pool_creations`; an index out of bounds panics. -/
def parsePoolCreation (instruction : ParsedInstruction) : VenueRes (Option PoolCreation) :=
  if instruction.programId ≠ BYREAL_CLMM_PROGRAM_ID then .ok none
  else
    let isCreatePool := startsWithDiscriminator instruction.data CREATE_POOL_DISCRIMINATOR
      || startsWithDiscriminator instruction.data CREATE_POOL_DECAY_FEE_DISCRIMINATOR
    if isCreatePool = false ∨ instruction.accounts.length ≤ CREATE_POOL_TOKEN_MINT_1_INDEX then .ok none
    else do
      let tokenMint0 ← Res.orPanic instruction.accounts[CREATE_POOL_TOKEN_MINT_0_INDEX]?
      let tokenMint1 ← Res.orPanic instruction.accounts[CREATE_POOL_TOKEN_MINT_1_INDEX]?
      let pool ← Res.orPanic instruction.accounts[CREATE_POOL_POOL_INDEX]?
      return some { protocol := .byrealClmm, pool, mints := [tokenMint0, tokenMint1] }

def parsePoolCreations (instructions : List ParsedInstruction) : VenueRes (List PoolCreation) := do
  let creations ← instructions.mapM parsePoolCreation
  return creations.filterMap id

/-! ## What it finds -/

/-- The instruction creates a pool of the production program: one of the two discriminators leads the
    data, and the pool and its mints stand at their places among the accounts. -/
inductive Creates : ParsedInstruction → PoolCreation → Prop where
  | intro {discriminator args : List UInt8} {a₀ a₁ a₂ a₃ pool a₅ tokenMint0 tokenMint1 : Pubkey}
      {rest : List Pubkey} :
      discriminator = CREATE_POOL_DISCRIMINATOR ∨ discriminator = CREATE_POOL_DECAY_FEE_DISCRIMINATOR →
      Creates ⟨BYREAL_CLMM_PROGRAM_ID, a₀ :: a₁ :: a₂ :: a₃ :: pool :: a₅ :: tokenMint0 :: tokenMint1 ::
        rest, discriminator ++ args⟩ ⟨.byrealClmm, pool, [tokenMint0, tokenMint1]⟩

/-- The creations among instructions, in their order. -/
inductive Found : List ParsedInstruction → List PoolCreation → Prop where
  | nil : Found [] []
  | skip {instruction : ParsedInstruction} {instructions : List ParsedInstruction}
      {creations : List PoolCreation} :
      (∀ creation, ¬ Creates instruction creation) → Found instructions creations →
      Found (instruction :: instructions) creations
  | take {instruction : ParsedInstruction} {creation : PoolCreation}
      {instructions : List ParsedInstruction} {creations : List PoolCreation} :
      Creates instruction creation → Found instructions creations →
      Found (instruction :: instructions) (creation :: creations)

theorem startsWithDiscriminator_eq_true {data discriminator : List UInt8} :
    startsWithDiscriminator data discriminator = true ↔ discriminator <+: data := by
  unfold startsWithDiscriminator
  rw [decide_eq_true_eq, List.prefix_iff_eq_take]
  constructor
  · rintro ⟨-, htake⟩
    exact htake.symm
  · intro htake
    refine ⟨?_, htake.symm⟩
    rw [htake, List.length_take]
    omega

theorem isCreatePool_iff {data : List UInt8} :
    (startsWithDiscriminator data CREATE_POOL_DISCRIMINATOR
        || startsWithDiscriminator data CREATE_POOL_DECAY_FEE_DISCRIMINATOR) = true ↔
      ∃ discriminator args, (discriminator = CREATE_POOL_DISCRIMINATOR ∨
        discriminator = CREATE_POOL_DECAY_FEE_DISCRIMINATOR) ∧ discriminator ++ args = data := by
  rw [Bool.or_eq_true, startsWithDiscriminator_eq_true, startsWithDiscriminator_eq_true]
  constructor
  · rintro (⟨args, hdata⟩ | ⟨args, hdata⟩)
    · exact ⟨_, args, Or.inl rfl, hdata⟩
    · exact ⟨_, args, Or.inr rfl, hdata⟩
  · rintro ⟨discriminator, args, rfl | rfl, hdata⟩
    · exact Or.inl ⟨args, hdata⟩
    · exact Or.inr ⟨args, hdata⟩

/-- Accounts up to the second mint. -/
theorem accounts_split {accounts : List Pubkey} (h : ¬ accounts.length ≤ CREATE_POOL_TOKEN_MINT_1_INDEX) :
    ∃ a₀ a₁ a₂ a₃ pool a₅ tokenMint0 tokenMint1 rest,
      accounts = a₀ :: a₁ :: a₂ :: a₃ :: pool :: a₅ :: tokenMint0 :: tokenMint1 :: rest := by
  match accounts, h with
  | a₀ :: a₁ :: a₂ :: a₃ :: pool :: a₅ :: tokenMint0 :: tokenMint1 :: rest, _ =>
      exact ⟨a₀, a₁, a₂, a₃, pool, a₅, tokenMint0, tokenMint1, rest, rfl⟩
  | [], h | [_], h | [_, _], h | [_, _, _], h | [_, _, _, _], h | [_, _, _, _, _],
      h | [_, _, _, _, _, _], h
  | [_, _, _, _, _, _, _], h =>
      exact absurd (by simp [CREATE_POOL_TOKEN_MINT_1_INDEX]) h

/-- The parser reports what an instruction creates, and nothing of another one. -/
theorem parsePoolCreation_cases (instruction : ParsedInstruction) :
    (∃ creation, Creates instruction creation ∧ parsePoolCreation instruction = .ok (some creation)) ∨
      ((∀ creation, ¬ Creates instruction creation) ∧ parsePoolCreation instruction = .ok none) := by
  obtain ⟨programId, accounts, data⟩ := instruction
  unfold parsePoolCreation
  by_cases hprogram : programId = BYREAL_CLMM_PROGRAM_ID
  · rw [if_neg (not_not_intro hprogram)]
    simp only
    split
    next hrefused =>
      right
      refine ⟨?_, rfl⟩
      rintro creation ⟨hdisc⟩
      rcases hrefused with hnone | hshort
      · rw [Bool.eq_false_iff] at hnone
        exact hnone (isCreatePool_iff.mpr ⟨_, _, hdisc, rfl⟩)
      · exact absurd hshort (by simp [CREATE_POOL_TOKEN_MINT_1_INDEX])
    next haccepted =>
      left
      rw [not_or, Bool.not_eq_false] at haccepted
      obtain ⟨hdata, hlong⟩ := haccepted
      obtain ⟨discriminator, args, hdisc, rfl⟩ := isCreatePool_iff.mp hdata
      obtain ⟨a₀, a₁, a₂, a₃, pool, a₅, tokenMint0, tokenMint1, rest, rfl⟩ := accounts_split hlong
      subst hprogram
      exact ⟨⟨.byrealClmm, pool, [tokenMint0, tokenMint1]⟩, Creates.intro hdisc, rfl⟩
  · rw [if_pos hprogram]
    right
    refine ⟨?_, rfl⟩
    rintro creation ⟨-⟩
    exact hprogram rfl

/-- What an instruction creates stands at fixed places among its accounts. -/
theorem Creates.eq_at {instruction : ParsedInstruction} {creation : PoolCreation}
    (h : Creates instruction creation) :
    creation = ⟨.byrealClmm, instruction.accounts.getD CREATE_POOL_POOL_INDEX ZERO_PUBKEY,
      [instruction.accounts.getD CREATE_POOL_TOKEN_MINT_0_INDEX ZERO_PUBKEY,
        instruction.accounts.getD CREATE_POOL_TOKEN_MINT_1_INDEX ZERO_PUBKEY]⟩ := by
  cases h
  rfl

theorem Creates.unique {instruction : ParsedInstruction} {creation creation' : PoolCreation}
    (h : Creates instruction creation) (h' : Creates instruction creation') : creation = creation' :=
  h.eq_at.trans h'.eq_at.symm

theorem Found.unique {instructions : List ParsedInstruction} {creations creations' : List PoolCreation}
    (h : Found instructions creations) (h' : Found instructions creations') : creations = creations' := by
  induction h generalizing creations' with
  | nil =>
      cases h'
      rfl
  | skip hnone _ ih =>
      cases h' with
      | skip _ hrest => exact ih hrest
      | take hcreates _ => exact absurd hcreates (hnone _)
  | take hcreates _ ih =>
      cases h' with
      | skip hnone _ => exact absurd hcreates (hnone _)
      | take hcreates' hrest => rw [hcreates.unique hcreates', ih hrest]

theorem Found.append {instructions instructions' : List ParsedInstruction}
    {creations creations' : List PoolCreation}
    (h : Found instructions creations) (h' : Found instructions' creations') :
    Found (instructions ++ instructions') (creations ++ creations') := by
  induction h with
  | nil => exact h'
  | skip hnone _ ih => exact Found.skip hnone ih
  | take hcreates _ ih => exact Found.take hcreates ih

theorem parsePoolCreations_found (instructions : List ParsedInstruction) :
    ∃ creations, parsePoolCreations instructions = .ok creations ∧ Found instructions creations := by
  unfold parsePoolCreations
  induction instructions with
  | nil => exact ⟨[], rfl, Found.nil⟩
  | cons instruction instructions ih =>
      obtain ⟨creations, hrest, hfound⟩ := ih
      obtain ⟨parsed, hparsed, hcreations⟩ := Except.bind_eq_ok.mp hrest
      rw [Except.pure_eq_ok] at hcreations
      rw [List.mapM_cons, hparsed]
      rcases parsePoolCreation_cases instruction with ⟨creation, hcreates, hone⟩ | ⟨hnone, hone⟩
      · rw [hone]
        refine ⟨creation :: creations, ?_, Found.take hcreates hfound⟩
        rw [← hcreations]
        rfl
      · rw [hone]
        refine ⟨creations, ?_, Found.skip hnone hfound⟩
        rw [← hcreations]
        rfl

/-- **The parser finds the creations.** On any instructions it ends with a value, which
    is the list of the pools they create, each once and in their order; and
    transactions may be parsed one by one or together. -/
theorem pool_creations_found (instructions : List ParsedInstruction) :
    (∀ res, parsePoolCreations instructions = res ↔ ∃ creations, Found instructions creations ∧
      res = .ok creations) ∧
      ∀ instructions' creations creations', parsePoolCreations instructions = .ok creations →
        parsePoolCreations instructions' = .ok creations' →
          parsePoolCreations (instructions ++ instructions') = .ok (creations ++ creations') := by
  have hiff : ∀ instructions res, parsePoolCreations instructions = res ↔
      ∃ creations, Found instructions creations ∧ res = .ok creations := by
    intro instructions res
    obtain ⟨creations, hparse, hfound⟩ := parsePoolCreations_found instructions
    constructor
    · rintro rfl
      exact ⟨creations, hfound, hparse⟩
    · rintro ⟨creations', hfound', rfl⟩
      rw [hparse, hfound.unique hfound']
  refine ⟨hiff instructions, fun instructions' creations creations' hparse hparse' => ?_⟩
  obtain ⟨_, hfound, heq⟩ := (hiff instructions _).mp hparse
  obtain ⟨_, hfound', heq'⟩ := (hiff instructions' _).mp hparse'
  cases heq
  cases heq'
  exact (hiff _ _).mpr ⟨_, hfound.append hfound', rfl⟩

/-- A creation, surrounded by an instruction without accounts and the creation of another program. -/
example :
    let accounts := [1, 2, 3, 4, 50, 6, 7, 8, 9].map Pubkey.fill
    (parsePoolCreations
      [⟨BYREAL_CLMM_PROGRAM_ID, [], CREATE_POOL_DISCRIMINATOR⟩,
        ⟨BYREAL_CLMM_PROGRAM_ID, accounts, CREATE_POOL_DECAY_FEE_DISCRIMINATOR ++ [1, 0]⟩,
        ⟨Pubkey.fill 0, accounts, CREATE_POOL_DISCRIMINATOR⟩]).toOption =
      some [⟨.byrealClmm, Pubkey.fill 50, [Pubkey.fill 7, Pubkey.fill 8]⟩] := by
  decide

end ByrealTitan.Adapter
