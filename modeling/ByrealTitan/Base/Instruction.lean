import ByrealTitan.Base.Account

/-!
# `Base.Instruction` — instructions as both crates build them
-/

namespace ByrealTitan

/-- One account of an instruction, with the privileges the instruction asks for. -/
structure AccountMeta where
  pubkey : Pubkey
  isSigner : Bool
  isWritable : Bool
deriving DecidableEq

namespace AccountMeta

/-- `AccountMeta::new`: writable. -/
def new (pubkey : Pubkey) (isSigner : Bool) : AccountMeta := ⟨pubkey, isSigner, true⟩

/-- `AccountMeta::new_readonly`. -/
def newReadonly (pubkey : Pubkey) (isSigner : Bool) : AccountMeta := ⟨pubkey, isSigner, false⟩

end AccountMeta

structure Instruction where
  programId : Pubkey
  accounts : List AccountMeta
  data : List UInt8
deriving DecidableEq

end ByrealTitan
