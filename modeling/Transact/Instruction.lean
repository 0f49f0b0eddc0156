import Transact.Address
import Transact.Payload.Layout

/-!
# Instructions

An instruction names a program to run, the accounts to hand to it and the bytes it will interpret
on its own. Instructions are what people build; a message holds them in a compiled form.
-/

namespace Transact

/-- An account that an instruction refers to. When several instructions refer to one account, a
permission holds as soon as one reference asks for it. -/
structure AccountMeta where
  /-- The account. -/
  address : Address
  /-- Whether the transaction needs its signature. -/
  isSigner : Bool
  /-- Whether the program may change the account. -/
  isWritable : Bool
deriving DecidableEq

/-- A directive to run one program. -/
structure Instruction where
  /-- The program. -/
  programId : Address
  /-- The accounts handed to the program, in the order it expects. -/
  accounts : List AccountMeta
  /-- The program's own input. -/
  data : Bytes
deriving DecidableEq

/-- An instruction whose input is the binary form of a value. It fails only where the value reaches
a shape that the payload format does not carry or breaks a rule of its own. -/
def Instruction.ofPayload (programId : Address) (shape : Payload.Shape) (value : shape.Value)
    (accounts : List AccountMeta) : Except Payload.Error Instruction := do
  let data ← shape.encode value
  return { programId, accounts, data }

end Transact
