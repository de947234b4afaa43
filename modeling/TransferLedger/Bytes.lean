/-!
# Byte strings of a fixed length

* `Bytes n`: a list of bytes with its length in the type;
* `TxHash`, `Address`: the two lengths that a chain uses.
-/

namespace TransferLedger

/-- A string of `n` bytes. -/
@[ext] structure Bytes (n : Nat) where
  toList : List UInt8
  length_toList : toList.length = n
  deriving DecidableEq

/-- The hash that names a transaction. -/
abbrev TxHash := Bytes 32

/-- The address of an account or of a token contract. -/
abbrev Address := Bytes 20

end TransferLedger
