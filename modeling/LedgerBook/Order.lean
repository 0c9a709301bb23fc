import LedgerBook.Bcs.Writer
/-!
A resting order and its serialized form.
-/
namespace LedgerBook

/-- One resting order: the account that owns it and the size that is left, in lots. -/
structure Order where
  account : Int
  size : Int
  deriving DecidableEq, Repr

namespace Order

/-- The account and then the size, each as a number of 64 bits. -/
def read : Bcs.Reader Order := do
  let account ← Bcs.Reader.unsigned 8
  let size ← Bcs.Reader.unsigned 8
  return ⟨account, size⟩

/-- The account and then the size, each as a number of 64 bits. -/
def write (order : Order) : Bcs.Writer := do
  Bcs.Writer.unsigned 8 order.account
  Bcs.Writer.unsigned 8 order.size

end Order

end LedgerBook
