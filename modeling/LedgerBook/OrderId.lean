/-!
Order ids. The high half of an id is the price, inverted for bids, and the low half is a counter, so
that on both sides ids ascend from the best order to the worst. The highest bit tells the sides
apart.
-/
namespace LedgerBook

inductive Side
  | ask
  | bid
  deriving DecidableEq, Repr

/-- An order id. Ids of a ledger have 128 bits; all integers are taken by their lowest 128 bits,
except that the side depends on the whole number. -/
abbrev OrderId := Int

namespace OrderId

/-- The number of values of a half. -/
def halfRange : Int := 0x10000000000000000

/-- The least id of a bid. -/
def leastBid : OrderId := 0x80000000000000000000000000000000

def side (id : OrderId) : Side :=
  if id < leastBid then .ask else .bid

def low (value : Int) : Int :=
  value % halfRange

def inverted (half : Int) : Int :=
  halfRange - 1 - half

/-- The id with given halves. -/
def ofHalves (high lower : Int) : OrderId :=
  high * halfRange + lower

def ask (price counter : Int) : OrderId :=
  ofHalves (low price) (low counter)

def bid (price counter : Int) : OrderId :=
  ofHalves (inverted (low price)) (low counter)

def ofParts (price counter : Int) : Side → OrderId
  | .ask => ask price counter
  | .bid => bid price counter

/-- The high half of an id, the price of an ask. -/
def askPrice (id : OrderId) : Int :=
  low (id / halfRange)

/-- The high half of an id inverted, the price of a bid. -/
def bidPrice (id : OrderId) : Int :=
  inverted (askPrice id)

def price (id : OrderId) : Int :=
  match side id with
  | .ask => askPrice id
  | .bid => bidPrice id

def counter (id : OrderId) : Int :=
  low id

example : bid 5 7 = 340282366920938463352694142989510901767 := by decide
example : price (ofParts 5 7 .bid) = 5 := by decide

end OrderId

end LedgerBook
