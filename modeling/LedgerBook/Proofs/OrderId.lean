import LedgerBook.OrderId
import Mathlib.Algebra.Ring.Int.Defs
import Mathlib.Data.Prod.Lex
/-!
Order ids and what they are made of. By its lowest 128 bits an id is the same as its side, its price
and its counter, and ids ascend as the book does: the asks before the bids, and on each side the
better price before the worse, the lower counter before the higher.
-/
namespace LedgerBook.OrderId

variable {high lower other least price counter : Int}

/-! ## Halves -/

/-- Whether a number is a half of an id. -/
def IsHalf (value : Int) : Prop :=
  0 ≤ value ∧ value < halfRange

theorem isHalf_low (value : Int) : IsHalf (low value) :=
  ⟨Int.emod_nonneg value (by decide), Int.emod_lt_of_pos value (by decide)⟩

theorem low_of_isHalf {value : Int} (isHalf : IsHalf value) : low value = value :=
  Int.emod_eq_of_lt isHalf.1 isHalf.2

theorem isHalf_inverted {half : Int} (isHalf : IsHalf half) : IsHalf (inverted half) := by
  unfold IsHalf inverted at *
  omega

theorem inverted_inverted (half : Int) : inverted (inverted half) = half := by
  unfold inverted
  omega

theorem askPrice_ofHalves (isHigh : IsHalf high) (isLow : IsHalf lower) :
    askPrice (ofHalves high lower) = high := by
  have quotient : ofHalves high lower / halfRange = high := by
    rw [ofHalves, Int.add_comm, Int.add_mul_ediv_right _ _ (by decide),
      Int.ediv_eq_zero_of_lt isLow.1 isLow.2, Int.zero_add]
  rw [askPrice, quotient, low_of_isHalf isHigh]

theorem counter_ofHalves (high : Int) (isLow : IsHalf lower) :
    OrderId.counter (ofHalves high lower) = lower := by
  have dropped : OrderId.counter (ofHalves high lower) = low lower := by
    rw [OrderId.counter, low, ofHalves, Int.add_comm, Int.add_mul_emod_self_right, low]
  rw [dropped, low_of_isHalf isLow]

/-- The halves of an id are its lowest 128 bits. -/
theorem ofHalves_halves (id : Int) :
    ofHalves (askPrice id) (OrderId.counter id) = id % 2 ^ 128 := by
  have parts : id / halfRange % halfRange * halfRange + id % halfRange = id % 2 ^ 128 := by
    unfold halfRange
    omega
  exact parts

/-- Ids compare by their high halves, and by their low halves where these are equal. -/
theorem ofHalves_lt_iff (isLow : IsHalf lower) (isLeast : IsHalf least) :
    ofHalves high lower < ofHalves other least ↔ high < other ∨ high = other ∧ lower < least := by
  have numbers : high * halfRange + lower < other * halfRange + least ↔
      high < other ∨ high = other ∧ lower < least := by
    unfold IsHalf halfRange at *
    omega
  exact numbers

/-- The highest bit of the high half tells the side. -/
theorem side_ofHalves (isLow : IsHalf lower) :
    side (ofHalves high lower) = if high < 2 ^ 63 then .ask else .bid := by
  have highest : high * halfRange + lower < 2 ^ 127 ↔ high < 2 ^ 63 := by
    unfold IsHalf halfRange at *
    omega
  have bit : ofHalves high lower < leastBid ↔ high < 2 ^ 63 := highest
  simp only [side, bit]

/-! ## Parts -/

/-- Whether a price and a counter are within the ranges of an order: the highest bit of a price is
left to the side. -/
structure InRange (price counter : Int) : Prop where
  price_nonneg : 0 ≤ price
  price_lt : price < 2 ^ 63
  counter_nonneg : 0 ≤ counter
  counter_lt : counter < 2 ^ 64

/-- The high half of an id of a side. -/
def highHalf (price : Int) : Side → Int
  | .ask => price
  | .bid => inverted price

/-- What a price is worth on a side, the least first: buyers want the lowest price, sellers the
highest. -/
def worth (price : Int) : Side → Int
  | .ask => price
  | .bid => -price

namespace InRange

variable (inRange : InRange price counter) (which : Side)

include inRange

theorem isHalf_price : IsHalf price :=
  ⟨inRange.price_nonneg, Int.lt_trans inRange.price_lt (by decide)⟩

theorem isHalf_counter : IsHalf counter :=
  ⟨inRange.counter_nonneg, inRange.counter_lt⟩

theorem isHalf_highHalf : IsHalf (highHalf price which) := by
  cases which with
  | ask => exact inRange.isHalf_price
  | bid => exact isHalf_inverted inRange.isHalf_price

theorem ofParts_eq : ofParts price counter which = ofHalves (highHalf price which) counter := by
  cases which with
  | ask =>
      rw [ofParts, ask, low_of_isHalf inRange.isHalf_price, low_of_isHalf inRange.isHalf_counter]
      rfl
  | bid =>
      rw [ofParts, bid, low_of_isHalf inRange.isHalf_price, low_of_isHalf inRange.isHalf_counter]
      rfl

theorem side_ofParts : side (ofParts price counter which) = which := by
  have below := inRange.price_lt
  rw [inRange.ofParts_eq, side_ofHalves inRange.isHalf_counter]
  cases which with
  | ask => exact if_pos below
  | bid =>
      refine if_neg ?_
      simp only [highHalf, inverted, halfRange]
      omega

theorem price_ofParts : OrderId.price (ofParts price counter which) = price := by
  rw [OrderId.price, inRange.side_ofParts, inRange.ofParts_eq]
  have high := askPrice_ofHalves (inRange.isHalf_highHalf which) inRange.isHalf_counter
  cases which with
  | ask => exact high
  | bid =>
      refine (congrArg inverted high).trans ?_
      exact inverted_inverted price

theorem counter_ofParts : OrderId.counter (ofParts price counter which) = counter := by
  rw [inRange.ofParts_eq, counter_ofHalves _ inRange.isHalf_counter]

end InRange

/-- What an id is made of leads back to its lowest 128 bits, also where the id is negative or has
more of them. -/
theorem ofParts_parts (id : OrderId) :
    ofParts (OrderId.price id) (OrderId.counter id) (side id) = id % 2 ^ 128 := by
  have isHigh : IsHalf (askPrice id) := isHalf_low _
  have isLow : IsHalf (OrderId.counter id) := isHalf_low _
  rw [← ofHalves_halves id, OrderId.price]
  cases side id with
  | ask => rw [ofParts, ask, low_of_isHalf isHigh, low_of_isHalf isLow]
  | bid =>
      rw [ofParts, bid, bidPrice, low_of_isHalf (isHalf_inverted isHigh), low_of_isHalf isLow,
        inverted_inverted]

/-- On a side ids ascend by what their prices are worth, and by their counters where these are
equal. -/
theorem ofParts_lt_iff (which : Side) {otherPrice otherCounter : Int}
    (inRange : InRange price counter) (otherInRange : InRange otherPrice otherCounter) :
    ofParts price counter which < ofParts otherPrice otherCounter which ↔
      toLex (worth price which, counter) < toLex (worth otherPrice which, otherCounter) := by
  rw [inRange.ofParts_eq, otherInRange.ofParts_eq,
    ofHalves_lt_iff inRange.isHalf_counter otherInRange.isHalf_counter, Prod.Lex.toLex_lt_toLex]
  cases which with
  | ask => exact Iff.rfl
  | bid =>
      simp only [highHalf, worth, inverted]
      omega

theorem ask_lt_bid {otherPrice otherCounter : Int} (inRange : InRange price counter)
    (otherInRange : InRange otherPrice otherCounter) :
    ofParts price counter .ask < ofParts otherPrice otherCounter .bid := by
  have below := inRange.price_lt
  have belowToo := otherInRange.price_lt
  rw [inRange.ofParts_eq, otherInRange.ofParts_eq,
    ofHalves_lt_iff inRange.isHalf_counter otherInRange.isHalf_counter]
  left
  simp only [highHalf, inverted, halfRange]
  omega

/-- Order ids stand for side, price and counter, and keep their order. Every integer leads back to
its lowest 128 bits by way of its parts; parts within their ranges lead back to themselves; and ids
ascend as the book does: on each side by what the price is worth and then by the counter, and every
ask comes before every bid. -/
theorem parts_keep_order :
    (∀ id : OrderId, ofParts (OrderId.price id) (OrderId.counter id) (side id) = id % 2 ^ 128) ∧
      (∀ which price counter, InRange price counter →
        side (ofParts price counter which) = which ∧
          OrderId.price (ofParts price counter which) = price ∧
          OrderId.counter (ofParts price counter which) = counter) ∧
      (∀ which price counter otherPrice otherCounter, InRange price counter →
        InRange otherPrice otherCounter →
          (ofParts price counter which < ofParts otherPrice otherCounter which ↔
            toLex (worth price which, counter) < toLex (worth otherPrice which, otherCounter))) ∧
      ∀ price counter otherPrice otherCounter, InRange price counter →
        InRange otherPrice otherCounter →
          ofParts price counter .ask < ofParts otherPrice otherCounter .bid := by
  refine ⟨ofParts_parts, ?_, ?_, ?_⟩
  · intro which price counter inRange
    exact ⟨inRange.side_ofParts which, inRange.price_ofParts which, inRange.counter_ofParts which⟩
  · intro which price counter otherPrice otherCounter inRange otherInRange
    exact ofParts_lt_iff which inRange otherInRange
  · intro price counter otherPrice otherCounter inRange otherInRange
    exact ask_lt_bid inRange otherInRange

/-- The highest price and the highest counter, next to the lowest of both, and an id below zero. -/
theorem parts_keep_order_at_the_limits :
    InRange (2 ^ 63 - 1) (2 ^ 64 - 1) ∧ InRange 0 0 ∧
      ofParts (OrderId.price (-1)) (OrderId.counter (-1)) (side (-1)) = 2 ^ 128 - 1 ∧
      side (ofParts (2 ^ 63 - 1) (2 ^ 64 - 1) .bid) = .bid ∧
      OrderId.price (ofParts (2 ^ 63 - 1) (2 ^ 64 - 1) .bid) = 2 ^ 63 - 1 ∧
      ofParts (2 ^ 63 - 1) (2 ^ 64 - 1) .bid < ofParts 0 0 .bid ∧
      ofParts (2 ^ 63 - 1) (2 ^ 64 - 1) .ask < ofParts (2 ^ 63 - 1) (2 ^ 64 - 1) .bid := by
  have highest : InRange (2 ^ 63 - 1) (2 ^ 64 - 1) := ⟨by decide, by decide, by decide, by decide⟩
  have lowest : InRange 0 0 := ⟨by decide, by decide, by decide, by decide⟩
  obtain ⟨leadBack, keep, ascend, apart⟩ := parts_keep_order
  obtain ⟨sameSide, samePrice, -⟩ := keep .bid _ _ highest
  have better : toLex (worth (2 ^ 63 - 1) .bid, (2 ^ 64 - 1 : Int)) < toLex (worth 0 .bid, 0) :=
    Prod.Lex.toLex_lt_toLex.mpr (Or.inl (by decide))
  exact ⟨highest, lowest, leadBack (-1), sameSide, samePrice,
    (ascend .bid _ _ _ _ highest lowest).mpr better, apart _ _ _ _ highest highest⟩

end LedgerBook.OrderId
