import LedgerBook.Bcs.Layout
import LedgerBook.Proofs.Bcs.Codec
/-!
Layouts that can be written as well as read. Their readers undo their writers.
-/
namespace LedgerBook

open Bcs

theorem Order.appends_write (order : Order) : Appends order.write :=
  (appends_unsigned 8 order.account).bind (appends_unsigned 8 order.size)

theorem Order.undoes_read : Undoes Order.read Order.write := by
  have eight : 0 < 8 := by decide
  have fields := (undoes_unsigned eight).pair (undoes_unsigned eight)
  have whole := fields.inject (fun pair : Nat × Nat => (⟨pair.1, pair.2⟩ : Order)) Order.write
    (fun _ => rfl) Order.appends_write ?_
  · simpa [Order.read] using whole
  · intro order written writes
    obtain ⟨front, back, writesAccount, writesSize, -⟩ :=
      (writes_bind_iff (appends_unsigned 8 order.size)).mp writes
    obtain ⟨⟨account, -⟩, -⟩ := writes_unsigned_iff.mp writesAccount
    obtain ⟨⟨size, -⟩, -⟩ := writes_unsigned_iff.mp writesSize
    refine ⟨(order.account.toNat, order.size.toNat), ?_⟩
    rw [Int.toNat_of_nonneg account, Int.toNat_of_nonneg size]

namespace Bcs.Layout

/-- The layouts that can be written as well as read. -/
inductive Writable : Layout → Prop
  | u8 : Writable .u8
  | u64 : Writable .u64
  | u128 : Writable .u128
  | bool : Writable .bool
  | text : Writable .text
  | length : Writable .length
  | order : Writable .order
  | vector {item : Layout} : Writable item → Writable (.vector item)

/-- Whether a value is of the kind that a layout writes. Texts with halves are not: they have no
form in bytes. -/
def Takes : Layout → Value → Prop
  | u8, .int _ => True
  | u64, .int _ => True
  | u128, .int _ => True
  | bool, .bool _ => True
  | text, .text value => ∃ string : String, value = string
  | length, .int _ => True
  | order, .order _ => True
  | vector item, .list items => ∀ value ∈ items, item.Takes value
  | _, _ => False

/-- Whether a number has no more than some bits. -/
def InBits (bits : Nat) (value : Int) : Prop :=
  0 ≤ value ∧ value < 2 ^ bits

theorem inBits_natCast {bits value : Nat} (fits : value < 2 ^ bits) : InBits bits value :=
  ⟨Int.natCast_nonneg value, by exact_mod_cast fits⟩

/-- Whether every number and every length in a value is in range. -/
def InRange : Layout → Value → Prop
  | u8, .int value => InBits 8 value
  | u64, .int value => InBits 64 value
  | u128, .int value => InBits 128 value
  | text, .text value =>
    ∀ string : String, value = string → (Bytes.ofText string).length < 2 ^ 32
  | length, .int value => InBits 32 value
  | order, .order value => InBits 64 value.account ∧ InBits 64 value.size
  | vector item, .list items => items.length < 2 ^ 32 ∧ ∀ value ∈ items, item.InRange value
  | _, _ => True

theorem appends_write (layout : Layout) (value : Value) : Appends (layout.write value) := by
  fun_cases Layout.write layout value with
  | case1 value => exact appends_unsigned 1 value
  | case2 value => exact appends_unsigned 8 value
  | case3 value => exact appends_unsigned 16 value
  | case4 value => exact appends_unsigned 1 _
  | case5 value => exact appends_text value
  | case6 value => exact appends_length value
  | case7 value => exact value.appends_write
  | case8 item items => exact appends_vector item.appends_write items
  | case9 => exact appends_throw _

theorem natural_of_writes_unsigned {width : Nat} {value : Int} {written : Bytes}
    (writes : Writes (Writer.unsigned width value) written) :
    ∃ number : Nat, Value.int value = .int number := by
  obtain ⟨⟨natural, -⟩, -⟩ := writes_unsigned_iff.mp writes
  exact ⟨value.toNat, by rw [Int.toNat_of_nonneg natural]⟩

/-- The reader of a layout that can be written undoes its writer. -/
theorem Writable.undoes {layout : Layout} (writable : layout.Writable) :
    Undoes layout.read layout.write := by
  induction writable with
  -- A writer throws on a value of another kind, so that what was written is of the layout's own.
  | u8 | u64 | u128 =>
      refine (undoes_unsigned (by decide)).inject (fun number : Nat => Value.int number) _
        (fun _ => rfl) (appends_write _) ?_
      intro other written writes
      cases other with
      | int value => exact natural_of_writes_unsigned writes
      | _ => exact False.elim (not_writes_throw writes)
  | bool =>
      refine undoes_bool.inject Value.bool _ (fun _ => rfl) (appends_write _) ?_
      intro other written writes
      cases other with
      | bool value => exact ⟨value, rfl⟩
      | _ => exact False.elim (not_writes_throw writes)
  | text =>
      refine undoes_text.inject (fun string : String => Value.text string) _ (fun _ => rfl)
        (appends_write _) ?_
      intro other written writes
      cases other with
      | text value =>
          rw [Layout.write, Writer.text] at writes
          split at writes
          next string isString => exact ⟨string, by rw [Text.ofString_of_toString? isString]⟩
          next => exact False.elim (not_writes_throw writes)
      | _ => exact False.elim (not_writes_throw writes)
  | length =>
      refine undoes_length.inject (fun number : Nat => Value.int number) _ (fun _ => rfl)
        (appends_write _) ?_
      intro other written writes
      cases other with
      | int value =>
          obtain ⟨⟨natural, -⟩, -⟩ := writes_length_iff.mp writes
          exact ⟨value.toNat, by rw [Int.toNat_of_nonneg natural]⟩
      | _ => exact False.elim (not_writes_throw writes)
  | order =>
      refine Order.undoes_read.inject Value.order _ (fun _ => rfl) (appends_write _) ?_
      intro other written writes
      cases other with
      | order value => exact ⟨value, rfl⟩
      | _ => exact False.elim (not_writes_throw writes)
  | vector _ inductionHypothesis =>
      refine inductionHypothesis.vector.inject Value.list _ (fun _ => rfl) (appends_write _) ?_
      intro other written writes
      cases other with
      | list items => exact ⟨items, rfl⟩
      | _ => exact False.elim (not_writes_throw writes)

end Bcs.Layout

end LedgerBook
