import LedgerBook.Proofs.Leaf.Whole
/-!
Branches under the type of a leaf. A branch is the vector of its keys and the vector of the pointers
to its children. Its bytes are never those of a leaf of orders: the numbers of bytes in a leaf and in
a branch that begin with the same length differ modulo eight.
-/
namespace LedgerBook

open Bcs

namespace Bcs

variable {α : Type} {writer : α → Writer}

/-! ## How many bytes are written -/

/-- A length has one to five groups. -/
theorem Writer.length_groups_le (groups : Nat) {value : Nat} (short : value < 128 ^ (groups + 1)) :
    (Writer.groups value).length ≤ groups + 1 := by
  induction groups generalizing value with
  | zero =>
      rw [Writer.groups_of_lt (by simpa using short), List.length_singleton]
  | succ groups inductionHypothesis =>
      rcases Nat.lt_or_ge value 128 with small | large
      · rw [Writer.groups_of_lt small, List.length_singleton]
        omega
      · have shorter : value / 128 < 128 ^ (groups + 1) := by
          rw [Nat.pow_succ] at short
          omega
        have others := inductionHypothesis shorter
        rw [Writer.groups_of_le large, List.length_cons]
        omega

/-- A vector is written as the groups of its length and its items. -/
theorem groups_of_writes_vector (appends : ∀ item, Appends (writer item)) {items : List α}
    {written : Bytes} (writes : Writes (Writer.vector writer items) written) :
    items.length ≤ Reader.greatestLength ∧
      ∃ back, Writes (Writer.each writer items) back ∧
        written = Writer.groups items.length ++ back := by
  obtain ⟨front, back, writesLength, writesItems, rfl⟩ :=
    (writes_bind_iff (appends_each appends items)).mp writes
  obtain ⟨⟨-, fits⟩, rfl⟩ := writes_length_iff.mp writesLength
  exact ⟨Int.ofNat_le.mp fits, back, writesItems, rfl⟩

/-- Every item is written in some number of bytes. -/
def HasWidth (writer : α → Writer) (width : Nat) : Prop :=
  ∀ item written, Writes (writer item) written → written.length = width

theorem hasWidth_unsigned (width : Nat) :
    HasWidth (fun number : Nat => Writer.unsigned width number) width := by
  intro number written writes
  obtain ⟨-, rfl⟩ := writes_unsigned_iff.mp writes
  exact Writer.length_littleEndian width _

theorem HasWidth.each {width : Nat} (wide : HasWidth writer width)
    (appends : ∀ item, Appends (writer item)) {items : List α} {written : Bytes}
    (writes : Writes (Writer.each writer items) written) :
    written.length = width * items.length := by
  induction items generalizing written with
  | nil =>
      cases writes
      rfl
  | cons first rest inductionHypothesis =>
      obtain ⟨front, back, writesFirst, writesRest, rfl⟩ :=
        (writes_bind_iff (appends_each appends rest)).mp writes
      rw [List.length_append, wide first front writesFirst, inductionHypothesis writesRest, List.length_cons]
      ring

theorem HasWidth.vector {width : Nat} (wide : HasWidth writer width)
    (appends : ∀ item, Appends (writer item)) {items : List α} {written : Bytes}
    (writes : Writes (Writer.vector writer items) written) :
    written.length = (Writer.groups items.length).length + width * items.length := by
  obtain ⟨-, back, writesItems, rfl⟩ := groups_of_writes_vector appends writes
  rw [List.length_append, wide.each appends writesItems]

/-- Two vectors in front of the same bytes have the same number of items. -/
theorem length_eq_of_fronts {β : Type} {other : β → Writer}
    (appends : ∀ item, Appends (writer item)) (otherAppends : ∀ item, Appends (other item))
    {items : List α} {others : List β} {front frontOther rest restOther : Bytes}
    (writes : Writes (Writer.vector writer items) front)
    (writesOther : Writes (Writer.vector other others) frontOther)
    (same : front ++ rest = frontOther ++ restOther) : items.length = others.length := by
  obtain ⟨fits, back, -, rfl⟩ := groups_of_writes_vector appends writes
  obtain ⟨fitsOther, backOther, -, rfl⟩ := groups_of_writes_vector otherAppends writesOther
  have reads : Reader.length.run (Writer.groups items.length ++ back ++ rest) =
      .ok items.length (back ++ rest) :=
    Reader.run_length_eq_ok.mpr ⟨fits, List.append_assoc _ _ _⟩
  have readsOther : Reader.length.run (Writer.groups others.length ++ backOther ++ restOther) =
      .ok others.length (backOther ++ restOther) :=
    Reader.run_length_eq_ok.mpr ⟨fitsOther, List.append_assoc _ _ _⟩
  rw [same, readsOther] at reads
  injection reads with lengths
  exact lengths.symm

end Bcs

namespace Leaf

theorem hasWidth_entries :
    HasWidth (fun entry : Entry Order => writeEntry Order.write (entry.1, entry.2)) 32 := by
  intro entry written writes
  obtain ⟨key, order, writesKey, writesOrder, rfl⟩ :=
    (writes_bind_iff entry.2.appends_write).mp writes
  obtain ⟨account, size, writesAccount, writesSize, rfl⟩ :=
    (writes_bind_iff (appends_unsigned 8 entry.2.size)).mp writesOrder
  obtain ⟨-, rfl⟩ := writes_unsigned_iff.mp writesKey
  obtain ⟨-, rfl⟩ := writes_unsigned_iff.mp writesAccount
  obtain ⟨-, rfl⟩ := writes_unsigned_iff.mp writesSize
  simp only [List.length_append, Writer.length_littleEndian]

end Leaf

/-! ## Branches -/

namespace Branch

/-- The form of a branch: its keys, and the pointers to its children. -/
def write (keys children : List Nat) : Writer := do
  Writer.vector (fun key : Nat => Writer.unsigned 16 key) keys
  Writer.vector (fun child : Nat => Writer.unsigned 8 child) children

variable {keys children : List Nat}

private theorem appends_key (key : Nat) : Appends (Writer.unsigned 16 key) :=
  appends_unsigned 16 key

private theorem appends_child (child : Nat) : Appends (Writer.unsigned 8 child) :=
  appends_unsigned 8 child

/-- Vectors of numbers of some bits are written if they are not too long. -/
theorem exists_writes_numbers (width : Nat) {numbers : List Nat} (few : numbers.length < 2 ^ 32)
    (fit : ∀ number ∈ numbers, number < 2 ^ (8 * width)) :
    ∃ written,
      Writes (Writer.vector (fun number : Nat => Writer.unsigned width number) numbers)
        written := by
  have settles := settles_vector numbers fun number _ => Layout.settles_inBits width (number : Int)
  have inBits : ∀ number ∈ numbers, Layout.InBits (8 * width) (number : Int) :=
    fun number member => Layout.inBits_natCast (fit number member)
  exact ⟨_, settles.adds ⟨few, inBits⟩ []⟩

theorem exists_writes (fewKeys : keys.length < 2 ^ 32) (fewChildren : children.length < 2 ^ 32)
    (keysFit : ∀ key ∈ keys, key < 2 ^ 128) (childrenFit : ∀ child ∈ children, child < 2 ^ 64) :
    ∃ bytes, Writes (write keys children) bytes := by
  obtain ⟨front, writesKeys⟩ := exists_writes_numbers 16 fewKeys keysFit
  obtain ⟨back, writesChildren⟩ := exists_writes_numbers 8 fewChildren childrenFit
  exact ⟨front ++ back, (writes_bind_iff (appends_vector appends_child children)).mpr
    ⟨front, back, writesKeys, writesChildren, rfl⟩⟩

/-- No leaf of orders has the bytes of a branch. -/
theorem not_leaf {bytes : Bytes} (writes : Writes (write keys children) bytes)
    (found : List (Entry Order)) : Leaf.runReader (Leaf.read Order.read) bytes ≠ .ok found := by
  intro reads
  obtain ⟨keyBytes, childBytes, writesKeys, writesChildren, rfl⟩ :=
    (writes_bind_iff (appends_vector appends_child children)).mp writes
  obtain ⟨next, -, encodes⟩ := (Leaf.runReader_read_iff Order.undoes_read).mp reads
  rw [Leaf.encode_eq_ok_iff, Leaf.write_eq, Leaf.vector_offered] at encodes
  obtain ⟨entryBytes, pointerBytes, writesEntries, writesPointer, whole⟩ :=
    (writes_bind_iff (appends_unsigned 8 next)).mp encodes
  have appendsEntry := fun entry : Entry Order =>
    Leaf.appends_writeEntry Order.appends_write (entry.1, entry.2)
  have sameNumber : keys.length = found.length :=
    length_eq_of_fronts appends_key appendsEntry writesKeys writesEntries whole
  -- Behind the groups of the first length, a leaf has a multiple of eight bytes. So have the keys and
  -- the pointers of a branch, but not the groups of its second length.
  have keysLength := (hasWidth_unsigned 16).vector appends_key writesKeys
  have childrenLength := (hasWidth_unsigned 8).vector appends_child writesChildren
  have entriesLength := Leaf.hasWidth_entries.vector appendsEntry writesEntries
  have pointerLength := hasWidth_unsigned 8 next pointerBytes writesPointer
  have someGroup := List.length_pos_iff.mpr (Writer.groups_ne_nil children.length)
  have fewGroups : (Writer.groups children.length).length ≤ 5 := by
    have bounded := (groups_of_writes_vector appends_child writesChildren).1
    rw [Reader.greatestLength] at bounded
    exact Writer.length_groups_le 4 (by omega)
  have lengths := congrArg List.length whole
  rw [List.length_append, List.length_append, keysLength, childrenLength, entriesLength,
    pointerLength, sameNumber] at lengths
  omega

/-- A branch is never taken for a leaf of orders. Whatever its keys and its children, its bytes are
refused as a leaf, and a value that holds them has no entries even if its type is a leaf's. -/
theorem never_leaf_of_orders (fewKeys : keys.length < 2 ^ 32)
    (fewChildren : children.length < 2 ^ 32) (keysFit : ∀ key ∈ keys, key < 2 ^ 128)
    (childrenFit : ∀ child ∈ children, child < 2 ^ 64) :
    ∃ bytes, (write keys children).run [] = .ok () bytes ∧
      (∃ fault, Leaf.runReader (Leaf.read Order.read) bytes = .error (.bcs fault)) ∧
      (∀ type payload, MoveValue.bytes ⟨type, payload⟩ = .ok bytes →
        Leaf.entries Order.read ⟨type, payload⟩ = []) ∧
      ∀ type, Leaf.entries Order.read ⟨type, Base64.encode bytes⟩ = [] := by
  obtain ⟨bytes, writes⟩ := exists_writes fewKeys fewChildren keysFit childrenFit
  obtain ⟨fault, refused⟩ :
      ∃ fault, Leaf.runReader (Leaf.read Order.read) bytes = .error (.bcs fault) := by
    cases outcome : Leaf.runReader (Leaf.read Order.read) bytes with
    | ok found => exact False.elim (not_leaf writes found outcome)
    | error failure =>
        obtain ⟨fault, rfl⟩ :=
          Leaf.fault_of_refused (Leaf.composed_content composed_readOrder).framed outcome
        exact ⟨fault, rfl⟩
  refine ⟨bytes, writes, ⟨fault, refused⟩, ?_, ?_⟩
  · intro type payload decodes
    exact Leaf.entries_of_refused decodes refused
  · intro type
    exact Leaf.entries_of_refused (MoveValue.bytes_encode type bytes) refused

/-- One key and two children under the type of a leaf. -/
theorem never_leaf_of_orders_of_key :
    ∃ bytes, (write [10] [1, 2]).run [] = .ok () bytes ∧
      Leaf.isType "0x2::ordered_map::Leaf<Order>" = true ∧
      Leaf.entries Order.read ⟨"0x2::ordered_map::Leaf<Order>", Base64.encode bytes⟩ = [] := by
  obtain ⟨bytes, writes, -, -, skipped⟩ :=
    @never_leaf_of_orders [10] [1, 2] (by decide) (by decide) (by decide) (by decide)
  exact ⟨bytes, writes, by cbv, skipped _⟩

end Branch

end LedgerBook
