import LedgerBook.Proofs.Bcs.Layouts
/-!
What a writer leaves in its buffer. Whatever was written before stays in front. A value that fits
adds its form; a value that does not fit adds the forms of what precedes the first part for which
there is no room, and fails because of that part.
-/
namespace LedgerBook.Bcs

variable {α : Type}

/-! ## How a writer ends -/

/-- A writer succeeds and adds some bytes, whatever is in its buffer. -/
def Adds (writer : Writer) (added : Bytes) : Prop :=
  ∀ buffer, writer.run buffer = .ok () (buffer ++ added)

/-- A writer fails and has added some bytes by then, whatever is in its buffer. -/
def Breaks (writer : Writer) (failure : Failure) (left : Bytes) : Prop :=
  ∀ buffer, writer.run buffer = .error failure (buffer ++ left)

theorem adds_pure : Adds (pure ()) [] := by
  intro buffer
  rw [List.append_nil]
  rfl

theorem adds_bytes (added : Bytes) : Adds (Writer.bytes added) added :=
  fun _ => rfl

theorem breaks_throw (failure : Failure) : Breaks (throw failure) failure [] := by
  intro buffer
  rw [List.append_nil]
  rfl

section Sequence

variable {first next : Writer} {front back left : Bytes} {failure : Failure}

theorem Adds.bind (adds : Adds first front) (addsNext : Adds next back) :
    Adds (first >>= fun _ => next) (front ++ back) := by
  intro buffer
  have whole := addsNext (buffer ++ front)
  rw [List.append_assoc] at whole
  rw [EStateM.run_bind, adds buffer]
  exact whole

theorem Adds.bind_breaks (adds : Adds first front) (breaks : Breaks next failure left) :
    Breaks (first >>= fun _ => next) failure (front ++ left) := by
  intro buffer
  have whole := breaks (buffer ++ front)
  rw [List.append_assoc] at whole
  rw [EStateM.run_bind, adds buffer]
  exact whole

theorem Breaks.bind (breaks : Breaks first failure left) (next : Writer) :
    Breaks (first >>= fun _ => next) failure left := by
  intro buffer
  rw [EStateM.run_bind, breaks buffer]

end Sequence

/-- A writer adds a form if a condition holds; otherwise it fails, and what it leaves is known. -/
structure Settles (writer : Writer) (condition : Prop) (form : Bytes)
    (leaves : Failure → Bytes → Prop) : Prop where
  adds : condition → Adds writer form
  breaks : ¬ condition → ∃ failure left, leaves failure left ∧ Breaks writer failure left

namespace Settles

variable {writer first next : Writer} {condition other : Prop} {form otherForm : Bytes}
  {leaves otherLeaves : Failure → Bytes → Prop}

theorem congr (settles : Settles writer condition form leaves) (same : condition ↔ other)
    (forms : form = otherForm)
    (covers : ∀ failure left, leaves failure left → otherLeaves failure left) :
    Settles writer other otherForm otherLeaves where
  adds := by
    intro holds
    rw [← forms]
    exact settles.adds (same.mpr holds)
  breaks := by
    intro fails
    obtain ⟨failure, left, known, breaks⟩ := settles.breaks (fails ∘ same.mp)
    exact ⟨failure, left, covers failure left known, breaks⟩

/-- What is left by a writer that fails is left where the condition does not hold. -/
theorem failing (settles : Settles writer condition form leaves) :
    Settles writer condition form (fun failure left => ¬ condition ∧ leaves failure left) where
  adds := settles.adds
  breaks := by
    intro fails
    obtain ⟨failure, left, known, breaks⟩ := settles.breaks fails
    exact ⟨failure, left, ⟨fails, known⟩, breaks⟩

/-- Of two writers one after the other, the first leaves what it leaves alone, and the second what
it leaves behind the form of the first. -/
theorem bind (settles : Settles first condition form leaves)
    (settlesNext : Settles next other otherForm otherLeaves) :
    Settles (first >>= fun _ => next) (condition ∧ other) (form ++ otherForm)
      (fun failure left => leaves failure left ∨
        condition ∧ ∃ rest, otherLeaves failure rest ∧ left = form ++ rest) where
  adds := fun holds => (settles.adds holds.1).bind (settlesNext.adds holds.2)
  breaks := by
    intro fails
    by_cases holds : condition
    · have failsNext : ¬ other := fun otherHolds => fails ⟨holds, otherHolds⟩
      obtain ⟨failure, rest, known, breaks⟩ := settlesNext.breaks failsNext
      refine ⟨failure, form ++ rest, ?_, (settles.adds holds).bind_breaks breaks⟩
      exact Or.inr ⟨holds, rest, known, rfl⟩
    · obtain ⟨failure, left, known, breaks⟩ := settles.breaks holds
      exact ⟨failure, left, Or.inl known, breaks.bind next⟩

theorem succeeds (settles : Settles writer condition form leaves)
    (lacksRoom : ∀ failure left, leaves failure left → ∃ fault, failure = .bcs fault) :
    Succeeds writer condition where
  writes := fun holds => ⟨form, settles.adds holds []⟩
  refuses := by
    intro fails
    obtain ⟨failure, left, known, breaks⟩ := settles.breaks fails
    obtain ⟨fault, rfl⟩ := lacksRoom failure left known
    exact ⟨fault, left, breaks []⟩

end Settles

/-! ## Numbers, lengths and vectors -/

/-- A number without room adds nothing. -/
theorem settles_unsigned (width : Nat) (value : Int) :
    Settles (Writer.unsigned width value) (0 ≤ value ∧ value < (256 ^ width : Nat))
      (Writer.littleEndian width value.toNat)
      (fun failure left => failure = .bcs (.tooWide value (8 * width)) ∧ left = []) where
  adds := by
    intro fits
    have room : ¬ (value < 0 ∨ (Nat.pow 256 width : Int) ≤ value) := by
      rw [not_or, not_lt, not_le]
      exact fits
    rw [Writer.unsigned, if_neg room]
    exact adds_bytes _
  breaks := by
    intro fails
    have wide : value < 0 ∨ (Nat.pow 256 width : Int) ≤ value := by
      by_contra fits
      rw [not_or, not_lt, not_le] at fits
      exact fails fits
    rw [Writer.unsigned, if_pos wide]
    exact ⟨_, [], ⟨rfl, rfl⟩, breaks_throw _⟩

theorem settles_length (value : Int) :
    Settles (Writer.length value) (0 ≤ value ∧ value ≤ Reader.greatestLength)
      (Writer.groups value.toNat)
      (fun failure left => failure = .bcs (.notLength value) ∧ left = []) where
  adds := by
    intro fits
    rw [Writer.length, if_neg (by omega)]
    exact adds_bytes _
  breaks := by
    intro fails
    rw [Writer.length, if_pos (by omega)]
    exact ⟨_, [], ⟨rfl, rfl⟩, breaks_throw _⟩

section Items

variable {writer : α → Writer} {fits : α → Prop} {form : α → Bytes}
  {leaves : α → Failure → Bytes → Prop}

/-- What some items leave of which one fails: the forms of the items before it, and what it leaves
itself. -/
def LeftByItems (fits : α → Prop) (form : α → Bytes) (leaves : α → Failure → Bytes → Prop)
    (items : List α) (failure : Failure) (left : Bytes) : Prop :=
  ∃ before failing after rest, items = before ++ failing :: after ∧
    (∀ item ∈ before, fits item) ∧ leaves failing failure rest ∧
      left = before.flatMap form ++ rest

theorem LeftByItems.cons {first : α} {others : List α} {failure : Failure} {left : Bytes}
    (firstFits : fits first) (byOthers : LeftByItems fits form leaves others failure left) :
    LeftByItems fits form leaves (first :: others) failure (form first ++ left) := by
  obtain ⟨before, failing, after, rest, rfl, fitting, known, rfl⟩ := byOthers
  refine ⟨first :: before, failing, after, rest, rfl, ?_, known, ?_⟩
  · exact List.forall_mem_cons.mpr ⟨firstFits, fitting⟩
  · rw [List.flatMap_cons, List.append_assoc]

theorem settles_each (items : List α)
    (settles : ∀ item ∈ items, Settles (writer item) (fits item) (form item) (leaves item)) :
    Settles (Writer.each writer items) (∀ item ∈ items, fits item) (items.flatMap form)
      (LeftByItems fits form leaves items) := by
  induction items with
  | nil =>
      have nothing : ∀ item ∈ ([] : List α), fits item := List.forall_mem_nil _
      exact ⟨fun _ => adds_pure, fun fails => absurd nothing fails⟩
  | cons first others inductionHypothesis =>
      rw [List.forall_mem_cons] at settles
      apply (settles.1.bind (inductionHypothesis settles.2)).congr
      · exact List.forall_mem_cons.symm
      · exact List.flatMap_cons.symm
      · rintro failure left (known | ⟨firstFits, rest, byOthers, rfl⟩)
        · exact ⟨[], first, others, left, rfl, List.forall_mem_nil _, known, rfl⟩
        · exact byOthers.cons firstFits

/-- A vector with too many items adds nothing; otherwise its length is written before its items. -/
theorem settles_vector (items : List α)
    (settles : ∀ item ∈ items, Settles (writer item) (fits item) (form item) (leaves item)) :
    Settles (Writer.vector writer items)
      (items.length < 2 ^ 32 ∧ ∀ item ∈ items, fits item)
      (Writer.groups items.length ++ items.flatMap form)
      (fun failure left =>
        2 ^ 32 ≤ items.length ∧ failure = .bcs (.notLength items.length) ∧ left = [] ∨
          items.length < 2 ^ 32 ∧ ∃ rest, LeftByItems fits form leaves items failure rest ∧
            left = Writer.groups items.length ++ rest) := by
  have short : (0 ≤ (items.length : Int) ∧ (items.length : Int) ≤ Reader.greatestLength) ↔
      items.length < 2 ^ 32 := by
    rw [Reader.greatestLength]
    omega
  have whole := (settles_length items.length).failing.bind (settles_each items settles)
  apply whole.congr (and_congr short Iff.rfl) rfl
  rw [short]
  rintro failure left (⟨long, known⟩ | shorter)
  · exact Or.inl ⟨not_lt.mp long, known⟩
  · exact Or.inr shorter

end Items

/-! ## Layouts -/

namespace Layout

/-- Whether a value is of the kind that a layout writes: a number of any size, a text with halves
too. -/
def Matches : Layout → Value → Prop
  | u8, .int _ => True
  | u64, .int _ => True
  | u128, .int _ => True
  | bool, .bool _ => True
  | text, .text _ => True
  | length, .int _ => True
  | order, .order _ => True
  | vector item, .list items => ∀ value ∈ items, item.Matches value
  | _, _ => False

/-- Whether a value is of the kind of a layout and there is room for all its parts. -/
def Fits (layout : Layout) (value : Value) : Prop :=
  layout.Takes value ∧ layout.InRange value

/-- The form of a text: the length of its UTF-8 form and that form. A text with halves has none. -/
def textForm (value : Text) : Bytes :=
  match value.toString? with
  | some string => Writer.groups (Bytes.ofText string).length ++ Bytes.ofText string
  | none => []

/-- The form of a value: numbers in their width, the lowest byte first; lengths in groups of seven
bits; and the form of every part in its place. -/
def form : Layout → Value → Bytes
  | u8, .int value => Writer.littleEndian 1 value.toNat
  | u64, .int value => Writer.littleEndian 8 value.toNat
  | u128, .int value => Writer.littleEndian 16 value.toNat
  | bool, .bool value => [if value then 1 else 0]
  | text, .text value => textForm value
  | length, .int value => Writer.groups value.toNat
  | order, .order value =>
    Writer.littleEndian 8 value.account.toNat ++ Writer.littleEndian 8 value.size.toNat
  | vector item, .list items => Writer.groups items.length ++ items.flatMap item.form
  | _, _ => []

/-- What a value that does not fit leaves in the buffer, and the failure: nothing where a number, a
truth value or a text is at fault; the account of an order whose size is; nothing of a vector with
too many items, and else its length, the forms of the items before the one at fault, and what that
leaves itself. -/
inductive Leaves : Layout → Value → Failure → Bytes → Prop
  | u8 {value : Int} : ¬ InBits 8 value → Leaves .u8 (.int value) (.bcs (.tooWide value 8)) []
  | u64 {value : Int} : ¬ InBits 64 value → Leaves .u64 (.int value) (.bcs (.tooWide value 64)) []
  | u128 {value : Int} :
      ¬ InBits 128 value → Leaves .u128 (.int value) (.bcs (.tooWide value 128)) []
  | length {value : Int} :
      ¬ InBits 32 value → Leaves .length (.int value) (.bcs (.notLength value)) []
  | halves {value : Text} : value.toString? = none → Leaves .text (.text value) .notUtf8 []
  | longText {string : String} :
      2 ^ 32 ≤ (Bytes.ofText string).length →
        Leaves .text (.text string) (.bcs (.notLength (Bytes.ofText string).length)) []
  | account {order : Order} :
      ¬ InBits 64 order.account →
        Leaves .order (.order order) (.bcs (.tooWide order.account 64)) []
  | size {order : Order} :
      InBits 64 order.account → ¬ InBits 64 order.size →
        Leaves .order (.order order) (.bcs (.tooWide order.size 64))
          (Writer.littleEndian 8 order.account.toNat)
  | manyItems {item : Layout} {items : List Value} :
      2 ^ 32 ≤ items.length →
        Leaves (.vector item) (.list items) (.bcs (.notLength items.length)) []
  | item {item : Layout} {before after : List Value} {failing : Value} {failure : Failure}
      {left : Bytes} :
      (before ++ failing :: after).length < 2 ^ 32 → (∀ value ∈ before, item.Fits value) →
      Leaves item failing failure left →
        Leaves (.vector item) (.list (before ++ failing :: after)) failure
          (Writer.groups (before ++ failing :: after).length ++ before.flatMap item.form ++ left)

theorem settles_inBits (width : Nat) (value : Int) :
    Settles (Writer.unsigned width value) (InBits (8 * width) value)
      (Writer.littleEndian width value.toNat)
      (fun failure left => ¬ InBits (8 * width) value ∧
        failure = .bcs (.tooWide value (8 * width)) ∧ left = []) := by
  have room : (0 ≤ value ∧ value < (256 ^ width : Nat)) ↔ InBits (8 * width) value := by
    apply and_congr Iff.rfl
    rw [pow_mul]
    norm_num
  apply (settles_unsigned width value).failing.congr room rfl
  rw [room]
  exact fun _ _ known => known

theorem settles_bytes (added : Bytes) :
    Settles (Writer.bytes added) True added (fun _ _ => False) where
  adds := fun _ => adds_bytes added
  breaks := fun impossible => absurd trivial impossible

theorem settles_bool (value : Bool) :
    Settles (Writer.bool value) True [if value then 1 else 0] (fun _ _ => False) where
  adds := by
    intro _ buffer
    cases value with
    | false => rfl
    | true => rfl
  breaks := fun impossible => absurd trivial impossible

theorem fits_text_iff (string : String) :
    Fits .text (.text string) ↔ (Bytes.ofText string).length < 2 ^ 32 := by
  constructor
  · intro fits
    exact fits.2 string rfl
  · intro short
    refine ⟨⟨string, rfl⟩, ?_⟩
    intro other same
    have equal := congrArg Text.toString? same
    rw [Text.toString?_ofString, Text.toString?_ofString] at equal
    cases equal
    exact short

theorem settles_string (string : String) :
    Settles (Writer.text string) (Fits .text (.text string)) (form .text (.text string))
      (Leaves .text (.text string)) := by
  have whole := (settles_length (Bytes.ofText string).length).failing.bind
    (settles_bytes (Bytes.ofText string))
  have room : (0 ≤ ((Bytes.ofText string).length : Int) ∧
      ((Bytes.ofText string).length : Int) ≤ Reader.greatestLength) ↔
        (Bytes.ofText string).length < 2 ^ 32 := by
    rw [Reader.greatestLength]
    omega
  have isForm : form .text (.text string) =
      Writer.groups (Bytes.ofText string).length ++ Bytes.ofText string := by
    simp [form, textForm, Text.toString?_ofString]
  simp only [Writer.text, Text.toString?_ofString]
  apply whole.congr
  · rw [and_true, room, fits_text_iff]
  · rw [isForm]
    rfl
  · rw [room]
    rintro failure left (⟨long, rfl, rfl⟩ | ⟨-, rest, impossible, -⟩)
    · exact .longText (not_lt.mp long)
    · exact False.elim impossible

/-- A text is written behind its length; a text with halves adds nothing. -/
theorem settles_text (value : Text) :
    Settles (Writer.text value) (Fits .text (.text value)) (form .text (.text value))
      (Leaves .text (.text value)) := by
  cases isString : value.toString? with
  | some string =>
      rw [← Text.ofString_of_toString? isString]
      exact settles_string string
  | none =>
      have throws : Writer.text value = throw .notUtf8 := by
        rw [Writer.text, isString]
      have halves : ¬ Fits .text (.text value) := by
        rintro ⟨⟨string, rfl⟩, -⟩
        rw [Text.toString?_ofString] at isString
        cases isString
      rw [throws]
      exact ⟨fun fits => absurd fits halves,
        fun _ => ⟨_, [], .halves isString, breaks_throw _⟩⟩

theorem settles_order (order : Order) :
    Settles order.write (InBits 64 order.account ∧ InBits 64 order.size)
      (form .order (.order order)) (Leaves .order (.order order)) := by
  apply ((settles_inBits 8 order.account).bind (settles_inBits 8 order.size)).congr Iff.rfl rfl
  rintro failure left (⟨wide, rfl, rfl⟩ | ⟨fits, rest, ⟨wide, rfl, rfl⟩, rfl⟩)
  · exact .account wide
  · rw [List.append_nil]
    exact .size fits wide

/-- A value of the kind of a layout adds its form if it fits, and otherwise leaves what precedes the
part at fault. -/
theorem Writable.settles {layout : Layout} (writable : layout.Writable) {value : Value}
    (kind : layout.Matches value) :
    Settles (layout.write value) (layout.Fits value) (layout.form value)
      (Leaves layout value) := by
  induction writable generalizing value with
  | u8 =>
      cases value with
      | int value =>
          apply (settles_inBits 1 value).congr (by simp [Fits, Takes, InRange]) rfl
          rintro _ _ ⟨wide, rfl, rfl⟩
          exact .u8 wide
      | _ => exact False.elim kind
  | u64 =>
      cases value with
      | int value =>
          apply (settles_inBits 8 value).congr (by simp [Fits, Takes, InRange]) rfl
          rintro _ _ ⟨wide, rfl, rfl⟩
          exact .u64 wide
      | _ => exact False.elim kind
  | u128 =>
      cases value with
      | int value =>
          apply (settles_inBits 16 value).congr (by simp [Fits, Takes, InRange]) rfl
          rintro _ _ ⟨wide, rfl, rfl⟩
          exact .u128 wide
      | _ => exact False.elim kind
  | bool =>
      cases value with
      | bool value =>
          apply (settles_bool value).congr (by simp [Fits, Takes, InRange]) rfl
          exact fun _ _ impossible => False.elim impossible
      | _ => exact False.elim kind
  | text =>
      cases value with
      | text value => exact settles_text value
      | _ => exact False.elim kind
  | length =>
      cases value with
      | int value =>
          have room : (0 ≤ value ∧ value ≤ Reader.greatestLength) ↔ InBits 32 value := by
            rw [InBits, Reader.greatestLength]
            omega
          have fits : InBits 32 value ↔ Fits .length (.int value) := by
            simp [Fits, Takes, InRange]
          apply (settles_length value).failing.congr (room.trans fits) rfl
          rw [room]
          rintro _ _ ⟨wide, rfl, rfl⟩
          exact .length wide
      | _ => exact False.elim kind
  | order =>
      cases value with
      | order value =>
          apply (settles_order value).congr (by simp [Fits, Takes, InRange]) rfl
          exact fun _ _ known => known
      | _ => exact False.elim kind
  | @vector item _ inductionHypothesis =>
      cases value with
      | list items =>
          have whole := settles_vector items fun value member =>
            inductionHypothesis (kind value member)
          apply whole.congr
          · simp only [Fits, Takes, InRange, forall_and]
            tauto
          · rfl
          · rintro failure left (⟨many, rfl, rfl⟩ | ⟨short, _, byItems, rfl⟩)
            · exact .manyItems many
            · obtain ⟨before, failing, after, rest, rfl, fitting, known, rfl⟩ := byItems
              rw [← List.append_assoc]
              exact .item short fitting known
      | _ => exact False.elim kind

/-- Where a text without halves is at fault, as where anything else is, the writer lacks room. -/
theorem Leaves.lacksRoom {layout : Layout} {value : Value} {failure : Failure} {left : Bytes}
    (leaves : Leaves layout value failure left) (takes : layout.Takes value) :
    ∃ fault, failure = .bcs fault := by
  induction leaves with
  | halves isNone =>
      obtain ⟨string, rfl⟩ := takes
      rw [Text.toString?_ofString] at isNone
      cases isNone
  | item _ _ _ inductionHypothesis =>
      apply inductionHypothesis
      exact takes _ (List.mem_append_right _ List.mem_cons_self)
  | _ => exact ⟨_, rfl⟩

theorem Writable.matches_of_takes {layout : Layout} (writable : layout.Writable) {value : Value}
    (takes : layout.Takes value) : layout.Matches value := by
  induction writable generalizing value with
  | vector _ inductionHypothesis =>
      cases value with
      | list items => exact fun item member => inductionHypothesis (takes item member)
      | _ => exact False.elim takes
  | _ => cases value <;> first | exact trivial | exact takes

/-- A value that has a form is written if it is in range; otherwise the writer lacks room. -/
theorem Writable.settles_inRange {layout : Layout} (writable : layout.Writable) {value : Value}
    (takes : layout.Takes value) :
    Settles (layout.write value) (layout.InRange value) (layout.form value)
      (fun failure _ => ∃ fault, failure = .bcs fault) := by
  have settles := writable.settles (writable.matches_of_takes takes)
  apply settles.congr (and_iff_right takes) rfl
  exact fun failure left leaves => leaves.lacksRoom takes

/-- A writer only appends, and what it appends depends on the layout and the value alone. A value
that fits adds its form and succeeds. Any other value fails, and leaves what precedes the part at
fault. -/
theorem writing_only_appends {layout : Layout} (writable : layout.Writable) {value : Value}
    (kind : layout.Matches value) :
    (layout.Fits value → ∀ buffer,
        (layout.write value).run buffer = .ok () (buffer ++ layout.form value)) ∧
      (¬ layout.Fits value → ∃ failure left, Leaves layout value failure left ∧ ∀ buffer,
        (layout.write value).run buffer = .error failure (buffer ++ left)) := by
  have settles := writable.settles kind
  exact ⟨settles.adds, settles.breaks⟩

/-- Three vectors of orders; the last size is given. -/
def rows (size : Int) : Value :=
  .list [.list [.order ⟨1, 2⟩], .list [.order ⟨3, 4⟩, .order ⟨5, size⟩], .list []]

/-- A size without room in the second of three vectors. The lengths and orders before it are left,
and the account of its order. -/
theorem writing_only_appends_of_rows :
    (∀ buffer, ((Layout.vector (.vector .order)).write (rows 6)).run buffer =
        .ok () (buffer ++ (Layout.vector (.vector .order)).form (rows 6))) ∧
      ∃ failure left, Leaves (.vector (.vector .order)) (rows (-1)) failure left ∧
        (∀ buffer, ((Layout.vector (.vector .order)).write (rows (-1))).run buffer =
          .error failure (buffer ++ left)) ∧
        left = [3, 1, 1, 0, 0, 0, 0, 0, 0, 0, 2, 0, 0, 0, 0, 0, 0, 0, 2, 3, 0, 0, 0, 0, 0, 0, 0,
          4, 0, 0, 0, 0, 0, 0, 0, 5, 0, 0, 0, 0, 0, 0, 0] := by
  have writable : (Layout.vector (.vector .order)).Writable := .vector (.vector .order)
  have kind : ∀ size, (Layout.vector (.vector .order)).Matches (rows size) := by
    intro size
    simp [rows, Matches]
  have fits : (Layout.vector (.vector .order)).Fits (rows 6) := by
    simp [rows, Fits, Takes, InRange, InBits]
  have unfit : ¬ (Layout.vector (.vector .order)).Fits (rows (-1)) := by
    simp [rows, Fits, Takes, InRange, InBits]
  obtain ⟨failure, left, leaves, breaks⟩ := (writing_only_appends writable (kind (-1))).2 unfit
  refine ⟨(writing_only_appends writable (kind 6)).1 fits, failure, left, leaves, breaks, ?_⟩
  have run := breaks []
  cases run
  cbv

end Layout

end LedgerBook.Bcs
