import LedgerBook.Proofs.Bcs.RoundTrip
/-!
Readers that are decided by the bytes they take. What follows these bytes changes nothing, although
a vector looks at all that is left before it reads its items; without the last of these bytes there
is no value.
-/
namespace LedgerBook.Bcs

variable {α β : Type}

namespace Reader

/-- Where two readers one after the other fail. -/
theorem run_bind_eq_error {first : Reader α} {next : α → Reader β} {input left : Bytes}
    {failure : Failure} :
    (first >>= next).run input = .error failure left ↔
      first.run input = .error failure left ∨
        ∃ head between, first.run input = .ok head between ∧
          (next head).run between = .error failure left := by
  rw [EStateM.run_bind]
  cases first.run input with
  | ok head between =>
      constructor
      · intro follows
        exact Or.inr ⟨head, between, rfl, follows⟩
      · rintro (impossible | ⟨_, _, same, follows⟩)
        · cases impossible
        · cases same
          exact follows
  | error other rest =>
      constructor
      · intro fails
        cases fails
        exact Or.inl rfl
      · rintro (fails | ⟨_, _, impossible, _⟩)
        · cases fails
          rfl
        · cases impossible

/-- Refuses a number of items that is greater than that of the bytes left, and takes nothing. -/
def roomFor (count : Nat) : Reader Unit := do
  let left ← remaining
  if left < count then refuse (.tooManyItems count left)

theorem run_roomFor (count : Nat) (input : Bytes) :
    (roomFor count).run input =
      if input.length < count then .error (.bcs (.tooManyItems count input.length)) input
      else .ok () input := by
  have reads : remaining.run input = .ok input.length input := rfl
  rw [roomFor, EStateM.run_bind, reads]
  simp only
  split
  · rfl
  · rfl

/-- A vector is its length, the check that there is room for it, and its items. -/
theorem vector_eq (item : Reader α) :
    vector item = (do
      let count ← length
      roomFor count
      item.times count) := by
  unfold vector roomFor
  congr 1
  funext count
  rw [bind_assoc]
  congr 1
  funext left
  split
  · rfl
  · rw [pure_bind]

end Reader

/-! ## Framed readers -/

/-- A reader takes bytes from the front of its input, gives the same value and takes the same bytes
if more bytes follow, and fails only because of what the bytes hold. -/
structure Framed (reader : Reader α) : Prop where
  front : ∀ {input rest : Bytes} {value : α},
    reader.run input = .ok value rest → ∃ taken, input = taken ++ rest
  stays : ∀ {input rest : Bytes} {value : α},
    reader.run input = .ok value rest →
      ∀ more, reader.run (input ++ more) = .ok value (rest ++ more)
  blames : ∀ {input left : Bytes} {failure : Failure},
    reader.run input = .error failure left → ∃ fault, failure = .bcs fault

namespace Framed

theorem pure (value : α) : Framed (Pure.pure value : Reader α) where
  front := by
    intro input rest given gives
    cases gives
    exact ⟨[], rfl⟩
  stays := by
    intro input rest given gives more
    cases gives
    rfl
  blames := by
    intro input left failure impossible
    cases impossible

theorem refuse (fault : Fault) : Framed (Reader.refuse fault : Reader α) where
  front := fun gives => False.elim (Reader.run_refuse_ne_ok gives)
  stays := fun gives => False.elim (Reader.run_refuse_ne_ok gives)
  blames := by
    intro input left failure fails
    cases fails
    exact ⟨fault, rfl⟩

theorem bind {first : Reader α} {next : α → Reader β} (firstFramed : Framed first)
    (nextFramed : ∀ value, Framed (next value)) : Framed (first >>= next) where
  front := by
    intro input rest value reads
    obtain ⟨head, between, readsFirst, follows⟩ := Reader.run_bind_eq_ok.mp reads
    obtain ⟨taken, rfl⟩ := firstFramed.front readsFirst
    obtain ⟨others, rfl⟩ := (nextFramed head).front follows
    exact ⟨taken ++ others, (List.append_assoc _ _ _).symm⟩
  stays := by
    intro input rest value reads more
    obtain ⟨head, between, readsFirst, follows⟩ := Reader.run_bind_eq_ok.mp reads
    rw [Reader.run_bind_eq_ok]
    exact ⟨head, between ++ more, firstFramed.stays readsFirst more,
      (nextFramed head).stays follows more⟩
  blames := by
    intro input left failure fails
    rcases Reader.run_bind_eq_error.mp fails with failsFirst | ⟨head, between, -, follows⟩
    · exact firstFramed.blames failsFirst
    · exact (nextFramed head).blames follows

theorem bytes (count : Int) : Framed (Reader.bytes count) where
  front := fun takes => ⟨_, (Reader.run_bytes_eq_ok.mp takes).1⟩
  stays := by
    intro input rest taken takes more
    obtain ⟨rfl, wide⟩ := Reader.run_bytes_eq_ok.mp takes
    exact Reader.run_bytes_eq_ok.mpr ⟨List.append_assoc _ _ _, wide⟩
  blames := by
    intro input left failure fails
    rw [Reader.run_bytes] at fails
    split at fails
    · cases fails
      exact ⟨_, rfl⟩
    · cases fails

theorem unsigned (width : Nat) : Framed (Reader.unsigned width) :=
  (bytes width).bind fun taken => pure (Reader.littleEndian taken)

theorem bool : Framed Reader.bool := by
  refine (unsigned 1).bind ?_
  intro byte
  split
  · exact pure false
  · exact pure true
  · exact refuse (.notBool byte)

theorem lengthFrom (groups shift value : Nat) : Framed (Reader.lengthFrom groups shift value) := by
  induction groups generalizing shift value with
  | zero => exact refuse .hugeLength
  | succ groups inductionHypothesis =>
      refine (unsigned 1).bind ?_
      intro byte
      simp only
      split
      · exact inductionHypothesis (shift + 7) _
      · split
        · exact refuse .redundantLength
        · split
          · exact refuse .hugeLength
          · exact pure _

theorem length : Framed Reader.length :=
  lengthFrom 5 0 0

theorem text : Framed Reader.text := by
  refine length.bind ?_
  intro count
  refine (bytes count).bind ?_
  intro taken
  split
  · exact pure _
  · exact refuse .notText

/-- The check for room sees all that is left, but more bytes never make it fail. -/
theorem roomFor (count : Nat) : Framed (Reader.roomFor count) where
  front := by
    intro input rest value passes
    rw [Reader.run_roomFor] at passes
    split at passes
    · cases passes
    · cases passes
      exact ⟨[], rfl⟩
  stays := by
    intro input rest value passes more
    rw [Reader.run_roomFor] at passes ⊢
    split at passes
    · cases passes
    next enough =>
      cases passes
      rw [if_neg (by rw [List.length_append]; omega)]
  blames := by
    intro input left failure fails
    rw [Reader.run_roomFor] at fails
    split at fails
    · cases fails
      exact ⟨_, rfl⟩
    · cases fails

variable {reader : Reader α}

theorem times (framed : Framed reader) (count : Nat) : Framed (reader.times count) := by
  induction count with
  | zero => exact pure []
  | succ count inductionHypothesis =>
      exact framed.bind fun first => inductionHypothesis.bind fun rest => pure (first :: rest)

theorem vector (framed : Framed reader) : Framed (Reader.vector reader) := by
  rw [Reader.vector_eq]
  exact length.bind fun count => (roomFor count).bind fun _ => framed.times count

/-- Without all the bytes that a value takes there is no value. -/
theorem rejects_short (framed : Framed reader) {taken rest short : Bytes} {value : α}
    (reads : reader.run (taken ++ rest) = .ok value rest) (front : short <+: taken ++ rest)
    (shorter : short.length < taken.length) : Rejects reader short := by
  cases outcome : reader.run short with
  | error failure left =>
      obtain ⟨fault, rfl⟩ := framed.blames outcome
      exact ⟨fault, left, outcome⟩
  | ok other left =>
      -- What is read of the shorter input is read of the whole, where it takes fewer bytes.
      obtain ⟨more, whole⟩ := front
      have again := framed.stays outcome more
      rw [whole, reads] at again
      injection again with _ same
      have lengths := congrArg List.length whole
      have lefts := congrArg List.length same
      simp only [List.length_append] at lengths lefts
      omega

end Framed

/-! ## Readers composed of operations -/

/-- The readers that are composed of the operations on numbers, truth values, texts, lengths, bytes
of some count and vectors, one after the other and nested in any way. What is read next may depend
on what has been read. -/
inductive Composed : {α : Type} → Reader α → Prop
  | unsigned (width : Nat) : Composed (Reader.unsigned width)
  | bool : Composed Reader.bool
  | text : Composed Reader.text
  | length : Composed Reader.length
  | bytes (count : Int) : Composed (Reader.bytes count)
  | give {α : Type} (value : α) : Composed (pure value)
  | vector {α : Type} {item : Reader α} : Composed item → Composed (Reader.vector item)
  | follow {α β : Type} {first : Reader α} {next : α → Reader β} :
      Composed first → (∀ value, Composed (next value)) → Composed (first >>= next)

theorem Composed.framed {reader : Reader α} (composed : Composed reader) : Framed reader := by
  induction composed with
  | unsigned width => exact Framed.unsigned width
  | bool => exact Framed.bool
  | text => exact Framed.text
  | length => exact Framed.length
  | bytes count => exact Framed.bytes count
  | give value => exact Framed.pure value
  | vector _ itemFramed => exact itemFramed.vector
  | follow _ _ firstFramed nextFramed => exact firstFramed.bind nextFramed

theorem Composed.map {reader : Reader α} (composed : Composed reader) (convert : α → β) :
    Composed (do return convert (← reader)) :=
  composed.follow fun value => .give (convert value)

theorem composed_readOrder : Composed Order.read :=
  (Composed.unsigned 8).follow fun account => (Composed.unsigned 8).map fun size =>
    (⟨account, size⟩ : Order)

namespace Layout

/-- The layouts in which no decoder of the caller refuses. -/
inductive Plain : Layout → Prop
  | u8 : Plain .u8
  | u32 : Plain .u32
  | u64 : Plain .u64
  | u128 : Plain .u128
  | bool : Plain .bool
  | text : Plain .text
  | length : Plain .length
  | order : Plain .order
  | unit : Plain .unit
  | bytes (count : Int) : Plain (.bytes count)
  | vector {item : Layout} : Plain item → Plain (.vector item)
  | sequence {items : List Layout} : (∀ item ∈ items, Plain item) → Plain (.sequence items)

theorem composed_readAll {items : List Layout} (composed : ∀ item ∈ items, Composed item.read) :
    Composed (readAll items) := by
  induction items with
  | nil => exact .give []
  | cons first rest inductionHypothesis =>
      rw [List.forall_mem_cons] at composed
      exact composed.1.follow fun value =>
        (inductionHypothesis composed.2).map fun others => value :: others

/-- The reader of a plain layout is composed of operations. -/
theorem Plain.composed {layout : Layout} (plain : layout.Plain) : Composed layout.read := by
  induction plain with
  | u8 | u32 | u64 | u128 => exact (Composed.unsigned _).map fun number : Nat => Value.int number
  | bool => exact Composed.bool.map Value.bool
  | text => exact Composed.text.map fun string : String => Value.text string
  | length => exact Composed.length.map fun number : Nat => Value.int number
  | order => exact composed_readOrder.map Value.order
  | unit => exact .give Value.unit
  | bytes count => exact (Composed.bytes count).map Value.bytes
  | vector _ itemComposed => exact itemComposed.vector.map Value.list
  | sequence _ itemsComposed => exact (composed_readAll itemsComposed).map Value.list

end Layout

end LedgerBook.Bcs
