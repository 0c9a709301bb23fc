import LedgerBook.Proofs.Bcs.Framing
/-!
Where reading stands in its input. Every operation takes bytes from the front of what is left, also
where it fails, so that operations that go on after failures take consecutive parts of the input.
-/
namespace LedgerBook.Bcs

variable {α β : Type}

/-! ## What a reader takes -/

/-- A result with what is left of the input. -/
def ending (rest : Bytes) : Except Failure α → EStateM.Result Failure Bytes α
  | .ok value => .ok value rest
  | .error failure => .error failure rest

theorem ending_inj {rest other : Bytes} {result final : Except Failure α}
    (same : ending rest result = ending other final) : rest = other ∧ result = final := by
  cases result with
  | ok value =>
      cases final with
      | ok again =>
          cases same
          exact ⟨rfl, rfl⟩
      | error failure => cases same
  | error failure =>
      cases final with
      | ok again => cases same
      | error again =>
          cases same
          exact ⟨rfl, rfl⟩

/-- A reader takes some bytes from the front of its input, with a result, and leaves the rest. -/
def Consumes (reader : Reader α) (taken : Bytes) (result : Except Failure α) (rest : Bytes) :
    Prop :=
  reader.run (taken ++ rest) = ending rest result

/-- Whatever its input is, a reader takes bytes from the front of it. -/
def StaysInside (reader : Reader α) : Prop :=
  ∀ input, ∃ taken result rest, input = taken ++ rest ∧ Consumes reader taken result rest

theorem Consumes.unique {reader : Reader α} {taken other rest left : Bytes}
    {result final : Except Failure α} (consumes : Consumes reader taken result rest)
    (again : Consumes reader other final left) (same : taken ++ rest = other ++ left) :
    taken = other ∧ result = final ∧ rest = left := by
  rw [Consumes, same, again] at consumes
  obtain ⟨rfl, rfl⟩ := ending_inj consumes
  exact ⟨List.append_cancel_right same, rfl, rfl⟩

theorem consumes_iff_of_nothing {reader : Reader α} {taken rest : Bytes}
    {result final : Except Failure α} (nothing : ∀ input, Consumes reader [] final input) :
    Consumes reader taken result rest ↔ taken = [] ∧ result = final := by
  constructor
  · intro consumes
    obtain ⟨rfl, rfl, -⟩ := consumes.unique (nothing (taken ++ rest)) rfl
    exact ⟨rfl, rfl⟩
  · rintro ⟨rfl, rfl⟩
    exact nothing rest

theorem consumes_pure_iff {value : α} {taken rest : Bytes} {result : Except Failure α} :
    Consumes (pure value) taken result rest ↔ taken = [] ∧ result = .ok value :=
  consumes_iff_of_nothing fun _ => rfl

theorem consumes_throw_iff {failure : Failure} {taken rest : Bytes}
    {result : Except Failure α} :
    Consumes (throw failure : Reader α) taken result rest ↔
      taken = [] ∧ result = .error failure :=
  consumes_iff_of_nothing fun _ => rfl

section Composition

variable {first : Reader α} {next : α → Reader β} {handler : Failure → Reader α} {value : α}
  {failure : Failure} {front back taken rest : Bytes}

theorem Consumes.bind {result : Except Failure β}
    (consumes : Consumes first front (.ok value) (back ++ rest))
    (follows : Consumes (next value) back result rest) :
    Consumes (first >>= next) (front ++ back) result rest := by
  unfold Consumes at consumes ⊢
  rw [List.append_assoc, EStateM.run_bind, consumes]
  exact follows

/-- What follows takes nothing. -/
theorem Consumes.bind_still {result : Except Failure β}
    (consumes : Consumes first front (.ok value) rest)
    (follows : Consumes (next value) [] result rest) :
    Consumes (first >>= next) front result rest := by
  rw [← List.append_nil front]
  exact consumes.bind follows

theorem Consumes.bind_error (fails : Consumes first front (.error failure) rest)
    (next : α → Reader β) : Consumes (first >>= next) front (.error failure) rest := by
  unfold Consumes at fails ⊢
  rw [EStateM.run_bind, fails]
  rfl

theorem run_tryCatch (input : Bytes) :
    (tryCatch first handler).run input =
      match first.run input with
      | .ok value rest => .ok value rest
      | .error failure rest => (handler failure).run rest := by
  simp only [tryCatch, tryCatchThe, MonadExceptOf.tryCatch, EStateM.tryCatch, EStateM.run]
  cases first input with
  | ok value rest => rfl
  | error failure rest => rfl

namespace StaysInside

theorem of_pure (value : α) : StaysInside (pure value : Reader α) :=
  fun input => ⟨[], .ok value, input, rfl, rfl⟩

theorem of_throw (failure : Failure) : StaysInside (throw failure : Reader α) :=
  fun input => ⟨[], .error failure, input, rfl, rfl⟩

theorem bind (inside : StaysInside first) (insideNext : ∀ value, StaysInside (next value)) :
    StaysInside (first >>= next) := by
  intro input
  obtain ⟨front, result, between, rfl, consumes⟩ := inside input
  cases result with
  | error failure => exact ⟨front, .error failure, between, rfl, consumes.bind_error next⟩
  | ok value =>
      obtain ⟨back, result, rest, rfl, follows⟩ := insideNext value between
      exact ⟨front ++ back, result, rest, (List.append_assoc _ _ _).symm, consumes.bind follows⟩

/-- Going on after a failure goes on where the failure left the input. -/
theorem recover (inside : StaysInside first)
    (insideHandler : ∀ failure, StaysInside (handler failure)) :
    StaysInside (tryCatch first handler) := by
  intro input
  obtain ⟨front, result, between, rfl, consumes⟩ := inside input
  cases result with
  | ok value =>
      refine ⟨front, .ok value, between, rfl, ?_⟩
      rw [Consumes, run_tryCatch, consumes]
      rfl
  | error failure =>
      obtain ⟨back, result, rest, rfl, follows⟩ := insideHandler failure between
      refine ⟨front ++ back, result, rest, (List.append_assoc _ _ _).symm, ?_⟩
      rw [Consumes, List.append_assoc, run_tryCatch, consumes]
      exact follows

end StaysInside

/-- What two readers one after the other take is what the first takes, where it fails, and else what
each of them takes. -/
theorem Consumes.bind_cases {result : Except Failure β} (inside : StaysInside first)
    (insideNext : ∀ value, StaysInside (next value))
    (consumes : Consumes (first >>= next) taken result rest) :
    (∃ failure, Consumes first taken (.error failure) rest ∧ result = .error failure) ∨
      ∃ front back value, taken = front ++ back ∧
        Consumes first front (.ok value) (back ++ rest) ∧
          Consumes (next value) back result rest := by
  obtain ⟨front, firstResult, between, parts, consumesFirst⟩ := inside (taken ++ rest)
  cases firstResult with
  | error failure =>
      obtain ⟨rfl, rfl, rfl⟩ := consumes.unique (consumesFirst.bind_error next) parts
      exact Or.inl ⟨failure, consumesFirst, rfl⟩
  | ok value =>
      obtain ⟨back, last, left, rfl, follows⟩ := insideNext value between
      rw [← List.append_assoc] at parts
      obtain ⟨rfl, rfl, rfl⟩ := consumes.unique (consumesFirst.bind follows) parts
      exact Or.inr ⟨front, back, value, rfl, consumesFirst, follows⟩

end Composition

/-! ## Numbers and bytes -/

/-- A reader takes as many bytes as it is wide, of which it makes a value, or it fails and takes
none. -/
def AllOrNothing (reader : Reader α) (width : Int) (value : Bytes → α) : Prop :=
  ∀ {taken rest : Bytes} {result : Except Failure α}, Consumes reader taken result rest →
    (taken.length : Int) = width ∧ result = .ok (value taken) ∨
      taken = [] ∧ ∃ failure, result = .error failure

theorem consumes_bytes_of_short {count : Int} {input : Bytes}
    (short : count < 0 ∨ (input.length : Int) < count) :
    Consumes (Reader.bytes count) [] (.error (.bcs (.endOfInput count input.length))) input := by
  rw [Consumes, List.nil_append, Reader.run_bytes, if_pos (by simpa using short)]
  rfl

theorem consumes_bytes (taken rest : Bytes) :
    Consumes (Reader.bytes taken.length) taken (.ok taken) rest :=
  Reader.run_bytes_eq_ok.mpr ⟨rfl, rfl⟩

theorem bytes_cases (count : Int) (input : Bytes) :
    (count < 0 ∨ (input.length : Int) < count) ∨
      ∃ taken rest, input = taken ++ rest ∧ count = taken.length := by
  by_cases short : count < 0 ∨ (input.length : Int) < count
  · exact Or.inl short
  · refine Or.inr ⟨input.take count.toNat, input.drop count.toNat, ?_, ?_⟩
    · exact (List.take_append_drop _ _).symm
    · rw [List.length_take]
      omega

theorem StaysInside.of_bytes (count : Int) : StaysInside (Reader.bytes count) := by
  intro input
  rcases bytes_cases count input with short | ⟨taken, rest, rfl, rfl⟩
  · exact ⟨[], _, input, rfl, consumes_bytes_of_short short⟩
  · exact ⟨taken, _, rest, rfl, consumes_bytes taken rest⟩

theorem allOrNothing_bytes (count : Int) :
    AllOrNothing (Reader.bytes count) count (fun taken => taken) := by
  intro taken rest result consumes
  rcases bytes_cases count (taken ++ rest) with short | ⟨front, left, parts, rfl⟩
  · obtain ⟨rfl, rfl, -⟩ := consumes.unique (consumes_bytes_of_short short) rfl
    exact Or.inr ⟨rfl, _, rfl⟩
  · obtain ⟨rfl, rfl, -⟩ := consumes.unique (consumes_bytes front left) parts
    exact Or.inl ⟨rfl, rfl⟩

theorem StaysInside.of_unsigned (width : Nat) : StaysInside (Reader.unsigned width) :=
  (of_bytes width).bind fun _ => of_pure _

theorem allOrNothing_unsigned (width : Nat) :
    AllOrNothing (Reader.unsigned width) width Reader.littleEndian := by
  intro taken rest result consumes
  rcases consumes.bind_cases (.of_bytes width) (fun _ => .of_pure _) with
    ⟨failure, fails, rfl⟩ | ⟨front, back, value, rfl, takes, gives⟩
  · rcases allOrNothing_bytes width fails with ⟨-, impossible⟩ | ⟨rfl, -⟩
    · cases impossible
    · exact Or.inr ⟨rfl, failure, rfl⟩
  · obtain ⟨rfl, rfl⟩ := consumes_pure_iff.mp gives
    rw [List.append_nil]
    rcases allOrNothing_bytes width takes with ⟨wide, same⟩ | ⟨-, failure, impossible⟩
    · cases same
      exact Or.inl ⟨wide, rfl⟩
    · cases impossible

theorem StaysInside.of_bool : StaysInside Reader.bool := by
  apply (of_unsigned 1).bind
  intro byte
  split
  · exact of_pure false
  · exact of_pure true
  · exact of_throw _

/-! ## Lengths and texts -/

namespace Reader

/-- What a length does once it has read one more byte. -/
def afterByte (groups shift value byte : Nat) : Reader Nat :=
  let value := value + (byte % 128) <<< shift
  if 128 ≤ byte then lengthFrom groups (shift + 7) value
  else if byte = 0 ∧ 0 < shift then refuse .redundantLength
  else if greatestLength < value then refuse .hugeLength
  else return value

theorem lengthFrom_succ (groups shift value : Nat) :
    lengthFrom (groups + 1) shift value = unsigned 1 >>= afterByte groups shift value :=
  rfl

end Reader

theorem StaysInside.of_afterByte {groups : Nat}
    (inside : ∀ shift value, StaysInside (Reader.lengthFrom groups shift value))
    (shift value byte : Nat) : StaysInside (Reader.afterByte groups shift value byte) := by
  unfold Reader.afterByte
  simp only
  split
  · exact inside (shift + 7) _
  · split
    · exact of_throw _
    · split
      · exact of_throw _
      · exact of_pure _

theorem StaysInside.of_lengthFrom (groups shift value : Nat) :
    StaysInside (Reader.lengthFrom groups shift value) := by
  induction groups generalizing shift value with
  | zero => exact of_throw _
  | succ groups inductionHypothesis =>
      rw [Reader.lengthFrom_succ]
      exact (of_unsigned 1).bind (of_afterByte inductionHypothesis shift value)

theorem StaysInside.of_length : StaysInside Reader.length :=
  of_lengthFrom 5 0 0

theorem length_le_of_afterByte {groups shift value byte : Nat} {taken rest : Bytes}
    {result : Except Failure Nat}
    (bounded : ∀ {shift value}, Consumes (Reader.lengthFrom groups shift value) taken result rest →
      taken.length ≤ groups)
    (consumes : Consumes (Reader.afterByte groups shift value byte) taken result rest) :
    taken.length ≤ groups := by
  unfold Reader.afterByte at consumes
  simp only at consumes
  split at consumes
  · exact bounded consumes
  · have nothing : taken = [] := by
      split at consumes
      · exact (consumes_throw_iff.mp consumes).1
      · split at consumes
        · exact (consumes_throw_iff.mp consumes).1
        · exact (consumes_pure_iff.mp consumes).1
    rw [nothing]
    exact Nat.zero_le _

/-- A length takes one byte for each of its groups, and none more where it fails. -/
theorem length_le_of_lengthFrom {groups shift value : Nat} {taken rest : Bytes}
    {result : Except Failure Nat}
    (consumes : Consumes (Reader.lengthFrom groups shift value) taken result rest) :
    taken.length ≤ groups := by
  induction groups generalizing shift value taken with
  | zero =>
      rw [(consumes_throw_iff.mp consumes).1]
      exact Nat.le_refl 0
  | succ groups inductionHypothesis =>
      rw [Reader.lengthFrom_succ] at consumes
      rcases consumes.bind_cases (.of_unsigned 1) (.of_afterByte (.of_lengthFrom groups) shift value)
        with ⟨failure, fails, rfl⟩ | ⟨front, back, byte, rfl, takes, follows⟩
      · rcases allOrNothing_unsigned 1 fails with ⟨-, impossible⟩ | ⟨rfl, -⟩
        · cases impossible
        · exact Nat.zero_le _
      · have short := length_le_of_afterByte inductionHypothesis follows
        rcases allOrNothing_unsigned 1 takes with ⟨one, -⟩ | ⟨-, failure, impossible⟩
        · rw [List.length_append]
          omega
        · cases impossible

/-- A length takes at most five bytes, also where it fails. It is one byte at least, and is less
than two to the power of 32. -/
theorem length_bounds {taken rest : Bytes} {result : Except Failure Nat}
    (consumes : Consumes Reader.length taken result rest) :
    taken.length ≤ 5 ∧ ∀ count, result = .ok count → 1 ≤ taken.length ∧ count < 2 ^ 32 := by
  refine ⟨length_le_of_lengthFrom consumes, ?_⟩
  rintro count rfl
  obtain ⟨bounded, parts⟩ := Reader.run_length_eq_ok.mp consumes
  have same : taken = Writer.groups count := List.append_cancel_right parts
  constructor
  · rw [same]
    exact List.length_pos_iff.mpr (Writer.groups_ne_nil count)
  · exact Nat.lt_of_le_of_lt bounded (by decide)

theorem StaysInside.of_text : StaysInside Reader.text := by
  apply of_length.bind
  intro count
  apply (of_bytes count).bind
  intro raw
  split
  · exact of_pure _
  · exact of_throw _

/-- A text whose bytes are missing takes its length only. -/
theorem consumes_text_of_missing {front behind : Bytes} {count : Nat}
    (reads : Consumes Reader.length front (.ok count) behind) (missing : behind.length < count) :
    Consumes Reader.text front (.error (.bcs (.endOfInput count behind.length))) behind := by
  have short : (count : Int) < 0 ∨ (behind.length : Int) < count := by omega
  apply reads.bind_still
  exact (consumes_bytes_of_short short).bind_error _

/-! ## Vectors -/

/-- The items of a vector are read one after the other until one of them fails: what each of those
that are attempted takes, and what comes of them. -/
inductive Attempts (item : Reader α) : Nat → List Bytes → Except Failure (List α) → Bytes → Prop
  | done (rest : Bytes) : Attempts item 0 [] (.ok []) rest
  | failed {count : Nat} {taken rest : Bytes} {failure : Failure} :
      Consumes item taken (.error failure) rest →
        Attempts item (count + 1) [taken] (.error failure) rest
  | next {count : Nat} {taken rest : Bytes} {slices : List Bytes} {value : α}
      {result : Except Failure (List α)} :
      Consumes item taken (.ok value) (slices.flatten ++ rest) →
        Attempts item count slices result rest →
          Attempts item (count + 1) (taken :: slices) (result.map (value :: ·)) rest

namespace Attempts

variable {item : Reader α} {count : Nat} {slices : List Bytes} {result : Except Failure (List α)}
  {rest : Bytes}

theorem length_le (attempts : Attempts item count slices result rest) : slices.length ≤ count := by
  induction attempts with
  | done rest => exact Nat.le_refl 0
  | failed _ => exact Nat.succ_le_succ (Nat.zero_le _)
  | next _ _ shorter => exact Nat.succ_le_succ shorter

theorem consumes (attempts : Attempts item count slices result rest) :
    Consumes (item.times count) slices.flatten result rest := by
  induction attempts with
  | done rest => rfl
  | failed fails =>
      rw [List.flatten_singleton]
      exact fails.bind_error _
  | @next count taken rest slices value result takes _ consumesOthers =>
      rw [List.flatten_cons]
      apply takes.bind
      cases result with
      | error failure => exact consumesOthers.bind_error _
      | ok others =>
          apply consumesOthers.bind_still
          exact consumes_pure_iff.mpr ⟨rfl, rfl⟩

theorem exists_of_staysInside (inside : StaysInside item) (count : Nat) (input : Bytes) :
    ∃ slices result rest, input = slices.flatten ++ rest ∧
      Attempts item count slices result rest := by
  induction count generalizing input with
  | zero => exact ⟨[], .ok [], input, rfl, .done input⟩
  | succ count inductionHypothesis =>
      obtain ⟨taken, result, between, rfl, consumes⟩ := inside input
      cases result with
      | error failure =>
          refine ⟨[taken], .error failure, between, ?_, .failed consumes⟩
          rw [List.flatten_singleton]
      | ok value =>
          obtain ⟨slices, others, rest, rfl, attempts⟩ := inductionHypothesis between
          refine ⟨taken :: slices, others.map (value :: ·), rest, ?_, .next consumes attempts⟩
          rw [List.flatten_cons, List.append_assoc]

end Attempts

theorem StaysInside.of_times {item : Reader α} (inside : StaysInside item) (count : Nat) :
    StaysInside (item.times count) := by
  intro input
  obtain ⟨slices, result, rest, parts, attempts⟩ :=
    Attempts.exists_of_staysInside inside count input
  exact ⟨slices.flatten, result, rest, parts, attempts.consumes⟩

theorem consumes_roomFor_of_lt {count : Nat} {behind : Bytes} (crowded : behind.length < count) :
    Consumes (Reader.roomFor count) [] (.error (.bcs (.tooManyItems count behind.length)))
      behind := by
  rw [Consumes, List.nil_append, Reader.run_roomFor, if_pos crowded]
  rfl

theorem consumes_roomFor_of_le {count : Nat} {behind : Bytes} (room : count ≤ behind.length) :
    Consumes (Reader.roomFor count) [] (.ok ()) behind := by
  rw [Consumes, List.nil_append, Reader.run_roomFor, if_neg (by omega)]
  rfl

theorem StaysInside.of_roomFor (count : Nat) : StaysInside (Reader.roomFor count) := by
  intro input
  rcases Nat.lt_or_ge input.length count with crowded | room
  · exact ⟨[], _, input, rfl, consumes_roomFor_of_lt crowded⟩
  · exact ⟨[], _, input, rfl, consumes_roomFor_of_le room⟩

theorem StaysInside.of_vector {item : Reader α} (inside : StaysInside item) :
    StaysInside (Reader.vector item) := by
  rw [Reader.vector_eq]
  apply of_length.bind
  intro count
  exact (of_roomFor count).bind fun _ => inside.of_times count

section Vector

variable {front behind : Bytes} {count : Nat}

theorem consumes_vector_of_lengthless {failure : Failure} (item : Reader α)
    (fails : Consumes Reader.length front (.error failure) behind) :
    Consumes (Reader.vector item) front (.error failure) behind := by
  rw [Reader.vector_eq]
  exact fails.bind_error _

theorem consumes_vector_of_lt (item : Reader α)
    (reads : Consumes Reader.length front (.ok count) behind) (crowded : behind.length < count) :
    Consumes (Reader.vector item) front (.error (.bcs (.tooManyItems count behind.length)))
      behind := by
  rw [Reader.vector_eq]
  apply reads.bind_still
  exact (consumes_roomFor_of_lt crowded).bind_error _

theorem Attempts.consumes_vector {item : Reader α} {slices : List Bytes} {rest : Bytes}
    {result : Except Failure (List α)} (attempts : Attempts item count slices result rest)
    (reads : Consumes Reader.length front (.ok count) (slices.flatten ++ rest))
    (room : count ≤ (slices.flatten ++ rest).length) :
    Consumes (Reader.vector item) (front ++ slices.flatten) result rest := by
  rw [Reader.vector_eq]
  apply reads.bind
  exact (consumes_roomFor_of_le room).bind attempts.consumes

end Vector

/-! ## Operations one after the other -/

theorem StaysInside.of_remaining : StaysInside Reader.remaining :=
  fun input => ⟨[], .ok input.length, input, rfl, rfl⟩

theorem StaysInside.of_finish : StaysInside Reader.finish := by
  apply of_remaining.bind
  intro left
  split
  · exact of_throw _
  · exact of_pure ()

/-- What can be done with a reader: its operations one after the other and nested in any way, where
what is done next may depend on what has been read and on how it has failed. -/
inductive Script : {α : Type} → Reader α → Prop
  | unsigned (width : Nat) : Script (Reader.unsigned width)
  | bool : Script Reader.bool
  | text : Script Reader.text
  | length : Script Reader.length
  | bytes (count : Int) : Script (Reader.bytes count)
  | remaining : Script Reader.remaining
  | finish : Script Reader.finish
  | give {α : Type} (value : α) : Script (pure value)
  | fail {α : Type} (failure : Failure) : Script (throw failure : Reader α)
  | vector {α : Type} {item : Reader α} : Script item → Script (Reader.vector item)
  | follow {α β : Type} {first : Reader α} {next : α → Reader β} :
      Script first → (∀ value, Script (next value)) → Script (first >>= next)
  | recover {α : Type} {first : Reader α} {handler : Failure → Reader α} :
      Script first → (∀ failure, Script (handler failure)) → Script (tryCatch first handler)

theorem Script.staysInside {reader : Reader α} (script : Script reader) : StaysInside reader := by
  induction script with
  | unsigned width => exact .of_unsigned width
  | bool => exact .of_bool
  | text => exact .of_text
  | length => exact .of_length
  | bytes count => exact .of_bytes count
  | remaining => exact .of_remaining
  | finish => exact .of_finish
  | give value => exact .of_pure value
  | fail failure => exact .of_throw failure
  | vector _ item => exact .of_vector item
  | follow _ _ first next => exact first.bind next
  | recover _ _ first handler => exact first.recover handler

theorem Script.map {reader : Reader α} (script : Script reader) (convert : α → β) :
    Script (do return convert (← reader)) :=
  script.follow fun value => .give (convert value)

namespace Layout

mutual

/-- Reading a layout is done with the operations, also where a decoder of the caller refuses. -/
theorem script_read : (layout : Layout) → Script layout.read
  | .u8 => (Script.unsigned 1).map fun number : Nat => Value.int number
  | .u32 => (Script.unsigned 4).map fun number : Nat => Value.int number
  | .u64 => (Script.unsigned 8).map fun number : Nat => Value.int number
  | .u128 => (Script.unsigned 16).map fun number : Nat => Value.int number
  | .bool => Script.bool.map Value.bool
  | .text => Script.text.map fun string : String => Value.text string
  | .length => Script.length.map fun number : Nat => Value.int number
  | .order =>
      ((Script.unsigned 8).follow fun account => (Script.unsigned 8).map fun size =>
        (⟨account, size⟩ : Order)).map Value.order
  | .unit => .give Value.unit
  | .refusing name reason => .fail (.foreign name reason)
  | .bytes count => (Script.bytes count).map Value.bytes
  | .vector item => (script_read item).vector.map Value.list
  | .sequence items => (script_readAll items).map Value.list

theorem script_readAll : (items : List Layout) → Script (readAll items)
  | [] => .give []
  | first :: rest =>
      (script_read first).follow fun value => (script_readAll rest).map fun others =>
        value :: others

end

end Layout

/-- One thing that is done with a reader. -/
structure Operation where
  {Result : Type}
  reader : Reader Result
  script : Script reader

/-- Operations on one input, each from where the one before it has left it, whether that has failed
or not: the bytes that each of them takes, and what is left after each of them. -/
inductive Session : List Operation → Bytes → List Bytes → List Bytes → Prop
  | ended (input : Bytes) : Session [] input [] []
  | next {operation : Operation} {others : List Operation} {taken left : Bytes}
      {slices standings : List Bytes} {result : Except Failure operation.Result} :
      Consumes operation.reader taken result left → Session others left slices standings →
        Session (operation :: others) (taken ++ left) (taken :: slices) (left :: standings)

namespace Session

variable {operations : List Operation} {input : Bytes} {slices standings : List Bytes}

theorem exists_of_operations (operations : List Operation) (input : Bytes) :
    ∃ slices standings, Session operations input slices standings := by
  induction operations generalizing input with
  | nil => exact ⟨[], [], .ended input⟩
  | cons operation others inductionHypothesis =>
      obtain ⟨taken, result, left, rfl, consumes⟩ := operation.script.staysInside input
      obtain ⟨slices, standings, session⟩ := inductionHypothesis left
      exact ⟨taken :: slices, left :: standings, .next consumes session⟩

/-- What is left after some operations is what they have not taken. -/
theorem parts (session : Session operations input slices standings) {count : Nat} {left : Bytes}
    (stands : (input :: standings)[count]? = some left) :
    input = (slices.take count).flatten ++ left := by
  induction session generalizing count with
  | ended input =>
      cases count with
      | zero =>
          cases stands
          rfl
      | succ count => cases stands
  | @next operation others taken between slices standings result consumes session partsOthers =>
      cases count with
      | zero =>
          cases stands
          rfl
      | succ count =>
          have rest : between = (slices.take count).flatten ++ left := partsOthers stands
          rw [List.take_succ_cons, List.flatten_cons, List.append_assoc, ← rest]

theorem length_eq (session : Session operations input slices standings) :
    slices.length = operations.length ∧ standings.length = operations.length := by
  induction session with
  | ended input => exact ⟨rfl, rfl⟩
  | next _ _ lengths =>
      simp only [List.length_cons]
      omega

/-- What is left of the input only becomes less. -/
theorem decreases (session : Session operations input slices standings) :
    (input :: standings).Pairwise fun before after => after <:+ before := by
  induction session with
  | ended input => exact List.pairwise_singleton _ input
  | @next operation others taken left slices standings result consumes session ordered =>
      apply List.Pairwise.cons _ ordered
      intro after later
      have inside : after <:+ left := by
        rcases List.mem_cons.mp later with rfl | member
        · exact List.suffix_rfl
        · exact List.rel_of_pairwise_cons ordered member
      exact inside.trans (List.suffix_append taken left)

end Session

/-- Reading never leaves its input, also after failures. Every sequence of operations takes
consecutive parts of the input, and what is left after each of them is what follows these parts,
so that it never becomes longer. Numbers and bytes take their width, or they fail and take nothing;
a length takes at most five bytes; a text whose bytes are missing takes its length only; and a
vector takes its length only, or attempts no more items than there are bytes behind its length. -/
theorem reading_stays_inside :
    (∀ operations input, ∃ slices standings, Session operations input slices standings) ∧
    (∀ operations input slices standings, Session operations input slices standings →
      slices.length = operations.length ∧ standings.length = operations.length ∧
      ((input :: standings).Pairwise fun before after => after.length ≤ before.length) ∧
      ∀ (count : Nat) (left : Bytes), (input :: standings)[count]? = some left →
        input = (slices.take count).flatten ++ left) ∧
    (∀ left, Consumes Reader.remaining [] (.ok left.length) left) ∧
    (∀ width, AllOrNothing (Reader.unsigned width) width Reader.littleEndian) ∧
    (∀ count, AllOrNothing (Reader.bytes count) count fun taken => taken) ∧
    (∀ taken result rest, Consumes Reader.length taken result rest →
      taken.length ≤ 5 ∧ ∀ count, result = .ok count → 1 ≤ taken.length ∧ count < 2 ^ 32) ∧
    (∀ front count behind, Consumes Reader.length front (.ok count) behind →
      behind.length < count →
      ∃ failure, Consumes Reader.text front (.error failure) behind) ∧
    (∀ (Item : Type) (item : Reader Item), Script item → ∀ front behind,
      (∀ failure, Consumes Reader.length front (.error failure) behind →
        Consumes (Reader.vector item) front (.error failure) behind) ∧
      ∀ count, Consumes Reader.length front (.ok count) behind →
        (behind.length < count →
          ∃ failure, Consumes (Reader.vector item) front (.error failure) behind) ∧
        (count ≤ behind.length →
          ∃ slices result rest, behind = slices.flatten ++ rest ∧
            slices.length ≤ behind.length ∧ Attempts item count slices result rest ∧
            Consumes (Reader.vector item) (front ++ slices.flatten) result rest)) := by
  refine ⟨Session.exists_of_operations, ?_, fun _ => rfl, allOrNothing_unsigned, allOrNothing_bytes,
    ?_, ?_, ?_⟩
  · intro operations input slices standings session
    refine ⟨session.length_eq.1, session.length_eq.2, ?_, fun _ _ => session.parts⟩
    exact session.decreases.imp fun inside => inside.length_le
  · intro taken result rest consumes
    exact length_bounds consumes
  · intro front count behind reads missing
    exact ⟨_, consumes_text_of_missing reads missing⟩
  · intro Item item script front behind
    refine ⟨fun failure => consumes_vector_of_lengthless item, fun count reads => ⟨?_, ?_⟩⟩
    · intro crowded
      exact ⟨_, consumes_vector_of_lt item reads crowded⟩
    · intro room
      obtain ⟨slices, result, rest, rfl, attempts⟩ :=
        Attempts.exists_of_staysInside script.staysInside count behind
      exact ⟨slices, result, rest, rfl, attempts.length_le.trans room, attempts,
        attempts.consumes_vector reads room⟩

/-- A vector of truth values fails at the second of them, a number of eight bytes at the one byte
behind it, and a text at the end. -/
theorem session_after_failures :
    Session [⟨Layout.read (.vector .bool), Layout.script_read _⟩,
      ⟨Layout.read .u64, Layout.script_read _⟩, ⟨Layout.read .text, Layout.script_read _⟩]
      [2, 1, 7, 9] [[2, 1, 7], [], [9]] [[9], [9], []] := by
  have vector : Consumes (Layout.read (.vector .bool)) [2, 1, 7] (.error (.bcs (.notBool 7))) [9] :=
    rfl
  have number : Consumes (Layout.read .u64) [] (.error (.bcs (.endOfInput 8 1))) [9] := rfl
  have text : Consumes (Layout.read .text) [9] (.error (.bcs (.endOfInput 9 0))) [] := rfl
  apply @Session.next _ _ [2, 1, 7] [9] _ _ _ vector
  apply @Session.next _ _ [] [9] _ _ _ number
  exact @Session.next _ _ [9] [] _ _ _ text (.ended [])

theorem reading_stays_inside_after_failures :
    ([2, 1, 7, 9] : Bytes) = ([[2, 1, 7], [], [9]].take 2).flatten ++ [9] ∧
      (1 ≤ ([9] : Bytes).length ∧ 9 < 2 ^ 32) ∧
      (∃ failure, Consumes Reader.text [9] (.error failure) []) ∧
      ∃ slices result rest, ([1, 7, 9] : Bytes) = slices.flatten ++ rest ∧ slices.length ≤ 3 ∧
        Attempts Reader.bool 2 slices result rest ∧
        Consumes (Reader.vector Reader.bool) ([2] ++ slices.flatten) result rest := by
  obtain ⟨-, sessions, -, -, -, lengths, texts, vectors⟩ := reading_stays_inside
  have lastLength : Consumes Reader.length [9] (.ok 9) [] := rfl
  have firstLength : Consumes Reader.length [2] (.ok 2) [1, 7, 9] := rfl
  refine ⟨?_, ?_, ?_, ?_⟩
  · exact (sessions _ _ _ _ session_after_failures).2.2.2 2 [9] rfl
  · exact (lengths [9] _ [] lastLength).2 9 rfl
  · exact texts [9] 9 [] lastLength (by decide)
  · exact ((vectors Bool Reader.bool .bool [2] [1, 7, 9]).2 2 firstLength).2 (by decide)

end LedgerBook.Bcs
