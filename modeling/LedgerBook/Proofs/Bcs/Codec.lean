import LedgerBook.Proofs.Bcs.Numbers
/-!
Readers and writers of one format. What a writer adds does not depend on what is in its buffer, so
that writers one after the other add what each of them adds; a reader undoes a writer if it reads
what that writes, leaves what follows, and reads nothing else.
-/
namespace LedgerBook.Bcs

variable {α β : Type}

/-! ## What a writer does -/

/-- A result with more bytes at the front of the buffer. -/
def behind (buffer : Bytes) :
    EStateM.Result Failure Bytes Unit → EStateM.Result Failure Bytes Unit
  | .ok _ added => .ok () (buffer ++ added)
  | .error failure added => .error failure (buffer ++ added)

/-- A writer keeps what is in its buffer, and what it adds and how it ends does not depend on it. -/
def Appends (writer : Writer) : Prop :=
  ∀ buffer, writer.run buffer = behind buffer (writer.run [])

/-- A writer succeeds and adds these bytes. -/
def Writes (writer : Writer) (added : Bytes) : Prop :=
  writer.run [] = .ok () added

/-- A writer fails because of a value that it has no room for. -/
def Refuses (writer : Writer) : Prop :=
  ∃ fault added, writer.run [] = .error (.bcs fault) added

/-- A writer succeeds if a condition holds, and otherwise lacks room. -/
structure Succeeds (writer : Writer) (condition : Prop) : Prop where
  writes : condition → ∃ added, Writes writer added
  refuses : ¬ condition → Refuses writer

theorem Writes.unique {writer : Writer} {some other : Bytes} (writes : Writes writer some)
    (again : Writes writer other) : some = other := by
  rw [Writes, writes] at again
  injection again

theorem Refuses.not_writes {writer : Writer} {added : Bytes} (refuses : Refuses writer) :
    ¬ Writes writer added := by
  obtain ⟨fault, left, fails⟩ := refuses
  intro writes
  rw [Writes, fails] at writes
  cases writes

theorem not_writes_throw {failure : Failure} {added : Bytes} :
    ¬ Writes (throw failure) added := by
  intro impossible
  cases impossible

theorem refuses_refuse (fault : Fault) : Refuses (Writer.refuse fault) :=
  ⟨fault, [], rfl⟩

theorem writes_bytes (added : Bytes) : Writes (Writer.bytes added) added :=
  rfl

theorem writes_bytes_iff {offered added : Bytes} :
    Writes (Writer.bytes offered) added ↔ added = offered := by
  constructor
  · intro writes
    exact writes.unique (writes_bytes offered)
  · intro same
    subst same
    exact writes_bytes added

theorem appends_throw (failure : Failure) : Appends (throw failure) := by
  intro buffer
  change EStateM.Result.error failure buffer = .error failure (buffer ++ [])
  rw [List.append_nil]

theorem appends_pure : Appends (pure ()) := by
  intro buffer
  change EStateM.Result.ok () buffer = .ok () (buffer ++ [])
  rw [List.append_nil]

theorem appends_bytes (added : Bytes) : Appends (Writer.bytes added) := by
  intro buffer
  rfl

theorem Appends.bind {first next : Writer} (firstAppends : Appends first)
    (nextAppends : Appends next) : Appends (first >>= fun _ => next) := by
  intro buffer
  rw [EStateM.run_bind, EStateM.run_bind, firstAppends buffer]
  cases first.run [] with
  | error failure added => rfl
  | ok _ added =>
      change next.run (buffer ++ added) = behind buffer (next.run added)
      rw [nextAppends (buffer ++ added), nextAppends added]
      cases next.run [] with
      | error failure more => simp only [behind, List.append_assoc]
      | ok _ more => simp only [behind, List.append_assoc]

/-- Two writers one after the other write what the first writes and then what the second writes. -/
theorem writes_bind_iff {first next : Writer} (appends : Appends next) {added : Bytes} :
    Writes (first >>= fun _ => next) added ↔
      ∃ front back, Writes first front ∧ Writes next back ∧ added = front ++ back := by
  unfold Writes
  rw [EStateM.run_bind]
  cases first.run [] with
  | error failure left => simp
  | ok _ front =>
      change next.run front = _ ↔ _
      rw [appends front]
      cases next.run [] with
      | error failure left => simp [behind]
      | ok _ back =>
          constructor
          · intro same
            injection same with _ whole
            exact ⟨front, back, rfl, rfl, whole.symm⟩
          · intro facts
            obtain ⟨_, _, sameFront, sameBack, rfl⟩ := facts
            injection sameFront with _ sameFront
            injection sameBack with _ sameBack
            rw [sameFront, sameBack]
            rfl

/-! ## Readers that undo writers -/

/-- A reader undoes a writer: it reads whatever that writes and leaves what follows, and it reads
nothing else. Something is written of every value. -/
structure Undoes (reader : Reader α) (writer : α → Writer) : Prop where
  appends : ∀ value, Appends (writer value)
  reads : ∀ {value : α} {written : Bytes},
    Writes (writer value) written → ∀ rest, reader.run (written ++ rest) = .ok value rest
  written : ∀ {value : α} {input rest : Bytes},
    reader.run input = .ok value rest → ∃ front, input = front ++ rest ∧ Writes (writer value) front
  positive : ∀ {value : α} {written : Bytes}, Writes (writer value) written → 0 < written.length

/-- A pair is its first value and its second. -/
theorem Undoes.pair {left : Reader α} {right : Reader β} {writeLeft : α → Writer}
    {writeRight : β → Writer} (leftUndoes : Undoes left writeLeft)
    (rightUndoes : Undoes right writeRight) :
    Undoes (do return (← left, ← right)) fun pair : α × β => do
      writeLeft pair.1
      writeRight pair.2 where
  appends := by
    intro pair
    exact (leftUndoes.appends pair.1).bind (rightUndoes.appends pair.2)
  reads := by
    intro pair written writes rest
    obtain ⟨front, back, writesFront, writesBack, rfl⟩ :=
      (writes_bind_iff (rightUndoes.appends pair.2)).mp writes
    rw [List.append_assoc, EStateM.run_bind, leftUndoes.reads writesFront]
    change (right >>= fun second => pure (pair.1, second)).run _ = _
    rw [EStateM.run_bind, rightUndoes.reads writesBack]
    rfl
  written := by
    intro pair input rest reads
    obtain ⟨first, between, readsFirst, follows⟩ := Reader.run_bind_eq_ok.mp reads
    obtain ⟨second, left, readsSecond, gives⟩ := Reader.run_bind_eq_ok.mp follows
    cases gives
    obtain ⟨front, rfl, writesFront⟩ := leftUndoes.written readsFirst
    obtain ⟨back, rfl, writesBack⟩ := rightUndoes.written readsSecond
    refine ⟨front ++ back, (List.append_assoc _ _ _).symm, ?_⟩
    exact (writes_bind_iff (rightUndoes.appends second)).mpr
      ⟨front, back, writesFront, writesBack, rfl⟩
  positive := by
    intro pair written writes
    obtain ⟨front, back, writesFront, writesBack, rfl⟩ :=
      (writes_bind_iff (rightUndoes.appends pair.2)).mp writes
    have := leftUndoes.positive writesFront
    rw [List.length_append]
    omega

/-- A reader whose value is put into a larger type undoes a writer of that type which writes only
such values. -/
theorem Undoes.inject {reader : Reader α} {writer : α → Writer} (undoes : Undoes reader writer)
    (inject : α → β) (writeOther : β → Writer)
    (same : ∀ value, writeOther (inject value) = writer value)
    (appends : ∀ other, Appends (writeOther other))
    (covers : ∀ {other : β} {written : Bytes},
      Writes (writeOther other) written → ∃ value, other = inject value) :
    Undoes (do return inject (← reader)) writeOther where
  appends := appends
  reads := by
    intro other written writes rest
    obtain ⟨value, rfl⟩ := covers writes
    rw [same] at writes
    rw [EStateM.run_bind, undoes.reads writes]
    rfl
  written := by
    intro other input rest reads
    obtain ⟨value, between, readsValue, gives⟩ := Reader.run_bind_eq_ok.mp reads
    cases gives
    rw [same]
    exact undoes.written readsValue
  positive := by
    intro other written writes
    obtain ⟨value, rfl⟩ := covers writes
    rw [same] at writes
    exact undoes.positive writes

/-! ## Numbers, truth values and texts -/

theorem appends_unsigned (width : Nat) (value : Int) : Appends (Writer.unsigned width value) := by
  unfold Writer.unsigned
  split
  · exact appends_throw _
  · exact appends_bytes _

theorem appends_length (value : Int) : Appends (Writer.length value) := by
  unfold Writer.length
  split
  · exact appends_throw _
  · exact appends_bytes _

theorem appends_text (value : Text) : Appends (Writer.text value) := by
  unfold Writer.text
  split
  · exact (appends_length _).bind (appends_bytes _)
  · exact appends_throw _

/-- A number is written if it is not negative and has room, as its bytes. -/
theorem writes_unsigned_iff {width : Nat} {value : Int} {added : Bytes} :
    Writes (Writer.unsigned width value) added ↔
      (0 ≤ value ∧ value < (256 ^ width : Nat)) ∧
        added = Writer.littleEndian width value.toNat := by
  unfold Writer.unsigned
  split
  next wide =>
    constructor
    · intro writes
      exact False.elim ((refuses_refuse _).not_writes writes)
    · intro facts
      obtain ⟨⟨natural, fits⟩, -⟩ := facts
      rcases wide with negative | large
      · omega
      · exact absurd fits (not_lt.mpr large)
  next fits =>
    rw [not_or, not_lt, not_le] at fits
    rw [writes_bytes_iff]
    exact ⟨fun same => ⟨fits, same⟩, fun both => both.2⟩

theorem writes_length_iff {value : Int} {added : Bytes} :
    Writes (Writer.length value) added ↔
      (0 ≤ value ∧ value ≤ Reader.greatestLength) ∧ added = Writer.groups value.toNat := by
  unfold Writer.length
  split
  next wide =>
    constructor
    · intro writes
      exact False.elim ((refuses_refuse _).not_writes writes)
    · intro facts
      obtain ⟨⟨natural, fits⟩, -⟩ := facts
      omega
  next fits =>
    rw [not_or, not_lt, not_lt] at fits
    rw [writes_bytes_iff]
    exact ⟨fun same => ⟨fits, same⟩, fun both => both.2⟩

theorem undoes_unsigned {width : Nat} (positive : 0 < width) :
    Undoes (Reader.unsigned width) fun value : Nat => Writer.unsigned width value where
  appends := fun value => appends_unsigned width value
  reads := by
    intro value written writes rest
    obtain ⟨⟨-, fits⟩, rfl⟩ := writes_unsigned_iff.mp writes
    exact Reader.run_unsigned_eq_ok.mpr ⟨Int.ofNat_lt.mp fits, rfl⟩
  written := by
    intro value input rest reads
    obtain ⟨fits, rfl⟩ := Reader.run_unsigned_eq_ok.mp reads
    exact ⟨_, rfl, writes_unsigned_iff.mpr ⟨⟨Int.natCast_nonneg value, Int.ofNat_lt.mpr fits⟩, rfl⟩⟩
  positive := by
    intro value written writes
    obtain ⟨-, rfl⟩ := writes_unsigned_iff.mp writes
    rw [Writer.length_littleEndian]
    exact positive

theorem undoes_length : Undoes Reader.length fun value : Nat => Writer.length value where
  appends := fun value => appends_length value
  reads := by
    intro value written writes rest
    obtain ⟨⟨-, fits⟩, rfl⟩ := writes_length_iff.mp writes
    exact Reader.run_length_eq_ok.mpr ⟨Int.ofNat_le.mp fits, rfl⟩
  written := by
    intro value input rest reads
    obtain ⟨fits, rfl⟩ := Reader.run_length_eq_ok.mp reads
    exact ⟨_, rfl, writes_length_iff.mpr ⟨⟨Int.natCast_nonneg value, Int.ofNat_le.mpr fits⟩, rfl⟩⟩
  positive := by
    intro value written writes
    obtain ⟨-, rfl⟩ := writes_length_iff.mp writes
    exact List.length_pos_iff.mpr (Writer.groups_ne_nil _)

theorem writes_bool (value : Bool) :
    Writes (Writer.bool value) [if value then 1 else 0] := by
  cases value <;> rfl

theorem run_bool_eq_ok {value : Bool} {input rest : Bytes} :
    Reader.bool.run input = .ok value rest ↔ input = (if value then 1 else 0) :: rest := by
  unfold Reader.bool
  rw [Reader.run_bind_eq_ok]
  constructor
  · intro facts
    obtain ⟨byte, between, reads, follows⟩ := facts
    obtain ⟨small, rfl⟩ := Reader.run_unsigned_one_eq_ok.mp reads
    split at follows
    · cases follows
      rfl
    · cases follows
      rfl
    · exact False.elim (Reader.run_refuse_ne_ok follows)
  · intro same
    subst same
    cases value with
    | false => exact ⟨0, rest, Reader.run_unsigned_one_eq_ok.mpr ⟨by decide, rfl⟩, rfl⟩
    | true => exact ⟨1, rest, Reader.run_unsigned_one_eq_ok.mpr ⟨by decide, rfl⟩, rfl⟩

theorem undoes_bool : Undoes Reader.bool Writer.bool where
  appends := fun value => appends_unsigned 1 (if value then 1 else 0)
  reads := by
    intro value written writes rest
    rw [writes.unique (writes_bool value)]
    exact run_bool_eq_ok.mpr rfl
  written := by
    intro value input rest reads
    exact ⟨_, run_bool_eq_ok.mp reads, writes_bool value⟩
  positive := by
    intro value written writes
    rw [writes.unique (writes_bool value)]
    exact Nat.one_pos

/-- A text without halves is written as the length of its UTF-8 form and that form. -/
theorem writes_text_iff {value : String} {added : Bytes} :
    Writes (Writer.text value) added ↔
      (Bytes.ofText value).length ≤ Reader.greatestLength ∧
        added = Writer.groups (Bytes.ofText value).length ++ Bytes.ofText value := by
  simp only [Writer.text, Text.toString?_ofString]
  rw [writes_bind_iff (appends_bytes _)]
  constructor
  · intro facts
    obtain ⟨front, back, writesLength, writesBytes, rfl⟩ := facts
    obtain ⟨⟨-, fits⟩, rfl⟩ := writes_length_iff.mp writesLength
    rw [writes_bytes_iff.mp writesBytes]
    exact ⟨Int.ofNat_le.mp fits, rfl⟩
  · intro facts
    obtain ⟨fits, rfl⟩ := facts
    exact ⟨_, _,
      writes_length_iff.mpr ⟨⟨Int.natCast_nonneg _, Int.ofNat_le.mpr fits⟩, rfl⟩,
      writes_bytes _, rfl⟩

theorem run_text_eq_ok {value : String} {input rest : Bytes} :
    Reader.text.run input = .ok value rest ↔
      (Bytes.ofText value).length ≤ Reader.greatestLength ∧
        input = Writer.groups (Bytes.ofText value).length ++ Bytes.ofText value ++ rest := by
  unfold Reader.text
  rw [Reader.run_bind_eq_ok]
  constructor
  · intro facts
    obtain ⟨count, between, readsCount, follows⟩ := facts
    obtain ⟨fits, rfl⟩ := Reader.run_length_eq_ok.mp readsCount
    obtain ⟨taken, left, takes, gives⟩ := Reader.run_bind_eq_ok.mp follows
    obtain ⟨rfl, wide⟩ := Reader.run_bytes_eq_ok.mp takes
    have count_eq : count = taken.length := Int.ofNat_inj.mp wide
    split at gives
    next text reads =>
      cases gives
      rw [Bytes.ofText_of_toText? reads, ← count_eq]
      exact ⟨fits, (List.append_assoc _ _ _).symm⟩
    next => exact False.elim (Reader.run_refuse_ne_ok gives)
  · intro facts
    obtain ⟨fits, rfl⟩ := facts
    refine ⟨(Bytes.ofText value).length, Bytes.ofText value ++ rest, ?_, ?_⟩
    · exact Reader.run_length_eq_ok.mpr ⟨fits, List.append_assoc _ _ _⟩
    · rw [Reader.run_bind_eq_ok]
      refine ⟨Bytes.ofText value, rest, Reader.run_bytes_eq_ok.mpr ⟨rfl, rfl⟩, ?_⟩
      rw [Bytes.toText?_ofText]
      rfl

theorem undoes_text : Undoes Reader.text fun value : String => Writer.text value where
  appends := fun value => appends_text value
  reads := by
    intro value written writes rest
    obtain ⟨fits, rfl⟩ := writes_text_iff.mp writes
    exact run_text_eq_ok.mpr ⟨fits, rfl⟩
  written := by
    intro value input rest reads
    obtain ⟨fits, rfl⟩ := run_text_eq_ok.mp reads
    exact ⟨_, rfl, writes_text_iff.mpr ⟨fits, rfl⟩⟩
  positive := by
    intro value written writes
    obtain ⟨-, rfl⟩ := writes_text_iff.mp writes
    have := List.length_pos_iff.mpr (Writer.groups_ne_nil (Bytes.ofText value).length)
    rw [List.length_append]
    omega

/-! ## Vectors -/

theorem appends_each {writer : α → Writer} (appends : ∀ item, Appends (writer item))
    (items : List α) : Appends (Writer.each writer items) := by
  induction items with
  | nil => exact appends_pure
  | cons first rest inductionHypothesis => exact (appends first).bind inductionHypothesis

theorem appends_vector {writer : α → Writer} (appends : ∀ item, Appends (writer item))
    (items : List α) : Appends (Writer.vector writer items) :=
  (appends_length _).bind (appends_each appends items)

namespace Undoes

variable {item : Reader α} {writer : α → Writer}

/-- Items written one after the other are read back, and there are no more of them than bytes. -/
theorem times_each (undoes : Undoes item writer) {values : List α} {written : Bytes}
    (writes : Writes (Writer.each writer values) written) (rest : Bytes) :
    (item.times values.length).run (written ++ rest) = .ok values rest ∧
      values.length ≤ written.length := by
  induction values generalizing written with
  | nil =>
      cases writes
      exact ⟨rfl, Nat.le_refl 0⟩
  | cons first others inductionHypothesis =>
      obtain ⟨front, back, writesFirst, writesOthers, rfl⟩ :=
        (writes_bind_iff (appends_each undoes.appends others)).mp writes
      obtain ⟨readsOthers, fewer⟩ := inductionHypothesis writesOthers
      have := undoes.positive writesFirst
      refine ⟨?_, ?_⟩
      · rw [List.append_assoc, List.length_cons, Reader.times, Reader.run_bind_eq_ok]
        refine ⟨first, back ++ rest, undoes.reads writesFirst _, ?_⟩
        rw [Reader.run_bind_eq_ok]
        exact ⟨others, rest, readsOthers, rfl⟩
      · rw [List.length_cons, List.length_append]
        omega

/-- Items that are read one after the other are what is written of them. -/
theorem each_of_times (undoes : Undoes item writer) {count : Nat} {values : List α}
    {input rest : Bytes} (reads : (item.times count).run input = .ok values rest) :
    values.length = count ∧
      ∃ front, input = front ++ rest ∧ Writes (Writer.each writer values) front := by
  induction count generalizing values input with
  | zero =>
      cases reads
      exact ⟨rfl, [], rfl, rfl⟩
  | succ count inductionHypothesis =>
      rw [Reader.times] at reads
      obtain ⟨first, between, readsFirst, follows⟩ := Reader.run_bind_eq_ok.mp reads
      obtain ⟨others, left, readsOthers, gives⟩ := Reader.run_bind_eq_ok.mp follows
      cases gives
      obtain ⟨front, rfl, writesFirst⟩ := undoes.written readsFirst
      obtain ⟨length_eq, back, rfl, writesOthers⟩ := inductionHypothesis readsOthers
      refine ⟨by rw [List.length_cons, length_eq], front ++ back,
        (List.append_assoc _ _ _).symm, ?_⟩
      exact (writes_bind_iff (appends_each undoes.appends others)).mpr
        ⟨front, back, writesFirst, writesOthers, rfl⟩

/-- A vector is read back: as each of its items takes a byte, what is left is never too short for
its length. -/
theorem vector (undoes : Undoes item writer) :
    Undoes (Reader.vector item) (Writer.vector writer) where
  appends := appends_vector undoes.appends
  reads := by
    intro values written writes rest
    obtain ⟨front, back, writesLength, writesItems, rfl⟩ :=
      (writes_bind_iff (appends_each undoes.appends values)).mp writes
    obtain ⟨readsItems, fewer⟩ := undoes.times_each writesItems rest
    -- Every item takes a byte, so that the check of what is left passes.
    have enough : ¬ (back ++ rest).length < values.length := by
      rw [List.length_append]
      omega
    rw [List.append_assoc, Reader.vector, Reader.run_bind_eq_ok]
    refine ⟨values.length, back ++ rest, undoes_length.reads writesLength _, ?_⟩
    rw [Reader.run_bind_eq_ok]
    refine ⟨(back ++ rest).length, back ++ rest, rfl, ?_⟩
    rw [if_neg enough]
    exact readsItems
  written := by
    intro values input rest reads
    rw [Reader.vector] at reads
    obtain ⟨count, between, readsCount, follows⟩ := Reader.run_bind_eq_ok.mp reads
    obtain ⟨front, rfl, writesLength⟩ := undoes_length.written readsCount
    obtain ⟨left, same, readsLeft, follows⟩ := Reader.run_bind_eq_ok.mp follows
    cases readsLeft
    split at follows
    · obtain ⟨_, _, impossible, -⟩ := Reader.run_bind_eq_ok.mp follows
      exact False.elim (Reader.run_refuse_ne_ok impossible)
    · obtain ⟨rfl, back, rfl, writesItems⟩ := undoes.each_of_times follows
      refine ⟨front ++ back, (List.append_assoc _ _ _).symm, ?_⟩
      exact (writes_bind_iff (appends_each undoes.appends values)).mpr
        ⟨front, back, writesLength, writesItems, rfl⟩
  positive := by
    intro values written writes
    obtain ⟨front, back, writesLength, -, rfl⟩ :=
      (writes_bind_iff (appends_each undoes.appends values)).mp writes
    have := undoes_length.positive writesLength
    rw [List.length_append]
    omega

end Undoes

end LedgerBook.Bcs
