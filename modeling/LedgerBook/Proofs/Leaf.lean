import LedgerBook.Leaf
import LedgerBook.Proofs.Bcs.Appending
import LedgerBook.Proofs.Text.Base64
/-!
Decoding leaves. What the payload of a leaf holds is exactly what is encoded of its entries with
some pointer to a next leaf, so that an entry is never lost because its leaf is taken for something
else.
-/
namespace LedgerBook.Leaf

open Bcs

variable {α : Type}

/-- Entries as they are offered to be written, which can also be done with keys out of range. -/
def offered (entries : List (Entry α)) : List (Int × α) :=
  entries.map fun entry => (entry.1, entry.2)

/-- Writes an entry with any number for a key. -/
def writeEntry (value : α → Writer) (entry : Int × α) : Writer := do
  Writer.unsigned 16 entry.1
  value entry.2

theorem write_eq (value : α → Writer) (entries : List (Int × α)) (next : Int) :
    write value entries next = (do
      Writer.vector (writeEntry value) entries
      Writer.unsigned 8 next) :=
  rfl

theorem appends_writeEntry {value : α → Writer} (appends : ∀ item, Appends (value item))
    (entry : Int × α) : Appends (writeEntry value entry) :=
  (appends_unsigned 16 entry.1).bind (appends entry.2)

theorem each_map {β : Type} (item : β → Writer) (convert : α → β) (items : List α) :
    Writer.each item (items.map convert) = Writer.each (fun each => item (convert each)) items := by
  induction items with
  | nil => rfl
  | cons first rest inductionHypothesis =>
      rw [List.map_cons, Writer.each, Writer.each, inductionHypothesis]

theorem vector_offered (value : α → Writer) (entries : List (Entry α)) :
    Writer.vector (writeEntry value) (offered entries) =
      Writer.vector (fun entry : Entry α => writeEntry value (entry.1, entry.2)) entries := by
  rw [Writer.vector, Writer.vector, offered, List.length_map, each_map]

theorem encode_eq_ok_iff {value : α → Writer} {entries : List (Int × α)} {next : Int}
    {bytes : Bytes} :
    encode value entries next = .ok bytes ↔ Writes (write value entries next) bytes := by
  unfold encode Writes
  cases (write value entries next).run [] with
  | ok _ added =>
      constructor
      · intro same
        cases same
        rfl
      · intro same
        cases same
        rfl
  | error failure left =>
      constructor
      · intro impossible
        cases impossible
      · intro impossible
        cases impossible

theorem encode_eq_error {value : α → Writer} {entries : List (Int × α)} {next : Int}
    (refuses : Refuses (write value entries next)) :
    ∃ fault, encode value entries next = .error (.bcs fault) := by
  obtain ⟨fault, added, fails⟩ := refuses
  refine ⟨fault, ?_⟩
  rw [encode, fails]

theorem runReader_eq_ok_iff {β : Type} {reader : Reader β} {bytes : Bytes} {value : β} :
    runReader reader bytes = .ok value ↔ ∃ rest, reader.run bytes = .ok value rest := by
  unfold runReader
  cases reader.run bytes with
  | ok other rest =>
      constructor
      · intro same
        cases same
        exact ⟨rest, rfl⟩
      · intro facts
        obtain ⟨_, same⟩ := facts
        cases same
        rfl
  | error failure left =>
      constructor
      · intro impossible
        cases impossible
      · intro facts
        obtain ⟨_, impossible⟩ := facts
        cases impossible

section Codec

variable {reader : Reader α} {writer : α → Writer}

theorem undoes_entries (undoes : Undoes reader writer) :
    Undoes (Reader.vector (readEntry reader))
      (Writer.vector fun entry : Entry α => writeEntry writer (entry.1, entry.2)) :=
  ((undoes_unsigned (by decide : 0 < 16)).pair undoes).vector

/-- A byte string is read as a leaf with some entries exactly if it is written of them and some
pointer. -/
theorem runReader_read_iff (undoes : Undoes reader writer) {entries : List (Entry α)}
    {bytes : Bytes} :
    runReader (read reader) bytes = .ok entries ↔
      ∃ next : Nat, next < 2 ^ 64 ∧ encode writer (offered entries) next = .ok bytes := by
  have pointer := undoes_unsigned (by decide : 0 < 8)
  rw [runReader_eq_ok_iff]
  constructor
  · intro facts
    obtain ⟨rest, reads⟩ := facts
    obtain ⟨all, between, readsEntries, follows⟩ := Reader.run_bind_eq_ok.mp reads
    obtain ⟨next, left, readsNext, follows⟩ := Reader.run_bind_eq_ok.mp follows
    obtain ⟨_, last, ends, gives⟩ := Reader.run_bind_eq_ok.mp follows
    cases gives
    obtain ⟨rfl, rfl⟩ := Reader.run_finish_eq_ok.mp ends
    obtain ⟨front, rfl, writesEntries⟩ := (undoes_entries undoes).written readsEntries
    obtain ⟨back, rfl, writesNext⟩ := pointer.written readsNext
    refine ⟨next, (Reader.run_unsigned_eq_ok.mp readsNext).1, ?_⟩
    rw [encode_eq_ok_iff, write_eq, vector_offered, List.append_nil]
    exact (writes_bind_iff (pointer.appends next)).mpr
      ⟨front, back, writesEntries, writesNext, rfl⟩
  · intro facts
    obtain ⟨next, -, encodes⟩ := facts
    rw [encode_eq_ok_iff, write_eq, vector_offered] at encodes
    obtain ⟨front, back, writesEntries, writesNext, rfl⟩ :=
      (writes_bind_iff (pointer.appends next)).mp encodes
    have readsNext := pointer.reads writesNext []
    rw [List.append_nil] at readsNext
    refine ⟨[], Reader.run_bind_eq_ok.mpr ⟨entries, back, ?_, ?_⟩⟩
    · exact (undoes_entries undoes).reads writesEntries back
    · rw [Reader.run_bind_eq_ok]
      refine ⟨next, [], readsNext, ?_⟩
      rw [Reader.run_bind_eq_ok]
      exact ⟨(), [], Reader.run_finish_eq_ok.mpr ⟨rfl, rfl⟩, rfl⟩

theorem entries_of_reads {node : MoveValue} {bytes : Bytes} {found : List (Entry α)}
    (leaf : isType node.type = true) (payload : node.bytes = .ok bytes)
    (reads : runReader (read reader) bytes = .ok found) : entries reader node = found := by
  have opened : node.bytes >>= runReader (read reader) = .ok found := by
    rw [payload]
    exact reads
  rw [entries, if_pos leaf, opened]

/-- A payload that is refused has no entries, whatever its type. -/
theorem entries_of_refused {node : MoveValue} {bytes : Bytes} {failure : Failure}
    (payload : node.bytes = .ok bytes) (refused : runReader (read reader) bytes = .error failure) :
    entries reader node = [] := by
  have opened : node.bytes >>= runReader (read reader) = .error failure := by
    rw [payload]
    exact refused
  rw [entries, opened]
  exact ite_self []

/-- A value has entries exactly if it is a leaf and its payload is one with these entries. -/
theorem entries_eq_iff {node : MoveValue} {found : List (Entry α)} (nonempty : found ≠ []) :
    entries reader node = found ↔
      isType node.type = true ∧
        ∃ bytes, node.bytes = .ok bytes ∧ runReader (read reader) bytes = .ok found := by
  constructor
  · intro decodes
    unfold entries at decodes
    split at decodes
    next leaf =>
      split at decodes
      next decoded opened =>
        cases decodes
        cases payload : node.bytes with
        | error failure =>
            rw [payload] at opened
            cases opened
        | ok bytes =>
            rw [payload] at opened
            exact ⟨leaf, bytes, rfl, opened⟩
      next => exact False.elim (nonempty decodes.symm)
    next => exact False.elim (nonempty decodes.symm)
  · intro facts
    obtain ⟨leaf, bytes, payload, reads⟩ := facts
    exact entries_of_reads leaf payload reads

/-- Entries that are encoded are decoded again from the base64 text of a leaf. -/
theorem entries_of_encode (undoes : Undoes reader writer) {given : List (Entry α)} {next : Nat}
    {bytes : Bytes} (bounded : next < 2 ^ 64)
    (encodes : encode writer (offered given) next = .ok bytes) {type : Text}
    (leaf : isType type = true) : entries reader ⟨type, Base64.encode bytes⟩ = given :=
  entries_of_reads leaf (MoveValue.bytes_encode type bytes)
    ((runReader_read_iff undoes).mpr ⟨next, bounded, encodes⟩)

end Codec

/-! ## Leaves of values of a layout -/

variable {layout : Layout}

/-- What entries and a pointer need to be written. -/
def InRange (layout : Layout) (entries : List (Int × Value)) (next : Int) : Prop :=
  (entries.length < 2 ^ 32 ∧
      ∀ entry ∈ entries, Layout.InBits 128 entry.1 ∧ layout.InRange entry.2) ∧
    Layout.InBits 64 next

/-- A leaf is encoded if everything in it is in range, and otherwise the writer lacks room. -/
theorem succeeds_write (writable : layout.Writable) {entries : List (Int × Value)} (next : Int)
    (takes : ∀ entry ∈ entries, layout.Takes entry.2) :
    Succeeds (write layout.write entries next) (InRange layout entries next) := by
  have items := fun entry member => (Layout.settles_inBits 16 (Prod.fst entry)).bind
    (writable.settles_inRange (takes entry member))
  have whole := (settles_vector entries items).bind (Layout.settles_inBits 8 next)
  rw [write_eq]
  apply whole.succeeds
  rintro failure left ((⟨-, rfl, -⟩ | ⟨-, _, ⟨_, _, _, _, rfl, -, known, -⟩, -⟩) |
    ⟨-, _, ⟨-, rfl, -⟩, -⟩)
  · exact ⟨_, rfl⟩
  · rcases known with ⟨-, rfl, -⟩ | ⟨-, _, lacksRoom, -⟩
    · exact ⟨_, rfl⟩
    · exact lacksRoom
  · exact ⟨_, rfl⟩

/-- The decoder accepts exactly the format of leaves and undoes the encoder. A value has some
entries, and not none, exactly if it is of a leaf's type and its payload is the base64 text of what
is encoded of these entries with some next pointer. Entries in range are encoded and decoded again
whatever the leaf's type; others are refused. -/
theorem entries_undo_encode (writable : layout.Writable) :
    (∀ (type payload : Text) (found : List (Entry Value)), found ≠ [] →
        (entries layout.read ⟨type, payload⟩ = found ↔
          isType type = true ∧
            ∃ bytes, MoveValue.bytes ⟨type, payload⟩ = .ok bytes ∧
              ∃ next : Nat, next < 2 ^ 64 ∧
                encode layout.write (offered found) next = .ok bytes)) ∧
      (∀ (given : List (Entry Value)) (next : Nat), given.length < 2 ^ 32 →
        (∀ entry ∈ given, entry.1 < 2 ^ 128 ∧ layout.Takes entry.2 ∧ layout.InRange entry.2) →
        next < 2 ^ 64 →
          ∃ bytes, encode layout.write (offered given) next = .ok bytes ∧
            ∀ type, isType type = true →
              entries layout.read ⟨type, Base64.encode bytes⟩ = given) ∧
      ∀ (given : List (Int × Value)) (next : Int), (∀ entry ∈ given, layout.Takes entry.2) →
        ¬ InRange layout given next →
          ∃ fault, encode layout.write given next = .error (.bcs fault) := by
  refine ⟨?_, ?_, ?_⟩
  · intro type payload found nonempty
    rw [entries_eq_iff nonempty]
    simp only [runReader_read_iff writable.undoes]
  · intro given next short fits bounded
    have takes : ∀ entry ∈ offered given, layout.Takes entry.2 := by
      intro entry member
      obtain ⟨original, originalMember, rfl⟩ := List.mem_map.mp member
      exact (fits original originalMember).2.1
    have inRange : InRange layout (offered given) next := by
      refine ⟨⟨by rw [offered, List.length_map]; exact short, ?_⟩, ?_⟩
      · intro entry member
        obtain ⟨original, originalMember, rfl⟩ := List.mem_map.mp member
        obtain ⟨key, -, valueInRange⟩ := fits original originalMember
        exact ⟨Layout.inBits_natCast key, valueInRange⟩
      · exact Layout.inBits_natCast bounded
    obtain ⟨bytes, writes⟩ := (succeeds_write writable next takes).writes inRange
    have encodes := encode_eq_ok_iff.mpr writes
    exact ⟨bytes, encodes, fun type leaf =>
      entries_of_encode writable.undoes bounded encodes leaf⟩
  · intro given next takes outside
    exact encode_eq_error ((succeeds_write writable next takes).refuses outside)

/-- A leaf of two orders, one on each side. -/
theorem entries_undo_encode_of_orders :
    ∃ bytes,
      encode Layout.order.write [(7, .order ⟨1, 30⟩), (2 ^ 127, .order ⟨2, 5⟩)] 3 = .ok bytes ∧
        entries Layout.order.read ⟨"0x2::ordered_map::Leaf<Order>", Base64.encode bytes⟩ =
          [(7, .order ⟨1, 30⟩), (2 ^ 127, .order ⟨2, 5⟩)] := by
  obtain ⟨bytes, encodes, decodes⟩ := (entries_undo_encode .order).2.1
    [(7, .order ⟨1, 30⟩), (2 ^ 127, .order ⟨2, 5⟩)] 3 (by decide)
    (by
      simp only [List.forall_mem_cons, Layout.Takes, Layout.InRange, Layout.InBits]
      refine ⟨by decide, by decide, List.forall_mem_nil _⟩)
    (by decide)
  exact ⟨bytes, encodes, decodes _ (by cbv)⟩

end LedgerBook.Leaf
