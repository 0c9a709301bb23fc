import LedgerBook.Proofs.Bcs.Appending
/-!
Reading and writing are inverse to each other. Values that are written one after the other are read
back, whatever follows them; and no value has two forms, as all that is read is what is written of
its value.
-/
namespace LedgerBook.Bcs

variable {α β : Type}

/-! ## Values one after the other -/

namespace Layout

/-- Writes values of some layouts, one after the other. -/
def writeAll (items : List (Layout × Value)) : Writer :=
  Writer.each (fun item : Layout × Value => item.1.write item.2) items

private theorem appends_writeItem (item : Layout × Value) : Appends (item.1.write item.2) :=
  appends_write item.1 item.2

theorem exists_writes_writeAll {items : List (Layout × Value)}
    (writable : ∀ item ∈ items, item.1.Writable)
    (fits : ∀ item ∈ items, item.1.Takes item.2 ∧ item.1.InRange item.2) :
    ∃ written, Writes (writeAll items) written := by
  have settles := settles_each items fun item member =>
    (writable item member).settles_inRange (fits item member).1
  exact ⟨_, settles.adds (fun item member => (fits item member).2) []⟩

theorem run_readAll_of_writes {items : List (Layout × Value)}
    (writable : ∀ item ∈ items, item.1.Writable) {written : Bytes}
    (writes : Writes (writeAll items) written) (rest : Bytes) :
    (readAll (items.map Prod.fst)).run (written ++ rest) = .ok (items.map Prod.snd) rest := by
  induction items generalizing written with
  | nil =>
      cases writes
      rfl
  | cons item others inductionHypothesis =>
      obtain ⟨layout, value⟩ := item
      rw [List.forall_mem_cons] at writable
      obtain ⟨front, back, writesFirst, writesOthers, rfl⟩ :=
        (writes_bind_iff (appends_each appends_writeItem others)).mp writes
      have readsFirst : layout.read.run (front ++ (back ++ rest)) = .ok value (back ++ rest) :=
        writable.1.undoes.reads writesFirst _
      have readsOthers := inductionHypothesis writable.2 writesOthers
      rw [List.map_cons, readAll, List.append_assoc, Reader.run_bind_eq_ok]
      refine ⟨value, back ++ rest, readsFirst, ?_⟩
      rw [Reader.run_bind_eq_ok]
      exact ⟨others.map Prod.snd, rest, readsOthers, rfl⟩

/-- Values in range are written one after the other by one writer. One reader of the same layouts
gives them back from what was written, whatever follows; it leaves exactly what follows, so that the
input is at its end exactly if nothing does. -/
theorem readAll_undoes_writeAll {items : List (Layout × Value)}
    (writable : ∀ item ∈ items, item.1.Writable)
    (fits : ∀ item ∈ items, item.1.Takes item.2 ∧ item.1.InRange item.2) :
    ∃ written, (writeAll items).run [] = .ok () written ∧
      ∀ rest,
        (readAll (items.map Prod.fst)).run (written ++ rest) = .ok (items.map Prod.snd) rest ∧
          (readAll (items.map Prod.fst) >>= fun _ => Reader.remaining).run (written ++ rest) =
            .ok rest.length rest ∧
          ((∃ left, (readAll (items.map Prod.fst) >>= fun _ => Reader.finish).run
              (written ++ rest) = .ok () left) ↔ rest = []) := by
  obtain ⟨written, writes⟩ := exists_writes_writeAll writable fits
  refine ⟨written, writes, ?_⟩
  intro rest
  have reads := run_readAll_of_writes writable writes rest
  refine ⟨reads, ?_, ?_⟩
  · rw [Reader.run_bind_eq_ok]
    exact ⟨items.map Prod.snd, rest, reads, rfl⟩
  · constructor
    · intro facts
      obtain ⟨left, ends⟩ := facts
      obtain ⟨values, between, readsAgain, finishes⟩ := Reader.run_bind_eq_ok.mp ends
      rw [reads] at readsAgain
      cases readsAgain
      exact (Reader.run_finish_eq_ok.mp finishes).1
    · intro nothing
      refine ⟨[], Reader.run_bind_eq_ok.mpr ⟨items.map Prod.snd, rest, reads, ?_⟩⟩
      exact Reader.run_finish_eq_ok.mpr ⟨nothing, rfl⟩

/-- A vector of vectors, a text, a length of two groups and an order. -/
def fourItems : List (Layout × Value) :=
  [(.vector (.vector .u8), .list [.list [.int 1, .int 2], .list []]), (.text, .text "é"),
    (.length, .int 300), (.order, .order ⟨1, 30⟩)]

theorem readAll_undoes_writeAll_of_fourItems :
    ∃ written, (writeAll fourItems).run [] = .ok () written ∧
      (readAll (fourItems.map Prod.fst)).run (written ++ [7]) =
        .ok (fourItems.map Prod.snd) [7] := by
  have writable : ∀ item ∈ fourItems, item.1.Writable := by
    simp only [fourItems, List.forall_mem_cons]
    exact ⟨.vector (.vector .u8), .text, .length, .order, List.forall_mem_nil _⟩
  have textInRange : Layout.text.InRange (.text "é") := by
    intro string same
    have equal : some "é" = some string := by
      rw [← Text.toString?_ofString "é", same, Text.toString?_ofString]
    cases equal
    decide
  have fits : ∀ item ∈ fourItems, item.1.Takes item.2 ∧ item.1.InRange item.2 := by
    simp only [fourItems, List.forall_mem_cons]
    refine ⟨?_, ⟨⟨"é", rfl⟩, textInRange⟩, ?_, ?_, List.forall_mem_nil _⟩
    all_goals simp [Takes, InRange, InBits]
  obtain ⟨written, writes, reads⟩ := readAll_undoes_writeAll writable fits
  exact ⟨written, writes, (reads [7]).1⟩

end Layout

/-! ## What is refused -/

/-- A reader refuses an input because of what its bytes hold. -/
def Rejects (reader : Reader α) (input : Bytes) : Prop :=
  ∃ fault left, reader.run input = .error (.bcs fault) left

theorem Rejects.bind {first : Reader α} {input : Bytes} (rejects : Rejects first input)
    (next : α → Reader β) : Rejects (first >>= next) input := by
  obtain ⟨fault, left, fails⟩ := rejects
  exact ⟨fault, left, by rw [EStateM.run_bind, fails]⟩

theorem run_unsigned_one (byte : UInt8) (rest : Bytes) :
    (Reader.unsigned 1).run (byte :: rest) = .ok byte.toNat rest := by
  rw [Reader.run_unsigned_one_eq_ok, UInt8.ofNat_toNat]
  exact ⟨byte.toNat_lt, rfl⟩

/-- A byte that is neither zero nor one is no truth value. -/
theorem rejects_bool {byte : UInt8} (large : 1 < byte.toNat) (rest : Bytes) :
    Rejects Reader.bool (byte :: rest) := by
  refine ⟨.notBool byte.toNat, rest, ?_⟩
  rw [Reader.bool, EStateM.run_bind, run_unsigned_one]
  simp only
  split
  next zero => omega
  next one => omega
  next => rfl

/-- Bytes that are the UTF-8 form of no text are no text. -/
theorem rejects_text {encoded : Bytes} (short : encoded.length < 2 ^ 32)
    (notText : ∀ text : String, Bytes.ofText text ≠ encoded) (rest : Bytes) :
    Rejects Reader.text (Writer.groups encoded.length ++ encoded ++ rest) := by
  have none : Bytes.toText? encoded = none := by
    by_contra some
    obtain ⟨text, reads⟩ := Option.ne_none_iff_exists'.mp some
    exact notText text (Bytes.ofText_of_toText? reads)
  have readsLength :
      Reader.length.run (Writer.groups encoded.length ++ (encoded ++ rest)) =
        .ok encoded.length (encoded ++ rest) :=
    Reader.run_length_eq_ok.mpr ⟨Nat.le_of_lt_succ short, rfl⟩
  have readsBytes : (Reader.bytes encoded.length).run (encoded ++ rest) = .ok encoded rest :=
    Reader.run_bytes_eq_ok.mpr ⟨rfl, rfl⟩
  refine ⟨.notText, rest, ?_⟩
  rw [List.append_assoc, Reader.text, EStateM.run_bind, readsLength]
  change (Reader.bytes encoded.length >>= _).run (encoded ++ rest) = _
  rw [EStateM.run_bind, readsBytes]
  simp only [none]
  rfl

namespace Reader

/-- The number of some groups of seven bits, the lowest first, whatever their highest bits. -/
def groupsNumber (groups : Bytes) : Nat :=
  groups.foldr (fun byte higher => byte.toNat % 128 + 128 * higher) 0

theorem groupsNumber_cons (byte : UInt8) (rest : Bytes) :
    groupsNumber (byte :: rest) = byte.toNat % 128 + 128 * groupsNumber rest :=
  rfl

theorem groupsNumber_snoc (front : Bytes) (last : UInt8) :
    groupsNumber (front ++ [last]) =
      groupsNumber front + last.toNat % 128 * 2 ^ (7 * front.length) := by
  induction front with
  | nil => simp [groupsNumber]
  | cons byte rest inductionHypothesis =>
      rw [List.cons_append, groupsNumber_cons, groupsNumber_cons, inductionHypothesis,
        List.length_cons]
      ring

theorem run_lengthFrom_cons (groups shift value : Nat) (byte : UInt8) (rest : Bytes) :
    (lengthFrom (groups + 1) shift value).run (byte :: rest) =
      if 128 ≤ byte.toNat then
        (lengthFrom groups (shift + 7) (value + byte.toNat % 128 * 2 ^ shift)).run rest
      else if byte.toNat = 0 ∧ 0 < shift then .error (.bcs .redundantLength) rest
      else if greatestLength < value + byte.toNat % 128 * 2 ^ shift then
        .error (.bcs .hugeLength) rest
      else .ok (value + byte.toNat % 128 * 2 ^ shift) rest := by
  rw [lengthFrom, EStateM.run_bind, run_unsigned_one]
  simp only [Nat.shiftLeft_eq]
  split
  · rfl
  · split
    · rfl
    · split <;> rfl

/-- Bytes with their highest bits set are read as groups, as long as there may be more of them. -/
theorem run_lengthFrom_front {front : Bytes} (more : ∀ byte ∈ front, 128 ≤ byte.toNat)
    (groups shift value : Nat) (rest : Bytes) :
    (lengthFrom (front.length + groups) shift value).run (front ++ rest) =
      (lengthFrom groups (shift + 7 * front.length)
        (value + groupsNumber front * 2 ^ shift)).run rest := by
  induction front generalizing shift value with
  | nil => simp [groupsNumber]
  | cons byte others inductionHypothesis =>
      rw [List.forall_mem_cons] at more
      have shape : (byte :: others).length + groups = (others.length + groups) + 1 := by
        rw [List.length_cons]
        omega
      have shifted : shift + 7 + 7 * others.length = shift + 7 * (byte :: others).length := by
        rw [List.length_cons]
        omega
      have number :
          value + byte.toNat % 128 * 2 ^ shift + groupsNumber others * 2 ^ (shift + 7) =
            value + groupsNumber (byte :: others) * 2 ^ shift := by
        rw [groupsNumber_cons]
        ring
      rw [shape, List.cons_append, run_lengthFrom_cons, if_pos more.1,
        inductionHypothesis more.2, shifted, number]

/-- What a length makes of groups and a last group, if there are at most five of them. -/
theorem run_length_groups {front : Bytes} {last : UInt8} (more : ∀ byte ∈ front, 128 ≤ byte.toNat)
    (ends : last.toNat < 128) (few : front.length < 5) (rest : Bytes) :
    length.run (front ++ last :: rest) =
      if last.toNat = 0 ∧ 0 < front.length then .error (.bcs .redundantLength) rest
      else if greatestLength < groupsNumber (front ++ [last]) then
        .error (.bcs .hugeLength) rest
      else .ok (groupsNumber (front ++ [last])) rest := by
  obtain ⟨others, enough⟩ : ∃ others, 5 = front.length + (others + 1) :=
    ⟨4 - front.length, by omega⟩
  have number :
      groupsNumber front * 2 ^ 0 + last.toNat % 128 * 2 ^ (7 * front.length) =
        groupsNumber (front ++ [last]) := by
    rw [groupsNumber_snoc]
    ring
  have behind : 0 < 7 * front.length ↔ 0 < front.length := by
    omega
  rw [length, enough, run_lengthFrom_front more, run_lengthFrom_cons, if_neg (by omega),
    Nat.zero_add, Nat.zero_add, number]
  simp only [behind]

theorem rejects_length_of_many {front : Bytes} (more : ∀ byte ∈ front, 128 ≤ byte.toNat)
    (many : 5 ≤ front.length) (rest : Bytes) : Rejects length (front ++ rest) := by
  obtain ⟨first, others, rfl, five⟩ :
      ∃ first others, front = first ++ others ∧ first.length = 5 := by
    refine ⟨front.take 5, front.drop 5, (List.take_append_drop 5 front).symm, ?_⟩
    rw [List.length_take]
    omega
  have firstMore : ∀ byte ∈ first, 128 ≤ byte.toNat := fun byte member =>
    more byte (List.mem_append_left others member)
  refine ⟨.hugeLength, others ++ rest, ?_⟩
  have used : (5 : Nat) = first.length + 0 := five.symm
  rw [List.append_assoc, length, used, run_lengthFrom_front firstMore]
  rfl

/-- A last group that is zero is not needed behind others. -/
theorem rejects_length_of_redundant {front : Bytes} (more : ∀ byte ∈ front, 128 ≤ byte.toNat)
    (behind : front ≠ []) (rest : Bytes) : Rejects length (front ++ 0 :: rest) := by
  rcases Nat.lt_or_ge front.length 5 with few | many
  · refine ⟨.redundantLength, rest, ?_⟩
    rw [run_length_groups more (by decide) few, if_pos ⟨rfl, List.length_pos_iff.mpr behind⟩]
  · exact rejects_length_of_many more many (0 :: rest)

theorem rejects_length_of_huge {front : Bytes} {last : UInt8}
    (more : ∀ byte ∈ front, 128 ≤ byte.toNat) (ends : last.toNat < 128)
    (huge : 2 ^ 32 ≤ groupsNumber (front ++ [last])) (rest : Bytes) :
    Rejects length (front ++ last :: rest) := by
  rcases Nat.lt_or_ge front.length 5 with few | many
  · by_cases redundant : last.toNat = 0 ∧ 0 < front.length
    · refine ⟨.redundantLength, rest, ?_⟩
      rw [run_length_groups more ends few, if_pos redundant]
    · refine ⟨.hugeLength, rest, ?_⟩
      have above : greatestLength < groupsNumber (front ++ [last]) := by
        rw [greatestLength]
        omega
      rw [run_length_groups more ends few, if_neg redundant, if_pos above]
  · exact rejects_length_of_many more many (last :: rest)

end Reader

/-! ## One form for each value -/

namespace Layout

/-- Whatever a layout reads is what it writes of the value that it gives: the bytes at the front of
the input that were taken. -/
theorem Writable.writes_of_reads {layout : Layout} (writable : layout.Writable)
    {input rest : Bytes} {value : Value} (reads : layout.read.run input = .ok value rest) :
    ∃ count ≤ input.length, rest = input.drop count ∧
      (layout.write value).run [] = .ok () (input.take count) := by
  obtain ⟨front, rfl, writes⟩ := writable.undoes.written reads
  refine ⟨front.length, ?_, ?_, ?_⟩
  · rw [List.length_append]
    exact Nat.le_add_right _ _
  · rw [List.drop_left]
  · rw [List.take_left]
    exact writes

/-- Two forms of one value are the same. -/
theorem Writable.form_unique {layout : Layout} (writable : layout.Writable) {value : Value}
    {form other rest left : Bytes} (reads : layout.read.run (form ++ rest) = .ok value rest)
    (readsOther : layout.read.run (other ++ left) = .ok value left) : form = other := by
  obtain ⟨front, same, writes⟩ := writable.undoes.written reads
  obtain ⟨frontOther, sameOther, writesOther⟩ := writable.undoes.written readsOther
  calc
    form = front := List.append_cancel_right same
    _ = frontOther := writes.unique writesOther
    _ = other := (List.append_cancel_right sameOther).symm

/-- Decoding is canonical. A layout that reads a value from the front of an input writes exactly
these bytes of the value, so that no value has two forms. Truth values other than zero and one are
refused, and so are lengths with a last group that is not needed, with more than five groups or of a
number beyond 32 bits, and texts that are no UTF-8. -/
theorem decoding_is_canonical :
    (∀ layout : Layout, layout.Writable → ∀ (input rest : Bytes) (value : Value),
        layout.read.run input = .ok value rest →
          ∃ count ≤ input.length, rest = input.drop count ∧
            (layout.write value).run [] = .ok () (input.take count)) ∧
      (∀ layout : Layout, layout.Writable → ∀ (value : Value) (form other rest left : Bytes),
        layout.read.run (form ++ rest) = .ok value rest →
          layout.read.run (other ++ left) = .ok value left → form = other) ∧
      (∀ (byte : UInt8) (rest : Bytes), 1 < byte.toNat →
        Rejects Layout.bool.read (byte :: rest)) ∧
      (∀ front rest : Bytes, (∀ byte ∈ front, 128 ≤ byte.toNat) → front ≠ [] →
        Rejects Layout.length.read (front ++ 0 :: rest)) ∧
      (∀ front rest : Bytes, (∀ byte ∈ front, 128 ≤ byte.toNat) → 5 ≤ front.length →
        Rejects Layout.length.read (front ++ rest)) ∧
      (∀ (front : Bytes) (last : UInt8) (rest : Bytes), (∀ byte ∈ front, 128 ≤ byte.toNat) →
        last.toNat < 128 → 2 ^ 32 ≤ Reader.groupsNumber (front ++ [last]) →
          Rejects Layout.length.read (front ++ last :: rest)) ∧
      ∀ encoded rest : Bytes, encoded.length < 2 ^ 32 →
        (∀ text : String, Bytes.ofText text ≠ encoded) →
          Rejects Layout.text.read (Writer.groups encoded.length ++ encoded ++ rest) := by
  refine ⟨?_, ?_, ?_, ?_, ?_, ?_, ?_⟩
  · intro layout writable input rest value reads
    exact writable.writes_of_reads reads
  · intro layout writable value form other rest left reads readsOther
    exact writable.form_unique reads readsOther
  · intro byte rest large
    exact (rejects_bool large rest).bind _
  · intro front rest more behind
    exact (Reader.rejects_length_of_redundant more behind rest).bind _
  · intro front rest more many
    exact (Reader.rejects_length_of_many more many rest).bind _
  · intro front last rest more ends huge
    exact (Reader.rejects_length_of_huge more ends huge rest).bind _
  · intro encoded rest short notText
    exact (rejects_text short notText rest).bind _

/-- Two lengths in a vector, and inputs that are refused. -/
theorem decoding_is_canonical_of_lengths :
    (∃ count ≤ 5, [9] = ([2, 0x80, 0x01, 5, 9] : Bytes).drop count ∧
        ((Layout.vector .length).write (.list [.int 128, .int 5])).run [] =
          .ok () (([2, 0x80, 0x01, 5, 9] : Bytes).take count)) ∧
      Rejects Layout.bool.read [2] ∧
      Rejects Layout.length.read [0x80, 0] ∧
      Rejects Layout.length.read [0x80, 0x80, 0x80, 0x80, 0x80, 1] ∧
      Rejects Layout.length.read [0x80, 0x80, 0x80, 0x80, 0x10] ∧
      Rejects Layout.text.read [1, 0xFF] := by
  obtain ⟨writes, -, bools, redundant, many, huge, texts⟩ := decoding_is_canonical
  have notText : ∀ text : String, Bytes.ofText text ≠ [0xFF] := by
    intro text same
    have reads : Bytes.toText? [0xFF] = some text := by
      rw [← same, Bytes.toText?_ofText]
    have none : Bytes.toText? [0xFF] = none := by cbv
    rw [none] at reads
    cases reads
  have form : Writer.groups 1 = [1] := Writer.groups_of_lt (by decide)
  have more : ∀ count, ∀ byte ∈ List.replicate count (0x80 : UInt8), 128 ≤ byte.toNat := by
    intro count byte inside
    rw [List.eq_of_mem_replicate inside]
    decide
  refine ⟨?_, ?_, ?_, ?_, ?_, ?_⟩
  · exact writes (.vector .length) (.vector .length) [2, 0x80, 0x01, 5, 9] [9] _ (by rfl)
  · exact bools 2 [] (by decide)
  · exact redundant (List.replicate 1 0x80) [] (more 1) (by decide)
  · exact many (List.replicate 5 0x80) [1] (more 5) (by decide)
  · exact huge (List.replicate 4 0x80) 0x10 [] (more 4) (by decide) (by decide)
  · have rejects := texts [0xFF] [] (by decide) notText
    rw [List.length_singleton, form] at rejects
    exact rejects

end Layout

end LedgerBook.Bcs
