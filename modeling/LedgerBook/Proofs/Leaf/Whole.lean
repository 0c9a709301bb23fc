import LedgerBook.Proofs.Bcs.Framing
import LedgerBook.Proofs.Leaf
/-!
Payloads that were cut or have grown. No payload that is read as a leaf is the front of another one,
so that whatever is read of a whole payload is not read of a part of it.
-/
namespace LedgerBook.Leaf

open Bcs

variable {α : Type} {reader : Reader α}

/-- What a leaf holds, without the check that nothing follows. -/
def content (value : Reader α) : Reader (List (Entry α)) := do
  let entries ← Reader.vector (readEntry value)
  let _ ← Reader.unsigned 8
  return entries

theorem read_eq (value : Reader α) :
    read value = (do
      let entries ← content value
      Reader.finish
      return entries) := by
  simp only [read, content, bind_assoc, pure_bind]

theorem composed_content (composed : Composed reader) : Composed (content reader) := by
  have entry : Composed (readEntry reader) :=
    (Composed.unsigned 16).follow fun key => composed.map fun value => (key, value)
  exact entry.vector.follow fun entries => (Composed.unsigned 8).map fun _ => entries

/-- A payload is read as a leaf exactly if the content of a leaf takes all of it. -/
theorem runReader_read_eq_ok {bytes : Bytes} {found : List (Entry α)} :
    runReader (read reader) bytes = .ok found ↔ (content reader).run bytes = .ok found [] := by
  rw [runReader_eq_ok_iff, read_eq]
  constructor
  · rintro ⟨rest, reads⟩
    obtain ⟨entries, between, takes, follows⟩ := Reader.run_bind_eq_ok.mp reads
    obtain ⟨_, last, ends, gives⟩ := Reader.run_bind_eq_ok.mp follows
    obtain ⟨rfl, rfl⟩ := Reader.run_finish_eq_ok.mp ends
    cases gives
    exact takes
  · intro takes
    refine ⟨[], Reader.run_bind_eq_ok.mpr ⟨found, [], takes, ?_⟩⟩
    rw [Reader.run_bind_eq_ok]
    exact ⟨(), [], Reader.run_finish_eq_ok.mpr ⟨rfl, rfl⟩, rfl⟩

/-- A payload that is not a leaf is refused because of what its bytes hold. -/
theorem fault_of_refused (framed : Framed (content reader)) {bytes : Bytes} {failure : Failure}
    (refused : runReader (read reader) bytes = .error failure) :
    ∃ fault, failure = .bcs fault := by
  unfold runReader at refused
  split at refused
  · cases refused
  next other left fails =>
    cases refused
    rw [read_eq] at fails
    rcases Reader.run_bind_eq_error.mp fails with failsFirst | ⟨entries, between, -, follows⟩
    · exact framed.blames failsFirst
    · rcases Reader.run_bind_eq_error.mp follows with more | ⟨_, last, -, impossible⟩
      · cases between with
        | nil => cases more
        | cons byte others =>
            cases more
            exact ⟨_, rfl⟩
      · cases impossible

/-- No leaf is the front of another leaf. -/
theorem eq_of_front (framed : Framed (content reader)) {bytes other : Bytes}
    {found others : List (Entry α)} (reads : runReader (read reader) bytes = .ok found)
    (readsOther : runReader (read reader) other = .ok others) (front : bytes <+: other) :
    bytes = other := by
  rw [runReader_read_eq_ok] at reads readsOther
  obtain ⟨more, rfl⟩ := front
  have left := framed.stays reads more
  rw [readsOther] at left
  injection left with _ nothing
  have none : more = [] := nothing.symm
  rw [none, List.append_nil]

/-- A payload that was cut, or to which something was added, is refused if it was a leaf before. -/
theorem exists_fault_of_front (framed : Framed (content reader)) {bytes other : Bytes}
    {found : List (Entry α)} (reads : runReader (read reader) bytes = .ok found)
    (front : other <+: bytes ∨ bytes <+: other) (different : other ≠ bytes) :
    ∃ fault, runReader (read reader) other = .error (.bcs fault) := by
  cases outcome : runReader (read reader) other with
  | error failure =>
      obtain ⟨fault, rfl⟩ := fault_of_refused framed outcome
      exact ⟨fault, rfl⟩
  | ok others =>
      rcases front with cut | grown
      · exact False.elim (different (eq_of_front framed outcome reads cut))
      · exact False.elim (different (eq_of_front framed reads outcome grown).symm)

/-- Payloads that are cut or extended are never decoded. Whatever a reader that is composed of
operations makes of an input is decided by the bytes that it takes: it gives the same value and takes
the same bytes if anything follows, and it refuses every front of the input that is shorter than
these bytes. So if a payload is a leaf, all its proper fronts and all its proper extensions are
refused and have no entries. -/
theorem cut_or_extended_never_decoded (composed : Composed reader) (input : Bytes) :
    (∀ value rest, reader.run input = .ok value rest →
        ∃ count ≤ input.length, rest = input.drop count ∧
          (∀ more, reader.run (input ++ more) = .ok value ((input ++ more).drop count)) ∧
          ∀ short, short <+: input → short.length < count → Rejects reader short) ∧
      ∀ found, runReader (read reader) input = .ok found →
        ∀ other, other <+: input ∨ input <+: other → other ≠ input →
          (∃ fault, runReader (read reader) other = .error (.bcs fault)) ∧
            ∀ type payload, MoveValue.bytes ⟨type, payload⟩ = .ok other →
              entries reader ⟨type, payload⟩ = [] := by
  have framed := composed.framed
  have whole := (composed_content composed).framed
  refine ⟨?_, ?_⟩
  · intro value rest reads
    obtain ⟨taken, rfl⟩ := framed.front reads
    refine ⟨taken.length, ?_, List.drop_left.symm, ?_, ?_⟩
    · rw [List.length_append]
      exact Nat.le_add_right _ _
    · intro more
      rw [framed.stays reads more, List.append_assoc, List.drop_left]
    · intro short front shorter
      exact framed.rejects_short reads front shorter
  · intro found reads other front different
    obtain ⟨fault, refused⟩ := exists_fault_of_front whole reads front different
    exact ⟨⟨fault, refused⟩, fun type payload decodes => entries_of_refused decodes refused⟩

/-- Values of nothing and a vector of truth values. -/
def unitAndBools : Layout :=
  .sequence [.unit, .vector .bool]

/-- A leaf of one such value. -/
def leafOfBools : Bytes :=
  [1] ++ List.replicate 16 0 ++ [2, 1, 0] ++ List.replicate 8 0

theorem cut_or_extended_never_decoded_of_bools :
    Rejects unitAndBools.read [2, 1] ∧
      (∃ fault, runReader (read unitAndBools.read) (leafOfBools.take 27) = .error (.bcs fault)) ∧
      ∃ fault, runReader (read unitAndBools.read) (leafOfBools ++ [0]) = .error (.bcs fault) := by
  have plain : unitAndBools.Plain := by
    refine .sequence ?_
    simp only [List.forall_mem_cons]
    exact ⟨.unit, .vector .bool, List.forall_mem_nil _⟩
  obtain ⟨count, -, left, -, refusesShort⟩ :=
    (cut_or_extended_never_decoded plain.composed [2, 1, 0, 9]).1
      (.list [.unit, .list [.bool true, .bool false]]) [9] rfl
  have three : count = 3 := by
    have lengths := congrArg List.length left
    simp only [List.length_drop, List.length_cons, List.length_nil] at lengths
    omega
  have refuses := (cut_or_extended_never_decoded plain.composed leafOfBools).2
    [(0, .list [.unit, .list [.bool true, .bool false]])] rfl
  refine ⟨?_, ?_, ?_⟩
  · exact refusesShort [2, 1] ⟨[0, 9], rfl⟩ (by rw [three]; decide)
  · exact (refuses _ (Or.inl (List.take_prefix 27 _)) (by decide)).1
  · exact (refuses _ (Or.inr (List.prefix_append _ _)) (by decide)).1

end LedgerBook.Leaf
