import LedgerBook.Proofs.Merge.Run
/-!
The sequences that sources hand out. A sequence has finitely or infinitely many units; after the
last of finitely many it is exhausted, fails, or says nothing any more.
-/
namespace LedgerBook.Merge

variable {σ α : Type}

/-- A sequence of units. -/
inductive Sequence (α : Type)
  | endless (unit : Nat → α)
  /-- Without an outcome the sequence never goes on after its last unit, and never ends. -/
  | finite (units : List α) (outcome : Option Outcome)

namespace Sequence

/-- Whether a sequence begins with some units. -/
def StartsWith : Sequence α → List α → Prop
  | endless unit, units => units = (List.range units.length).map unit
  | finite all _, units => units <+: all

theorem StartsWith.shorten {sequence : Sequence α} {fewer units : List α}
    (starts : sequence.StartsWith units) (shorter : fewer <+: units) :
    sequence.StartsWith fewer := by
  cases sequence with
  | endless unit =>
      have taken : fewer = units.take fewer.length :=
        List.prefix_iff_eq_take.mp shorter
      have bound : fewer.length ≤ units.length := shorter.length_le
      change units = (List.range units.length).map unit at starts
      change fewer = (List.range fewer.length).map unit
      calc
        fewer = units.take fewer.length := taken
        _ = ((List.range units.length).map unit).take fewer.length := by
              rw [← starts]
        _ = (List.range fewer.length).map unit := by
              rw [← List.map_take, List.take_range, Nat.min_eq_left bound]
  | finite all outcome =>
      exact shorter.trans starts

end Sequence

namespace Source

/-- A source that began at a state has handed out some units and has come to another state. The
log, which others write too, may be a different one at every step. -/
inductive Hands (source : Source σ α) (first : σ) : List α → σ → Prop
  | nothing : Hands source first [] first
  | working {units : List α} {state : σ} (log : Log) :
      Hands source first units state →
      (source.advance state log).1 = .working →
      Hands source first units (source.advance state log).2.1
  | unit {units : List α} {state : σ} {value : α} (log : Log) :
      Hands source first units state →
      (source.advance state log).1 = .item value →
      Hands source first (units ++ [value]) (source.advance state log).2.1

/-- A source that began at a state hands out some units and then comes out in some way. -/
def Finishes (source : Source σ α) (first : σ) (units : List α) (outcome : Outcome) : Prop :=
  ∃ state log,
    source.Hands first units state ∧
      Message.ofProgress? (source.advance state log).1 = some (.last outcome)

/-- The sequence of a source that begins at a state: whatever the source does agrees with it. -/
structure Presents (source : Source σ α) (first : σ) (sequence : Sequence α) : Prop where
  units : ∀ {units : List α} {state : σ},
    source.Hands first units state → sequence.StartsWith units
  outcome : ∀ {units : List α} {outcome : Outcome},
    source.Finishes first units outcome → sequence = .finite units (some outcome)

/-- What is told of a source that began at a state: the first of the units that it has handed out,
and perhaps, after all of them, how it came out. -/
def Tells (source : Source σ α) (first : σ) (messages : List (Message α)) : Prop :=
  ∃ units : List α,
    (messages = units.map .item ∧
        ∃ ahead state, source.Hands first (units ++ ahead) state) ∨
      ∃ outcome,
        messages = units.map .item ++ [.last outcome] ∧ source.Finishes first units outcome

theorem items_map_item (units : List α) :
    (units.map Message.item).filterMap Message.item? = units := by
  induction units with
  | nil => rfl
  | cons unit rest inductionHypothesis =>
      simp [Message.item?, inductionHypothesis]

theorem items_of_whole (units : List α) (outcome : Outcome) :
    (units.map Message.item ++ [Message.last outcome]).filterMap Message.item? = units := by
  rw [List.filterMap_append, items_map_item]
  exact List.append_nil units

theorem last_not_mem_map_item (units : List α) (outcome : Outcome) :
    Message.last outcome ∉ units.map Message.item := by
  simp

/-- The units that are told begin the sequence. -/
theorem Presents.startsWith_of_tells {source : Source σ α} {first : σ} {sequence : Sequence α}
    (presents : source.Presents first sequence) {messages : List (Message α)}
    (tells : source.Tells first messages) :
    sequence.StartsWith (messages.filterMap Message.item?) := by
  obtain ⟨units, ⟨rfl, ahead, state, hands⟩ | ⟨outcome, rfl, finishes⟩⟩ := tells
  · rw [items_map_item]
    exact (presents.units hands).shorten (List.prefix_append units ahead)
  · rw [items_of_whole, presents.outcome finishes]
    exact List.prefix_rfl

/-- Once an outcome is among the first messages that are told, these are all messages, and their
units are the whole sequence. -/
theorem Presents.eq_finite_of_tells {source : Source σ α} {first : σ} {sequence : Sequence α}
    (presents : source.Presents first sequence) {messages more : List (Message α)}
    (tells : source.Tells first (messages ++ more)) {outcome : Outcome}
    (seen : .last outcome ∈ messages) :
    sequence = .finite (messages.filterMap Message.item?) (some outcome) := by
  obtain ⟨units, ⟨whole, ahead, state, hands⟩ | ⟨final, whole, finishes⟩⟩ := tells
  · have among : .last outcome ∈ units.map Message.item := by
      rw [← whole]
      exact List.mem_append_left more seen
    exact False.elim (last_not_mem_map_item units outcome among)
  · rcases List.eq_nil_or_concat more with rfl | ⟨others, message, rfl⟩
    · rw [List.append_nil] at whole
      subst whole
      have same : outcome = final := by
        simpa using seen
      subst same
      rw [items_of_whole, presents.outcome finishes]
    · rw [List.concat_eq_append, ← List.append_assoc] at whole
      have items : messages ++ others = units.map Message.item :=
        (List.append_inj' whole rfl).1
      have among : .last outcome ∈ units.map Message.item := by
        rw [← items]
        exact List.mem_append_left others seen
      exact False.elim (last_not_mem_map_item units outcome among)

/-- How a source came out is told at most once. -/
theorem Tells.countP_le_one {source : Source σ α} {first : σ} {messages : List (Message α)}
    (tells : source.Tells first messages) :
    messages.countP (fun message => message.item?.isNone) ≤ 1 := by
  have none (units : List α) :
      (units.map Message.item).countP (fun message => message.item?.isNone) = 0 := by
    simp [List.countP_eq_zero, Message.item?]
  obtain ⟨units, ⟨rfl, _⟩ | ⟨outcome, rfl, _⟩⟩ := tells
  · rw [none]
    exact Nat.zero_le 1
  · rw [List.countP_append, none]
    simp [Message.item?]

end Source

/-! ## Sequences as sources -/

namespace Sequence

/-- The source that hands out the sequence which is its state. -/
def source : Source (Sequence α) α where
  advance
    | .endless unit, log => (.item (unit 0), .endless fun index => unit (index + 1), log)
    | .finite (unit :: rest) outcome, log => (.item unit, .finite rest outcome, log)
    | .finite [] none, log => (.working, .finite [] none, log)
    | .finite [] (some .exhausted), log => (.ended, .finite [] (some .exhausted), log)
    | .finite [] (some (.failed failure)), log =>
      (.failed failure, .finite [] (some (.failed failure)), log)
  close := id

/-- A sequence after some of its units. -/
def after (sequence : Sequence α) (count : Nat) : Sequence α :=
  match sequence with
  | endless unit => endless fun index => unit (index + count)
  | finite units outcome => finite (units.drop count) outcome

/-- As a source, a sequence hands out its own units and nothing else. -/
theorem hands_source {sequence state : Sequence α} {units : List α}
    (hands : source.Hands sequence units state) :
    sequence.StartsWith units ∧ state = sequence.after units.length := by
  induction hands with
  | nothing =>
      cases sequence with
      | endless unit => exact ⟨rfl, rfl⟩
      | finite all outcome => exact ⟨List.nil_prefix, rfl⟩
  | @working units state log hands silent inductionHypothesis =>
      obtain ⟨starts, rfl⟩ := inductionHypothesis
      refine ⟨starts, ?_⟩
      cases sequence with
      | endless unit => cases silent
      | finite all outcome =>
          simp only [after] at silent ⊢
          cases left : all.drop units.length with
          | cons unit rest => simp [source, left] at silent
          | nil =>
              cases outcome with
              | none => rfl
              | some outcome => cases outcome <;> simp [source, left] at silent
  | @unit units state value log hands given inductionHypothesis =>
      obtain ⟨starts, rfl⟩ := inductionHypothesis
      cases sequence with
      | endless unit =>
          change units = (List.range units.length).map unit at starts
          simp only [after, source, Progress.item.injEq, Nat.zero_add] at given
          refine ⟨?_, ?_⟩
          · change units ++ [value] = (List.range (units ++ [value]).length).map unit
            rw [List.length_append, List.length_singleton, List.range_succ, List.map_append,
              ← starts, List.map_singleton, given]
          · simp only [after, source, List.length_append, List.length_singleton]
            congr 1
            funext index
            congr 1
            omega
      | finite all outcome =>
          change units <+: all at starts
          simp only [after] at given ⊢
          cases left : all.drop units.length with
          | nil =>
              rw [left] at given
              cases outcome with
              | none => simp [source] at given
              | some outcome => cases outcome <;> simp [source] at given
          | cons unit rest =>
              simp only [left, source, Progress.item.injEq] at given
              subst given
              -- The unit that was given is the next one of the whole sequence.
              have whole : all = units ++ unit :: rest := by
                rw [← left]
                exact (List.prefix_iff_eq_append.mp starts).symm
              subst whole
              refine ⟨⟨rest, by simp⟩, ?_⟩
              simp [source]

/-- Every sequence is the sequence of some source. -/
theorem presents_source (sequence : Sequence α) : source.Presents sequence sequence where
  units hands := (hands_source hands).1
  outcome := by
    intro units outcome finishes
    obtain ⟨state, log, hands, comesOut⟩ := finishes
    obtain ⟨starts, rfl⟩ := hands_source hands
    cases sequence with
    | endless unit =>
        simp [after, source, Message.ofProgress?] at comesOut
    | finite all result =>
        simp only [after] at comesOut
        cases left : all.drop units.length with
        | cons unit rest =>
            simp [left, source, Message.ofProgress?] at comesOut
        | nil =>
            have whole : units = all :=
              starts.eq_of_length_le (List.drop_eq_nil_iff.mp left)
            subst whole
            rw [left] at comesOut
            cases result with
            | none => simp [source, Message.ofProgress?] at comesOut
            | some result =>
                cases result <;>
                  simp_all [source, Message.ofProgress?]

end Sequence

end LedgerBook.Merge
