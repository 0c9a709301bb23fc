import LedgerBook.Proofs.Json.Composition
/-!
Optional walks. An optional walk gives what a required walk along the same path gives, and its
fallback exactly where the required walk fails. Both come to the same dead ends, although one of them
looks for a value before it goes on and the other one when it has gone on.
-/
namespace LedgerBook.Json

/-! ## Keys -/

/-- The place in an array that a step names: an index, or a truth value, which counts as zero or
one. -/
def Step.place? : Step → Option Int
  | .item index => some index
  | .flag second => some (if second then 1 else 0)
  | _ => none

/-- A step is a key: a name, or a place. Only such steps are taken by optional walks, which look at no
types. -/
inductive Step.IsKey : Step → Prop
  | name (name : Text) : Step.IsKey (.member name)
  | place {step : Step} {index : Int} : step.place? = some index → Step.IsKey step

/-- A value has nothing at a key: names are looked for in objects only, and places in arrays only,
where they are counted from zero on. What is null is as good as nothing. -/
inductive Misses : Json → Step → Prop
  | noObject {value : Json} {name : Text} : value.kind ≠ .obj → Misses value (.member name)
  | noMember {members : Members} {name : Text} :
      members.lookup name = none → Misses (.obj members) (.member name)
  | nullMember {members : Members} {name : Text} :
      members.lookup name = some null → Misses (.obj members) (.member name)
  | noArray {value : Json} {step : Step} {index : Int} :
      step.place? = some index → value.kind ≠ .arr → Misses value step
  | negative {value : Json} {step : Step} {index : Int} :
      step.place? = some index → index < 0 → Misses value step
  | outOfRange {items : List Json} {step : Step} {index : Int} :
      step.place? = some index → items.length ≤ index → Misses (.arr items) step
  | nullItem {items : List Json} {step : Step} {place : Nat} :
      step.place? = some (place : Int) → items[place]? = some null → Misses (.arr items) step

theorem follow_of_place {value : Json} {step : Step} {index : Int}
    (named : step.place? = some index) : value.follow step = value.item index := by
  cases step with
  | item other =>
      cases named
      rfl
  | flag second =>
      cases named
      rfl
  | member name => cases named
  | variant typename => cases named
  | nowhere text => cases named

theorem item_of_negative {index : Int} (negative : index < 0) (value : Json) :
    value.item index = null := by
  cases index with
  | ofNat place => exact absurd negative (Int.not_lt.mpr (Int.natCast_nonneg place))
  | negSucc less => cases value <;> rfl

theorem item_of_noArray {value : Json} (noArray : value.kind ≠ .arr) (index : Int) :
    value.item index = null := by
  cases value with
  | arr items => exact absurd rfl noArray
  | _ => rfl

theorem member_of_noObject {value : Json} (noObject : value.kind ≠ .obj) (name : Text) :
    value.member name = null := by
  cases value with
  | obj members => exact absurd rfl noObject
  | _ => rfl

/-- A look-up that may find nothing comes to null if it does, and if it finds null. -/
theorem isNull_getD_iff {found : Option Json} :
    (found.getD null).isNull = true ↔ found = none ∨ found = some null := by
  cases found with
  | none => exact iff_of_true rfl (.inl rfl)
  | some next =>
      cases next with
      | null => exact iff_of_true rfl (.inr rfl)
      | _ => exact iff_of_false Bool.noConfusion (by simp)

theorem misses_name_iff {value : Json} {name : Text} :
    Misses value (.member name) ↔ (value.member name).isNull = true := by
  constructor
  · intro misses
    cases misses with
    | noObject noObject =>
        rw [member_of_noObject noObject]
        rfl
    | noMember absent => exact isNull_getD_iff.mpr (.inl absent)
    | nullMember isNull => exact isNull_getD_iff.mpr (.inr isNull)
    | noArray named => cases named
    | negative named => cases named
    | outOfRange named => cases named
    | nullItem named => cases named
  · intro isNull
    by_cases noObject : value.kind ≠ .obj
    · exact .noObject noObject
    · cases value with
      | obj members =>
          rcases isNull_getD_iff.mp isNull with absent | isThere
          · exact .noMember absent
          · exact .nullMember isThere
      | _ => exact absurd Kind.noConfusion noObject

theorem misses_place_iff {value : Json} {step : Step} {index : Int}
    (named : step.place? = some index) :
    Misses value step ↔ (value.item index).isNull = true := by
  constructor
  · intro misses
    cases misses with
    | noObject => cases named
    | noMember => cases named
    | nullMember => cases named
    | noArray same noArray =>
        rw [item_of_noArray noArray]
        rfl
    | negative same negative =>
        cases named.symm.trans same
        rw [item_of_negative negative]
        rfl
    | outOfRange same outOfRange =>
        cases named.symm.trans same
        cases index with
        | negSucc less => rfl
        | ofNat place =>
            exact isNull_getD_iff.mpr (.inl (List.getElem?_eq_none (Int.ofNat_le.mp outOfRange)))
    | nullItem same isNull =>
        cases named.symm.trans same
        exact isNull_getD_iff.mpr (.inr isNull)
  · intro isNull
    by_cases noArray : value.kind ≠ .arr
    · exact .noArray named noArray
    · cases value with
      | arr items =>
          cases index with
          | negSucc less => exact .negative named (Int.negSucc_lt_zero less)
          | ofNat place =>
              rcases isNull_getD_iff.mp isNull with absent | isThere
              · exact .outOfRange named (Int.ofNat_le.mpr (List.getElem?_eq_none_iff.mp absent))
              · exact .nullItem named isThere
      | _ => exact absurd Kind.noConfusion noArray

/-- A key misses what it names exactly if it leads nowhere. -/
theorem Step.IsKey.misses_iff {value : Json} {step : Step} (key : step.IsKey) :
    Misses value step ↔ (value.follow step).isNull = true := by
  cases key with
  | name name => exact misses_name_iff
  | place named =>
      rw [follow_of_place named]
      exact misses_place_iff named

theorem Misses.isKey {value : Json} {step : Step} (misses : Misses value step) : step.IsKey := by
  cases misses with
  | noObject => exact .name _
  | noMember => exact .name _
  | nullMember => exact .name _
  | noArray named => exact .place named
  | negative named => exact .place named
  | outOfRange named => exact .place named
  | nullItem named => exact .place named

/-! ## Dead ends -/

/-- A path comes to a dead end in a value: the value is null, or the path leads to a value in which
its next key misses something. The hop is the path up to there. -/
inductive DeadEnd (value : Json) : (path hop : List Step) → Prop
  | atRoot {path : List Step} : value.isNull = true → DeadEnd value path []
  | atKey {front rest : List Step} {step : Step} {there : Json} :
      Arrives value front there → Misses there step →
        DeadEnd value (front ++ step :: rest) (front ++ [step])

section Walks

variable {page : Option Int} {root : Text} {value last : Json} {path hop : List Step}
  {failure : Failure}

/-- A required walk reports the dead end of its path. -/
theorem DeadEnd.require_eq (deadEnd : DeadEnd value path hop) (root : Text) (page : Option Int) :
    value.require path root page = .error (.missingData (pathText root hop) page) := by
  cases deadEnd with
  | atRoot isNull =>
      rw [require, pathText_nil]
      simp only [isNull]
      rfl
  | @atKey front rest step there arrives misses =>
      have reached : Present value front := ⟨there, arrives⟩
      have absent : ¬ Present value (front ++ [step]) := by
        rw [present_iff, List.foldl_append, (arrives_iff.mp arrives).1, List.foldl_cons,
          List.foldl_nil, misses.isKey.misses_iff.mp misses]
        exact Bool.noConfusion
      have within : front ++ [step] <+: front ++ step :: rest := by
        rw [List.prefix_append_right_inj]
        exact List.cons_prefix_cons.mpr ⟨rfl, List.nil_prefix⟩
      have fails : value.require (front ++ step :: rest) (pathText root []) page =
          .error (.missingData (pathText root ([] ++ (front ++ [step]))) page) :=
        require_eq_error within absent fun _ => reached.earlier step
      rwa [pathText_nil, List.nil_append] at fails

/-- A path of keys that leads nowhere comes to a dead end. -/
theorem exists_deadEnd (keys : ∀ step ∈ path, step.IsKey) (absent : ¬ Present value path) :
    ∃ hop, DeadEnd value path hop := by
  obtain ⟨hop, ⟨rest, rfl⟩, hopAbsent, earlier⟩ := exists_shortest_absent absent
  rcases List.eq_nil_or_concat' hop with rfl | ⟨front, step, rfl⟩
  · rw [present_iff, Bool.not_eq_false] at hopAbsent
    exact ⟨[], .atRoot hopAbsent⟩
  · -- All that comes before the hop is present, so that it is the last key that misses something.
    have reached : Present value front :=
      earlier front (List.prefix_append front [step]) (by simp)
    obtain ⟨there, arrives⟩ := reached
    rw [present_iff, Bool.not_eq_false, List.foldl_append, (arrives_iff.mp arrives).1] at hopAbsent
    have key : step.IsKey := keys step (by simp)
    rw [List.append_assoc]
    exact ⟨_, .atKey arrives (key.misses_iff.mpr hopAbsent)⟩

/-! ## Optional walks -/

theorem findD_nil (value fallback : Json) :
    value.findD [] fallback = if value.isNull then fallback else value :=
  rfl

/-- An optional walk leaves as soon as there is nothing left to step into. -/
theorem findD_cons (value : Json) (step : Step) (rest : List Step) (fallback : Json) :
    value.findD (step :: rest) fallback =
      if value.isNull then fallback else (value.follow step).findD rest fallback := by
  cases value with
  | null =>
      rw [findD, foldl_follow_null]
      rfl
  | _ => rfl

theorem findD_of_isNull (isNull : value.isNull = true) (path : List Step) (fallback : Json) :
    value.findD path fallback = fallback := by
  cases path with
  | nil => rw [findD_nil, if_pos isNull]
  | cons step rest => rw [findD_cons, if_pos isNull]

theorem findD_of_requireFrom_eq_ok (found : value.isNull = false)
    (arrives : requireFrom page root value path = .ok last) (fallback : Json) :
    value.findD path fallback = last := by
  -- Both walks stand at the same value: the required one has just looked at it, the optional one is
  -- about to.
  induction path generalizing root value with
  | nil =>
      cases arrives
      rw [findD_nil, found]
      rfl
  | cons step rest inductionHypothesis =>
      rw [requireFrom] at arrives
      cases next : (value.follow step).isNull with
      | true =>
          simp only [next] at arrives
          cases arrives
      | false =>
          simp only [next] at arrives
          rw [findD_cons, found]
          exact inductionHypothesis next arrives

/-- A required walk that fails has just come to nothing; an optional walk sees it one step later, or
at its end. -/
theorem findD_of_requireFrom_eq_error (found : value.isNull = false)
    (fails : requireFrom page root value path = .error failure) (fallback : Json) :
    value.findD path fallback = fallback := by
  induction path generalizing root value with
  | nil => cases fails
  | cons step rest inductionHypothesis =>
      rw [findD_cons, found]
      change (value.follow step).findD rest fallback = fallback
      rw [requireFrom] at fails
      cases next : (value.follow step).isNull with
      | true => exact findD_of_isNull next rest fallback
      | false =>
          simp only [next] at fails
          exact inductionHypothesis next fails

theorem findD_of_require_eq_ok (arrives : value.require path root page = .ok last)
    (fallback : Json) : last.isNull = false ∧ value.findD path fallback = last := by
  cases start : value.isNull with
  | true =>
      rw [require] at arrives
      simp only [start] at arrives
      cases arrives
  | false =>
      rw [require_of_found start] at arrives
      exact ⟨isNull_of_requireFrom start arrives,
        findD_of_requireFrom_eq_ok start arrives fallback⟩

theorem findD_of_require_eq_error (fails : value.require path root page = .error failure)
    (fallback : Json) : value.findD path fallback = fallback := by
  cases start : value.isNull with
  | true => exact findD_of_isNull start path fallback
  | false =>
      rw [require_of_found start] at fails
      exact findD_of_requireFrom_eq_error start fails fallback

/-- The optional walk along a path of keys gives what the required walk gives. It gives its fallback,
whatever that is, exactly if the required walk fails, and the required walk fails exactly at the dead
end of the path, which it reports. -/
theorem optional_walks_agree (value : Json) {path : List Step}
    (keys : ∀ step ∈ path, step.IsKey) (root : Text) (page : Option Int) :
    (∀ last, value.require path root page = .ok last →
        last.isNull = false ∧ ∀ fallback, value.findD path fallback = last) ∧
      ((∃ failure, value.require path root page = .error failure) ↔
        ∀ fallback, value.findD path fallback = fallback) ∧
      ∀ failure, value.require path root page = .error failure ↔
        ∃ hop, DeadEnd value path hop ∧ failure = .missingData (pathText root hop) page := by
  refine ⟨?_, ?_, ?_⟩
  · intro last arrives
    exact ⟨(findD_of_require_eq_ok arrives null).1,
      fun fallback => (findD_of_require_eq_ok arrives fallback).2⟩
  · constructor
    · rintro ⟨failure, fails⟩ fallback
      exact findD_of_require_eq_error fails fallback
    · intro fallsBack
      cases walked : value.require path root page with
      | error failure => exact ⟨failure, rfl⟩
      | ok last =>
          obtain ⟨found, same⟩ := findD_of_require_eq_ok walked null
          rw [← same, fallsBack null] at found
          cases found
  · intro failure
    constructor
    · intro fails
      have absent : ¬ Present value path := by
        intro present
        rw [require_eq_ok rfl (present_iff.mp present)] at fails
        cases fails
      obtain ⟨hop, deadEnd⟩ := exists_deadEnd keys absent
      rw [deadEnd.require_eq] at fails
      cases fails
      exact ⟨hop, deadEnd, rfl⟩
    · rintro ⟨hop, deadEnd, rfl⟩
      exact deadEnd.require_eq root page

end Walks

/-- An array of two items, one of them null. -/
def twoItems : Json :=
  .obj [("items", .arr [.int 7, null])]

/-- Places are not counted from the end of an array. -/
theorem optional_walks_agree_of_negative_place :
    (∀ step ∈ ([.member "items", .item (-2)] : List Step), step.IsKey) ∧
      twoItems.require [.member "items", .item (-2)] =
        .error (.missingData "data.items.-2" none) ∧
      ∀ fallback, twoItems.findD [.member "items", .item (-2)] fallback = fallback := by
  have keys : ∀ step ∈ ([.member "items", .item (-2)] : List Step), step.IsKey := by
    intro step inside
    rcases List.mem_pair.mp inside with rfl | rfl
    · exact .name "items"
    · exact .place rfl
  obtain ⟨-, fallsBack, fails⟩ := optional_walks_agree twoItems keys "data" none
  have arrives : Arrives twoItems [.member "items"] (.arr [.int 7, null]) :=
    .hop (.member rfl rfl) (.here rfl)
  have deadEnd : DeadEnd twoItems ([.member "items"] ++ [.item (-2)])
      ([.member "items"] ++ [.item (-2)]) :=
    .atKey arrives (.negative rfl (by decide))
  have reports := (fails _).mpr ⟨_, deadEnd, rfl⟩
  exact ⟨keys, reports, fallsBack.mp ⟨_, reports⟩⟩

end LedgerBook.Json
