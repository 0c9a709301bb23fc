import LedgerBook.Proofs.Json.Path
import Mathlib.Data.List.Basic
import Mathlib.Data.List.Induction
/-!
What is absent from a value. A required walk reports the first hop that is absent, with the whole
path from the root to it, wherever on the way the walk begins.
-/
namespace LedgerBook.Json

/-! ## Hops -/

/-- A step leads from a value to another one, which is not null: to what an object has at a name, to
what an array has at a place, or, if the value is an object of the type that the step names, to the
value itself. -/
inductive Leads : Json → Step → Json → Prop
  | member {members : Members} {name : Text} {next : Json} :
      Members.get members name = next → next.isNull = false →
        Leads (.obj members) (.member name) next
  | item {items : List Json} {place : Nat} {next : Json} :
      items[place]? = some next → next.isNull = false → Leads (.arr items) (.item place) next
  | flag {items : List Json} {second : Bool} {next : Json} :
      items[if second then 1 else 0]? = some next → next.isNull = false →
        Leads (.arr items) (.flag second) next
  | variant {members : Members} {typename : Text} :
      Members.get members typeMember = .str typename →
        Leads (.obj members) (.variant typename) (.obj members)

/-- A path leads from a value, which is not null, to another one. -/
inductive Arrives : Json → List Step → Json → Prop
  | here {value : Json} : value.isNull = false → Arrives value [] value
  | hop {value next last : Json} {step : Step} {rest : List Step} :
      Leads value step next → Arrives next rest last → Arrives value (step :: rest) last

/-- A path leads somewhere. -/
def Present (value : Json) (path : List Step) : Prop :=
  ∃ last, Arrives value path last

/-- The first hop that is absent from a value, of some paths in their order: the shortest front of
the first path that leads nowhere. The empty front stands for the value itself. -/
inductive FirstAbsent (value : Json) : List (List Step) → List Step → Prop
  | ofFirst {path hop : List Step} {others : List (List Step)} :
      hop <+: path → ¬ Present value hop →
        (∀ short, short <+: hop → short ≠ hop → Present value short) →
          FirstAbsent value (path :: others) hop
  | later {path hop : List Step} {others : List (List Step)} :
      Present value path → FirstAbsent value others hop → FirstAbsent value (path :: others) hop

theorem leads_of_item {items : List Json} {place : Nat} {next : Json}
    (follows : (items[place]?).getD null = next) (found : next.isNull = false) :
    items[place]? = some next := by
  cases there : items[place]? with
  | some item =>
      rw [there, Option.getD_some] at follows
      rw [follows]
  | none =>
      rw [there, Option.getD_none] at follows
      subst follows
      cases found

/-- A step leads to what it is followed to, unless that is null. -/
theorem leads_iff {value next : Json} {step : Step} :
    Leads value step next ↔ value.follow step = next ∧ next.isNull = false := by
  constructor
  · intro leads
    cases leads with
    | member isThere found => exact ⟨isThere, found⟩
    | item isThere found =>
        refine ⟨?_, found⟩
        simp only [follow, Json.item, isThere, Option.getD_some]
    | @flag items second next isThere found =>
        refine ⟨?_, found⟩
        cases second <;> simpa [follow, Json.item] using congrArg (Option.getD · null) isThere
    | @variant members typename named =>
        have isNamed : (obj members).hasType typename = true := hasType_iff.mpr named
        exact ⟨by rw [follow, if_pos isNamed], rfl⟩
  · rintro ⟨follows, found⟩
    subst follows
    cases step with
    | member name =>
        cases value with
        | obj members => exact .member rfl found
        | _ => cases found
    | item index =>
        cases index with
        | negSucc place => cases value <;> cases found
        | ofNat place =>
            cases value with
            | arr items => exact .item (leads_of_item rfl found) found
            | _ => cases found
    | flag second =>
        cases value with
        | arr items => cases second <;> exact .flag (leads_of_item rfl found) found
        | _ => cases second <;> cases found
    | variant typename =>
        by_cases isNamed : value.hasType typename = true
        · rw [follow, if_pos isNamed] at found ⊢
          cases value with
          | obj members => exact .variant (hasType_iff.mp isNamed)
          | _ => cases isNamed
        · rw [follow, if_neg isNamed] at found
          cases found
    | nowhere text => cases found

theorem arrives_iff {value last : Json} {path : List Step} :
    Arrives value path last ↔ path.foldl follow value = last ∧ last.isNull = false := by
  constructor
  · intro arrives
    induction arrives with
    | here found => exact ⟨rfl, found⟩
    | hop leads _ inductionHypothesis =>
        obtain ⟨rfl, -⟩ := leads_iff.mp leads
        exact inductionHypothesis
  · rintro ⟨ends, found⟩
    induction path generalizing value with
    | nil =>
        subst ends
        exact .here found
    | cons step rest inductionHypothesis =>
        subst ends
        exact .hop (leads_iff.mpr ⟨rfl, isNull_eq_false_of_foldl found⟩)
          (inductionHypothesis rfl)

theorem present_iff {value : Json} {path : List Step} :
    Present value path ↔ (path.foldl follow value).isNull = false := by
  unfold Present
  simp only [arrives_iff]
  constructor
  · rintro ⟨last, rfl, found⟩
    exact found
  · intro found
    exact ⟨_, rfl, found⟩

instance (value : Json) (path : List Step) : Decidable (Present value path) :=
  decidable_of_iff _ present_iff.symm

/-- Every hop on the way to a hop that is present is present too. -/
theorem Present.front {value : Json} {path short : List Step} (present : Present value path)
    (front : short <+: path) : Present value short := by
  obtain ⟨rest, rfl⟩ := front
  rw [present_iff, List.foldl_append] at present
  exact present_iff.mpr (isNull_eq_false_of_foldl present)

/-! ## The first absent hop -/

/-- All hops before a hop are present if the one before it is. -/
theorem Present.earlier {value : Json} {front : List Step} (present : Present value front)
    (step : Step) {short : List Step} (shorter : short <+: front ++ [step])
    (different : short ≠ front ++ [step]) : Present value short := by
  rcases List.prefix_concat_iff.mp shorter with same | within
  · exact False.elim (different same)
  · exact present.front within

theorem exists_shortest_absent {value : Json} {path : List Step} (absent : ¬ Present value path) :
    ∃ hop, hop <+: path ∧ ¬ Present value hop ∧
      ∀ short, short <+: hop → short ≠ hop → Present value short := by
  induction path using List.reverseRecOn with
  | nil =>
      refine ⟨[], List.prefix_rfl, absent, ?_⟩
      intro short front different
      exact False.elim (different (List.prefix_nil.mp front))
  | append_singleton front step inductionHypothesis =>
      by_cases present : Present value front
      · exact ⟨front ++ [step], List.prefix_rfl, absent, fun _ => present.earlier step⟩
      · obtain ⟨hop, within, hopAbsent, earlier⟩ := inductionHypothesis present
        exact ⟨hop, within.trans (List.prefix_append _ _), hopAbsent, earlier⟩

/-- There is a first absent hop exactly if one of the paths leads nowhere. -/
theorem exists_firstAbsent_iff {value : Json} {paths : List (List Step)} :
    (∃ hop, FirstAbsent value paths hop) ↔ ∃ path ∈ paths, ¬ Present value path := by
  induction paths with
  | nil =>
      constructor
      · rintro ⟨hop, impossible⟩
        cases impossible
      · rintro ⟨path, impossible, -⟩
        cases impossible
  | cons path others inductionHypothesis =>
      rw [List.exists_mem_cons_iff]
      constructor
      · rintro ⟨hop, first⟩
        cases first with
        | ofFirst front absent earlier => exact Or.inl fun present => absent (present.front front)
        | later present first => exact Or.inr (inductionHypothesis.mp ⟨hop, first⟩)
      · intro some
        by_cases present : Present value path
        · have others := some.resolve_left fun absent => absent present
          obtain ⟨hop, first⟩ := inductionHypothesis.mpr others
          exact ⟨hop, .later present first⟩
        · obtain ⟨hop, front, absent, earlier⟩ := exists_shortest_absent present
          exact ⟨hop, .ofFirst front absent earlier⟩

/-! ## The text of a path -/

theorem pathText_nil (root : Text) : pathText root [] = root := by
  change List.intercalate (Text.ofString ".") [root] = root
  exact List.intercalate_singleton

theorem pathText_cons (root : Text) (step : Step) (rest : List Step) :
    pathText root (step :: rest) = root ++ "." ++ pathText step.text rest :=
  List.intercalate_cons_cons

theorem pathText_snoc (root : Text) (path : List Step) (step : Step) :
    pathText root (path ++ [step]) = pathText root path ++ "." ++ step.text := by
  induction path generalizing root with
  | nil => rw [List.nil_append, pathText_cons, pathText_nil, pathText_nil]
  | cons first rest inductionHypothesis =>
      rw [List.cons_append, pathText_cons, pathText_cons, inductionHypothesis]
      simp only [List.append_assoc]

/-! ## Required walks that do not arrive -/

variable {page : Option Int} {root : Text} {start path hop : List Step} {value : Json}

/-- A required walk that has come to a hop fails at the first absent hop behind it. -/
theorem requireFrom_eq_error (front : hop <+: path) (behind : hop ≠ [])
    (absent : ¬ Present value hop)
    (earlier : ∀ short, short <+: hop → short ≠ hop → Present value short) :
    requireFrom page (pathText root start) value path =
      .error (.missingData (pathText root (start ++ hop)) page) := by
  induction path generalizing start hop value with
  | nil => exact False.elim (behind (List.prefix_nil.mp front))
  | cons step rest inductionHypothesis =>
      obtain ⟨first, others, rfl⟩ := List.exists_cons_of_ne_nil behind
      obtain ⟨rfl, within⟩ := List.cons_prefix_cons.mp front
      rw [requireFrom, ← pathText_snoc]
      cases others with
      | nil =>
          have nothing : (value.follow first).isNull = true := by
            rw [present_iff, Bool.not_eq_false] at absent
            exact absent
          simp only [nothing]
          rfl
      | cons second others =>
          have there : (value.follow first).isNull = false :=
            present_iff.mp (earlier [first] ⟨second :: others, rfl⟩ (by simp))
          simp only [there]
          have fails : requireFrom page (pathText root (start ++ [first])) (value.follow first)
              rest = .error (.missingData
                (pathText root (start ++ [first] ++ (second :: others))) page) := by
            refine inductionHypothesis within (List.cons_ne_nil second others) ?_ ?_
            · rwa [present_iff] at absent ⊢
            · intro short shorter different
              have present := earlier (first :: short) (List.cons_prefix_cons.mpr ⟨rfl, shorter⟩)
                (by simpa using different)
              rwa [present_iff] at present ⊢
          rw [List.append_assoc] at fails
          exact fails

theorem require_eq_error (front : hop <+: path) (absent : ¬ Present value hop)
    (earlier : ∀ short, short <+: hop → short ≠ hop → Present value short) :
    value.require path (pathText root start) page =
      .error (.missingData (pathText root (start ++ hop)) page) := by
  rw [require]
  by_cases behind : hop = []
  · subst behind
    have nothing : value.isNull = true := by
      rw [present_iff, Bool.not_eq_false] at absent
      exact absent
    simp only [nothing, List.append_nil]
    rfl
  · have there : value.isNull = false :=
      present_iff.mp (earlier [] List.nil_prefix (Ne.symm behind))
    simp only [there]
    exact requireFrom_eq_error front behind absent earlier

/-- A path leads somewhere exactly if its rest does from the value to which its front leads. -/
theorem present_append_iff {data : Json} {short : List Step}
    (ends : start.foldl follow data = value) :
    Present data (start ++ short) ↔ Present value short := by
  rw [present_iff, present_iff, List.foldl_append, ends]

/-- A required walk that begins behind some hops fails at the first absent hop of the whole path, if
the hops up to its beginning are present. -/
theorem require_eq_error_behind {data : Json} (ends : start.foldl follow data = value)
    (reached : ∀ short, short <+: start → short ≠ start → Present data short)
    (front : hop <+: start ++ path) (absent : ¬ Present data hop)
    (earlier : ∀ short, short <+: hop → short ≠ hop → Present data short) :
    value.require path (pathText root start) page =
      .error (.missingData (pathText root hop) page) := by
  have behind : start <+: hop := by
    rcases List.prefix_or_prefix_of_prefix front (List.prefix_append start path) with
      before | behind
    · by_cases same : hop = start
      · exact same ▸ List.prefix_rfl
      · exact False.elim (absent (reached hop before same))
    · exact behind
  obtain ⟨rest, rfl⟩ := behind
  rw [present_append_iff ends] at absent
  refine require_eq_error ((List.prefix_append_right_inj start).mp front) absent ?_
  intro short shorter different
  have within : start ++ short <+: start ++ rest := (List.prefix_append_right_inj start).mpr shorter
  exact (present_append_iff ends).mp (earlier _ within (by simpa using different))

end LedgerBook.Json
