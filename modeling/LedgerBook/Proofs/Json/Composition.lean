import LedgerBook.Page
import LedgerBook.Proofs.Json.Absence
/-!
Required walks in parts. A walk along a path comes to the same as a walk along its front and then,
from the value at the end of the front, a walk along the rest, if the second walk names the front in
its root. So an answer may be read in as many walks as one likes.
-/
namespace LedgerBook

namespace Json

variable {page : Option Int} {root : Text} {value last : Json} {front rest path : List Step}

/-! ## The text of a path in parts -/

theorem pathText_append (root : Text) (front rest : List Step) :
    pathText root (front ++ rest) = pathText (pathText root front) rest := by
  induction rest using List.reverseRecOn with
  | nil => rw [List.append_nil, pathText_nil]
  | append_singleton rest step inductionHypothesis =>
      rw [← List.append_assoc, pathText_snoc, pathText_snoc, inductionHypothesis]

theorem pathText_single (root : Text) (step : Step) :
    pathText root [step] = root ++ "." ++ step.text := by
  rw [pathText_cons, pathText_nil]

/-! ## Walks in parts -/

/-- From a value that is there a required walk goes by its steps only. -/
theorem require_of_found (found : value.isNull = false) :
    value.require path root page = requireFrom page root value path := by
  rw [require]
  simp only [found]
  rfl

/-- A required walk ends at a value that is there. -/
theorem isNull_of_requireFrom (found : value.isNull = false)
    (arrives : requireFrom page root value path = .ok last) : last.isNull = false := by
  induction path generalizing root value with
  | nil =>
      cases arrives
      exact found
  | cons step rest inductionHypothesis =>
      rw [requireFrom] at arrives
      cases there : (value.follow step).isNull with
      | true =>
          simp only [there] at arrives
          cases arrives
      | false =>
          simp only [there] at arrives
          exact inductionHypothesis there arrives

theorem requireFrom_append (front rest : List Step) :
    requireFrom page root value (front ++ rest) =
      (requireFrom page root value front >>= fun last =>
        requireFrom page (pathText root front) last rest) := by
  induction front generalizing root value with
  | nil =>
      rw [pathText_nil]
      rfl
  | cons step others inductionHypothesis =>
      have named : pathText root (step :: others) =
          pathText (root ++ "." ++ step.text) others := by
        rw [← pathText_single, ← pathText_append]
        rfl
      rw [List.cons_append, requireFrom, requireFrom, named]
      cases there : (value.follow step).isNull with
      | true => rfl
      | false => exact inductionHypothesis

/-- The rest of a walk, from the value at the end of its front. -/
theorem require_append_of_ok (arrives : value.require front root page = .ok last)
    (rest : List Step) :
    value.require (front ++ rest) root page = last.require rest (pathText root front) page := by
  cases start : value.isNull with
  | true =>
      rw [require] at arrives
      simp only [start] at arrives
      cases arrives
  | false =>
      rw [require_of_found start] at arrives ⊢
      have found := isNull_of_requireFrom start arrives
      rw [requireFrom_append, arrives, require_of_found found]
      rfl

/-- A walk whose front fails does not go on. -/
theorem require_append_of_error {failure : Failure}
    (fails : value.require front root page = .error failure) (rest : List Step) :
    value.require (front ++ rest) root page = .error failure := by
  cases start : value.isNull with
  | true =>
      rw [require] at fails ⊢
      simp only [start] at fails ⊢
      exact fails
  | false =>
      rw [require_of_found start] at fails ⊢
      rw [requireFrom_append, fails]
      rfl

/-- A required walk arrives, or names a hop of its path behind its root. -/
theorem require_arrives_or_names (value : Json) (path : List Step) (root : Text)
    (page : Option Int) :
    (∃ last, value.require path root page = .ok last ∧ last.isNull = false) ∨
      ∃ hop, hop <+: path ∧
        value.require path root page = .error (.missingData (pathText root hop) page) := by
  by_cases present : Present value path
  · have found := present_iff.mp present
    exact .inl ⟨_, require_eq_ok rfl found, found⟩
  · obtain ⟨hop, front, absent, earlier⟩ := exists_shortest_absent present
    have fails : value.require path (pathText root []) page =
        .error (.missingData (pathText root ([] ++ hop)) page) :=
      require_eq_error front absent earlier
    rw [pathText_nil, List.nil_append] at fails
    exact .inr ⟨hop, front, fails⟩

/-- A required walk has the same outcome as the walk along any front of its path followed by the
walk along the rest, whose root names the front: the same value, or the same path, page included, of
what is missing. -/
theorem required_walks_compose (value : Json) (front rest : List Step) (root : Text)
    (page : Option Int) :
    value.require (front ++ rest) root page =
        (value.require front root page >>= fun last =>
          last.require rest (pathText root front) page) ∧
      ((∃ last, value.require (front ++ rest) root page = .ok last ∧ last.isNull = false) ∨
        ∃ hop, hop <+: front ++ rest ∧
          value.require (front ++ rest) root page =
            .error (.missingData (pathText root hop) page)) := by
  refine ⟨?_, require_arrives_or_names value (front ++ rest) root page⟩
  cases walked : value.require front root page with
  | ok last => exact require_append_of_ok walked rest
  | error failure => exact require_append_of_error walked rest

end Json

namespace Page

open Json (Step pathText)

/-- The reader of a clearing house's answer walks to the map and from there to the map's fields. It
might as well walk to each of them from the data. -/
theorem ofClearingHouseData_eq (data : Json) (page : Int) :
    ofClearingHouseData data page = (do
      let address ← data.require (sidePath ++ [.member "address"]) "data" (some page)
      let connection ← data.require (sidePath ++ [.member "map_dfs"]) "data" (some page)
      ofConnection connection (pathText "data" (sidePath ++ [.member "map_dfs"])) page
        (some address.text)) := by
  have root : pathText "data" (sidePath ++ [.member "map_dfs"]) =
      pathText "data" sidePath ++ ".map_dfs" := by
    rw [Json.pathText_snoc]
    rfl
  unfold ofClearingHouseData
  cases walked : data.require sidePath "data" (some page) with
  | error failure =>
      rw [Json.require_append_of_error walked]
      rfl
  | ok map =>
      rw [Json.require_append_of_ok walked, Json.require_append_of_ok walked, root]
      rfl

end Page

end LedgerBook
