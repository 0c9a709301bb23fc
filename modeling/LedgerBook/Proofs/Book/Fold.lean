import LedgerBook.Book
import Mathlib.Algebra.BigOperators.Group.List.Basic
import Mathlib.Algebra.Ring.Int.Defs
import Mathlib.Data.List.Induction
import Mathlib.Data.List.Nodup
/-!
The folded book as two mappings from ids to sizes. An id may come any number of times; its size is
then the sum of all that came with it, so that the order of the entries does not matter.
-/
namespace LedgerBook.Book

variable {id other : OrderId} {size held : Int} {entries others : List (OrderId × Order)}

/-! ## Sizes by id -/

namespace Sizes

/-- The ids that have a size. -/
def ids (sizes : Sizes) : List OrderId :=
  sizes.map Prod.fst

/-- The size of an id, if it has one. -/
def size? (sizes : Sizes) (id : OrderId) : Option Int :=
  sizes.lookup id

def total (sizes : Sizes) : Int :=
  (sizes.map Prod.snd).sum

variable {sizes rest : Sizes}

theorem ids_cons (entry : OrderId × Int) (rest : Sizes) :
    ids (entry :: rest) = entry.1 :: ids rest :=
  rfl

theorem total_cons (entry : OrderId × Int) (rest : Sizes) :
    total (entry :: rest) = entry.2 + total rest :=
  List.sum_cons

theorem size?_cons (entry : OrderId × Int) (rest : Sizes) (id : OrderId) :
    size? (entry :: rest) id = if id = entry.1 then some entry.2 else size? rest id := by
  rw [size?, List.lookup_cons]
  by_cases same : id = entry.1
  · rw [beq_iff_eq.mpr same, if_pos same]
  · rw [beq_eq_false_iff_ne.mpr same, if_neg same]
    rfl

theorem isSome_size?_iff : (size? sizes id).isSome = true ↔ id ∈ ids sizes := by
  induction sizes with
  | nil => simp [size?, ids]
  | cons entry rest inductionHypothesis =>
      rw [size?_cons, ids_cons, List.mem_cons, ← inductionHypothesis]
      by_cases same : id = entry.1
      · simp [same]
      · simp [same]

theorem add_cons_self (absent : id ∉ ids rest) :
    add ((id, held) :: rest) id size = (id, held + size) :: rest := by
  -- Ids come once, so that no other entry is changed.
  have stays : ∀ entry ∈ rest, (if entry.1 == id then (id, entry.2 + size) else entry) = entry := by
    intro entry inside
    have different : entry.1 ≠ id := fun same => absent (same ▸ List.mem_map_of_mem inside)
    rw [beq_eq_false_iff_ne.mpr different, if_neg Bool.false_ne_true]
  rw [add, if_pos (by simp), List.map_cons, List.map_congr_left stays, List.map_id']
  simp

theorem add_cons_of_ne {own : OrderId} (different : own ≠ id) :
    add ((own, held) :: rest) id size = (own, held) :: add rest id size := by
  have other : (own == id) = false := beq_eq_false_iff_ne.mpr different
  rw [add, add, List.any_cons, List.map_cons]
  simp only [other, Bool.false_or]
  split
  · rfl
  · rfl

/-- Adding to an id changes the size of this id only. -/
theorem size?_add (distinct : (ids sizes).Nodup) :
    size? (sizes.add id size) other =
      if other = id then some ((size? sizes id).getD 0 + size) else size? sizes other := by
  induction sizes with
  | nil =>
      change size? [(id, size)] other = _
      rw [size?_cons]
      simp [size?]
  | cons entry rest inductionHypothesis =>
      obtain ⟨own, held⟩ := entry
      rw [ids_cons, List.nodup_cons] at distinct
      by_cases same : own = id
      · subst same
        rw [add_cons_self distinct.1, size?_cons, size?_cons, size?_cons, if_pos rfl]
        by_cases here : other = own
        · rw [if_pos here, if_pos here]
          rfl
        · rw [if_neg here, if_neg here, if_neg here]
      · rw [add_cons_of_ne same, size?_cons, size?_cons, size?_cons, if_neg (Ne.symm same),
          inductionHypothesis distinct.2]
        by_cases here : other = own
        · rw [if_pos here, if_pos here, if_neg (here ▸ same)]
        · rw [if_neg here, if_neg here]

theorem mem_ids_add (distinct : (ids sizes).Nodup) :
    other ∈ ids (sizes.add id size) ↔ other = id ∨ other ∈ ids sizes := by
  rw [← isSome_size?_iff, ← isSome_size?_iff, size?_add distinct]
  by_cases same : other = id
  · simp [same]
  · simp [same]

theorem nodup_ids_add (distinct : (ids sizes).Nodup) : (ids (sizes.add id size)).Nodup := by
  induction sizes with
  | nil => exact List.pairwise_singleton _ id
  | cons entry rest inductionHypothesis =>
      obtain ⟨own, held⟩ := entry
      have both := distinct
      rw [ids_cons, List.nodup_cons] at both
      by_cases same : own = id
      · subst same
        rw [add_cons_self both.1]
        exact distinct
      · rw [add_cons_of_ne same, ids_cons, List.nodup_cons, mem_ids_add both.2]
        exact ⟨not_or.mpr ⟨same, both.1⟩, inductionHypothesis both.2⟩

theorem total_add (distinct : (ids sizes).Nodup) :
    total (sizes.add id size) = total sizes + size := by
  induction sizes with
  | nil => exact Int.add_comm size 0
  | cons entry rest inductionHypothesis =>
      obtain ⟨own, held⟩ := entry
      rw [ids_cons, List.nodup_cons] at distinct
      by_cases same : own = id
      · subst same
        rw [add_cons_self distinct.1, total_cons, total_cons]
        omega
      · rw [add_cons_of_ne same, total_cons, total_cons, inductionHypothesis distinct.2]
        omega

end Sizes

/-! ## Sizes of a list of entries -/

/-- The sum of the sizes of all entries with an id, if there are any. -/
def sizeIn (entries : List (OrderId × Order)) (id : OrderId) : Option Int :=
  if id ∈ entries.map Prod.fst then
    some ((entries.filter (·.1 == id)).map fun entry => entry.2.size).sum
  else none

/-- The sum of all sizes of some entries. -/
def totalSize (entries : List (OrderId × Order)) : Int :=
  (entries.map fun entry => entry.2.size).sum

theorem sizeIn_of_mem (among : id ∈ entries.map Prod.fst) :
    sizeIn entries id =
      some ((entries.filter (·.1 == id)).map fun entry => entry.2.size).sum :=
  if_pos among

theorem sizeIn_of_not_mem (absent : id ∉ entries.map Prod.fst) : sizeIn entries id = none :=
  if_neg absent

theorem getD_sizeIn (entries : List (OrderId × Order)) (id : OrderId) :
    (sizeIn entries id).getD 0 =
      ((entries.filter (·.1 == id)).map fun entry => entry.2.size).sum := by
  by_cases among : id ∈ entries.map Prod.fst
  · rw [sizeIn_of_mem among]
    rfl
  · have none : entries.filter (·.1 == id) = [] := by
      rw [List.filter_eq_nil_iff]
      intro entry inside same
      exact among (beq_iff_eq.mp same ▸ List.mem_map_of_mem inside)
    rw [sizeIn_of_not_mem among, none]
    rfl

theorem sizeIn_snoc (entries : List (OrderId × Order)) (entry : OrderId × Order) (id : OrderId) :
    sizeIn (entries ++ [entry]) id =
      if id = entry.1 then some ((sizeIn entries entry.1).getD 0 + entry.2.size)
      else sizeIn entries id := by
  by_cases same : id = entry.1
  · subst same
    rw [if_pos rfl, getD_sizeIn, sizeIn_of_mem (by simp), List.filter_append, List.map_append,
      List.sum_append]
    simp
  · have others : (entries ++ [entry]).filter (·.1 == id) = entries.filter (·.1 == id) := by
      rw [List.filter_append]
      simp [Ne.symm same]
    rw [if_neg same]
    by_cases among : id ∈ entries.map Prod.fst
    · rw [sizeIn_of_mem among, sizeIn_of_mem (by simp [among]), others]
    · rw [sizeIn_of_not_mem among, sizeIn_of_not_mem (by simp [among, same])]

/-- The size of an id depends only on which entries there are. -/
theorem sizeIn_perm (perm : entries.Perm others) (id : OrderId) :
    sizeIn entries id = sizeIn others id := by
  have sameIds := (perm.map Prod.fst).mem_iff (a := id)
  by_cases among : id ∈ entries.map Prod.fst
  · rw [sizeIn_of_mem among, sizeIn_of_mem (sameIds.mp among), ((perm.filter _).map _).sum_eq]
  · rw [sizeIn_of_not_mem among, sizeIn_of_not_mem (mt sameIds.mpr among)]

/-! ## The folded book -/

namespace Folded

/-- Whether a folded book is the sizes of some entries by id: those below the least id of a bid on
the side of the asks, and the others on the side of the bids. Each side has an id once, so that it
is a mapping. -/
structure Sums (folded : Folded) (entries : List (OrderId × Order)) : Prop where
  asks : ∀ id, folded.asks.size? id = if id < 2 ^ 127 then sizeIn entries id else none
  bids : ∀ id, folded.bids.size? id = if id < 2 ^ 127 then none else sizeIn entries id
  askIds : folded.asks.ids.Nodup
  bidIds : folded.bids.ids.Nodup
  total : folded.asks.total + folded.bids.total = totalSize entries

/-- Whether two folded books are the same as mappings. -/
def SameMappings (folded other : Folded) : Prop :=
  (∀ id, folded.asks.size? id = other.asks.size? id) ∧
    ∀ id, folded.bids.size? id = other.bids.size? id

variable {folded : Folded}

theorem side_eq (id : OrderId) : OrderId.side id = if id < 2 ^ 127 then .ask else .bid :=
  rfl

theorem totalSize_snoc (entries : List (OrderId × Order)) (entry : OrderId × Order) :
    totalSize (entries ++ [entry]) = totalSize entries + entry.2.size := by
  rw [totalSize, List.map_append, List.sum_append]
  simp [totalSize]

/-- Adding an entry adds its size to its id, on the side of the id. -/
theorem Sums.add (sums : folded.Sums entries) (entry : OrderId × Order) :
    (folded.add entry).Sums (entries ++ [entry]) := by
  obtain ⟨asks, bids, askIds, bidIds, total⟩ := sums
  by_cases below : entry.1 < 2 ^ 127
  · have added : folded.add entry = ⟨folded.asks.add entry.1 entry.2.size, folded.bids⟩ := by
      rw [Folded.add, side_eq, if_pos below]
    rw [added]
    refine ⟨fun id => ?_, fun id => ?_, Sizes.nodup_ids_add askIds, bidIds, ?_⟩
    · rw [Sizes.size?_add askIds, asks, asks, sizeIn_snoc, if_pos below]
      by_cases same : id = entry.1
      · rw [if_pos same, if_pos same, if_pos (same ▸ below)]
      · rw [if_neg same, if_neg same]
    · rw [bids, sizeIn_snoc]
      by_cases low : id < 2 ^ 127
      · rw [if_pos low, if_pos low]
      · have other : id ≠ entry.1 := fun same => low (same ▸ below)
        rw [if_neg low, if_neg low, if_neg other]
    · change (folded.asks.add entry.1 entry.2.size).total + folded.bids.total = _
      rw [Sizes.total_add askIds, totalSize_snoc]
      omega
  · have added : folded.add entry = ⟨folded.asks, folded.bids.add entry.1 entry.2.size⟩ := by
      rw [Folded.add, side_eq, if_neg below]
    rw [added]
    refine ⟨fun id => ?_, fun id => ?_, askIds, Sizes.nodup_ids_add bidIds, ?_⟩
    · rw [asks, sizeIn_snoc]
      by_cases low : id < 2 ^ 127
      · have other : id ≠ entry.1 := fun same => below (same ▸ low)
        rw [if_pos low, if_pos low, if_neg other]
      · rw [if_neg low, if_neg low]
    · rw [Sizes.size?_add bidIds, bids, bids, sizeIn_snoc, if_neg below]
      by_cases same : id = entry.1
      · rw [if_pos same, if_pos same, if_neg (same ▸ below)]
      · rw [if_neg same, if_neg same]
    · change folded.asks.total + (folded.bids.add entry.1 entry.2.size).total = _
      rw [Sizes.total_add bidIds, totalSize_snoc]
      omega

theorem Sums.disjoint (sums : folded.Sums entries) :
    ∀ id ∈ folded.asks.ids, id ∉ folded.bids.ids := by
  intro id isAsk isBid
  rw [← Sizes.isSome_size?_iff, sums.asks] at isAsk
  rw [← Sizes.isSome_size?_iff, sums.bids] at isBid
  by_cases low : id < 2 ^ 127
  · rw [if_pos low] at isBid
    cases isBid
  · rw [if_neg low] at isAsk
    cases isAsk

/-- Folded books of the same entries, in whatever order, are the same as mappings. -/
theorem Sums.sameMappings {otherFolded : Folded} (sums : folded.Sums entries)
    (otherSums : otherFolded.Sums others) (perm : entries.Perm others) :
    folded.SameMappings otherFolded := by
  constructor
  · intro id
    rw [sums.asks, otherSums.asks, sizeIn_perm perm]
  · intro id
    rw [sums.bids, otherSums.bids, sizeIn_perm perm]

theorem Sums.of_perm (sums : folded.Sums entries) (perm : entries.Perm others) :
    folded.Sums others where
  asks id := by rw [sums.asks, sizeIn_perm perm]
  bids id := by rw [sums.bids, sizeIn_perm perm]
  askIds := sums.askIds
  bidIds := sums.bidIds
  total := by rw [sums.total, totalSize, totalSize, (perm.map _).sum_eq]

end Folded

/-- The folded book is the sizes of its entries by id. -/
theorem sums_fold (entries : List (OrderId × Order)) : (fold entries).Sums entries := by
  induction entries using List.reverseRecOn with
  | nil =>
      refine ⟨fun id => ?_, fun id => ?_, List.nodup_nil, List.nodup_nil, rfl⟩
      · exact (ite_self _).symm
      · exact (ite_self _).symm
  | append_singleton entries entry inductionHypothesis =>
      -- The fold goes from the left, so that the induction takes entries away at the end.
      have grows : fold (entries ++ [entry]) = (fold entries).add entry := by
        rw [fold, List.foldl_append]
        rfl
      rw [grows]
      exact inductionHypothesis.add entry

example : fold [(5, ⟨1, 10⟩), (2 ^ 127, ⟨2, 7⟩), (5, ⟨3, 20⟩)] = ⟨[(5, 30)], [(2 ^ 127, 7)]⟩ := by
  decide

end LedgerBook.Book
