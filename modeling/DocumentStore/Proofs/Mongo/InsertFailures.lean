import DocumentStore.Mongo.Write
import DocumentStore.Proofs.Memory.Failures
import Mathlib.Order.Bounds.Basic
import Mathlib.Order.Lattice.Nat

/-!
# Failures of a batch insert

The server lists the records that it did not write, in any order, more than once, and with indexes
that the batch does not have.  Of an unordered insert each record has the last error that is listed
for it.  An ordered insert is cut at the least index of the batch that is listed, so that its
statuses stop at a failure as those of the store in memory do.
-/

namespace DocumentStore

/-- All records are written, or those in front of a failure, behind which none is attempted. -/
inductive StopsAtFailure : List InsertStatus → Prop
  | written (n : Nat) : StopsAtFailure (List.replicate n .written)
  | failed (n : Nat) (text : String) (left : Nat) :
    StopsAtFailure (List.replicate n .written ++ .failed text :: List.replicate left .notAttempted)

namespace StopsAtFailure

theorem cons_written {statuses : List InsertStatus} (h : StopsAtFailure statuses) :
    StopsAtFailure (.written :: statuses) := by
  cases h with
  | written n => exact .written (n + 1)
  | failed n text left => exact .failed (n + 1) text left

end StopsAtFailure

namespace Memory.Store

theorem fst_insertOne (store : Store) (collection : String) (record : Document) :
    (store.insertOne collection record).1 = .written ∨
      ∃ text, (store.insertOne collection record).1 = .failed text := by
  unfold insertOne
  dsimp only
  split
  · next text _ => exact .inr ⟨text, rfl⟩
  · exact .inl rfl

theorem stopsAtFailure_insertEach (collection : String) (store : Store)
    (records : List Document) :
    StopsAtFailure (insertEach collection true store records).1 := by
  induction records generalizing store with
  | nil => exact .written 0
  | cons record records ih =>
      rw [insertEach]
      dsimp only
      rcases fst_insertOne store collection record with hwritten | ⟨text, hfailed⟩
      · rw [hwritten]
        exact (ih _).cons_written
      · rw [hfailed, List.map_const']
        exact .failed 0 text records.length

end Memory.Store

namespace Mongo

def lastError? (errors : List WriteError) (index : Nat) : Option WriteError :=
  (errors.filter (·.index == index)).getLast?

def failing (errors : List WriteError) (size : Nat) : Set Nat :=
  {index | index < size ∧ ∃ error ∈ errors, error.index = index}

/-! ## Marks -/

section

variable {errors : List WriteError} {index : Nat}

theorem lastError?_cons (error : WriteError) (errors : List WriteError) (index : Nat) :
    lastError? (error :: errors) index =
      (lastError? errors index).or (if error.index = index then some error else none) := by
  unfold lastError?
  by_cases h : error.index = index
  · rw [List.filter_cons_of_pos (by simpa using h), List.getLast?_cons, if_pos h]
    cases (errors.filter (·.index == index)).getLast? <;> rfl
  · rw [List.filter_cons_of_neg (by simpa using h), if_neg h, Option.or_none]

theorem lastError?_eq_none_iff :
    lastError? errors index = none ↔ ∀ error ∈ errors, error.index ≠ index := by
  rw [lastError?, List.getLast?_eq_none_iff, List.filter_eq_nil_iff]
  simp

def statusOf (errors : List WriteError) (index : Nat) : InsertStatus :=
  (lastError? errors index).elim .written fun error => .failed error.text

theorem length_markFailures (statuses : List InsertStatus) (errors : List WriteError) :
    (markFailures statuses errors).length = statuses.length := by
  induction errors generalizing statuses with
  | nil => rfl
  | cons error errors ih => rw [markFailures, ih, List.length_set]

theorem getElem?_markFailures (statuses : List InsertStatus) (errors : List WriteError)
    (index : Nat) :
    (markFailures statuses errors)[index]? =
      statuses[index]?.map fun status =>
        (lastError? errors index).elim status fun error => .failed error.text := by
  induction errors generalizing statuses with
  | nil =>
      rw [markFailures]
      cases statuses[index]? <;> rfl
  | cons error errors ih =>
      rw [markFailures, ih, lastError?_cons, List.getElem?_set]
      by_cases h : error.index = index
      · subst h
        rw [if_pos rfl, if_pos rfl]
        by_cases hin : error.index < statuses.length
        · rw [if_pos hin, List.getElem?_eq_getElem hin]
          cases lastError? errors error.index <;> rfl
        · rw [if_neg hin, List.getElem?_eq_none (by omega)]
          rfl
      · rw [if_neg h, if_neg h, Option.or_none]

theorem getElem?_markFailures_replicate {size : Nat} (h : index < size) :
    (markFailures (List.replicate size .written) errors)[index]? =
      some (statusOf errors index) := by
  rw [getElem?_markFailures, List.getElem?_replicate, if_pos h]
  rfl

/-! ## The first failure -/

theorem le_firstFailure_iff {size bound : Nat} {errors : List WriteError} :
    bound ≤ firstFailure size errors ↔
      bound ≤ size ∧ ∀ error ∈ errors, bound ≤ error.index := by
  unfold firstFailure
  induction errors generalizing size with
  | nil => simp
  | cons error errors ih =>
      rw [List.foldl_cons, ih, List.forall_mem_cons, Nat.le_min, and_assoc]

theorem firstFailure_of_isLeast {size first : Nat} (h : IsLeast (failing errors size) first) :
    firstFailure size errors = first := by
  obtain ⟨⟨hsize, error, herror, hindex⟩, hleast⟩ := h
  apply Nat.le_antisymm
  · have hle := (le_firstFailure_iff.1 (Nat.le_refl (firstFailure size errors))).2 error herror
    omega
  · apply le_firstFailure_iff.2
    refine ⟨by omega, fun other hother => ?_⟩
    -- an index beyond the batch is beyond its first failure all the more
    by_cases hin : other.index < size
    · exact hleast ⟨hin, other, hother, rfl⟩
    · omega

theorem firstFailure_of_empty {size : Nat} (h : failing errors size = ∅) :
    firstFailure size errors = size := by
  apply Nat.le_antisymm
  · exact (le_firstFailure_iff.1 (Nat.le_refl (firstFailure size errors))).1
  · apply le_firstFailure_iff.2
    refine ⟨Nat.le_refl size, fun error herror => ?_⟩
    by_contra hin
    have hmem : error.index ∈ failing errors size := ⟨by omega, error, herror, rfl⟩
    rw [h] at hmem
    exact hmem

theorem statusOf_of_not_mem {size : Nat} (h : index ∉ failing errors size) (hsize : index < size) :
    statusOf errors index = .written := by
  have hnone : lastError? errors index = none := by
    apply lastError?_eq_none_iff.2
    exact fun error herror hindex => h ⟨hsize, error, herror, hindex⟩
  rw [statusOf, hnone]
  rfl

theorem exists_lastError? {size : Nat} (h : index ∈ failing errors size) :
    ∃ error, lastError? errors index = some error := by
  obtain ⟨-, error, herror, hindex⟩ := h
  apply Option.ne_none_iff_exists'.1
  exact fun hnone => lastError?_eq_none_iff.1 hnone error herror hindex

end

/-! ## Reports -/

/-- Each record of the batch was attempted, and has the last error that is listed for it. -/
structure ReportsEach (errors : List WriteError) (size : Nat) (statuses : List InsertStatus) :
    Prop where
  length : statuses.length = size
  failed : ∀ index < size, ∀ error, lastError? errors index = some error →
    statuses[index]? = some (.failed error.text)
  written : ∀ index < size, lastError? errors index = none → statuses[index]? = some .written
  attempted : .notAttempted ∉ statuses

/-- The records in front of the least failing index were written, and none behind it was
attempted. -/
structure ReportsFirst (errors : List WriteError) (size : Nat) (statuses : List InsertStatus) :
    Prop where
  length : statuses.length = size
  before : ∀ first, IsLeast (failing errors size) first →
    ∀ index < first, statuses[index]? = some .written
  failed : ∀ first, IsLeast (failing errors size) first →
    ∃ error, lastError? errors first = some error ∧ statuses[first]? = some (.failed error.text)
  behind : ∀ first, IsLeast (failing errors size) first →
    ∀ index, first < index → index < size → statuses[index]? = some .notAttempted
  written : failing errors size = ∅ → statuses = List.replicate size .written

theorem reportsEach_markFailures (errors : List WriteError) (size : Nat) :
    ReportsEach errors size (markFailures (List.replicate size .written) errors) where
  length := by rw [length_markFailures, List.length_replicate]
  failed index hindex error herror := by
    rw [getElem?_markFailures_replicate hindex, statusOf, herror]
    rfl
  written index hindex hnone := by
    rw [getElem?_markFailures_replicate hindex, statusOf, hnone]
    rfl
  attempted hmem := by
    obtain ⟨index, hindex⟩ := List.mem_iff_getElem?.1 hmem
    have hsize := (List.getElem?_eq_some_iff.1 hindex).1
    rw [length_markFailures, List.length_replicate] at hsize
    rw [getElem?_markFailures_replicate hsize, statusOf] at hindex
    cases hlast : lastError? errors index <;> simp [hlast] at hindex

theorem take_markFailures {errors : List WriteError} {size first : Nat}
    (h : IsLeast (failing errors size) first) :
    (markFailures (List.replicate size .written) errors).take (first + 1) =
      List.replicate first .written ++ [statusOf errors first] := by
  obtain ⟨⟨hsize, -⟩, hleast⟩ := h
  apply List.ext_getElem?
  intro index
  rw [List.getElem?_take]
  by_cases hbefore : index < first
  · have hnot : index ∉ failing errors size := fun hmem => by
      have hle := hleast hmem
      omega
    rw [if_pos (by omega), getElem?_markFailures_replicate (by omega),
      statusOf_of_not_mem hnot (by omega), List.getElem?_append_left (by simpa using hbefore),
      List.getElem?_replicate, if_pos hbefore]
  · rw [List.getElem?_append_right (by simpa using hbefore), List.length_replicate]
    by_cases hat : index = first
    · subst hat
      rw [if_pos (by omega), getElem?_markFailures_replicate hsize, Nat.sub_self]
      rfl
    · rw [if_neg (by omega), List.getElem?_eq_none (by simp; omega)]

theorem markFailures_of_empty {errors : List WriteError} {size : Nat}
    (h : failing errors size = ∅) :
    markFailures (List.replicate size .written) errors = List.replicate size .written := by
  apply List.ext_getElem?
  intro index
  by_cases hindex : index < size
  · rw [getElem?_markFailures_replicate hindex, List.getElem?_replicate, if_pos hindex,
      statusOf_of_not_mem (h ▸ Set.notMem_empty index) hindex]
  · rw [List.getElem?_eq_none (by rw [length_markFailures, List.length_replicate]; omega),
      List.getElem?_eq_none (by rw [List.length_replicate]; omega)]

theorem reportsFirst_of_isLeast {errors : List WriteError} {size first : Nat} {error : WriteError}
    (h : IsLeast (failing errors size) first) (herror : lastError? errors first = some error) :
    ReportsFirst errors size (List.replicate first .written ++
      .failed error.text :: List.replicate (size - (first + 1)) .notAttempted) := by
  have hsize : first < size := h.1.1
  have hfront : (List.replicate first InsertStatus.written).length = first := List.length_replicate
  constructor
  case length =>
    simp only [List.length_append, List.length_cons, List.length_replicate]
    omega
  case before =>
    intro other hother index hindex
    rw [hother.unique h] at hindex
    rw [List.getElem?_append_left (by omega), List.getElem?_replicate, if_pos hindex]
  case failed =>
    intro other hother
    rw [hother.unique h]
    refine ⟨error, herror, ?_⟩
    rw [List.getElem?_append_right (by omega), hfront, Nat.sub_self]
    rfl
  case behind =>
    intro other hother index hbehind hindex
    rw [hother.unique h] at hbehind
    obtain ⟨left, hleft⟩ : ∃ left, index - first = left + 1 := ⟨index - first - 1, by omega⟩
    rw [List.getElem?_append_right (by omega), hfront, hleft, List.getElem?_cons_succ,
      List.getElem?_replicate, if_pos (by omega)]
  case written =>
    intro hempty
    exact absurd (hempty ▸ h.1) (Set.notMem_empty first)

theorem reportsFirst_of_empty {errors : List WriteError} {size : Nat}
    (h : failing errors size = ∅) :
    ReportsFirst errors size (List.replicate size .written) where
  length := List.length_replicate
  before _ hfirst := absurd (h ▸ hfirst.1) (Set.notMem_empty _)
  failed _ hfirst := absurd (h ▸ hfirst.1) (Set.notMem_empty _)
  behind _ hfirst := absurd (h ▸ hfirst.1) (Set.notMem_empty _)
  written _ := rfl

theorem exists_ordered_statuses (errors : List WriteError) (concern : Option String)
    (size : Nat) :
    ∃ statuses, insertStatuses ⟨some errors, concern⟩ size true = .ok statuses ∧
      ReportsFirst errors size statuses ∧ StopsAtFailure statuses := by
  rcases (failing errors size).eq_empty_or_nonempty with hempty | hnonempty
  · refine ⟨_, ?_, reportsFirst_of_empty hempty, .written size⟩
    simp only [insertStatuses, if_true, firstFailure_of_empty hempty,
      markFailures_of_empty hempty]
    rw [Nat.sub_eq_zero_of_le (Nat.le_succ size), List.take_of_length_le (by simp),
      List.replicate_zero, List.append_nil]
  · have hleast : IsLeast (failing errors size) (sInf (failing errors size)) :=
      ⟨Nat.sInf_mem hnonempty, fun _ hindex => Nat.sInf_le hindex⟩
    obtain ⟨error, herror⟩ := exists_lastError? hleast.1
    have hstatus : statusOf errors (sInf (failing errors size)) = .failed error.text := by
      rw [statusOf, herror]
      rfl
    refine ⟨_, ?_, reportsFirst_of_isLeast hleast herror, .failed _ _ _⟩
    simp only [insertStatuses, if_true, firstFailure_of_isLeast hleast, take_markFailures hleast,
      hstatus, List.append_assoc, List.singleton_append]

/-- Whatever errors the server lists, a batch has one status for each record.  Unordered, that is
the last error listed for it; ordered, the statuses stop at the least index that is listed, and so
have the shape of those that an ordered insert has in memory. -/
theorem insertStatuses_of_errors (errors : List WriteError) (concern : Option String)
    (size : Nat) :
    (∃ statuses, insertStatuses ⟨some errors, concern⟩ size false = .ok statuses ∧
      ReportsEach errors size statuses) ∧
    (∃ statuses, insertStatuses ⟨some errors, concern⟩ size true = .ok statuses ∧
      ReportsFirst errors size statuses ∧ StopsAtFailure statuses) ∧
    ∀ (store : Memory.Store) (collection : String) (records : List Document),
      (store.insert collection records true).1.length = records.length ∧
        StopsAtFailure (store.insert collection records true).1 := by
  refine ⟨⟨_, rfl, reportsEach_markFailures errors size⟩,
    exists_ordered_statuses errors concern size, ?_⟩
  intro store collection records
  exact ⟨Memory.Store.length_insertEach _ collection true records,
    Memory.Store.stopsAtFailure_insertEach collection _ records⟩

example : insertStatuses ⟨some [⟨7, "x"⟩, ⟨2, "late"⟩, ⟨1, "a"⟩, ⟨1, "b"⟩], none⟩ 4 true =
    .ok [.written, .failed "b", .notAttempted, .notAttempted] := rfl

end Mongo

end DocumentStore
