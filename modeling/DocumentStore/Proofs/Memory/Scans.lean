import DocumentStore.Memory.Write
import DocumentStore.Proofs.Predicate.Evaluators
import DocumentStore.Proofs.Results

/-!
# Scans in closed form

A scan that succeeds marks every record with whether the filter accepts it.  The first
match and the changed records are read off these marks.
-/

namespace DocumentStore

/-- Whether the filter holds of the record; where it can not be evaluated it does not. -/
def Predicate.accepts (filter : Predicate) (reader : PatternReader) (record : Document) : Bool :=
  match filter.evaluate reader record with
  | .ok hit => hit
  | .error _ => false

theorem Predicate.accepts_of_ok {filter : Predicate} {reader : PatternReader}
    {record : Document} {hit : Bool}
    (h : filter.evaluate reader record = .ok hit) : filter.accepts reader record = hit := by
  rw [accepts, h]

namespace Memory

namespace Marked

def unmatched (marked : Marked) : List Document := (marked.filter (!·.2)).map (·.1)

def splitAtMatch? : Marked → Option (List Document × Document × List Document)
  | [] => none
  | (record, true) :: rest => some ([], record, rest.map (·.1))
  | (record, false) :: rest =>
    (splitAtMatch? rest).map fun (before, hit, behind) => (record :: before, hit, behind)

def mark (reader : PatternReader) (filter : Predicate) (records : List Document) : Marked :=
  records.map fun record => (record, filter.accepts reader record)

variable {reader : PatternReader}

theorem eq_mark_of_ofScan {filter : Predicate} {records : List Document} {marked : Marked}
    (h : ofScan reader filter records = .ok marked) : marked = mark reader filter records := by
  rw [ofScan_eq] at h
  apply eq_map_of_mapM_eq_ok h
  intro record _ entry hentry
  cases hrecord : filter.evaluate reader record with
  | error failure => simp [hrecord, Except.map] at hentry
  | ok hit =>
      rw [hrecord] at hentry
      rw [Predicate.accepts_of_ok hrecord]
      exact (Except.ok.inj hentry).symm

theorem ofScan_of_total {filter : Predicate} {records : List Document}
    (h : ∀ record ∈ records, ∃ hit, filter.evaluate reader record = .ok hit) :
    ofScan reader filter records = .ok (mark reader filter records) := by
  rw [ofScan_eq]
  apply mapM_eq_ok_map
  intro record hrecord
  obtain ⟨hit, hhit⟩ := h record hrecord
  rw [hhit, Predicate.accepts_of_ok hhit]
  rfl

@[simp] theorem unmatched_mark (filter : Predicate) (records : List Document) :
    (mark reader filter records).unmatched = records.filter (!filter.accepts reader ·) := by
  simp [unmatched, mark, List.filter_map, Function.comp_def]

theorem splitAtMatch?_mark {filter : Predicate} {records before behind : List Document}
    {hit : Document} (h : (mark reader filter records).splitAtMatch? = some (before, hit, behind)) :
    records = before ++ hit :: behind ∧ filter.accepts reader hit = true ∧
      ∀ record ∈ before, filter.accepts reader record = false := by
  induction records generalizing before with
  | nil => simp [mark, splitAtMatch?] at h
  | cons record records ih =>
      cases hrecord : filter.accepts reader record with
      | true =>
          simp only [mark, List.map_cons, hrecord, splitAtMatch?, List.map_map,
            Option.some.injEq, Prod.mk.injEq] at h
          obtain ⟨rfl, rfl, rfl⟩ := h
          simpa [Function.comp_def] using hrecord
      | false =>
          simp only [mark, List.map_cons, hrecord, splitAtMatch?, Option.map_eq_some_iff] at h
          obtain ⟨⟨before', hit', behind'⟩, hrest, heq⟩ := h
          simp only [Prod.mk.injEq] at heq
          obtain ⟨rfl, rfl, rfl⟩ := heq
          obtain ⟨hrecords, hhit, hbefore⟩ := ih hrest
          refine ⟨by rw [hrecords]; rfl, hhit, ?_⟩
          intro other hother
          rcases List.mem_cons.1 hother with rfl | hother
          · exact hrecord
          · exact hbefore other hother

theorem splitAtMatch?_mark_eq_none {filter : Predicate} {records : List Document}
    (h : (mark reader filter records).splitAtMatch? = none) :
    ∀ record ∈ records, filter.accepts reader record = false := by
  induction records with
  | nil => simp
  | cons record records ih =>
      cases hrecord : filter.accepts reader record with
      | true => simp [mark, hrecord, splitAtMatch?] at h
      | false =>
          simp only [mark, List.map_cons, hrecord, splitAtMatch?, Option.map_eq_none_iff] at h
          intro other hother
          rcases List.mem_cons.1 hother with rfl | hother
          · exact hrecord
          · exact ih h other hother

end Marked

namespace Store

variable {store : Store} {collection : String}

def changeMatched (store : Store) (collection : String) (change : Change) (marked : Marked) :
    Except Failure (List Document) :=
  marked.mapM fun (record, hit) =>
    if hit then store.checked collection (changed store.idField change record) else .ok record

theorem eq_mark_of_scan {filter : Predicate} {marked : Marked}
    (h : store.scan collection filter = .ok marked) :
    marked = Marked.mark store.patterns filter (store.records collection) :=
  Marked.eq_mark_of_ofScan h

theorem exists_of_scan_eq_error {filter : Predicate} {failure : Failure}
    (h : store.scan collection filter = .error failure) :
    ∃ record ∈ store.records collection,
      filter.evaluate store.patterns record = .error failure := by
  rw [Store.scan, Marked.ofScan_eq] at h
  obtain ⟨record, hrecord, hcause⟩ := exists_of_mapM_eq_error h
  refine ⟨record, hrecord, ?_⟩
  cases hrun : filter.evaluate store.patterns record with
  | ok hit => simp [hrun, Except.map] at hcause
  | error cause => simpa [hrun, Except.map] using hcause

theorem evaluate_of_scan_eq_ok {filter : Predicate} {marked : Marked}
    (h : store.scan collection filter = .ok marked) {record : Document}
    (hrecord : record ∈ store.records collection) :
    ∃ hit, filter.evaluate store.patterns record = .ok hit := by
  rw [scan, Marked.ofScan_eq] at h
  obtain ⟨entry, hentry⟩ := exists_ok_of_mem_of_mapM h hrecord
  obtain ⟨hit, hhit, -⟩ := exists_of_map_eq_ok hentry
  exact ⟨hit, hhit⟩

theorem exists_error_of_scan {filter : Predicate} {failure : Failure}
    (h : store.scan collection filter = .error failure) :
    ∃ record ∈ store.records collection,
      ∃ cause, filter.evaluate store.patterns record = .error cause := by
  obtain ⟨record, hrecord, hfails⟩ := exists_of_scan_eq_error h
  exact ⟨record, hrecord, failure, hfails⟩

theorem eq_of_checked {record checked : Document}
    (h : store.checked collection record = .ok checked) : checked = record := by
  rw [Store.checked] at h
  split at h
  · cases h
  · exact (Except.ok.inj h).symm

theorem missingField?_of_checked {record checked : Document}
    (h : store.checked collection record = .ok checked) :
    store.missingField? collection record = none := by
  rw [Store.checked] at h
  split at h
  · cases h
  · assumption

theorem exists_missingField_of_checked {record : Document} {failure : Failure}
    (h : store.checked collection record = .error failure) :
    ∃ field, store.missingField? collection record = some field := by
  rw [Store.checked] at h
  split at h
  · next field hfield => exact ⟨field, hfield⟩
  · cases h

theorem eq_map_of_changeMatched {filter : Predicate} {change : Change}
    {records after : List Document}
    (h : store.changeMatched collection change (Marked.mark store.patterns filter records) =
      .ok after) :
    after = records.map fun record =>
      if filter.accepts store.patterns record then
        changed store.idField change record
      else record := by
  have hmap := eq_map_of_mapM_eq_ok (g := fun entry : Document × Bool =>
    if entry.2 then changed store.idField change entry.1 else entry.1) h ?_
  · simpa [Marked.mark, Function.comp_def] using hmap
  · rintro ⟨record, hit⟩ _ result hresult
    cases hit with
    | true => exact eq_of_checked hresult
    | false => exact (Except.ok.inj hresult).symm

theorem missingField?_of_changeMatched {filter : Predicate} {change : Change}
    {records after : List Document}
    (h : store.changeMatched collection change (Marked.mark store.patterns filter records) =
      .ok after)
    {record : Document} (hrecord : record ∈ records)
    (haccepts : filter.accepts store.patterns record = true) :
    store.missingField? collection (changed store.idField change record) = none := by
  have hentry : (record, true) ∈ Marked.mark store.patterns filter records :=
    List.mem_map.2 ⟨record, hrecord, by rw [haccepts]⟩
  obtain ⟨result, hresult⟩ := exists_ok_of_mem_of_mapM h hentry
  exact missingField?_of_checked hresult

theorem exists_missingField_of_changeMatched {filter : Predicate} {change : Change}
    {records : List Document} {failure : Failure}
    (h : store.changeMatched collection change (Marked.mark store.patterns filter records) =
      .error failure) :
    ∃ record ∈ records, filter.accepts store.patterns record = true ∧
      ∃ field, store.missingField? collection (changed store.idField change record) =
        some field := by
  obtain ⟨entry, hentry, cause, hcause⟩ := exists_error_of_mapM h
  obtain ⟨record, hrecord, rfl⟩ := List.mem_map.1 hentry
  cases haccepts : filter.accepts store.patterns record with
  | true =>
      rw [haccepts] at hcause
      exact ⟨record, hrecord, haccepts, exists_missingField_of_checked hcause⟩
  | false =>
      rw [haccepts] at hcause
      cases hcause

end Store

end Memory

end DocumentStore
