import DocumentStore.Proofs.Memory.Failures
import DocumentStore.Proofs.Memory.Answers

/-!
# Writes to the first match

A write to one record changes the first record that its filter accepts, or takes it out.  Where
the filter can be evaluated on every record, answer and store afterwards are read off this
record, and a record that fails its check stays as it is.
-/

namespace DocumentStore.Memory

def changeFirst (accepts : Document → Bool) (change : Document → Document) :
    List Document → List Document
  | [] => []
  | record :: records =>
    if accepts record then change record :: records
    else record :: changeFirst accepts change records

section

variable {accepts : Document → Bool} {change : Document → Document} {records : List Document}

theorem changeFirst_cons_of_accepts {record : Document} (h : accepts record = true) :
    changeFirst accepts change (record :: records) = change record :: records := by
  rw [changeFirst, if_pos h]

theorem changeFirst_cons_of_not {record : Document} (h : accepts record = false) :
    changeFirst accepts change (record :: records) =
      record :: changeFirst accepts change records := by
  rw [changeFirst, if_neg (Bool.eq_false_iff.1 h)]

theorem mem_changeFirst {record : Document} (h : record ∈ changeFirst accepts change records) :
    record ∈ records ∨
      ∃ previous ∈ records, accepts previous = true ∧ record = change previous := by
  induction records with
  | nil => cases h
  | cons first records ih =>
      cases hfirst : accepts first with
      | true =>
          rw [changeFirst_cons_of_accepts hfirst] at h
          rcases List.mem_cons.1 h with rfl | hmem
          · exact .inr ⟨first, List.mem_cons_self, hfirst, rfl⟩
          · exact .inl (List.mem_cons_of_mem _ hmem)
      | false =>
          rw [changeFirst_cons_of_not hfirst] at h
          rcases List.mem_cons.1 h with rfl | hmem
          · exact .inl List.mem_cons_self
          · rcases ih hmem with hold | ⟨previous, hprevious, hnew⟩
            · exact .inl (List.mem_cons_of_mem _ hold)
            · exact .inr ⟨previous, List.mem_cons_of_mem _ hprevious, hnew⟩

theorem map_changeFirst {α : Type} {f : Document → α} (h : ∀ record, f (change record) = f record) :
    (changeFirst accepts change records).map f = records.map f := by
  induction records with
  | nil => rfl
  | cons first records ih =>
      cases hfirst : accepts first with
      | true => rw [changeFirst_cons_of_accepts hfirst, List.map_cons, List.map_cons, h]
      | false => rw [changeFirst_cons_of_not hfirst, List.map_cons, List.map_cons, ih]

theorem changeFirst_of_none (h : ∀ record ∈ records, accepts record = false) :
    changeFirst accepts change records = records := by
  induction records with
  | nil => rfl
  | cons first records ih =>
      rw [changeFirst_cons_of_not (h first List.mem_cons_self),
        ih fun record hrecord => h record (List.mem_cons_of_mem _ hrecord)]

theorem changeFirst_append {before behind : List Document} {previous : Document}
    (hbefore : ∀ record ∈ before, accepts record = false) (hprevious : accepts previous = true) :
    changeFirst accepts change (before ++ previous :: behind) =
      before ++ change previous :: behind := by
  induction before with
  | nil => exact changeFirst_cons_of_accepts hprevious
  | cons first before ih =>
      rw [List.cons_append, changeFirst_cons_of_not (hbefore first List.mem_cons_self),
        ih fun record hrecord => hbefore record (List.mem_cons_of_mem _ hrecord)]
      rfl

theorem find?_append {before behind : List Document} {previous : Document}
    (hbefore : ∀ record ∈ before, accepts record = false) (hprevious : accepts previous = true) :
    (before ++ previous :: behind).find? accepts = some previous := by
  refine List.find?_eq_some_iff_append.2 ⟨hprevious, before, behind, rfl, ?_⟩
  exact fun record hrecord => by simp [hbefore record hrecord]

theorem eraseP_append {before behind : List Document} {previous : Document}
    (hbefore : ∀ record ∈ before, accepts record = false) (hprevious : accepts previous = true) :
    (before ++ previous :: behind).eraseP accepts = before ++ behind := by
  rw [List.eraseP_append_right _ fun record hrecord => by simp [hbefore record hrecord],
    List.eraseP_cons_of_pos hprevious]

theorem eraseP_congr {wanted : Document → Bool}
    (h : ∀ record ∈ records, accepts record = wanted record) :
    records.eraseP accepts = records.eraseP wanted := by
  induction records with
  | nil => rfl
  | cons first records ih =>
      have hrest := ih fun record hrecord => h record (List.mem_cons_of_mem _ hrecord)
      rw [List.eraseP_cons, List.eraseP_cons, h first List.mem_cons_self, hrest]

/-! ## Searches behind a change -/

theorem find?_changeFirst_self (h : ∀ record, accepts (change record) = accepts record) :
    (changeFirst accepts change records).find? accepts =
      (records.find? accepts).map change := by
  induction records with
  | nil => rfl
  | cons first records ih =>
      cases hfirst : accepts first with
      | true =>
          rw [changeFirst_cons_of_accepts hfirst, List.find?_cons_of_pos hfirst,
            List.find?_cons_of_pos ((h first).trans hfirst)]
          rfl
      | false =>
          have hnot : ¬ accepts first = true := Bool.eq_false_iff.1 hfirst
          rw [changeFirst_cons_of_not hfirst, List.find?_cons_of_neg hnot,
            List.find?_cons_of_neg hnot, ih]

theorem find?_changeFirst_of_disjoint {wanted : Document → Bool}
    (h : ∀ record ∈ records, accepts record = true →
      wanted record = false ∧ wanted (change record) = false) :
    (changeFirst accepts change records).find? wanted = records.find? wanted := by
  induction records with
  | nil => rfl
  | cons first records ih =>
      cases hfirst : accepts first with
      | true =>
          obtain ⟨hold, hnew⟩ := h first List.mem_cons_self hfirst
          rw [changeFirst_cons_of_accepts hfirst, List.find?_cons, List.find?_cons, hold, hnew]
      | false =>
          have hrest := ih fun record hrecord => h record (List.mem_cons_of_mem _ hrecord)
          rw [changeFirst_cons_of_not hfirst, List.find?_cons, List.find?_cons, hrest]

theorem isSome_find?_changeFirst {wanted : Document → Bool}
    (h : ∀ record, wanted (change record) = wanted record) :
    ((changeFirst accepts change records).find? wanted).isSome =
      (records.find? wanted).isSome := by
  induction records with
  | nil => rfl
  | cons first records ih =>
      cases hfirst : accepts first with
      | true =>
          rw [changeFirst_cons_of_accepts hfirst, List.find?_cons, List.find?_cons, h]
          cases wanted first <;> rfl
      | false =>
          rw [changeFirst_cons_of_not hfirst, List.find?_cons, List.find?_cons]
          cases wanted first with
          | true => rfl
          | false => exact ih

/-! ## Two changes -/

variable {others : Document → Bool} {second : Document → Document}

theorem changeFirst_comm
    (h : ∀ record ∈ records, accepts record = true →
      others record = false ∧ others (change record) = false)
    (h' : ∀ record ∈ records, others record = true →
      accepts record = false ∧ accepts (second record) = false) :
    changeFirst accepts change (changeFirst others second records) =
      changeFirst others second (changeFirst accepts change records) := by
  induction records with
  | nil => rfl
  | cons first records ih =>
      have hrest := ih (fun record hrecord => h record (List.mem_cons_of_mem _ hrecord))
        fun record hrecord => h' record (List.mem_cons_of_mem _ hrecord)
      cases hfirst : accepts first with
      | true =>
          obtain ⟨hold, hnew⟩ := h first List.mem_cons_self hfirst
          rw [changeFirst_cons_of_not hold, changeFirst_cons_of_accepts hfirst,
            changeFirst_cons_of_accepts hfirst, changeFirst_cons_of_not hnew]
      | false =>
          cases hother : others first with
          | true =>
              have hnew := (h' first List.mem_cons_self hother).2
              rw [changeFirst_cons_of_accepts hother, changeFirst_cons_of_not hfirst,
                changeFirst_cons_of_not hnew, changeFirst_cons_of_accepts hother]
          | false =>
              rw [changeFirst_cons_of_not hother, changeFirst_cons_of_not hfirst,
                changeFirst_cons_of_not hfirst, changeFirst_cons_of_not hother, hrest]

/-- Changes that agree on one record in either order agree on a list, if neither makes a record
accepted or refused by the other. -/
theorem forall₂_changeFirst_comm {R : Document → Document → Prop}
    (hrefl : ∀ record, R record record)
    (hchange : ∀ record, others (change record) = others record)
    (hsecond : ∀ record, accepts (second record) = accepts record)
    (hboth : ∀ record, R (change (second record)) (second (change record))) :
    List.Forall₂ R (changeFirst accepts change (changeFirst others second records))
      (changeFirst others second (changeFirst accepts change records)) := by
  induction records with
  | nil => exact .nil
  | cons first records ih =>
      have hsame (rest : List Document) : List.Forall₂ R rest rest :=
        List.forall₂_same.2 fun record _ => hrefl record
      cases hfirst : accepts first <;> cases hother : others first <;>
        simp only [changeFirst, hfirst, hother, hchange, hsecond, if_true, Bool.false_eq_true,
          if_false]
      · exact .cons (hrefl first) ih
      · exact .cons (hrefl _) (hsame _)
      · exact .cons (hrefl _) (hsame _)
      · exact .cons (hboth first) (hsame _)

end

/-! ## Calls that write one record -/

namespace Marked

variable {reader : PatternReader}

theorem splitAtMatch?_mark_eq (reader : PatternReader) (filter : Predicate)
    (records : List Document) :
    (mark reader filter records).splitAtMatch? = none ∧
      records.find? (filter.accepts reader) = none ∨
    ∃ before previous behind,
      (mark reader filter records).splitAtMatch? = some (before, previous, behind) ∧
      records = before ++ previous :: behind ∧ filter.accepts reader previous = true ∧
      (∀ record ∈ before, filter.accepts reader record = false) ∧
      records.find? (filter.accepts reader) = some previous := by
  cases hsplit : (mark reader filter records).splitAtMatch? with
  | none =>
      have hnone := splitAtMatch?_mark_eq_none hsplit
      exact .inl ⟨rfl, List.find?_eq_none.2 fun record hrecord => by simp [hnone record hrecord]⟩
  | some parts =>
      obtain ⟨before, previous, behind⟩ := parts
      obtain ⟨rfl, hprevious, hbefore⟩ := splitAtMatch?_mark hsplit
      exact .inr ⟨before, previous, behind, rfl, rfl, hprevious, hbefore,
        find?_append hbefore hprevious⟩

theorem mark_cons {filter : Predicate} {record : Document} {hit : Bool}
    (h : filter.accepts reader record = hit) (records : List Document) :
    mark reader filter (record :: records) = (record, hit) :: mark reader filter records := by
  rw [mark, List.map_cons, h]
  rfl

theorem splitAtMatch?_mark_append {filter : Predicate} {before behind : List Document}
    {previous : Document} (hbefore : ∀ record ∈ before, filter.accepts reader record = false)
    (hprevious : filter.accepts reader previous = true) :
    (mark reader filter (before ++ previous :: behind)).splitAtMatch? =
      some (before, previous, behind) := by
  induction before with
  | nil =>
      rw [List.nil_append, mark_cons hprevious, splitAtMatch?]
      simp [mark, Function.comp_def]
  | cons first before ih =>
      rw [List.cons_append, mark_cons (hbefore first List.mem_cons_self), splitAtMatch?,
        ih fun record hrecord => hbefore record (List.mem_cons_of_mem _ hrecord)]
      rfl

theorem splitAtMatch?_mark_of_none {filter : Predicate} {records : List Document}
    (h : ∀ record ∈ records, filter.accepts reader record = false) :
    (mark reader filter records).splitAtMatch? = none := by
  induction records with
  | nil => rfl
  | cons first records ih =>
      rw [mark_cons (h first List.mem_cons_self), splitAtMatch?,
        ih fun record hrecord => h record (List.mem_cons_of_mem _ hrecord)]
      rfl

end Marked

namespace Store

variable (store : Store) (collection : String)

theorem setRecords_setRecords (first last : List Document) :
    (store.setRecords collection first).setRecords collection last =
      store.setRecords collection last := by
  simp [setRecords, Fields.insert_insert_self]

variable {store collection} in
theorem ensureCollection_eq_self (h : Fields.contains collection store.collections = true) :
    store.ensureCollection collection = store := by
  have hsame := ensureCollection_of_contains store collection h
  calc store.ensureCollection collection
      = { store with collections := (store.ensureCollection collection).collections } := rfl
    _ = store := by rw [hsame]

/-- The change of a record, unless it would lose a required field. -/
def settled (change : Document → Document) (record : Document) : Document :=
  match store.missingField? collection (change record) with
  | some _ => record
  | none => change record

/-- The collection with its first match changed, unless that would lose a required field. -/
def withFirstChanged (filter : Predicate) (change : Document → Document) : Store :=
  store.setRecords collection
    (changeFirst (filter.accepts store.patterns) (store.settled collection change)
      (store.records collection))

theorem settled_eq_or (change : Document → Document) (record : Document) :
    store.settled collection change record = record ∨
      store.settled collection change record = change record := by
  rw [settled]
  split
  · exact .inl rfl
  · exact .inr rfl

variable {store collection} in
theorem settled_congr {after : Store} (h : after.settings = store.settings) :
    after.settled = store.settled := by
  funext name change record
  rw [settled, settled, missingField?_congr store h]

variable {store collection} in
theorem contains_withFirstChanged (filter : Predicate) (change : Document → Document) :
    Fields.contains collection
      (store.withFirstChanged collection filter change).collections = true := by
  rw [withFirstChanged, setRecords, Fields.contains, Fields.get?_insert_self]
  rfl

variable {store collection} {filter : Predicate}
    (htotal : ∀ record ∈ store.records collection,
      ∃ hit, filter.evaluate store.patterns record = .ok hit)

theorem withFirstChanged_of_none {change : Document → Document}
    (h : (store.records collection).find? (filter.accepts store.patterns) = none) :
    store.withFirstChanged collection filter change = store.ensureCollection collection := by
  have hnone : ∀ record ∈ store.records collection, filter.accepts store.patterns record = false :=
    fun record hrecord => by simpa using List.find?_eq_none.1 h record hrecord
  rw [withFirstChanged, changeFirst_of_none hnone, ensureCollection]

theorem withFirstChanged_of_append {change : Document → Document} {before behind : List Document}
    {previous : Document} (hrecords : store.records collection = before ++ previous :: behind)
    (hbefore : ∀ record ∈ before, filter.accepts store.patterns record = false)
    (hprevious : filter.accepts store.patterns previous = true) :
    store.withFirstChanged collection filter change =
      store.setRecords collection
        (before ++ store.settled collection change previous :: behind) := by
  rw [withFirstChanged, hrecords, changeFirst_append hbefore hprevious]

section

include htotal

theorem scan_eq_mark :
    store.scan collection filter =
      .ok (Marked.mark store.patterns filter (store.records collection)) :=
  Marked.ofScan_of_total htotal

theorem scan_ensureCollection_eq_mark :
    (store.ensureCollection collection).scan collection filter =
      .ok (Marked.mark store.patterns filter (store.records collection)) := by
  rw [scan, records_ensureCollection]
  exact Marked.ofScan_of_total htotal

theorem replace_eq (body : Document) :
    store.replace collection filter body false =
      (match (store.records collection).find? (filter.accepts store.patterns) with
        | none => .ok 0
        | some previous =>
          (store.checked collection (replaced store.idField previous body)).map fun _ => 1,
        store.withFirstChanged collection filter (replaced store.idField · body)) := by
  simp only [replace_eq_scan, scan_ensureCollection_eq_mark htotal]
  rcases Marked.splitAtMatch?_mark_eq store.patterns filter (store.records collection) with
    ⟨hsplit, hfind⟩ | ⟨before, previous, behind, hsplit, hrecords, hprevious, hbefore, hfind⟩
  · rw [hsplit, hfind, withFirstChanged_of_none hfind]
    rfl
  · rw [hsplit, hfind, withFirstChanged_of_append hrecords hbefore hprevious]
    simp only [checked_ensureCollection, idField_ensureCollection]
    cases hmissing : store.missingField? collection (replaced store.idField previous body) with
    | some field =>
        simp only [checked, settled, hmissing, Except.map, ← hrecords]
        rfl
    | none =>
        simp only [checked, settled, hmissing, Except.map]
        rw [ensureCollection, setRecords_setRecords]

theorem replace_of_append {before behind : List Document} {previous : Document}
    (hrecords : store.records collection = before ++ previous :: behind)
    (hbefore : ∀ record ∈ before, filter.accepts store.patterns record = false)
    (hprevious : filter.accepts store.patterns previous = true) (body : Document) (upsert : Bool) :
    store.replace collection filter body upsert =
      match store.checked collection (replaced store.idField previous body) with
      | .error failure => (.error failure, store.ensureCollection collection)
      | .ok record => (.ok 1, store.setRecords collection (before ++ record :: behind)) := by
  simp only [replace_eq_scan, scan_ensureCollection_eq_mark htotal, hrecords,
    Marked.splitAtMatch?_mark_append hbefore hprevious, checked_ensureCollection,
    idField_ensureCollection]
  cases store.checked collection (replaced store.idField previous body) with
  | error failure => rfl
  | ok record => simp only [ensureCollection, setRecords_setRecords]

theorem replace_of_none
    (hnone : ∀ record ∈ store.records collection, filter.accepts store.patterns record = false)
    {body : Document} (hid : Fields.contains store.idField body = true) :
    store.replace collection filter body true =
      match store.checked collection body with
      | .error failure => (.error failure, store.ensureCollection collection)
      | .ok record =>
        (.ok 0, store.setRecords collection (store.records collection ++ [record])) := by
  have hensured : (store.ensureCollection collection).ensureId body =
      (body, store.ensureCollection collection) := by
    rw [ensureId, idField_ensureCollection, if_pos hid]
  simp only [replace_eq_scan, scan_ensureCollection_eq_mark htotal,
    Marked.splitAtMatch?_mark_of_none hnone, if_true, hensured, checked_ensureCollection]
  cases store.checked collection body with
  | error failure => rfl
  | ok record => simp only [ensureCollection, setRecords_setRecords, records_setRecords_self]

theorem findAndMerge_eq (patch : Document) (projection : Projection)
    (hexists : Fields.contains collection store.collections = true) :
    store.findAndMerge collection filter patch projection =
      (match (store.records collection).find? (filter.accepts store.patterns) with
        | none => .ok none
        | some previous =>
          (store.checked collection (previous.overlay patch)).map (some ∘ projection.project),
        store.withFirstChanged collection filter (·.overlay patch)) := by
  have hensured := ensureCollection_eq_self hexists
  simp only [findAndMerge_eq_scan, scan_eq_mark htotal]
  rcases Marked.splitAtMatch?_mark_eq store.patterns filter (store.records collection) with
    ⟨hsplit, hfind⟩ | ⟨before, previous, behind, hsplit, hrecords, hprevious, hbefore, hfind⟩
  · rw [hsplit, hfind, withFirstChanged_of_none hfind, hensured]
  · rw [hsplit, hfind, withFirstChanged_of_append hrecords hbefore hprevious]
    cases hmissing : store.missingField? collection (previous.overlay patch) with
    | some field =>
        simp only [checked, settled, hmissing, Except.map, ← hrecords]
        rw [← ensureCollection, hensured]
    | none => simp only [checked, settled, hmissing, Except.map, Function.comp_apply]

omit htotal in
theorem findAndMerge_of_missing (patch : Document) (projection : Projection)
    (hmissing : Fields.contains collection store.collections = false) :
    store.findAndMerge collection filter patch projection = (.ok none, store) := by
  simp only [findAndMerge_eq_scan, scan, records_of_missing store collection hmissing]
  rfl

theorem findAndDelete_eq (projection : Projection) :
    store.findAndDelete collection filter projection =
      (.ok (((store.records collection).find? (filter.accepts store.patterns)).map
          projection.project),
        if ((store.records collection).find? (filter.accepts store.patterns)).isSome then
          store.setRecords collection
            ((store.records collection).eraseP (filter.accepts store.patterns))
        else store) := by
  simp only [findAndDelete_eq_scan, scan_eq_mark htotal]
  rcases Marked.splitAtMatch?_mark_eq store.patterns filter (store.records collection) with
    ⟨hsplit, hfind⟩ | ⟨before, previous, behind, hsplit, hrecords, hprevious, hbefore, hfind⟩
  · simp [hsplit, hfind]
  · have herased : (store.records collection).eraseP (filter.accepts store.patterns) =
        before ++ behind := by
      rw [hrecords, eraseP_append hbefore hprevious]
    rw [hsplit, hfind, herased]
    rfl

end

end Store

end DocumentStore.Memory
