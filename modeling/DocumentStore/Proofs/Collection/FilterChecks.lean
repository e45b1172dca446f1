import DocumentStore.Proofs.Collection.RequestEndings
import DocumentStore.Proofs.Filter.Segments

/-!
# Checks of a filter text

A request by filter is refused for the leftmost segment without an operator, before the store is
asked.  What is not refused there has a result on every record, as long as escaped texts can be
read as patterns.  So no counting or deletion by it fails, and no reading unless in the sort.
-/

namespace DocumentStore

open Backend Program Memory.Store

/-! ## Scans that succeed -/

namespace Memory.Store

variable {store : Store} {filter : Predicate}
    (h : ∀ record, ∃ hit, filter.evaluate store.patterns record = .ok hit)

include h

theorem exists_find_of_total (name : String) {selection : Selection}
    (hsettles : selection.sort.Settles
      ((store.records name).filter (filter.accepts store.patterns))) :
    ∃ found, store.find name filter selection = .ok found := by
  rw [find_of_total fun record _ => h record, select, store.sorting.settled hsettles]
  exact ⟨_, rfl⟩

theorem exists_count_of_total (name : String) : ∃ count, store.count name filter = .ok count :=
  ⟨_, count_of_total fun record _ => h record⟩

theorem exists_delete_of_total (name : String) :
    ∃ count, (store.delete name filter).1 = .ok count :=
  ⟨_, delete_of_total fun record _ => h record⟩

end Memory.Store

namespace Collection

variable {c : Collection} {text segment : String}

/-! ## The check of a text -/

def unparsedError (segment : String) : Failure :=
  .badRequest ("Invalid or unparsable filter segment '" ++ segment ++ "'")

theorem unparsedError_inj {other : String} (h : unparsedError segment = unparsedError other) :
    segment = other := by
  simpa [unparsedError] using h

theorem filterTree_of_some (h : Filter.unparsed? text.toList = some segment) :
    filterTree (.text text) = .error (unparsedError segment) := by
  rw [filterTree, Filter.unrecognized?_tree, h]
  rfl

theorem filterTree_of_none (h : Filter.unparsed? text.toList = none) :
    filterTree (.text text) = .ok (Filter.Source.text text).tree := by
  rw [filterTree, Filter.unrecognized?_tree, h]

theorem isBlank_of_acceptsAll (h : (Filter.Source.text text).tree.acceptsAll = true) :
    text.toList.all Text.isBlank = true := by
  have hleaves := Filter.leaves_tree text
  cases htree : (Filter.Source.text text).tree with
  | matchAll =>
      rw [htree] at hleaves
      by_contra hblank
      rw [if_neg hblank] at hleaves
      obtain ⟨source, -, hleaf⟩ := List.map_eq_singleton_iff.1 hleaves.symm
      rcases Filter.leaf_cases text.toList source with ⟨-, hsegment⟩ | ⟨-, field, op, value, htest⟩
      · rw [hsegment] at hleaf
        cases hleaf
      · rw [htest] at hleaf
        exact Filter.condition_ne_matchAll field value op hleaf
  | _ =>
      rw [htree] at h
      cases h

namespace Request

variable {request : Request} {filter : Filter.Source}

/-- A filter that is refused ends the request before the store is asked. -/
theorem program_of_refused (hfilter : request.filter? = some filter)
    (hrecords : ∀ record ∈ request.records, ¬ c.NothingToMerge record) {failure : Failure}
    (h : filterTree filter = .error failure) : request.program c = Program.fail failure := by
  cases request with
  | replaceWhere record filter fields =>
      cases hfilter
      obtain ⟨body, hbody⟩ :=
        (refusesWhen_payload record).passes (hrecords record (List.mem_singleton_self _))
      rw [program, Collection.replaceWhere, hbody, h]
      rfl
  | mergeWhere record filter fields =>
      cases hfilter
      obtain ⟨patch, hpatch⟩ :=
        (refusesWhen_payload record).passes (hrecords record (List.mem_singleton_self _))
      rw [program, Collection.mergeWhere, hpatch, h]
      rfl
  | deleteWhere filter fields =>
      cases hfilter
      rw [program, Collection.deleteWhere, deletionFilter_eq, h]
      rfl
  | retrieveWhere filter fields options =>
      cases hfilter
      rw [program, Collection.retrieveWhere, h]
      rfl
  | _ => cases hfilter

/-- A failure of the store within the operation, or that of a deletion without a filter. -/
def FailsLate (c : Collection) (request : Request) (text : String) (failure : Failure) : Prop :=
  (∃ operation ∈ request.operations, ∃ cause, failure = .failed operation c.name cause) ∨
  request.operation = .delete ∧ text.toList.all Text.isBlank = true ∧
    failure = .badRequest "Filter for delete request can not be empty."

theorem not_failsLate_unparsedError : ¬ request.FailsLate c text (unparsedError segment) := by
  rintro (⟨operation, -, cause, h⟩ | ⟨-, -, h⟩)
  · cases h
  · have hchars := congrArg String.toList (Failure.badRequest.inj h)
    simp at hchars

theorem ends_of_text {reader : PatternReader} (hreader : reader.ReadsEscaped)
    (hfilter : request.filter? = some (.text text))
    (hrecords : ∀ record ∈ request.records, ¬ c.NothingToMerge record)
    (h : Filter.unparsed? text.toList = none) :
    (request.program c).Ends (AnswersFrom reader fun _ => True)
      (fun answer => ∀ record ∈ request.documents answer, True) (request.FailsLate c text) := by
  have htree := filterTree_of_none h
  refine ends_filtered hfilter (shows_any c _ _) ?payload ?tree ?deletion ?evaluate ?failed
  case payload =>
    intro record hrecord cause hcause
    obtain ⟨body, hbody⟩ := (refusesWhen_payload record).passes (hrecords record hrecord)
    rw [hbody] at hcause
    cases hcause
  case tree =>
    intro cause hcause
    rw [htree] at hcause
    cases hcause
  case deletion =>
    intro hdelete tree hok hall
    rw [htree] at hok
    cases hok
    exact .inr ⟨hdelete, isBlank_of_acceptsAll hall, rfl⟩
  case evaluate =>
    intro tree hok record cause hcause
    rw [htree] at hok
    cases hok
    obtain ⟨hit, hhit⟩ := Filter.exists_evaluate_tree hreader h record
    rw [hhit] at hcause
    cases hcause
  case failed => exact fun operation hoperation cause => .inl ⟨operation, hoperation, cause, rfl⟩

/-- A request whose records have something to write is refused for the leftmost segment without an
operator, and leaves the store then.  Without such a segment the filter has an answer for every
record, and the request can fail in the store alone, or as a deletion without a filter.  Of the
engine for patterns this takes no more than that it reads escaped texts. -/
theorem refused_iff_of_text {reader : PatternReader} (hreader : reader.ReadsEscaped)
    {c : Collection} {request : Request} {text : String}
    (hfilter : request.filter? = some (.text text))
    (hrecords : ∀ record ∈ request.records, ¬ c.NothingToMerge record) :
    (∀ (store : Memory.Store) (segment : String), store.patterns = reader →
      (((request.program c).run handle store).1 =
          .error (.badRequest ("Invalid or unparsable filter segment '" ++ segment ++ "'")) ↔
        Filter.unparsed? text.toList = some segment)) ∧
    (∀ (store : Memory.Store) (segment : String), Filter.unparsed? text.toList = some segment →
      request.after c store = store) ∧
    (Filter.unparsed? text.toList = none →
      (∀ tests record, ∃ hit, ((Evaluator.afterTests reader tests).test reader record
        (Filter.Source.text text).tree).1 = .ok hit) ∧
      (∀ (store : Memory.Store) (name : String), store.patterns = reader →
        (∀ selection : Selection,
          selection.sort.Settles ((store.records name).filter
            ((Filter.Source.text text).tree.accepts reader)) →
          ∃ found, store.find name (Filter.Source.text text).tree selection = .ok found) ∧
        (∃ count, store.count name (Filter.Source.text text).tree = .ok count) ∧
        ∃ count, (store.delete name (Filter.Source.text text).tree).1 = .ok count) ∧
      ∀ (store : Memory.Store) (failure : Failure), store.patterns = reader →
        ((request.program c).run handle store).1 = .error failure →
          request.FailsLate c text failure) := by
  have hrefused {segment : String} (h : Filter.unparsed? text.toList = some segment)
      (store : Memory.Store) :
      (request.program c).run handle store = (.error (unparsedError segment), store) := by
    rw [program_of_refused hfilter hrecords (filterTree_of_some h), run_fail]
  have hlate (h : Filter.unparsed? text.toList = none) (store : Memory.Store)
      (failure : Failure) (hpatterns : store.patterns = reader)
      (hfails : ((request.program c).run handle store).1 = .error failure) :
      request.FailsLate c text failure := by
    subst hpatterns
    exact (run_ends_of_any store (ends_of_text hreader hfilter hrecords h)).2 failure hfails
  refine ⟨fun store segment hpatterns => ⟨fun hfails => ?_, fun h => ?_⟩,
    fun store segment h => ?_, fun h => ⟨fun tests record => ?_, fun store name hpatterns => ?_,
      hlate h⟩⟩
  · cases hunparsed : Filter.unparsed? text.toList with
    | none => exact absurd (hlate hunparsed store _ hpatterns hfails) not_failsLate_unparsedError
    | some other =>
        rw [hrefused hunparsed] at hfails
        rw [unparsedError_inj (Except.error.inj hfails)]
  · rw [hrefused h]
    rfl
  · rw [after, hrefused h]
  · have hanswers := Evaluator.answers_test record (Filter.Source.text text).tree
      (Evaluator.faithful_afterTests reader tests)
    rw [hanswers.answer]
    exact Filter.exists_evaluate_tree hreader h record
  · subst hpatterns
    have htotal := Filter.exists_evaluate_tree hreader h
    exact ⟨fun _ hsettles => exists_find_of_total htotal name hsettles,
      exists_count_of_total htotal name, exists_delete_of_total htotal name⟩

/-- The operand of the second connective has no operator, and neither has the one behind it. -/
theorem refused_of_two_segments :
    let c : Collection := ⟨"c", "_id"⟩
    let text : String := "not a = 1 and  not b c or d"
    let request : Request := mergeWhere [("e", .int32 1)] (.text text) default
    PatternReader.literal.ReadsEscaped ∧ request.filter? = some (.text text) ∧
    (∀ record ∈ request.records, ¬ c.NothingToMerge record) ∧
    ∀ store : Memory.Store, store.patterns = .literal →
      ((request.program c).run handle store).1 =
        .error (.badRequest "Invalid or unparsable filter segment 'b c'") := by
  intro c text request
  have hreader := PatternReader.literal_matchesEscaped.readsEscaped
  have hrecords : ∀ record ∈ request.records, ¬ c.NothingToMerge record := by
    intro record hrecord hnothing
    rw [List.mem_singleton.1 hrecord] at hnothing
    rcases hnothing _ (List.mem_singleton_self _) with hid | halias
    · exact absurd hid (by decide)
    · exact absurd halias (by decide)
  have hunparsed : Filter.unparsed? text.toList = some "b c" := by decide +kernel
  exact ⟨hreader, rfl, hrecords, fun store hpatterns =>
    ((refused_iff_of_text hreader rfl hrecords).1 store "b c" hpatterns).2 hunparsed⟩

end Request

end Collection

end DocumentStore
