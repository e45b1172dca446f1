import DocumentStore.Collection.Operations
import DocumentStore.Proofs.Backend.Calls

/-!
# The calls of an operation

For each way in which operations reach the store, the calls that it can ask.  A statement
about all calls of an operation is put together from these.
-/

namespace DocumentStore.Collection

open Backend Program

variable {allowed : Call → Prop} (c : Collection)

/-! ## One identifier -/

theorem asks_assignId (hnew : allowed .newId) (record : Document) :
    (c.assignId record).Asks allowed := by
  unfold assignId
  dsimp only
  split
  · exact asks_pure _
  · exact asks_bind (asks_send hnew) fun _ => asks_pure _

theorem asks_orNotFound (id : Identifier) (projection : Projection) (found : Option Document) :
    (c.orNotFound id projection found).Asks allowed := by
  cases found <;> trivial

theorem asks_replaceStored {projection : Projection} {id : Identifier} {record : Document}
    (h : allowed (.replace c.name (c.keyIs id) (Fields.insert c.idField id.stored record) false)) :
    (c.replaceStored projection id record).Asks allowed := by
  refine asks_bind (asks_perform h) fun matched => ?_
  split
  · exact asks_fail _
  · exact asks_pure _

theorem asks_mergeStored {projection : Projection} {id : Identifier} {patch : Document}
    (h : allowed (.findAndMerge c.name (c.keyIs id) patch projection)) :
    (c.mergeStored projection id patch).Asks allowed :=
  asks_bind (asks_perform h) fun _ => asks_orNotFound c _ _ _

theorem asks_deleteStored {projection : Projection} {id : Identifier}
    (h : allowed (.findAndDelete c.name (c.keyIs id) projection)) :
    (c.deleteStored projection id).Asks allowed :=
  asks_bind (asks_perform h) fun _ => asks_orNotFound c _ _ _

section Reading

variable (hfind : ∀ filter selection, allowed (.find c.name filter selection))

include hfind

theorem asks_findStored (projection : Projection) (id : Identifier) :
    (c.findStored projection id).Asks allowed :=
  asks_bind (asks_perform (hfind _ _)) fun _ => asks_pure _

/-! ## Lists of identifiers -/

theorem asks_lookUpListed (operation : Operation) (projection : Projection)
    (ids : List Identifier) : (c.lookUpListed operation projection ids).Asks allowed :=
  asks_bind (asks_perform (hfind _ _)) fun _ => asks_pure _

theorem asks_outcomesOf (operation : Operation) (projection : Projection)
    (ids : List Identifier) : (c.outcomesOf operation projection ids).Asks allowed := by
  unfold outcomesOf
  split
  · exact asks_pure _
  · exact asks_lookUpListed c hfind _ _ _

theorem asks_removeListed {projection : Projection} {ids : List Identifier}
    (hdelete : allowed (.delete c.name (c.keyIn ids))) :
    (c.removeListed projection ids).Asks allowed :=
  asks_bind (asks_outcomesOf c hfind _ _ _) fun _ =>
    asks_bind (asks_perform hdelete) fun _ => asks_pure _

theorem asks_modifyListed {operation : Operation} {change : Change} {projection : Projection}
    {ids : List Identifier} (hupdate : allowed (.update c.name (c.keyIn ids) change)) :
    (c.modifyListed operation change projection ids).Asks allowed :=
  asks_bind (asks_perform hupdate) fun _ => asks_outcomesOf c hfind _ _ _

/-! ## Filters -/

theorem asks_modifyMatching {operation : Operation} {change : Change} {projection : Projection}
    {filter : Predicate}
    (hupdate : ∀ ids, allowed (.update c.name (.oneOf c.idField ids) change)) :
    (c.modifyMatching operation change projection filter).Asks allowed := by
  refine asks_bind (asks_perform (hfind _ _)) fun found => ?_
  dsimp only
  split
  · exact asks_pure _
  · refine asks_bind (asks_perform (hupdate _)) fun _ => ?_
    split
    · exact asks_pure _
    · exact asks_bind (asks_perform (hfind _ _)) fun _ => asks_pure _

theorem asks_removeMatching {projection : Projection} {filter : Predicate}
    (hdelete : ∀ ids, allowed (.delete c.name (.oneOf c.idField ids))) :
    (c.removeMatching projection filter).Asks allowed := by
  refine asks_bind (asks_perform (hfind _ _)) fun found => ?_
  dsimp only
  split
  · exact asks_bind (asks_perform (hdelete _)) fun _ => asks_pure _
  · exact asks_pure _

end Reading

/-! ## Batches -/

theorem asks_forEach {step : Identifier → Document → Program Document}
    {records : List (Identifier × Document)}
    (h : ∀ entry ∈ records, (step entry.1 entry.2).Asks allowed) :
    (forEach step records).Asks allowed :=
  asks_mapM fun entry hentry =>
    asks_bind (asks_attempt (h entry hentry)) fun _ => asks_pure _

end DocumentStore.Collection
