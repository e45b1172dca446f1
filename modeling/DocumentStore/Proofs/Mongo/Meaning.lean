import DocumentStore.Mongo.Query
import DocumentStore.Proofs.Predicate.Evaluators
import DocumentStore.Proofs.Predicate.PatternReaders
import DocumentStore.Proofs.Results

/-!
# What a query means

A query document is read on its own: its entries all have to hold, `$and`, `$or` and `$nor`
in front of a list join the queries of the list, and any other entry tests a field.  A filter
has a query unless a leaf of it is unrecognized, and the query means what the filter means to
the store in memory.
-/

namespace DocumentStore.Mongo

/-! ## Reading queries -/

def comparison? : String → Option Comparison
  | "$eq" => some .eq
  | "$ne" => some .ne
  | "$gt" => some .gt
  | "$gte" => some .gte
  | "$lt" => some .lt
  | "$lte" => some .lte
  | "$in" => some .oneOf
  | "$nin" => some .noneOf
  | "$all" => some .allOf
  | _ => none

def connective? : String → Option (List Bool → Bool)
  | "$and" => some fun hits => hits.all id
  | "$or" => some fun hits => hits.any id
  | "$nor" => some fun hits => !hits.any id
  | _ => none

def fieldTest? (reader : PatternReader) (found : Option Value) (operator : String)
    (value : Value) : Option Bool :=
  match comparison? operator, operator, value with
  | some op, _, _ => some (op.holds found value)
  | none, "$regex", .string regex => (reader regex).toOption.map (Pattern.foundMatching found)
  | none, _, _ => none

mutual

/-- Whether a record meets a query; a document that is no query has no answer. -/
def meets? (reader : PatternReader) (record : Document) : List (String × Value) → Option Bool
  | [] => some true
  | (key, value) :: entries => do
    let hit ← entryMeets? reader record key value
    let rest ← meets? reader record entries
    return hit && rest

def entryMeets? (reader : PatternReader) (record : Document) (key : String) :
    Value → Option Bool
  | .array items => do
    let join ← connective? key
    let hits ← hits? reader record items
    return join hits
  | .document [(operator, value)] =>
    fieldTest? reader (Document.valueOf? key record) operator value
  | _ => none

def hits? (reader : PatternReader) (record : Document) : List Value → Option (List Bool)
  | [] => some []
  | item :: items => do
    let hit ← itemMeets? reader record item
    let hits ← hits? reader record items
    return hit :: hits

def itemMeets? (reader : PatternReader) (record : Document) : Value → Option Bool
  | .document query => meets? reader record query
  | _ => none

end

variable {reader : PatternReader} {record : Document}

theorem meets?_singleton (key : String) (value : Value) :
    meets? reader record [(key, value)] = entryMeets? reader record key value := by
  rw [meets?]
  cases entryMeets? reader record key value <;> simp [meets?]

theorem meets?_joined {key : String} {join : List Bool → Bool} {items : List Value}
    {hits : List Bool} (hkey : connective? key = some join)
    (hitems : hits? reader record items = some hits) :
    meets? reader record [(key, .array items)] = some (join hits) := by
  rw [meets?_singleton, entryMeets?, hkey, hitems]
  rfl

theorem meets?_condition (field operator : String) (value : Value) :
    meets? reader record (condition field operator value) =
      fieldTest? reader (Document.valueOf? field record) operator value :=
  meets?_singleton _ _

theorem hits?_cons {item : Document} {items : List Value} {hit : Bool} {hits : List Bool}
    (hitem : meets? reader record item = some hit)
    (hitems : hits? reader record items = some hits) :
    hits? reader record (.document item :: items) = some (hit :: hits) := by
  rw [hits?, itemMeets?, hitem, hitems]
  rfl

/-! ## Leaves -/

theorem comparison?_operatorKey (op : Comparison) : comparison? (operatorKey op) = some op := by
  cases op <;> rfl

theorem holds_operand (op : Comparison) (found : Option Value) (value : Value) :
    op.holds found (operand op value) = op.holds found value := by
  cases op <;> rfl

theorem fieldTest?_operatorKey (op : Comparison) (found : Option Value) (value : Value) :
    fieldTest? reader found (operatorKey op) (operand op value) = some (op.holds found value) := by
  simp only [fieldTest?, comparison?_operatorKey, holds_operand]

theorem fieldTest?_regex {regex : String} {test : String → Bool} (h : reader regex = .ok test)
    (found : Option Value) :
    fieldTest? reader found "$regex" (.string regex) = some (Pattern.foundMatching found test) := by
  simp [fieldTest?, comparison?, h, Except.toOption]

/-! ## Trees with a query -/

/-- Under a reader that knows the patterns of the tree, query and tree agree on every record. -/
def Means (p : Predicate) (query : Document) : Prop :=
  ∀ (reader : PatternReader) (record : Document),
    (∀ regex ∈ p.patterns, (reader regex).isOk) →
      ∃ hit, meets? reader record query = some hit ∧ p.evaluate reader record = .ok hit

def MeanAll (children : List Predicate) (items : List Value) : Prop :=
  ∀ (reader : PatternReader) (record : Document),
    (∀ regex ∈ Predicate.patternsOf children, (reader regex).isOk) →
      ∃ hits, hits? reader record items = some hits ∧
        List.Forall₂ (fun p hit => p.evaluate reader record = .ok hit) children hits

theorem means_compare (field : String) (op : Comparison) (value : Value) :
    Means (.compare field op value) (condition field (operatorKey op) (operand op value)) := by
  intro reader record _
  rw [meets?_condition, fieldTest?_operatorKey]
  exact ⟨_, rfl, rfl⟩

theorem means_pattern (field : String) (kind : Wildcards) (regex : String) :
    Means (.pattern field kind regex) (condition field "$regex" (.string regex)) := by
  intro reader record hread
  obtain ⟨test, htest⟩ := exists_of_isOk (hread regex (List.mem_singleton_self regex))
  rw [meets?_condition, fieldTest?_regex htest]
  exact ⟨_, rfl, Pattern.accepts_of_read htest _⟩

theorem means_not {child : Predicate} {item : Document} (h : Means child item) :
    Means (.not child) [("$nor", .array [.document item])] := by
  intro reader record hread
  obtain ⟨hit, hmeets, hevaluate⟩ := h reader record hread
  have hitems : hits? reader record [.document item] = some [hit] := hits?_cons hmeets rfl
  refine ⟨!hit, ?_, ?_⟩
  · rw [meets?_joined rfl hitems]
    simp
  · rw [Predicate.evaluate, hevaluate]
    rfl

section Children

variable {children : List Predicate} {items : List Value} (h : MeanAll children items)

include h

theorem means_and : Means (.and children) [("$and", .array items)] := by
  intro reader record hread
  obtain ⟨hits, hitems, hevaluate⟩ := h reader record hread
  exact ⟨_, meets?_joined rfl hitems, Predicate.evaluateAll_of_hits hevaluate⟩

theorem means_or : Means (.or children) [("$or", .array items)] := by
  intro reader record hread
  obtain ⟨hits, hitems, hevaluate⟩ := h reader record hread
  exact ⟨_, meets?_joined rfl hitems, Predicate.evaluateAny_of_hits hevaluate⟩

theorem means_nor : Means (.nor children) [("$nor", .array items)] := by
  intro reader record hread
  obtain ⟨hits, hitems, hevaluate⟩ := h reader record hread
  refine ⟨_, meets?_joined rfl hitems, ?_⟩
  rw [Predicate.evaluate, Predicate.evaluateAny_of_hits hevaluate]
  rfl

theorem meanAll_cons {child : Predicate} {item : Document} (hchild : Means child item) :
    MeanAll (child :: children) (.document item :: items) := by
  intro reader record hread
  have hfirst : ∀ regex ∈ child.patterns, (reader regex).isOk := fun regex hregex =>
    hread regex (List.mem_append_left _ hregex)
  have hrest : ∀ regex ∈ Predicate.patternsOf children, (reader regex).isOk :=
    fun regex hregex => hread regex (List.mem_append_right _ hregex)
  obtain ⟨hit, hmeets, hevaluate⟩ := hchild reader record hfirst
  obtain ⟨hits, hitems, hevaluates⟩ := h reader record hrest
  exact ⟨hit :: hits, hits?_cons hmeets hitems, .cons hevaluate hevaluates⟩

end Children

mutual

theorem exists_query : ∀ {p : Predicate}, p.unrecognized? = none →
    ∃ q, query p = .ok q ∧ Means p q
  | .matchAll, _ => ⟨[], rfl, fun _ _ _ => ⟨true, rfl, rfl⟩⟩
  | .and children, h => by
    obtain ⟨items, hitems, hmean⟩ := exists_queries h
    exact ⟨_, by rw [query, hitems]; rfl, means_and hmean⟩
  | .or children, h => by
    obtain ⟨items, hitems, hmean⟩ := exists_queries h
    exact ⟨_, by rw [query, hitems]; rfl, means_or hmean⟩
  | .nor children, h => by
    obtain ⟨items, hitems, hmean⟩ := exists_queries h
    exact ⟨_, by rw [query, hitems]; rfl, means_nor hmean⟩
  | .not child, h => by
    obtain ⟨item, hitem, hmeans⟩ := exists_query (p := child) h
    exact ⟨_, by rw [query, hitem]; rfl, means_not hmeans⟩
  | .compare field op value, _ => ⟨_, rfl, means_compare field op value⟩
  | .pattern field kind regex, _ => ⟨_, rfl, means_pattern field kind regex⟩

theorem exists_queries : ∀ {children : List Predicate},
    Predicate.firstUnrecognized? children = none →
      ∃ items, queries children = .ok items ∧ MeanAll children items
  | [], _ => ⟨[], rfl, fun _ _ _ => ⟨[], rfl, .nil⟩⟩
  | child :: children, h => by
    obtain ⟨hchild, hchildren⟩ := Predicate.firstUnrecognized?_cons_eq_none h
    obtain ⟨item, hitem, hmeans⟩ := exists_query hchild
    obtain ⟨items, hitems, hmean⟩ := exists_queries hchildren
    exact ⟨_, by rw [queries, hitem, hitems]; rfl, meanAll_cons hmean hmeans⟩

end

/-! ## Trees without a query -/

mutual

theorem query_of_unrecognized {text : String} : ∀ {p : Predicate},
    p.unrecognized? = some text → query p = .error (Predicate.unrecognizedError text)
  | .and children, h | .or children, h | .nor children, h => by
    have hchildren := queries_of_unrecognized h
    rw [query, hchildren]
    rfl
  | .not child, h => by
    have hchild := query_of_unrecognized (p := child) h
    rw [query, hchild]
    rfl
  | .unrecognized leaf, h => by
    rw [Predicate.unrecognized?, Option.some_inj] at h
    rw [query, h]

theorem queries_of_unrecognized {text : String} : ∀ {children : List Predicate},
    Predicate.firstUnrecognized? children = some text →
      queries children = .error (Predicate.unrecognizedError text)
  | child :: children, h => by
    rw [queries]
    rcases Predicate.firstUnrecognized?_cons_eq_some h with hchild | ⟨hchild, hchildren⟩
    · rw [query_of_unrecognized hchild]
      rfl
    · -- The translation is strict, so the children in front have to have a query.
      obtain ⟨item, hitem, -⟩ := exists_query hchild
      rw [hitem, queries_of_unrecognized hchildren]
      rfl

end

theorem query_eq_error_iff (p : Predicate) (failure : Failure) :
    query p = .error failure ↔
      ∃ text, p.unrecognized? = some text ∧ failure = Predicate.unrecognizedError text := by
  cases h : p.unrecognized? with
  | some text =>
      rw [query_of_unrecognized h]
      simp [eq_comm]
  | none =>
      obtain ⟨q, hq, -⟩ := exists_query h
      simp [hq]

/-- A tree has no query exactly when a leaf is unrecognized, and the failure quotes the leftmost
such leaf.  Otherwise, whatever reads the patterns, as long as it reads those of the tree, the
query and the evaluation in memory accept the same records. -/
theorem query_refines_evaluation (p : Predicate) :
    (∀ failure, query p = .error failure ↔ ∃ text, p.unrecognized? = some text ∧
      failure = .badRequest ("unrecognized filter expression '" ++ text ++ "'")) ∧
    (p.unrecognized? = none → ∃ q, query p = .ok q ∧
      ∀ (reader : PatternReader) (record : Document),
        (∀ regex ∈ p.patterns, (reader regex).isOk) →
          ∃ hit, meets? reader record q = some hit ∧ p.evaluate reader record = .ok hit) ∧
    ∀ (reader : PatternReader) (record : Document),
      (Evaluator.test {} reader record p).1 = p.evaluate reader record := by
  refine ⟨query_eq_error_iff p, fun h => exists_query h, ?_⟩
  exact fun reader record => Evaluator.test_new record p

/-- A field may have the name of a connective, which joins nothing but a list. -/
example : meets? .literal [("$and", .int32 1)] (condition "$and" "$eq" (.int32 1)) = some true := by
  decide

end DocumentStore.Mongo
