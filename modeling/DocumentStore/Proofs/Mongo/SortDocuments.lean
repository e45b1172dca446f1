import DocumentStore.Mongo.Query
import DocumentStore.Proofs.Document.MappedFields
import DocumentStore.Proofs.Document.Paths
import DocumentStore.Proofs.Sort.Preorder

/-!
# Sort documents

A sort document is read back as the sort order of its entries.  It names each field in the place
of the first key with that field and with the direction of the last one, so that it ranks all
records as the sort order does just when each field has one direction at both ends.
-/

namespace DocumentStore

/-! ## Fields of a list of pairs -/

namespace Fields

variable {α : Type}

theorem insertAll_cons (key : String) (value : α) (fields added : Fields α) :
    insertAll ((key, value) :: fields) added =
      (key, (get? key added.reverse).getD value) :: insertAll fields (erase key added) := by
  induction added generalizing value fields with
  | nil => rfl
  | cons field added ih =>
      rw [insertAll, List.foldl_cons, ← insertAll, insert, List.reverse_cons, get?_append]
      by_cases hkey : field.1 = key
      · have herase : erase key (field :: added) = erase key added := by simp [erase, hkey]
        rw [if_pos hkey.symm, ih, herase, ← hkey, get?_cons, if_pos rfl]
        cases get? field.1 added.reverse <;> rfl
      · have herase : erase key (field :: added) = field :: erase key added := by
          simp [erase, hkey]
        rw [if_neg (Ne.symm hkey), ih, herase, get?_cons, if_neg hkey, get?_nil, Option.or_none]
        rfl

theorem ofList_cons (key : String) (value : α) (pairs : Fields α) :
    ofList ((key, value) :: pairs) =
      (key, (get? key pairs.reverse).getD value) :: ofList (erase key pairs) :=
  insertAll_cons key value [] pairs

end Fields

/-! ## Directions of a field -/

namespace SortOrder

def entries (order : SortOrder) : Fields Direction :=
  order.map fun key => (key.field, key.direction)

def ofEntries (entries : Fields Direction) : SortOrder :=
  entries.map fun entry => ⟨entry.1, entry.2⟩

def directionOf? (field : String) (order : SortOrder) : Option Direction :=
  Fields.get? field order.entries

/-- Of a repeated field the first place and the last direction. -/
def merged (order : SortOrder) : SortOrder := ofEntries (Fields.ofList order.entries)

theorem directionOf?_cons (field : String) (key : SortKey) (keys : SortOrder) :
    directionOf? field (key :: keys) =
      if key.field = field then some key.direction else directionOf? field keys :=
  Fields.get?_cons ..

theorem directionOf?_reverse_cons (field : String) (key : SortKey) (keys : SortOrder) :
    directionOf? field (key :: keys).reverse =
      (directionOf? field keys.reverse).or
        (if key.field = field then some key.direction else none) := by
  rw [directionOf?, entries, List.reverse_cons, List.map_append, Fields.get?_append]
  rfl

def without (field : String) (order : SortOrder) : SortOrder :=
  order.filter fun key => key.field != field

theorem reverse_without (field : String) (order : SortOrder) :
    (order.without field).reverse = without field order.reverse :=
  List.filter_reverse.symm

theorem entries_without (field : String) (order : SortOrder) :
    (order.without field).entries = Fields.erase field order.entries := by
  rw [entries, without, Fields.erase, entries, List.filter_map]
  rfl

theorem directionOf?_without (field other : String) (order : SortOrder) :
    directionOf? other (order.without field) =
      if other = field then none else directionOf? other order := by
  rw [directionOf?, entries_without]
  split
  · next h => rw [h, Fields.get?_erase_self]
  · next h => exact Fields.get?_erase_of_ne h _

theorem merged_cons (key : SortKey) (keys : SortOrder) :
    merged (key :: keys) =
      ⟨key.field, (directionOf? key.field keys.reverse).getD key.direction⟩ ::
        merged (without key.field keys) := by
  rw [merged, entries, List.map_cons, Fields.ofList_cons, merged, entries_without, directionOf?,
    entries, entries, List.map_reverse]
  rfl

theorem length_without_lt (key : SortKey) (keys : SortOrder) :
    (without key.field keys).length < (key :: keys).length :=
  Nat.lt_succ_of_le (List.length_filter_le _ _)

theorem directionOf?_merged (field : String) (order : SortOrder) :
    directionOf? field order.merged = directionOf? field order.reverse := by
  match order with
  | [] => rfl
  | key :: keys =>
      have hrest := directionOf?_merged field (without key.field keys)
      rw [reverse_without, directionOf?_without] at hrest
      rw [merged_cons, directionOf?_cons, directionOf?_reverse_cons, hrest]
      by_cases h : key.field = field
      · rw [if_pos h, if_pos h, h]
        cases directionOf? field (List.reverse keys) <;> rfl
      · rw [if_neg h, if_neg (Ne.symm h), if_neg h, Option.or_none]
termination_by order.length
decreasing_by exact length_without_lt key keys

/-! ## The order of a merged order -/

theorem ordering_without {key : SortKey} {a b : Document} (h : key.ordering a b = .eq)
    (keys : SortOrder) : ordering (without key.field keys) a b = keys.ordering a b := by
  have hranking := SortKey.ordering_eq_eq_iff.1 h
  induction keys with
  | nil => rfl
  | cons other keys ih =>
      rw [ordering, ← ih]
      by_cases hfield : other.field = key.field
      · have hother : other.ordering a b = .eq := by
          rw [SortKey.ordering_eq_eq_iff, SortKey.comparand, SortKey.comparand, hfield]
          exact hranking
        have hdropped : without key.field (other :: keys) = without key.field keys := by
          simp [without, hfield]
        rw [hother, hdropped]
        rfl
      · have hkept : without key.field (other :: keys) = other :: without key.field keys := by
          simp [without, hfield]
        rw [hkept, ordering]

/-- Each field has one direction at both ends. -/
def Settled (order : SortOrder) : Prop :=
  ∀ field, order.directionOf? field = directionOf? field order.reverse

theorem settled_without {key : SortKey} {keys : SortOrder} (h : Settled (key :: keys)) :
    Settled (without key.field keys) := by
  intro field
  rw [reverse_without, directionOf?_without, directionOf?_without]
  by_cases hfield : field = key.field
  · rw [if_pos hfield, if_pos hfield]
  · have hends := h field
    rw [directionOf?_cons, directionOf?_reverse_cons, if_neg (Ne.symm hfield),
      if_neg (Ne.symm hfield), Option.or_none] at hends
    rw [if_neg hfield, if_neg hfield, hends]

theorem getD_of_settled {key : SortKey} {keys : SortOrder} (h : Settled (key :: keys)) :
    (directionOf? key.field keys.reverse).getD key.direction = key.direction := by
  have hends := h key.field
  rw [directionOf?_cons, directionOf?_reverse_cons, if_pos rfl, if_pos rfl] at hends
  cases hlast : directionOf? key.field (List.reverse keys) with
  | none => rfl
  | some direction =>
      rw [hlast] at hends
      exact (Option.some_inj.1 hends).symm

theorem ordering_merged_of_settled {order : SortOrder} (h : order.Settled) (a b : Document) :
    order.merged.ordering a b = order.ordering a b := by
  match order, h with
  | [], _ => rfl
  | key :: keys, h =>
      have hrest := ordering_merged_of_settled (settled_without h) a b
      rw [merged_cons, getD_of_settled h, ordering, ordering, hrest]
      cases hkey : key.ordering a b with
      | eq => rw [ordering_without hkey]
      | lt | gt => rfl
termination_by order.length
decreasing_by exact length_without_lt key keys

end SortOrder

/-! ## Records that one field tells apart -/

namespace Document

def holding (n : Int32) (path : Path) : Document := setAt (.int32 n) path []

theorem valueAt?_cons_cons (key second : String) (rest : Path) (fields : Document) :
    valueAt? (key :: second :: rest) fields =
      match Fields.get? key fields with
      | some (.document nested) => valueAt? (second :: rest) nested
      | _ => none :=
  rfl

theorem valueAt?_of_get?_eq_none {key : String} {fields : Document}
    (h : Fields.get? key fields = none) (path : Path) : valueAt? (key :: path) fields = none := by
  cases path with
  | nil => exact h
  | cons second rest => rw [valueAt?_cons_cons, h]

theorem get?_holding_self (n : Int32) (key second : String) (rest : Path) :
    Fields.get? key (holding n (key :: second :: rest)) =
      some (.document (holding n (second :: rest))) :=
  Fields.get?_insert_self _ _ _

theorem valueAt?_holding {path : Path} (h : path ≠ []) (n : Int32) :
    valueAt? path (holding n path) = some (.int32 n) := by
  match path with
  | [] => exact absurd rfl h
  | [key] => exact Fields.get?_insert_self _ _ _
  | key :: second :: rest =>
      rw [valueAt?_cons_cons, get?_holding_self]
      exact valueAt?_holding (List.cons_ne_nil second rest) n

theorem ranking_valueAt?_holding {path other : Path} (h : other ≠ path) (m n : Int32) :
    ((valueAt? other (holding m path)).getD .null).comparand.ranking
      ((valueAt? other (holding n path)).getD .null).comparand = .eq := by
  match path, other with
  | [], _ => exact Comparand.ranking_self _
  | _ :: _, [] => exact Comparand.ranking_self _
  | key :: rest, other :: others =>
      by_cases hkey : other = key
      · subst hkey
        match rest, others with
        | [], [] => exact absurd rfl h
        | [], next :: others =>
            have hnone (n : Int32) :
                valueAt? (other :: next :: others) (holding n [other]) = none := by
              rw [valueAt?_cons_cons, holding, setAt, Fields.get?_insert_self]
            rw [hnone, hnone]
            exact Comparand.ranking_self _
        | second :: rest, [] =>
            rw [valueAt?, valueAt?, get?_holding_self, get?_holding_self]
            rfl
        | second :: rest, next :: others =>
            rw [valueAt?_cons_cons, valueAt?_cons_cons, get?_holding_self, get?_holding_self]
            exact ranking_valueAt?_holding (fun heq => h (congrArg (other :: ·) heq)) m n
      · have hnone (n : Int32) : valueAt? (other :: others) (holding n (key :: rest)) = none :=
          valueAt?_of_get?_eq_none (get?_setAt_of_ne (by simpa using Ne.symm hkey) _ _) _
        rw [hnone, hnone]
        exact Comparand.ranking_self _

end Document

namespace SortOrder

def verdict : Option Direction → Ordering
  | none => .eq
  | some .asc => .lt
  | some .desc => .gt

theorem verdict_inj {first second : Option Direction} (h : verdict first = verdict second) :
    first = second := by
  match first, second with
  | none, none | some .asc, some .asc | some .desc, some .desc => rfl
  | none, some .asc | none, some .desc | some .asc, none | some .asc, some .desc
  | some .desc, none | some .desc, some .asc => cases h

theorem ordering_holding (field : String) (order : SortOrder) :
    order.ordering (Document.holding 1 (Path.ofText field))
        (Document.holding 2 (Path.ofText field)) = verdict (order.directionOf? field) := by
  induction order with
  | nil => rfl
  | cons key keys ih =>
      rw [ordering, directionOf?_cons]
      by_cases hfield : key.field = field
      · have hcomparand (n : Int32) :
            key.comparand (Document.holding n (Path.ofText field)) = .int n.toInt := by
          rw [SortKey.comparand, Document.valueOf?, hfield,
            Document.valueAt?_holding (Path.ofText_ne_nil field)]
          rfl
        rw [if_pos hfield, SortKey.ordering, hcomparand, hcomparand]
        cases key.direction <;> rfl
      · have hkey : key.ordering (Document.holding 1 (Path.ofText field))
            (Document.holding 2 (Path.ofText field)) = .eq := by
          rw [SortKey.ordering_eq_eq_iff]
          exact Document.ranking_valueAt?_holding (fun h => hfield (Path.ofText_injective h)) 1 2
        rw [if_neg hfield, hkey, ih]
        rfl

/-- Merging keeps the order of all records just where it leaves each field its direction. -/
theorem ordering_merged_iff {order : SortOrder} :
    (∀ a b, order.merged.ordering a b = order.ordering a b) ↔ order.Settled := by
  constructor
  · intro h field
    have hprobe := h (Document.holding 1 (Path.ofText field))
      (Document.holding 2 (Path.ofText field))
    rw [ordering_holding, ordering_holding, directionOf?_merged] at hprobe
    exact (verdict_inj hprobe).symm
  · exact ordering_merged_of_settled

theorem eq_nil_iff_ordering {order : SortOrder} :
    order = [] ↔ ∀ a b, order.ordering a b = .eq := by
  constructor
  · rintro rfl a b
    rfl
  · intro h
    cases order with
    | nil => rfl
    | cons key keys =>
        have hprobe := h (Document.holding 1 (Path.ofText key.field))
          (Document.holding 2 (Path.ofText key.field))
        rw [ordering_holding, directionOf?_cons, if_pos rfl] at hprobe
        cases hdirection : key.direction <;> rw [hdirection] at hprobe <;> cases hprobe

end SortOrder

/-! ## Reading a sort document -/

namespace Mongo

def directionOf? : Value → Option Direction
  | .int32 n => if n = 1 then some .asc else if n = -1 then some .desc else none
  | _ => none

/-- The entries of a sort document as keys, in their order; nothing when a value is no
direction. -/
def sortKeys? (document : Document) : Option SortOrder :=
  document.mapM fun field => (directionOf? field.2).map fun direction => ⟨field.1, direction⟩

theorem directionOf?_directionNumber (direction : Direction) :
    directionOf? (.int32 (directionNumber direction)) = some direction := by
  cases direction <;> rfl

theorem sortKeys?_numbers (entries : Fields Direction) :
    sortKeys? (entries.map fun entry => (entry.1, .int32 (directionNumber entry.2))) =
      some (SortOrder.ofEntries entries) := by
  induction entries with
  | nil => rfl
  | cons entry entries ih =>
      rw [sortKeys?] at ih
      rw [sortKeys?, List.map_cons, List.mapM_cons, directionOf?_directionNumber, ih]
      rfl

theorem sortKeys?_sortDocument? (sort : SortOrder) :
    sortKeys? ((sortDocument? sort).getD []) = some sort.merged := by
  cases sort with
  | nil => rfl
  | cons key keys =>
      have hnumbers := Fields.insertAll_map
        (fun direction => Value.int32 (directionNumber direction)) []
        (SortOrder.entries (key :: keys))
      rw [SortOrder.entries, List.map_map] at hnumbers
      rw [SortOrder.merged, Fields.ofList, ← sortKeys?_numbers]
      exact congrArg sortKeys? hnumbers

/-- Only a sort order that ranks all records equal has no sort document.  The keys of the sort
document rank all records as the sort order does just when the first and the last key of each
field have one direction. -/
theorem sortDocument?_agrees_iff (sort : SortOrder) :
    (sortDocument? sort = none ↔ ∀ a b, sort.ordering a b = .eq) ∧
    ∃ keys, sortKeys? ((sortDocument? sort).getD []) = some keys ∧
      ((∀ a b, keys.ordering a b = sort.ordering a b) ↔
        ∀ field, sort.directionOf? field = SortOrder.directionOf? field sort.reverse) := by
  constructor
  · rw [← SortOrder.eq_nil_iff_ordering]
    cases sort with
    | nil => exact iff_of_true rfl rfl
    | cons key keys => exact iff_of_false (by simp [sortDocument?]) (List.cons_ne_nil key keys)
  · exact ⟨sort.merged, sortKeys?_sortDocument? sort, SortOrder.ordering_merged_iff⟩

/-- A field named in both directions is sorted by the first one, and its sort document has the
last one. -/
theorem sortDocument?_of_both_directions :
    let sort := SortOrder.ofText "a, a desc"
    let first : Document := [("a", .int32 1)]
    let second : Document := [("a", .int32 2)]
    sort = [⟨"a", .asc⟩, ⟨"a", .desc⟩] ∧ sortDocument? sort = some [("a", .int32 (-1))] ∧
    sortKeys? [("a", .int32 (-1))] = some [⟨"a", .desc⟩] ∧
    sort.ordering first second = .lt ∧
    SortOrder.ordering [⟨"a", .desc⟩] first second = .gt := by
  intro sort first second
  have hsort : sort = [⟨"a", .asc⟩, ⟨"a", .desc⟩] := by decide +kernel
  have hdocument : sortDocument? sort = some [("a", .int32 (-1))] := by rw [hsort]; rfl
  exact ⟨hsort, hdocument, rfl, by rw [hsort]; decide +kernel, by decide +kernel⟩

end Mongo

end DocumentStore
