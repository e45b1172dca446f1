import DocumentStore.Proofs.Value.Ranking
import DocumentStore.Sorting

/-!
# Sort orders as preorders

A sort order compares every two records the same way from both sides.  It is a preorder on the
records whose values under its keys do not blur one another, and an order with a single key is one
on no others.
-/

namespace DocumentStore

namespace SortKey

/-- Under the key no record has a double that ranks equal with the values of two others which
rank apart. -/
def TellsApart (key : SortKey) (records : List Document) : Prop :=
  ∀ x ∈ records, ∀ y ∈ records, ∀ z ∈ records,
    Comparand.blurs (key.comparand x) (key.comparand z) (key.comparand y) = false

instance (key : SortKey) (records : List Document) : Decidable (key.TellsApart records) :=
  inferInstanceAs (Decidable (∀ x ∈ records, _))

theorem ordering_swap (key : SortKey) (a b : Document) :
    key.ordering b a = (key.ordering a b).swap := by
  rw [ordering, ordering]
  cases key.direction <;> exact Comparand.ranking_swap _ _

theorem ordering_eq_eq_iff {key : SortKey} {a b : Document} :
    key.ordering a b = .eq ↔ (key.comparand a).ranking (key.comparand b) = .eq := by
  rw [ordering]
  cases key.direction with
  | asc => rfl
  | desc => rw [Comparand.ranking_swap (key.comparand a), Ordering.swap_eq_eq]

theorem isLE_ordering_trans {key : SortKey} {a b c : Document}
    (hclear : Comparand.blurs (key.comparand a) (key.comparand c) (key.comparand b) = false)
    (hab : (key.ordering a b).isLE = true) (hbc : (key.ordering b c).isLE = true) :
    (key.ordering a c).isLE = true := by
  rw [ordering] at hab hbc ⊢
  cases hdirection : key.direction with
  | asc =>
      rw [hdirection] at hab hbc
      exact Comparand.isLE_ranking_trans hclear hab hbc
  | desc =>
      rw [hdirection] at hab hbc
      exact Comparand.isLE_ranking_trans ((Comparand.blurs_comm ..).trans hclear) hbc hab

theorem transCmp_ordering {key : SortKey} {records : List Document}
    (h : key.TellsApart records) :
    Std.TransCmp fun a b : {record // record ∈ records} => key.ordering a b where
  eq_swap := key.ordering_swap _ _
  isLE_trans {a b c} := isLE_ordering_trans (h a a.2 b b.2 c c.2)

end SortKey

namespace SortOrder

theorem ordering_swap (order : SortOrder) (a b : Document) :
    order.ordering b a = (order.ordering a b).swap := by
  induction order with
  | nil => rfl
  | cons key keys ih => rw [ordering, ordering, Ordering.swap_then, ← key.ordering_swap, ← ih]

theorem ordering_self (order : SortOrder) (a : Document) : order.ordering a a = .eq := by
  have h := order.ordering_swap a a
  cases hself : order.ordering a a with
  | eq => rfl
  | lt | gt => rw [hself] at h; cases h

theorem transCmp_ordering {records : List Document} : ∀ {order : SortOrder},
    (∀ key ∈ order, key.TellsApart records) →
      Std.TransCmp fun a b : {record // record ∈ records} => order.ordering a b
  | [], _ => { eq_swap := rfl, isLE_trans := fun _ _ => rfl }
  | key :: keys, h => by
      rw [List.forall_mem_cons] at h
      have hkey := SortKey.transCmp_ordering h.1
      have hkeys := transCmp_ordering h.2
      exact inferInstanceAs (Std.TransCmp (compareLex
        (fun a b : {record // record ∈ records} => key.ordering a b) fun a b => ordering keys a b))

theorem isTransitiveOn_of_tellsApart {order : SortOrder} {records : List Document}
    (h : ∀ key ∈ order, key.TellsApart records) : order.IsTransitiveOn records := by
  have htrans := transCmp_ordering h
  constructor
  · intro x hx y hy z hz hxy hyz
    have hle := @htrans.isLE_trans ⟨x, hx⟩ ⟨y, hy⟩ ⟨z, hz⟩ (Ordering.ne_gt_iff_isLE.1 hxy)
      (Ordering.ne_gt_iff_isLE.1 hyz)
    exact Ordering.ne_gt_iff_isLE.2 hle
  · intro x hx y hy z hz hxy hyz
    exact @Std.TransCmp.eq_trans _ _ htrans ⟨x, hx⟩ ⟨y, hy⟩ ⟨z, hz⟩ hxy hyz

/-- A double that ranks equal with two values, and these apart, is between them in the order of a
single key. -/
theorem tellsApart_of_isTransitiveOn {key : SortKey} {records : List Document}
    (h : IsTransitiveOn [key] records) : key.TellsApart records := by
  have hsingle (a b : Document) : ordering [key] a b = key.ordering a b := by
    rw [ordering, ordering, Ordering.then_eq]
  intro x hx y hy z hz
  by_contra hblurs
  obtain ⟨hxy, hyz, hxz⟩ := Comparand.ranking_of_blurs (Bool.not_eq_false _ ▸ hblurs)
  have hfirst := (hsingle x y).trans (SortKey.ordering_eq_eq_iff.2 hxy)
  have hsecond := (hsingle y z).trans (SortKey.ordering_eq_eq_iff.2 hyz)
  have hboth := h.equal x hx y hy z hz hfirst hsecond
  rw [hsingle, SortKey.ordering_eq_eq_iff] at hboth
  exact hxz hboth

/-- Every sort order finds a record equal to itself and compares two records the same way from
both sides.  It is transitive on records that each of its keys tells apart, and where a key does
not, the order by that key alone is not transitive. -/
theorem preorder_of_tellsApart (records : List Document) :
    (∀ (order : SortOrder) (x : Document), order.ordering x x = .eq) ∧
    (∀ (order : SortOrder) (x y : Document),
      order.ordering y x = (order.ordering x y).swap) ∧
    (∀ order : SortOrder, (∀ key ∈ order, key.TellsApart records) →
      order.IsTransitiveOn records) ∧
    ∀ key : SortKey, IsTransitiveOn [key] records → key.TellsApart records :=
  ⟨ordering_self, ordering_swap, fun _ => isTransitiveOn_of_tellsApart,
    fun _ => tellsApart_of_isTransitiveOn⟩

/-- An integer beside the double that it rounds to, with values of other kinds and none. -/
theorem preorder_of_integer_and_nearest_double :
    let order : SortOrder := [⟨"n", .desc⟩, ⟨"s", .asc⟩]
    let records : List Document :=
      [[("n", .int64 9007199254740993), ("s", .string "b")],
        [("n", .double ⟨0x4340000000000000⟩), ("s", .string "a")],
        [("n", .double ⟨0x4340000000000002⟩)], [("n", .string "x"), ("s", .int32 1)], []]
    (∀ key ∈ order, key.TellsApart records) ∧ order.IsTransitiveOn records ∧
    ¬ SortKey.TellsApart ⟨"n", .asc⟩ ([("n", .int64 9007199254740992)] :: records) ∧
    ¬ IsTransitiveOn [⟨"n", .asc⟩] ([("n", .int64 9007199254740992)] :: records) := by
  intro order records
  have happart : ∀ key ∈ order, key.TellsApart records := by decide +kernel
  have hblurred :
      ¬ SortKey.TellsApart ⟨"n", .asc⟩ ([("n", .int64 9007199254740992)] :: records) := by
    decide +kernel
  exact ⟨happart, (preorder_of_tellsApart records).2.2.1 order happart, hblurred,
    fun h => hblurred ((preorder_of_tellsApart _).2.2.2 _ h)⟩

/-- Two integers above `2 ^ 53` rank equal with the double that both round to, and one before the
other.  Sorting leaves the greater one in front. -/
theorem not_isTransitiveOn_of_shared_double :
    let order : SortOrder := [⟨"n", .asc⟩]
    let greater : Document := [("n", .int64 9007199254740993)]
    let double : Document := [("n", .double ⟨0x4340000000000000⟩)]
    let less : Document := [("n", .int64 9007199254740992)]
    order.ordering greater double = .eq ∧ order.ordering double less = .eq ∧
    order.ordering greater less = .gt ∧
    order.arrange [greater, double, less] = [greater, double, less] ∧
    ¬ order.IsTransitiveOn [greater, double, less] := by
  intro order greater double less
  have hfirst : order.ordering greater double = .eq := by decide +kernel
  have hsecond : order.ordering double less = .eq := by decide +kernel
  have hthird : order.ordering greater less = .gt := by decide +kernel
  refine ⟨hfirst, hsecond, hthird, ?_, fun h => ?_⟩
  · have hsecondPlace : order.ordering double greater = .eq := by rw [ordering_swap, hfirst]; rfl
    have hlastPlace : order.ordering less double = .eq := by rw [ordering_swap, hsecond]; rfl
    simp [arrange, place, hsecondPlace, hlastPlace]
  · have hequal := h.equal greater (by simp) double (by simp) less (by simp) hfirst hsecond
    rw [hthird] at hequal
    cases hequal

end SortOrder

end DocumentStore
