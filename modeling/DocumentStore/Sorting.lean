import DocumentStore.Sort

/-!
# Sorting

Comparing by a sort order need not be transitive, as a double may rank equal with two integers
that rank apart.  A sort relies on transitivity, except for a few records, which it sorts by
insertion: without it the records come back in any order, or the sort breaks off.
-/

namespace DocumentStore

namespace SortOrder

/-- Of three records the last does not rank before the first when neither next one ranks before
the one in front of it, and all rank equal when the next ones do. -/
structure IsTransitiveOn (order : SortOrder) (records : List Document) : Prop where
  le : ∀ x ∈ records, ∀ y ∈ records, ∀ z ∈ records, order.ordering x y ≠ .gt →
    order.ordering y z ≠ .gt → order.ordering x z ≠ .gt
  equal : ∀ x ∈ records, ∀ y ∈ records, ∀ z ∈ records, order.ordering x y = .eq →
    order.ordering y z = .eq → order.ordering x z = .eq

/-- Whether the sort of the records is sure to come back, with one result. -/
def Settles (order : SortOrder) (records : List Document) : Prop :=
  records.length ≤ 20 ∨ order.IsTransitiveOn records

theorem settles_nil (records : List Document) : Settles [] records :=
  .inr ⟨fun _ _ _ _ _ _ _ _ => nofun, fun _ _ _ _ _ _ _ _ => rfl⟩

/-! ## Insertion -/

theorem place_perm (order : SortOrder) (record : Document) (placed : List Document) :
    (order.place record placed).Perm (record :: placed) := by
  induction placed with
  | nil => exact .refl _
  | cons last before ih =>
      rw [place]
      split
      · exact (ih.cons last).trans (.swap record last before)
      · exact .refl _

theorem arrange_perm (order : SortOrder) (records : List Document) :
    (order.arrange records).Perm records := by
  have hfold (placed : List Document) :
      (records.foldl (fun placed record => order.place record placed) placed).Perm
        (records ++ placed) := by
    induction records generalizing placed with
    | nil => exact .refl _
    | cons record records ih =>
        have hplaced := (order.place_perm record placed).append_left records
        exact (ih _).trans (hplaced.trans List.perm_middle)
  have hplaced := hfold []
  rw [List.append_nil] at hplaced
  exact (List.reverse_perm _).trans hplaced

theorem arrange_nil (records : List Document) : arrange [] records = records := by
  have hplace (placed : List Document) (record : Document) :
      place [] record placed = record :: placed := by
    cases placed <;> simp [place, ordering]
  have hfold (placed : List Document) :
      records.foldl (fun placed record => place [] record placed) placed =
        records.reverse ++ placed := by
    induction records generalizing placed with
    | nil => rfl
    | cons record records ih =>
        rw [List.foldl_cons, hplace, ih]
        simp
  rw [arrange, hfold, List.append_nil, List.reverse_reverse]

end SortOrder

/-- A sort of records, which has no result where it breaks off.  It keeps every record, and
where it is settled it has the one result that leaves records of equal rank in their places. -/
structure Sorting where
  run : SortOrder → List Document → Option (List Document)
  perm {order records sorted} : run order records = some sorted → sorted.Perm records
  settled {order records} : order.Settles records →
    run order records = some (order.arrange records)

namespace Sorting

def insertion : Sorting where
  run order records := some (order.arrange records)
  perm h := Option.some.inj h ▸ SortOrder.arrange_perm _ _
  settled _ := rfl

theorem run_nil (sorting : Sorting) (records : List Document) :
    sorting.run [] records = some records := by
  rw [sorting.settled (SortOrder.settles_nil records), SortOrder.arrange_nil]

end Sorting

end DocumentStore
